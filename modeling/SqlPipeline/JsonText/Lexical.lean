/-
  SqlPipeline.JsonText.Lexical — strings, numbers and words of JSON text.

  Reading is streaming, so the first problem decides: text that ends early is truncated,
  text that goes on wrongly is malformed, and a value that is well formed but of the wrong
  kind is a mismatch. Every reader returns what it leaves unread.

  A number is kept as far as it matters: a natural number of at most sixty-four bits, or
  some other number. A number beyond the range of binary64 is malformed. What is skipped
  over is checked for its form only, neither for range nor for pairs of surrogates.
-/

namespace SqlPipeline.JsonText

inductive Fault where
  | malformed
  | truncated
  | mismatch
  deriving DecidableEq, Repr

/-- A value and the text behind it. -/
abbrev Reading (α : Type) := Except Fault (α × List Char)

def isBlank (c : Char) : Bool := c = ' ' || c = '\n' || c = '\t' || c = '\r'

def skipBlanks (cs : List Char) : List Char := cs.dropWhile isBlank

/-- The rest of a word whose first letter was read. -/
def word : List Char → List Char → Except Fault (List Char)
  | [], cs => .ok cs
  | _ :: _, [] => .error .truncated
  | e :: es, c :: cs => if c = e then word es cs else .error .malformed

/-! ## Strings -/

def hexValue? (c : Char) : Option Nat :=
  if '0' ≤ c ∧ c ≤ '9' then some (c.toNat - 48)
  else if 'a' ≤ c ∧ c ≤ 'f' then some (c.toNat - 87)
  else if 'A' ≤ c ∧ c ≤ 'F' then some (c.toNat - 55)
  else none

/-- Four hexadecimal digits. Fewer than four bytes are a truncated text. -/
def codeUnit : List Char → Reading Nat
  | a :: b :: c :: d :: rest =>
    match hexValue? a, hexValue? b, hexValue? c, hexValue? d with
    | some a, some b, some c, some d => .ok (((a * 16 + b) * 16 + c) * 16 + d, rest)
    | _, _, _, _ => .error .malformed
  | few => .error (if few.foldl (fun n c => n + c.utf8Size) 0 < 4 then .truncated else .malformed)

/-- The second half of a surrogate pair. -/
def lowSurrogate (high : Nat) : List Char → Reading Char
  | '\\' :: 'u' :: rest =>
    match codeUnit rest with
    | .ok (low, rest) =>
      if 0xDC00 ≤ low ∧ low ≤ 0xDFFF then
        .ok (Char.ofNat (0x10000 + (high - 0xD800) * 0x400 + (low - 0xDC00)), rest)
      else .error .malformed
    | .error f => .error f
  | [] => .error .truncated
  | ['\\'] => .error .truncated
  | _ => .error .malformed

/-- A character by number, its `\u` read. -/
def numbered (cs : List Char) : Reading Char :=
  match codeUnit cs with
  | .ok (n, rest) =>
    if 0xDC00 ≤ n ∧ n ≤ 0xDFFF then .error .malformed
    else if 0xD800 ≤ n ∧ n ≤ 0xDBFF then lowSurrogate n rest
    else .ok (Char.ofNat n, rest)
  | .error f => .error f

/-- What a short escape stands for. -/
def shortEscape? (c : Char) : Option Char :=
  if c = '"' ∨ c = '\\' ∨ c = '/' then some c
  else if c = 'b' then some '\x08'
  else if c = 'f' then some '\x0c'
  else if c = 'n' then some '\n'
  else if c = 'r' then some '\r'
  else if c = 't' then some '\t'
  else none

/-- An escape behind its backslash. -/
def escaped : List Char → Reading Char
  | [] => .error .truncated
  | c :: rest =>
    if c = 'u' then numbered rest
    else match shortEscape? c with
      | some e => .ok (e, rest)
      | none => .error .malformed

/-- The next character of a string, or nothing at its end. -/
def character : List Char → Reading (Option Char)
  | [] => .error .truncated
  | c :: rest =>
    if c = '"' then .ok (none, rest)
    else if c = '\\' then (escaped rest).map fun r => (some r.1, r.2)
    else if c.toNat < 32 then .error .malformed
    else .ok (some c, rest)

/-- An escape that is skipped over. -/
def skipEscaped : List Char → Except Fault (List Char)
  | [] => .error .truncated
  | c :: rest =>
    if c = 'u' then (codeUnit rest).map (·.2)
    else if (shortEscape? c).isSome then .ok rest
    else .error .malformed

/-- The rest of a string that is skipped over, character by character. -/
def skipCharacter : List Char → Reading (Option Unit)
  | [] => .error .truncated
  | c :: rest =>
    if c = '"' then .ok (none, rest)
    else if c = '\\' then (skipEscaped rest).map fun r => (some (), r)
    else if c.toNat < 32 then .error .malformed
    else .ok (some (), rest)

/-! Every character read makes the text shorter, so a string ends. -/

theorem codeUnit_shorter {cs : List Char} {n : Nat} {rest : List Char} (h : codeUnit cs = .ok (n, rest)) :
    rest.length < cs.length := by
  unfold codeUnit at h
  split at h
  · split at h
    · cases h
      simp only [List.length_cons]
      omega
    · cases h
  · cases h

theorem lowSurrogate_shorter {high : Nat} {cs : List Char} {c : Char} {rest : List Char}
    (h : lowSurrogate high cs = .ok (c, rest)) : rest.length < cs.length := by
  unfold lowSurrogate at h
  split at h
  · split at h
    · next hu =>
      have := codeUnit_shorter hu
      split at h
      · simp only [Except.ok.injEq, Prod.mk.injEq] at h
        rw [← h.2]
        simp only [List.length_cons]
        omega
      · cases h
    · cases h
  · cases h
  · cases h
  · cases h

theorem numbered_shorter {cs : List Char} {c : Char} {rest : List Char} (h : numbered cs = .ok (c, rest)) :
    rest.length < cs.length := by
  unfold numbered at h
  split at h
  · next hu =>
    have := codeUnit_shorter hu
    split at h
    · cases h
    · split at h
      · have := lowSurrogate_shorter h
        omega
      · cases h
        omega
  · cases h

theorem escaped_shorter {cs : List Char} {c : Char} {rest : List Char} (h : escaped cs = .ok (c, rest)) :
    rest.length < cs.length := by
  unfold escaped at h
  split at h
  · cases h
  · simp only [List.length_cons]
    split at h
    · have := numbered_shorter h
      omega
    · split at h
      · cases h
        omega
      · cases h

theorem character_shorter {cs : List Char} {c : Option Char} {rest : List Char} (h : character cs = .ok (c, rest)) :
    rest.length < cs.length := by
  unfold character at h
  split at h
  · cases h
  · simp only [List.length_cons]
    split at h
    · cases h
      omega
    · split at h
      · next tail _ _ =>
        cases he : escaped tail with
        | error f => rw [he] at h; cases h
        | ok r =>
          rw [he] at h
          cases h
          have := escaped_shorter he
          omega
      · split at h
        · cases h
        · cases h
          omega

theorem skipCharacter_shorter {cs : List Char} {u : Option Unit} {rest : List Char}
    (h : skipCharacter cs = .ok (u, rest)) : rest.length < cs.length := by
  unfold skipCharacter at h
  split at h
  · cases h
  · simp only [List.length_cons]
    split at h
    · cases h
      omega
    · split at h
      · next tail _ _ =>
        unfold skipEscaped at h
        split at h
        · cases h
        · split at h
          · next tail' _ =>
            cases hu : codeUnit tail' with
            | error f => rw [hu] at h; cases h
            | ok r =>
              rw [hu] at h
              cases h
              have := codeUnit_shorter hu
              simp only [List.length_cons]
              omega
          · split at h
            · cases h
              simp only [List.length_cons]
              omega
            · cases h
      · split at h
        · cases h
        · cases h
          omega

/-- The characters of a string, its opening quote read. -/
def characters (cs : List Char) : Reading (List Char) :=
  match _h : character cs with
  | .error f => .error f
  | .ok (none, rest) => .ok ([], rest)
  | .ok (some c, rest) => (characters rest).map fun r => (c :: r.1, r.2)
termination_by cs.length
decreasing_by exact character_shorter ‹_›

def string (cs : List Char) : Reading String := (characters cs).map fun r => (String.ofList r.1, r.2)

/-- Skips over a string, its opening quote read. -/
def skipString (cs : List Char) : Except Fault (List Char) :=
  match _h : skipCharacter cs with
  | .error f => .error f
  | .ok (none, rest) => .ok rest
  | .ok (some _, rest) => skipString rest
termination_by cs.length
decreasing_by exact skipCharacter_shorter ‹_›

/-! ## Numbers -/

inductive Number where
  | natural (n : Nat)
  | other
  deriving DecidableEq, Repr

/-- Takes digits into a significand of sixty-four bits; the digits from the first that does
    not fit are counted. -/
def absorb (significand : Nat) : List Char → Nat × Nat
  | [] => (significand, 0)
  | d :: ds =>
    let next := significand * 10 + (d.toNat - 48)
    if next < UInt64.size then absorb next ds else (significand, ds.length + 1)

/-- Whether `significand · 10^exponent` is beyond binary64. -/
def overflows (significand : Nat) (exponent : Int) : Bool :=
  0 ≤ exponent && significand != 0 &&
    (308 < exponent || (Float.ofNat significand * Float.ofScientific 1 false exponent.toNat).isInf)

def inRange (significand : Nat) (exponent : Int) (rest : List Char) : Reading Number :=
  if overflows significand exponent then .error .malformed else .ok (.other, rest)

/-- An exponent behind its letter. -/
def exponentPart (significand : Nat) (exponent : Int) (cs : List Char) : Reading Number :=
  let negative := cs.head? = some '-'
  let cs := if negative || cs.head? = some '+' then cs.tail else cs
  let digits := cs.takeWhile Char.isDigit
  let rest := cs.dropWhile Char.isDigit
  if digits.isEmpty then .error (if rest.isEmpty then .truncated else .malformed)
  else
    let e : Nat := digits.foldl (fun n d => n * 10 + (d.toNat - 48)) 0
    if 0x80000000 ≤ e then
      if significand != 0 && !negative then .error .malformed else .ok (.other, rest)
    else inRange significand (if negative then exponent - (e : Int) else exponent + (e : Int)) rest

/-- What follows the significand: an exponent or the end. -/
def afterDigits (significand : Nat) (exponent : Int) : List Char → Reading Number
  | [] => inRange significand exponent []
  | c :: rest =>
    if c = 'e' ∨ c = 'E' then exponentPart significand exponent rest else inRange significand exponent (c :: rest)

/-- The places behind the point. -/
def fractionPart (significand dropped : Nat) (cs : List Char) : Reading Number :=
  let digits := cs.takeWhile Char.isDigit
  let rest := cs.dropWhile Char.isDigit
  if digits.isEmpty then .error (if rest.isEmpty then .truncated else .malformed)
  else
    let (significand, lost) := absorb significand digits
    afterDigits significand ((dropped : Int) - (digits.length - lost : Nat)) rest

/-- A number from its first digit on. -/
def unsigned (negative : Bool) (cs : List Char) : Reading Number :=
  let digits := cs.takeWhile Char.isDigit
  let rest := cs.dropWhile Char.isDigit
  match digits with
  | [] => .error (if rest.isEmpty then .truncated else .malformed)
  | d :: more =>
    if d = '0' ∧ more ≠ [] then .error .malformed
    else
      let (significand, dropped) := absorb 0 digits
      match rest with
      | '.' :: rest => fractionPart significand dropped rest
      | 'e' :: rest => exponentPart significand dropped rest
      | 'E' :: rest => exponentPart significand dropped rest
      | rest =>
        if dropped ≠ 0 then inRange significand dropped rest
        else .ok (if negative then .other else .natural significand, rest)

def number : List Char → Reading Number
  | '-' :: cs => unsigned true cs
  | cs => unsigned false cs

/-- Skips over digits, of which there must be one. -/
def skipDigits (cs : List Char) : Except Fault (List Char) :=
  if (cs.takeWhile Char.isDigit).isEmpty then .error .malformed else .ok (cs.dropWhile Char.isDigit)

def skipExponent : List Char → Except Fault (List Char)
  | [] => .ok []
  | c :: cs =>
    if c = 'e' ∨ c = 'E' then
      skipDigits (if cs.head? = some '+' ∨ cs.head? = some '-' then cs.tail else cs)
    else .ok (c :: cs)

/-- Skips over a number. One that ends early is malformed here. -/
def skipNumber (cs : List Char) : Except Fault (List Char) :=
  let cs := if cs.head? = some '-' then cs.tail else cs
  match cs.takeWhile Char.isDigit with
  | '0' :: _ :: _ => .error .malformed
  | _ =>
    match skipDigits cs with
    | .ok ('.' :: rest) => (skipDigits rest).bind skipExponent
    | .ok rest => skipExponent rest
    | .error f => .error f

end SqlPipeline.JsonText
