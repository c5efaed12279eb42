/-
  SqlPipeline.Proofs.Explained.ReadBack — inline values can be told apart, and end the literals they begin.

  A text is written between quotes with each of its own doubled, so the quotes inside come in pairs
  and reading a pair as one quote gives the text back; a blob has none between its two. The first
  character tells the kinds apart. Floating-point numbers and times are not read back: there are
  many times for one text, and a whole number is written as an integer is.

  No value leaves a literal open, or closes one that was open before it. A statement that is
  explained therefore has its literals where the statement itself has them.

  - `ofLiteral?_literal`: a reader of inline texts.
  - `even_quotes`: quotes come in even numbers, in values of every kind.
  - `inline_readable`: both, and what follows for the statements that are explained.
-/

import SqlPipeline.JsonText.Lexical
import SqlPipeline.Proofs.Explained.Literals

namespace SqlPipeline

namespace Value

/-! ## Reading inline texts -/

/-- What stands before a quote that ends the text. -/
def beforeQuote? (cs : List Char) : Option (List Char) :=
  if cs.getLast? = some '\'' then some cs.dropLast else none

/-- Every pair of adjacent quotes is read as one. There must be no quote that is in none. -/
def undoubled? : List Char → Option (List Char)
  | [] => some []
  | '\'' :: '\'' :: cs => (undoubled? cs).map ('\'' :: ·)
  | c :: cs => if c = '\'' then none else (undoubled? cs).map (c :: ·)

/-- The bytes that are written as pairs of hexadecimal digits. -/
def bytes? : List Char → Option (List UInt8)
  | [] => some []
  | [_] => none
  | a :: b :: cs =>
    match JsonText.hexValue? a, JsonText.hexValue? b with
    | some high, some low => (bytes? cs).map (UInt8.ofNat (high * 16 + low) :: ·)
    | _, _ => none

def number? (cs : List Char) : Option Nat :=
  if cs ≠ [] ∧ cs.all Char.isDigit then some (Nat.ofDigitChars 10 cs 0) else none

/-- The value that is written so, if it is neither a floating-point number nor a time. -/
def ofLiteral? : List Char → Option Value
  | ['N', 'U', 'L', 'L'] => some .null
  | ['T', 'R', 'U', 'E'] => some (.bool true)
  | ['F', 'A', 'L', 'S', 'E'] => some (.bool false)
  | '\'' :: cs => ((beforeQuote? cs).bind undoubled?).map fun s => .text (String.ofList s)
  | 'X' :: '\'' :: cs => ((beforeQuote? cs).bind bytes?).map .blob
  | '-' :: cs => (number? cs).map fun n : Nat => .int (-n)
  | cs => (number? cs).map fun n : Nat => .int n

/-- NULL, a truth value, an integer, a text or a blob. -/
def Legible : Value → Prop
  | .float _ | .timestamp _ => False
  | _ => True

theorem beforeQuote?_concat (cs : List Char) : beforeQuote? (cs ++ ['\'']) = some cs := by
  simp [beforeQuote?]

theorem undoubled?_cons {c : Char} (h : c ≠ '\'') (cs : List Char) :
    undoubled? (c :: cs) = (undoubled? cs).map (c :: ·) := by
  rw [undoubled?, if_neg h]
  rintro cs' rfl
  exact absurd rfl h

theorem undoubled?_doubled (cs : List Char) : undoubled? (doubled cs) = some cs := by
  induction cs with
  | nil => rfl
  | cons c cs ih =>
    rw [doubled]
    split
    · next hc => rw [undoubled?, ih, hc, Option.map_some]
    · next hc => rw [undoubled?_cons hc, ih, Option.map_some]

theorem hexValue?_upperHexDigit : ∀ n < 16, JsonText.hexValue? (upperHexDigit n) = some n := by decide

theorem bytes?_byteText (bytes : List UInt8) : bytes? (bytes.flatMap byteText) = some bytes := by
  induction bytes with
  | nil => rfl
  | cons b bytes ih =>
    have hb : b.toNat < 256 := b.toNat_lt
    have hhigh := hexValue?_upperHexDigit (b.toNat / 16) (by omega)
    have hlow := hexValue?_upperHexDigit (b.toNat % 16) (by omega)
    have hbyte : UInt8.ofNat (b.toNat / 16 * 16 + b.toNat % 16) = b := by
      rw [Nat.div_add_mod', UInt8.ofNat_toNat]
    rw [List.flatMap_cons, byteText, List.cons_append, List.cons_append, List.nil_append, bytes?, hhigh, hlow, ih]
    simp [hbyte]

theorem number?_toDigits (n : Nat) : number? (Nat.toDigits 10 n) = some n := by
  have hdigits : (Nat.toDigits 10 n).all Char.isDigit = true :=
    List.all_eq_true.mpr fun c hc => Nat.isDigit_of_mem_toDigits (by decide) (by decide) hc
  rw [number?, if_pos ⟨Nat.toDigits_ne_nil, hdigits⟩, Nat.ofDigitChars_ten_toDigits]

/-- What begins with a digit can only be an integer. -/
theorem ofLiteral?_digit {c : Char} (h : c.isDigit = true) (cs : List Char) :
    ofLiteral? (c :: cs) = (number? (c :: cs)).map fun n : Nat => .int n := by
  unfold ofLiteral?
  split
  case h_7 => rfl
  all_goals
    next heq =>
      obtain ⟨rfl, -⟩ := List.cons.inj heq
      exact absurd h (by decide)

theorem ofLiteral?_literal {v : Value} (h : v.Legible) : ofLiteral? v.literal = some v := by
  cases v with
  | null => rfl
  | bool b => cases b <;> rfl
  | int n =>
    cases n with
    | ofNat n =>
      show ofLiteral? (Nat.toDigits 10 n) = _
      have hnumber := number?_toDigits n
      cases hdigits : Nat.toDigits 10 n with
      | nil => exact absurd hdigits Nat.toDigits_ne_nil
      | cons c cs =>
        have hc : c.isDigit = true :=
          Nat.isDigit_of_mem_toDigits (by decide) (by decide) (hdigits ▸ List.mem_cons_self)
        rw [hdigits] at hnumber
        rw [ofLiteral?_digit hc, hnumber]
        rfl
    | negSucc n =>
      show (number? (Nat.toDigits 10 (n + 1))).map _ = _
      rw [number?_toDigits]
      rfl
  | text s =>
    show ((beforeQuote? (doubled s.toList ++ ['\''])).bind undoubled?).map _ = _
    rw [beforeQuote?_concat, Option.bind_some, undoubled?_doubled, Option.map_some, String.ofList_toList]
  | blob bytes =>
    show ((beforeQuote? (bytes.flatMap byteText ++ ['\''])).bind bytes?).map _ = _
    rw [beforeQuote?_concat, Option.bind_some, bytes?_byteText, Option.map_some]
  | float | timestamp => exact h.elim

/-! ## Quotes -/

theorem count_doubled (cs : List Char) : (doubled cs).count '\'' = 2 * cs.count '\'' := by
  induction cs with
  | nil => rfl
  | cons c cs ih =>
    rw [doubled]
    split
    · next hc =>
      rw [hc, List.count_cons_self, List.count_cons_self, List.count_cons_self, ih]
      omega
    · next hc => rw [List.count_cons_of_ne hc, List.count_cons_of_ne hc, ih]

theorem unquoted_toDigits (n : Nat) : '\'' ∉ Nat.toDigits 10 n :=
  fun h => absurd (Nat.isDigit_of_mem_toDigits (by decide) (by decide) h) (by decide)

theorem unquoted_hexadecimal (b : UInt8) : '\'' ∉ byteText b := by
  have hdigit : ∀ n < 16, '\'' ≠ upperHexDigit n := by decide
  have hb : b.toNat < 256 := b.toNat_lt
  simp only [byteText, List.mem_cons, List.not_mem_nil, or_false, not_or]
  exact ⟨hdigit _ (by omega), hdigit _ (by omega)⟩

end Value

theorem Decimal.Scaled.unquoted (s : Scaled) : '\'' ∉ s.text := by
  have hdigits := Value.unquoted_toDigits s.digits
  unfold text
  cases s.power with
  | ofNat n => simp [hdigits]
  | negSucc n =>
    dsimp only
    split
    · intro h
      rcases List.mem_append.mp h with h | h
      · exact hdigits (List.mem_of_mem_take h)
      · rcases List.mem_cons.mp h with h | h
        · exact absurd h (by decide)
        · exact hdigits (List.mem_of_mem_drop h)
    · simp [hdigits]

theorem Double.unquoted (x : Double) : '\'' ∉ x.text := by
  have hdecimal := (Decimal.shortest x).unquoted
  unfold text
  dsimp only
  repeat' split
  all_goals simp [hdecimal]

theorem Calendar.unquoted_padded (width n : Nat) : '\'' ∉ padded width n := by
  simp [padded, Value.unquoted_toDigits]

theorem Calendar.unquoted_yearText (y : Int) : '\'' ∉ yearText y := by
  unfold yearText
  split
  · exact unquoted_padded _ _
  · split <;> simp [unquoted_padded]

theorem Instant.unquoted (t : Instant) : '\'' ∉ t.text := by
  simp [text, Calendar.unquoted_padded, Calendar.unquoted_yearText]

namespace Value

/-- What stands between two quotes has none of its own, or each twice. -/
theorem even_quotes (v : Value) : Even (v.literal.count '\'') := by
  have hbetween {cs : List Char} (h : Even (cs.count '\'')) : Even (('\'' :: cs ++ ['\'']).count '\'') := by
    have hcount : ('\'' :: cs ++ ['\'']).count '\'' = cs.count '\'' + 2 := by simp
    rw [hcount]
    exact h.add even_two
  have hnone {cs : List Char} (h : '\'' ∉ cs) : Even (cs.count '\'') := by
    rw [List.count_eq_zero.mpr h]
    exact Even.zero
  cases v with
  | null => decide
  | bool b => cases b <;> decide
  | int n =>
    refine hnone ?_
    cases n with
    | ofNat n => exact unquoted_toDigits n
    | negSucc n => simp [literal, intText, unquoted_toDigits]
  | float x => exact hnone x.unquoted
  | text s =>
    refine hbetween ?_
    rw [count_doubled]
    exact even_two_mul _
  | blob bytes =>
    have hbytes : '\'' ∉ bytes.flatMap byteText := by
      simp only [List.mem_flatMap, not_exists, not_and]
      exact fun b _ => unquoted_hexadecimal b
    show Even (('X' :: ('\'' :: bytes.flatMap byteText ++ ['\''])).count '\'')
    rw [List.count_cons_of_ne (by decide)]
    exact hbetween (hnone hbytes)
  | timestamp t => exact hbetween (hnone t.unquoted)

end Value

/-! ## Literals of a statement -/

/-- The text ends within a literal: a quote opens one, and the next closes it. -/
def EndsInside (cs : List Char) : Prop := Odd (cs.count '\'')

theorem endsInside_literal (cs : List Char) (v : Value) : EndsInside (cs ++ v.literal) ↔ EndsInside cs := by
  rw [EndsInside, EndsInside, List.count_append, Nat.odd_add]
  exact iff_true_right v.even_quotes

namespace Stretch

/-- What explaining makes of a stretch. -/
def explained (style : Placeholder) (params : List Value) (s : Stretch) : List Char :=
  match style with
  | .question => s.documented params
  | .numbered => s.valued params

theorem even_quotes_mark {w : List Char} (hw : w.count '\'' = 0) (style : Placeholder) (params : List Value)
    (q : Bool) (place : Nat) : Even (((mark q w place).explained style params).count '\'') := by
  have hkept : Even (w.count '\'') := hw ▸ Even.zero
  have hvalue : Even (((params[place]?.map Value.literal).getD w).count '\'') := by
    cases params[place]? with
    | none => exact hkept
    | some v => exact v.even_quotes
  cases style with
  | numbered => exact hvalue
  | question =>
    cases q with
    | true => exact hkept
    | false => exact hvalue

theorem even_quotes_explained {style : Placeholder} {params : List Value} {stretches : List Stretch}
    (hmarks : ∀ q w place, .mark q w place ∈ stretches → w.count '\'' = 0) :
    Even ((stretches.flatMap (explained style params)).count '\'') ↔
      Even ((stretches.flatMap written).count '\'') := by
  induction stretches with
  | nil => exact Iff.rfl
  | cons s ss ih =>
    have hs : Even ((s.explained style params).count '\'') ↔ Even (s.written.count '\'') := by
      cases s with
      | plain c => cases style <;> exact Iff.rfl
      | mark q w place =>
        have hw := hmarks q w place List.mem_cons_self
        exact iff_of_true (even_quotes_mark hw style params q place) (hw ▸ Even.zero)
    rw [List.flatMap_cons, List.flatMap_cons, List.count_append, List.count_append, Nat.even_add, Nat.even_add, hs,
      ih fun q w place hmem => hmarks q w place (List.mem_cons_of_mem s hmem)]

end Stretch

theorem Placeholder.Spells.unquoted {style : Placeholder} {quoted : Bool} {earlier : Nat} {sql : List Char}
    {stretches : List Stretch} (h : style.Spells quoted earlier sql stretches) :
    ∀ q w place, .mark q w place ∈ stretches → w.count '\'' = 0 := by
  intro q w place hmem
  obtain ⟨before, after, hsplit⟩ := List.append_of_mem hmem
  obtain ⟨c, more, rfl, hmark⟩ := h.marks before q w place after hsplit
  exact mark?_quotes hmark

theorem explain_stretches (d : Dialect) (sql : String) (params : List Value) :
    (d.explain sql params).toList =
      (d.placeholder.read false 0 sql.toList).flatMap (Stretch.explained d.placeholder params) := by
  unfold Dialect.explain Placeholder.explain
  rw [String.toList_ofList]
  cases d.placeholder with
  | question => exact Explain.questions_read false 0 params sql.toList
  | numbered => exact Explain.numbered_read false 0 params sql.toList

/-- Values of the kinds that can be read back are told apart by their inline text. A text is one
    literal: it stands between quotes, and each quote inside has its pair. Whatever the value, what
    follows it is in a literal exactly when it was in one before, so the text that explains a
    statement is in a literal at every place where the statement is. -/
theorem inline_readable :
    Set.InjOn Value.inline {v | v.Legible} ∧
      (∀ s : String, ∃ body, (Value.text s).inline.toList = '\'' :: body ++ ['\''] ∧
        Value.undoubled? body = some s.toList) ∧
      (∀ v : Value, Even (v.inline.toList.count '\'') ∧
        ∀ cs : List Char, EndsInside (cs ++ v.inline.toList) ↔ EndsInside cs) ∧
      ∀ (d : Dialect) (sql : String) (params : List Value),
        let stretches := d.placeholder.read false 0 sql.toList
        d.placeholder.Spells false 0 sql.toList stretches ∧
          (d.explain sql params).toList = stretches.flatMap (Stretch.explained d.placeholder params) ∧
          ∀ before after, stretches = before ++ after →
            (EndsInside (before.flatMap (Stretch.explained d.placeholder params)) ↔
              EndsInside (before.flatMap Stretch.written)) := by
  have hinline : ∀ v : Value, v.inline.toList = v.literal := fun v => String.toList_ofList
  refine ⟨?injective, ?text, ?quotes, ?explained⟩
  case injective =>
    intro v hv w hw hsame
    have hread : Value.ofLiteral? v.literal = Value.ofLiteral? w.literal := by
      rw [← hinline v, ← hinline w, hsame]
    rw [Value.ofLiteral?_literal hv, Value.ofLiteral?_literal hw] at hread
    exact Option.some.inj hread
  case text =>
    intro s
    exact ⟨Value.doubled s.toList, hinline (.text s), Value.undoubled?_doubled s.toList⟩
  case quotes =>
    intro v
    rw [hinline]
    exact ⟨v.even_quotes, fun cs => endsInside_literal cs v⟩
  case explained =>
    intro d sql params stretches
    have hspells : d.placeholder.Spells false 0 sql.toList stretches := Placeholder.spells_read false 0 sql.toList
    refine ⟨hspells, explain_stretches d sql params, fun before after hsplit => ?_⟩
    rw [EndsInside, EndsInside, ← Nat.not_even_iff_odd, ← Nat.not_even_iff_odd, not_iff_not]
    exact Stretch.even_quotes_explained fun q w place hmem =>
      hspells.unquoted q w place (hsplit ▸ List.mem_append_left after hmem)

/-- A quote without its pair is no part of a literal, and a whole number is written as an integer. -/
example :
    (Value.text "O'Brien").inline = "'O''Brien'" ∧ Value.undoubled? "O''Brien".toList = some "O'Brien".toList ∧
      Value.undoubled? "O'Brien".toList = none ∧ (Value.float ⟨0x4000000000000000⟩).inline = (Value.int 2).inline := by
  decide +kernel

end SqlPipeline
