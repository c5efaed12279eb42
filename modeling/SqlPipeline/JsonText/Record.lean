/-
  SqlPipeline.JsonText.Record — typed values and records from JSON text.

  A record is an object whose members may come in any order or be missing; a missing one
  has its default, a repeated one is a mismatch, and an unknown one is skipped. It may also
  be an array of the members' values in their fixed order, cut short anywhere.
-/

import SqlPipeline.JsonText.Skip

namespace SqlPipeline.JsonText

/-- A value of the wrong kind is a mismatch once it is read; an array or object is one at
    its first character. -/
def wrongKind : List Char → Fault
  | [] => .truncated
  | c :: rest =>
    let outcome : Except Fault (List Char) :=
      if c = 'n' then word ['u', 'l', 'l'] rest
      else if c = 't' then word ['r', 'u', 'e'] rest
      else if c = 'f' then word ['a', 'l', 's', 'e'] rest
      else if c = '"' then (string rest).map (·.2)
      else if c = '-' ∨ c.isDigit then (number (c :: rest)).map (·.2)
      else if c = '[' ∨ c = '\x7b' then .ok rest
      else .error .malformed
    match outcome with
    | .ok _ => .mismatch
    | .error f => f

/-! ## Single values -/

def readBool (cs : List Char) : Reading Bool :=
  match skipBlanks cs with
  | 't' :: rest => (word ['r', 'u', 'e'] rest).map (true, ·)
  | 'f' :: rest => (word ['a', 'l', 's', 'e'] rest).map (false, ·)
  | cs => .error (wrongKind cs)

def readString (cs : List Char) : Reading String :=
  match skipBlanks cs with
  | '"' :: rest => string rest
  | cs => .error (wrongKind cs)

/-- A natural number of at most sixty-four bits. -/
def readNatural (cs : List Char) : Reading Nat :=
  match skipBlanks cs with
  | [] => .error .truncated
  | c :: rest =>
    if c = '-' ∨ c.isDigit then
      match number (c :: rest) with
      | .ok (.natural n, rest) => .ok (n, rest)
      | .ok (.other, _) => .error .mismatch
      | .error f => .error f
    else .error (wrongKind (c :: rest))

/-- Whether another element follows, and the text from it on; the closing bracket is
    consumed. -/
def nextElement (first : Bool) (cs : List Char) : Reading Bool :=
  match skipBlanks cs with
  | [] => .error .truncated
  | ']' :: rest => .ok (false, rest)
  | c :: rest =>
    if first then .ok (true, c :: rest)
    else if c = ',' then
      match skipBlanks rest with
      | [] => .error .truncated
      | ']' :: _ => .error .malformed
      | rest => .ok (true, rest)
    else .error .malformed

/-- Strings up to the closing bracket. The first argument bounds their number. -/
def readStrings : Nat → Bool → List Char → Reading (List String)
  | 0, _, _ => .error .malformed
  | n + 1, first, cs =>
    match nextElement first cs with
    | .error f => .error f
    | .ok (false, rest) => .ok ([], rest)
    | .ok (true, rest) =>
      match readString rest with
      | .error f => .error f
      | .ok (s, rest) => (readStrings n false rest).map fun r => (s :: r.1, r.2)

def readStringArray (cs : List Char) : Reading (List String) :=
  match skipBlanks cs with
  | '[' :: rest => readStrings (rest.length + 1) true rest
  | cs => .error (wrongKind cs)

/-- The opening quote of a member's name, which nothing but a string can be. -/
def nameQuote (cs : List Char) : Except Fault (List Char) :=
  match skipBlanks cs with
  | [] => .error .truncated
  | '"' :: rest => .ok rest
  | _ => .error .malformed

/-- A colon. -/
def colon (cs : List Char) : Except Fault (List Char) :=
  match skipBlanks cs with
  | [] => .error .truncated
  | ':' :: rest => .ok rest
  | _ => .error .malformed

/-- The end of an object with one member. -/
def closingBrace (cs : List Char) : Except Fault (List Char) :=
  match skipBlanks cs with
  | [] => .error .truncated
  | '\x7d' :: rest => .ok rest
  | _ => .error .malformed

/-- The word null. -/
def readNull (cs : List Char) : Except Fault (List Char) :=
  match skipBlanks cs with
  | 'n' :: rest => word ['u', 'l', 'l'] rest
  | cs => .error (wrongKind cs)

/-! ## Records -/

/-- A member of a record by its name, and how its value is read into the record. -/
structure Member (σ : Type) where
  name : String
  read : σ → List Char → Reading σ

def Member.of {σ α : Type} (name : String) (value : List Char → Reading α) (set : σ → α → σ) : Member σ :=
  ⟨name, fun s cs => (value cs).map fun r => (set s r.1, r.2)⟩

variable {σ : Type}

/-- The members in order, as far as there are any. -/
def readItems : List (Member σ) → Bool → σ → List Char → Reading σ
  | [], _, s, cs =>
    match skipBlanks cs with
    | [] => .error .truncated
    | ']' :: rest => .ok (s, rest)
    | _ => .error .malformed
  | member :: members, first, s, cs =>
    match nextElement first cs with
    | .error f => .error f
    | .ok (false, rest) => .ok (s, rest)
    | .ok (true, rest) =>
      match member.read s rest with
      | .error f => .error f
      | .ok (s, rest) => readItems members false s rest

/-- Whether another member follows, and the text behind its opening quote; the closing
    brace is consumed. -/
def nextMember (first : Bool) (cs : List Char) : Reading Bool :=
  match skipBlanks cs with
  | [] => .error .truncated
  | '\x7d' :: rest => .ok (false, rest)
  | c :: rest =>
    if first then (nameQuote (c :: rest)).map (true, ·)
    else if c = ',' then (nameQuote rest).map (true, ·)
    else .error .malformed

/-- Members by name; `met` are the known ones read so far. The first argument bounds their number. -/
def readMembers (all : List (Member σ)) : Nat → List String → Bool → σ → List Char → Reading σ
  | 0, _, _, _, _ => .error .malformed
  | n + 1, met, first, s, cs =>
    match nextMember first cs with
    | .error f => .error f
    | .ok (false, rest) => .ok (s, rest)
    | .ok (true, rest) =>
      match string rest with
      | .error f => .error f
      | .ok (name, rest) =>
        match all.find? (·.name == name) with
        | none =>
          match (colon rest).bind skip with
          | .error f => .error f
          | .ok rest => readMembers all n met false s rest
        | some member =>
          if name ∈ met then .error .mismatch
          else
            match (colon rest).bind (member.read s) with
            | .error f => .error f
            | .ok (s, rest) => readMembers all n (name :: met) false s rest

/-- A record, from its default. -/
def readRecord (members : List (Member σ)) (blank : σ) (cs : List Char) : Reading σ :=
  match skipBlanks cs with
  | '[' :: rest => readItems members true blank rest
  | '\x7b' :: rest => readMembers members (rest.length + 1) [] true blank rest
  | cs => .error (wrongKind cs)

end SqlPipeline.JsonText
