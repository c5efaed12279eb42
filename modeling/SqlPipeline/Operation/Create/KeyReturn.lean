/-
  SqlPipeline.Operation.Create.KeyReturn — keys coming back to the inserted rows.

  Keys come either as returned rows, copied in order onto the destination's, or counted
  from the one id that the database reports, for the rows whose key is unset.
-/

import SqlPipeline.Operation.Keys

namespace SqlPipeline

namespace Operation

variable {ρ : Type} [Record ρ]

/-- Writes cells into one row. -/
def setCells (row : Nat) : List (String × Value) → ρ → Attempt ρ
  | [], dest => ⟨dest, none⟩
  | (column, v) :: rest, dest =>
    match Record.setValue dest row column v with
    | ⟨dest, none⟩ => setCells row rest dest
    | failed => failed

/-- The first row from `row` on, of `size`, whose key is unset. -/
def nextUnset (dest : ρ) (key : String) (size row : Nat) : Nat :=
  (((List.range size).drop row).find? (isUnset dest key)).getD size

/-- Copies returned rows onto the destination's, from `row` on. With a key to look at, rows
    that have theirs are passed over. -/
def writeReturned (columns : List String) (key : Option String) (size : Nat) :
    List (List Value) → Nat → ρ → Attempt ρ
  | [], _, dest => ⟨dest, none⟩
  | cells :: rest, row, dest =>
    let row := key.elim row fun key => nextUnset dest key size row
    if size ≤ row then ⟨dest, none⟩
    else
      match setCells row (columns.zip cells) dest with
      | ⟨dest, none⟩ => writeReturned columns key size rest (row + 1) dest
      | failed => failed

/-- Numbers the rows whose key is unset, in the order of the list. -/
def numberRows (key : String) (step : Int) : List Nat → Int → ρ → Attempt ρ
  | [], _, dest => ⟨dest, none⟩
  | row :: rows, id, dest =>
    if isUnset dest key row then
      match Record.setValue dest row key (.int id) with
      | ⟨dest, none⟩ => numberRows key step rows (id + step) dest
      | failed => failed
    else numberRows key step rows id dest

/-- Assigns generated ids. A map takes the id beside its columns; a batch counts from its
    first row up or, when its last id is reported, from its last row down. -/
def writeInsertId (reversed : Bool) (shape : Shape) (key : Option String) (id : Int) (dest : ρ) : Attempt ρ :=
  match shape, key with
  | .map, _ => Record.setValue dest 0 "@id" (.int id)
  | .record, some key => numberRows key 1 [0] id dest
  | .list n, some key =>
    if reversed then numberRows key (-1) (List.range n).reverse id dest
    else numberRows key 1 (List.range n) id dest
  | _, _ => ⟨dest, none⟩

end Operation

end SqlPipeline
