/-
  SqlPipeline.Operation.Create.Values — the columns and values of an insert.

  The columns are those of the schema that the database does not fill, and those it could
  fill when every row sets them. Zero times are stamped on the destination while the values
  are collected.
-/

import SqlPipeline.Operation.Keys

namespace SqlPipeline

namespace Operation

variable {ρ : Type} [Record ρ]

/-- The columns an insert of the first rows names. -/
def insertColumns (schema : Schema) (dest : ρ) (rows : Nat) : List String :=
  (schema.fields.filter fun f => !f.hasDefault || (List.range rows).all fun row => !isUnset dest f.name row).map
    (·.name)

/-- The cells of a row. A zero time becomes the clock's, in the destination as well. -/
def collectRow (schema : Schema) (now : Instant) (row : Nat) : List String → ρ → ρ × Except Error (List Value)
  | [], dest => (dest, .ok [])
  | column :: columns, dest =>
    let held := (Record.value dest row column).getD .null
    let stamps := (schema.field? column).any Field.isStamped && held.isZero
    let written := if stamps then Record.setValue dest row column (.timestamp now) else ⟨dest, none⟩
    match written.error with
    | some e => (written.state, .error e)
    | none =>
      let (dest, cells) := collectRow schema now row columns written.state
      (dest, cells.map ((if stamps then .timestamp now else held) :: ·))

def collectRows (schema : Schema) (now : Instant) (columns : List String) :
    List Nat → ρ → ρ × Except Error (List (List Value))
  | [], dest => (dest, .ok [])
  | row :: rows, dest =>
    match collectRow schema now row columns dest with
    | (dest, .error e) => (dest, .error e)
    | (dest, .ok cells) =>
      let (dest, all) := collectRows schema now columns rows dest
      (dest, all.map (cells :: ·))

/-- The columns and rows of an insert. -/
structure Values where
  columns : List String
  rows : List (List Value)

/-- A record without a schema gives all its columns but those that begin with an at sign. -/
def schemalessValues (dest : ρ) : Values :=
  let columns := (Record.columns dest).filter fun c => !c.toList.head?.any (· = '@')
  { columns, rows := [columns.map fun c => (Record.value dest 0 c).getD .null] }

/-- How many rows a shape inserts. -/
def insertedRows : Shape → Except Error Nat
  | .record => .ok 1
  | .map => .ok 1
  | .list 0 => .error .emptyBatch
  | .list n => .ok n
  | .unusable => .error .unusableDestination

/-- The destination after stamping, and what to insert. -/
def collectValues (now : Instant) (shape : Shape) (schema : Option Schema) (dest : ρ) : ρ × Except Error Values :=
  match schema with
  | none => (dest, .ok (schemalessValues dest))
  | some schema =>
    match insertedRows shape with
    | .error e => (dest, .error e)
    | .ok n =>
      let columns := insertColumns schema dest n
      let (dest, rows) := collectRows schema now columns (List.range n) dest
      (dest, rows.map fun rows => { columns, rows })

end Operation

end SqlPipeline
