/-
  SqlPipeline.Record.Description — models described by data.

  A described model keeps its values as rows. A column has a kind that what is written to
  it must have; a nullable one takes NULL as well, and a hidden one is written but never
  read. Its hooks are short scripts, which end at the first failure.
-/

import SqlPipeline.Record.Model
import SqlPipeline.Table.Row

namespace SqlPipeline

inductive Kind where
  | any | int | text | bool | float | blob | time
  deriving DecidableEq, Repr

namespace Kind

/-- What an absent value of the kind holds. -/
def zero : Kind → Value
  | .int => .int 0
  | .text => .text ""
  | .bool => .bool false
  | .float => .float ⟨0⟩
  | .blob => .blob []
  | .any => .null
  | .time => .null

def ofValue : Value → Option Kind
  | .null => none
  | .bool _ => some .bool
  | .int _ => some .int
  | .float _ => some .float
  | .text _ => some .text
  | .blob _ => some .blob
  | .timestamp _ => some .time

def name : Kind → String
  | .any => "any"
  | .int => "int"
  | .text => "text"
  | .bool => "bool"
  | .float => "float"
  | .blob => "blob"
  | .time => "time"

end Kind

def Value.kindName (v : Value) : String := ((Kind.ofValue v).map Kind.name).getD "null"

structure Column extends Field where
  kind : Kind := .any
  nullable : Bool := false
  hidden : Bool := false
  deriving DecidableEq, Repr

/-- Whether a value may be written. -/
def Column.accepts (c : Column) (v : Value) : Bool :=
  c.kind == .any || Kind.ofValue v == some c.kind || (v.isNull && c.nullable)

/-- One step of a hook. -/
inductive HookAction where
  | fail (e : Error)
  /-- The column must hold something other than zero. -/
  | require (column : String)
  | set (column : String) (v : Value)

structure Description where
  table : String
  columns : List Column := []
  hooks : Hook → List HookAction := fun _ => []
  /-- Edits made to statements, the same whatever the values. -/
  modifier : Option (List Edit) := none

namespace Description

def column? (d : Description) (name : String) : Option Column := d.columns.find? (·.name == name)

def blank (d : Description) : Row := Row.ofCells (d.columns.map fun c => (c.name, c.kind.zero))

def value (d : Description) (r : Row) (column : String) : Option Value :=
  match d.column? column with
  | some c => if c.hidden then none else r.get? column
  | none => none

def setValue (d : Description) (r : Row) (column : String) (v : Value) : Attempt Row :=
  match d.column? column with
  | none => ⟨r, Error.invalidData ("unknown column " ++ column)⟩
  | some c =>
    if c.accepts v then ⟨r.set column v, none⟩
    else ⟨r, Error.invalidData ("cannot assign " ++ v.kindName ++ " to " ++ column)⟩

def runHook (r : Row) : List HookAction → Attempt Row
  | [] => ⟨r, none⟩
  | .fail e :: _ => ⟨r, e⟩
  | .require column :: rest =>
    if ((r.get? column).getD .null).isZero then ⟨r, Error.validation (column ++ " is required")⟩
    else runHook r rest
  | .set column v :: rest => runHook (r.set column v) rest

/-- The model described. -/
def model (d : Description) : Model Row where
  schema := { table := d.table, fields := d.columns.map (·.toField) }
  blank := d.blank
  value := d.value
  setValue := d.setValue
  hooks := some fun h r => runHook r (d.hooks h)
  modifier := d.modifier.map fun edits r _ => (r, edits)

end Description

/-- A fixed model: notes with a generated id and a body, without hooks. -/
def noteModel : Model Row where
  schema :=
    { table := "notes", fields := [{ name := "id", primaryKey := true, autoIncrement := true }, { name := "body" }] }
  blank := Row.ofCells [("id", .int 0), ("body", .text "")]
  value r column := if column = "id" ∨ column = "body" then r.get? column else none
  setValue r column v :=
    match column, v with
    | "id", .int _ => ⟨r.set column v, none⟩
    | "body", .text _ => ⟨r.set column v, none⟩
    | _, _ => ⟨r, Error.invalidData column⟩

end SqlPipeline
