/-
  SqlPipeline.Record.Destination — the records a statement works on.

  A destination is one value of a model, a list of them, an optional one, a map without a
  schema, or a record that answers as it was told to.
  - An optional value comes into being when it is resolved, written or loaded, and goes
    when it is loaded from no rows.
  - A list is loaded anew: one value per row, up to the first row that fails.
  - A map takes whatever column is written.
-/

import SqlPipeline.Record.Model
import SqlPipeline.Table.Row

namespace SqlPipeline

/-- A record whose answers are given in advance. Its rows are kept as they are stored. -/
structure Scripted where
  schema : Except Error Schema
  shape : Shape
  /-- The number of rows it claims to have, if not what it has. -/
  size? : Option Nat := none
  rows : List Row := []
  setError : Option Error := none
  scanError : Option Error := none

inductive Destination (μ : Type) where
  | one (m : Model μ) (x : μ)
  | list (m : Model μ) (xs : List μ)
  | optional (m : Model μ) (x : Option μ)
  | map (r : Row)
  | scripted (s : Scripted)

namespace Destination

variable {μ : Type}

def outOfRange (row : Nat) : Error := .invalidData ("row " ++ row.repr ++ " out of range")

def schema : Destination μ → Except Error Schema
  | .one m _ => .ok m.schema
  | .list m _ => .ok m.schema
  | .optional m _ => .ok m.schema
  | .map _ => .error (.untabled "map")
  | .scripted s => s.schema

def resolve : Destination μ → Destination μ × Shape
  | .one m x => (.one m x, .record)
  | .list m xs => (.list m xs, .list xs.length)
  | .optional m x => (.optional m (some (x.getD m.blank)), .record)
  | .map r => (.map r, .map)
  | .scripted s => (.scripted s, s.shape)

def size : Destination μ → Nat
  | .one _ _ => 1
  | .list _ xs => xs.length
  | .optional _ x => x.toList.length
  | .map _ => 1
  | .scripted s => s.size?.getD s.rows.length

def value (d : Destination μ) (row : Nat) (column : String) : Option Value :=
  match d with
  | .one m x => if row = 0 then m.value x column else none
  | .list m xs => xs[row]?.bind (m.value · column)
  | .optional m x => if row = 0 then x.bind (m.value · column) else none
  | .map r => if row = 0 then r.get? column else none
  | .scripted s => s.rows[row]?.bind (·.get? column)

def setValue (d : Destination μ) (row : Nat) (column : String) (v : Value) : Attempt (Destination μ) :=
  match d with
  | .one m x => if row = 0 then (m.setValue x column v).map (.one m) else ⟨d, outOfRange row⟩
  | .list m xs =>
    match xs[row]? with
    | some x => (m.setValue x column v).map fun x => .list m (xs.set row x)
    | none => ⟨d, outOfRange row⟩
  | .optional m x =>
    let x := x.getD m.blank
    if row = 0 then (m.setValue x column v).map fun x => .optional m (some x)
    else ⟨.optional m (some x), outOfRange row⟩
  | .map r => if row = 0 then ⟨.map (r.set column v), none⟩ else ⟨d, outOfRange row⟩
  | .scripted s =>
    match s.setError, s.rows[row]? with
    | some e, _ => ⟨d, e⟩
    | none, some r => ⟨.scripted { s with rows := s.rows.set row (r.set column v) }, none⟩
    | none, none => ⟨d, Error.invalidData ("no row " ++ row.repr)⟩

def columns : Destination μ → List String
  | .map r => r.columns
  | d => match d.schema with
    | .ok schema => schema.columns
    | .error _ => []

def scan (d : Destination μ) (rows : Rows) : Attempt (Destination μ) :=
  match d, rows.pairs with
  | .one m x, cells :: _ => (m.load x cells).map (.one m)
  | .one m x, [] => ⟨.one m x, none⟩
  | .list m _, all => (m.loadAll all).map (.list m)
  | .optional m x, cells :: _ => (m.load (x.getD m.blank) cells).map fun x => .optional m (some x)
  | .optional m _, [] => ⟨.optional m none, none⟩
  | .map r, cells :: _ => ⟨.map (r.setAll cells), none⟩
  | .map r, [] => ⟨.map r, none⟩
  | .scripted s, all =>
    match s.scanError with
    | some e => ⟨.scripted s, e⟩
    | none => ⟨.scripted { s with rows := all.map Row.ofCells }, none⟩

def callHook (h : Hook) : Destination μ → HookRun (Destination μ)
  | .one m x =>
    let run := m.callHook h 0 [x]
    { run with record := .one m (run.record.headD x) }
  | .list m xs =>
    let run := m.callHook h 0 xs
    { run with record := .list m run.record }
  | .optional m x =>
    let run := m.callHook h 0 x.toList
    { run with record := .optional m run.record.head? }
  | d => { record := d }

def modifier : Destination μ → Option (StatementView → Destination μ × List Edit)
  | .one m x => m.modifier.map fun modify v => (modify x v).map (.one m) id
  | .optional m (some x) => m.modifier.map fun modify v => (modify x v).map (fun x => .optional m (some x)) id
  | _ => none

instance : Record (Destination μ) where
  schema := schema
  resolve := resolve
  size := size
  value := value
  setValue := setValue
  columns := columns
  scan := scan
  callHook := callHook
  modifier := modifier

end Destination

end SqlPipeline
