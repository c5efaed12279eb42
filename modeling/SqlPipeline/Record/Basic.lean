/-
  SqlPipeline.Record.Basic — the view the pipeline has of a model, a destination or a result.

  Rows are numbered from zero; a single record is row zero. Writing may fail and still
  leave a change behind, so every operation that writes hands the record back together
  with its error.
-/

import SqlPipeline.Edit
import SqlPipeline.Record.Hook
import SqlPipeline.Table.Rows

namespace SqlPipeline

/-- What is left after an operation, and why it stopped, if it did. -/
structure Attempt (σ : Type) where
  state : σ
  error : Option Error := none

namespace Attempt

variable {σ τ : Type}

def map (f : σ → τ) (a : Attempt σ) : Attempt τ := ⟨f a.state, a.error⟩

end Attempt

/-- A hook called on the rows of a record. -/
structure HookRun (ρ : Type) where
  record : ρ
  /-- The rows whose hook ran, the failing one included. -/
  visited : List Nat := []
  error : Option Error := none

class Record (ρ : Type) where
  /-- The table, or why the value describes none. -/
  schema : ρ → Except Error Schema
  /-- Finds out the shape, filling in an absent record. -/
  resolve : ρ → ρ × Shape
  size : ρ → Nat
  value : ρ → Nat → String → Option Value
  setValue : ρ → Nat → String → Value → Attempt ρ
  /-- The columns to insert when there is no schema. -/
  columns : ρ → List String
  /-- Loads a result set. -/
  scan : ρ → Rows → Attempt ρ
  callHook : Hook → ρ → HookRun ρ
  /-- What the record does to a statement it is the destination of. It may change meanwhile. -/
  modifier : ρ → Option (StatementView → ρ × List Edit)

def Record.view {ρ : Type} [Record ρ] (r : ρ) : RecordView where
  schema := Record.schema r
  size := Record.size r
  columns := Record.columns r
  value := Record.value r
  refusal? row column v := (Record.setValue r row column v).error

end SqlPipeline
