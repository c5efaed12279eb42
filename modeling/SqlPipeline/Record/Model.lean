/-
  SqlPipeline.Record.Model — types that are mapped to a table.

  A model says how values of a type `μ` are read and written by column, which hooks they
  have and what they do to the statements they are the destination of.
-/

import SqlPipeline.Record.Basic

namespace SqlPipeline

structure Model (μ : Type) where
  schema : Schema
  /-- The value that stands for an absent one. -/
  blank : μ
  value : μ → String → Option Value
  setValue : μ → String → Value → Attempt μ
  /-- Absent when the type has no hooks of its own. -/
  hooks : Option (Hook → μ → Attempt μ) := none
  /-- Absent when the type leaves statements alone. -/
  modifier : Option (μ → StatementView → μ × List Edit) := none

namespace Model

variable {μ : Type} (m : Model μ)

/-- Writes cells in order, those whose column the schema knows. -/
def load (x : μ) : List (String × Value) → Attempt μ
  | [] => ⟨x, none⟩
  | (column, v) :: rest =>
    if (m.schema.field? column).isSome then
      match m.setValue x column v with
      | ⟨x, none⟩ => load x rest
      | failed => failed
    else load x rest

/-- A fresh value for each row, up to the first that does not load. -/
def loadAll : List (List (String × Value)) → Attempt (List μ)
  | [] => ⟨[], none⟩
  | cells :: rest =>
    match m.load m.blank cells with
    | ⟨x, none⟩ => (loadAll rest).map (x :: ·)
    | ⟨_, e⟩ => ⟨[], e⟩

/-- A hook on values numbered from `row`, up to the first that fails. -/
def callHook (h : Hook) (row : Nat) : List μ → HookRun (List μ)
  | [] => { record := [] }
  | x :: xs =>
    match m.hooks with
    | none => { record := x :: xs }
    | some call =>
      match call h x with
      | ⟨x, none⟩ =>
        let after := callHook h (row + 1) xs
        { after with record := x :: after.record, visited := row :: after.visited }
      | ⟨x, e⟩ => { record := x :: xs, visited := [row], error := e }

end Model

end SqlPipeline
