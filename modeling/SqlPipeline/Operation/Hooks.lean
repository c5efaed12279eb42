/-
  SqlPipeline.Operation.Hooks — calling the hooks of the destination.

  Hooks are called on a statement with a schema and without an error. Each hook goes
  through the rows up to the first that fails; the next hook is called all the same, and
  the failures are recorded in the order of the hooks.
-/

import SqlPipeline.Statement.Run

namespace SqlPipeline

namespace Operation

variable {ρ : Type} [Record ρ]

/-- What a series of hooks did. -/
structure HookSeries (ρ : Type) where
  record : ρ
  visited : List (Hook × Nat) := []
  errors : List Error := []

def runHooks : List Hook → ρ → HookSeries ρ
  | [], record => { record }
  | h :: hooks, record =>
    let run := Record.callHook h record
    let rest := runHooks hooks run.record
    { record := rest.record
      visited := run.visited.map (h, ·) ++ rest.visited
      errors := run.error.toList ++ rest.errors }

def callHooks (hooks : List Hook) (r : Run ρ) : Run ρ :=
  if r.failed || r.statement.skipHooks || r.statement.schema.isNone then r
  else match r.statement.destination? with
    | none => r
    | some dest =>
      let series := runHooks hooks dest
      (r.modify fun s => series.errors.foldl Statement.addError (s.setDestination series.record)).emit
        (series.visited.map fun v => .hooked v.1 v.2)

def beforeCreate (r : Run ρ) : Run ρ := callHooks [.beforeSave, .beforeCreate] r

def afterCreate (r : Run ρ) : Run ρ := callHooks [.afterCreate, .afterSave] r

/-- Only for a query that found something. -/
def afterQuery (r : Run ρ) : Run ρ := if 0 < r.statement.rowsAffected then callHooks [.afterFind] r else r

def beforeUpdate (r : Run ρ) : Run ρ := callHooks [.beforeSave, .beforeUpdate] r

def afterUpdate (r : Run ρ) : Run ρ := callHooks [.afterUpdate, .afterSave] r

def beforeDelete (r : Run ρ) : Run ρ := callHooks [.beforeDelete] r

def afterDelete (r : Run ρ) : Run ρ := callHooks [.afterDelete] r

end Operation

end SqlPipeline
