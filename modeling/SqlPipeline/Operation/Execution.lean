/-
  SqlPipeline.Operation.Execution — running a stage's pipeline on a statement.

  Preparation comes first: pending scopes, the stage's clause names for a statement that
  has none, the destination's own edits, model and destination standing in for each other,
  schema and shape. Then every step runs, errors or not; a step that should not run on an
  error looks for itself. At the end the text is traced and cleared, unless the run is dry,
  and adopted clause names are given back.
-/

import SqlPipeline.Operation.Action
import SqlPipeline.Sql.Explained
import SqlPipeline.Statement.Scopes

namespace SqlPipeline

namespace Run

variable {ρ : Type} [Record ρ]

/-- What a destination makes of the statement. Meanwhile the statement has no destination, so
    it cannot be exchanged. -/
def modifiedBy (env : Env) (modify : StatementView → ρ × List Edit) (r : Run ρ) : Run ρ :=
  let alone := r.modify fun s => { s with dest := none }
  let done := modify alone.statement.view
  (alone.edits env done.2).modify fun s => { s with dest := some (.value done.1) }

def applyModifier (env : Env) (r : Run ρ) : Run ρ :=
  match r.statement.dest with
  | some (.value dest) => (Record.modifier dest).elim r fun modify => r.modifiedBy env modify
  | _ => r

/-- Everything that precedes the steps, once the scopes are applied and the clause names
    are settled. -/
def prepare (env : Env) (r : Run ρ) : Run ρ :=
  (r.applyModifier env).modify fun s => s.normalizeTargets.readSchema.resolveDestination

def runSteps (env : Env) (steps : List (Candidate Action)) (r : Run ρ) : Run ρ :=
  steps.foldl (fun r c => c.action.run env r) r

/-- The text as the logger may see it. -/
def explained (env : Env) (sql : Rendered) : String :=
  match env.logger.filter? with
  | some filter =>
    let (text, params) := filter sql.text sql.params
    env.dialect.explain text params
  | none => env.dialect.explain sql.text sql.params

/-- Reports the statement, if it has a text. -/
def trace (env : Env) (r : Run ρ) : Run ρ :=
  if r.statement.hasText then
    r.emit ((env.logger.trace env.elapsed
      { sql := explained env r.statement.sql, rows := r.statement.rowsAffected, error := r.statement.error }).map
      .logged)
  else r

end Run

/-- Runs the pipeline. A stale stage runs nothing and says so. -/
def Stage.execute {ρ : Type} [Record ρ] (env : Env) (st : Stage Action) (r : Run ρ) : Run ρ :=
  let r := r.applyScopes env
  let adopts := r.statement.buildClauses.isEmpty
  let r := if adopts then r.modify fun s => { s with buildClauses := st.clauses } else r
  let r := r.prepare env
  let r :=
    match st.compiled with
    | some compiled => r.runSteps env compiled.steps
    | none => r.addError (.stale st.kind)
  let r := r.trace env
  let r := if r.statement.dryRun then r else r.modify fun s => { s with sql := {} }
  if adopts then r.modify fun s => { s with buildClauses := [] } else r

end SqlPipeline
