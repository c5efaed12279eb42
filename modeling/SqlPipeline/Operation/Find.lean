/-
  SqlPipeline.Operation.Find — queries.

  A query selects everything from the statement's table unless told otherwise. A single
  destination with its key set narrows it to that row. The rows are loaded into the
  destination or stay on the statement.
-/

import SqlPipeline.Operation.Keys
import SqlPipeline.Statement.Run

namespace SqlPipeline

namespace Operation

variable {ρ : Type} [Record ρ]

/-- Writes the query unless there is a text, or records why it cannot. -/
def prepareQuery (env : Env) (s : Statement ρ) : Statement ρ :=
  if s.hasText then s
  else
    match s.tableName? with
    | none => s.addError (.invalidData "query needs a model or a table")
    | some table =>
      let s := (s.addClauseIfAbsent (.select [] false)).addClauseIfAbsent (.from [table])
      let s := if s.shape = .record then addKeyCondition s else s
      s.buildDefault env.dialect

/-- Loads a result set into the destination. -/
def loadRows (rows : Rows) (s : Statement ρ) : Statement ρ :=
  let s := { s with rowsAffected := rows.size }
  let s :=
    match s.destination? with
    | none => s
    | some dest =>
      let loaded := Record.scan dest rows
      (s.setDestination loaded.state).note loaded.error
  if rows.isEmpty && s.raiseNotFound then s.addError .recordNotFound else s

/-- Leaves a result set on the statement. -/
def keepRows (rows : Rows) (s : Statement ρ) : Statement ρ := { s with rowsAffected := rows.size, rows := some rows }

/-- Prepares and runs a query; `take` says what becomes of its rows. -/
def queryWith (env : Env) (take : Rows → Statement ρ → Statement ρ) (r : Run ρ) : Run ρ :=
  if r.failed then r
  else
    let r := r.modify (prepareQuery env)
    if r.statement.dryRun || r.failed then r
    else
      match r.query with
      | (r, .ok rows) => r.modify (take rows)
      | (r, .error e) => r.addError e

def query (env : Env) (r : Run ρ) : Run ρ := queryWith env loadRows r

def row (env : Env) (r : Run ρ) : Run ρ := queryWith env keepRows r

end Operation

end SqlPipeline
