/-
  SqlPipeline.Statement.Run — a statement on its way, with everything it causes.

  What a statement causes is kept as one list in the order it happened: steps and hooks
  that ran, calls to the pool, log entries, and what edits report.
-/

import SqlPipeline.Outcome.Log
import SqlPipeline.Statement.Basic
import SqlPipeline.Statement.Pool

namespace SqlPipeline

/-- What stays the same while statements run. -/
structure Env where
  config : Config := {}
  dialect : Dialect := Dialect.generic .question
  logger : Logger := .recording
  now : Instant
  /-- How long an execution takes, in nanoseconds. -/
  elapsed : Nat := 0

/-- What a statement looks like to a step. -/
structure Probe where
  table : Option String
  schema : Option String
  error : Option Error
  sql : Rendered
  buildClauses : List String
  shape : Shape
  rowsAffected : Nat
  destSize : Option Nat
  modelSize : Option Nat
  dialect : String

inductive Effect where
  /-- A step's condition was asked. -/
  | asked (step : String)
  | ran (step : String)
  | emitted (label : String)
  | hooked (h : Hook) (row : Nat)
  | probed (p : Probe)
  | taken (e : Option Error)
  /-- Nothing when there is no destination. -/
  | fieldSet (outcome : Option (Except Error Unit))
  | called (c : Pool.Call)
  | logged (entry : LogEntry)

structure Run (ρ : Type) where
  statement : Statement ρ
  pool : Pool := {}
  effects : List Effect := []

namespace Run

variable {ρ : Type}

def modify (f : Statement ρ → Statement ρ) (r : Run ρ) : Run ρ := { r with statement := f r.statement }

def emit (effects : List Effect) (r : Run ρ) : Run ρ := { r with effects := r.effects ++ effects }

def addError (e : Error) (r : Run ρ) : Run ρ := r.modify (·.addError e)

def failed (r : Run ρ) : Bool := r.statement.failed

/-- Hands the text to the pool as a statement without rows. -/
def exec (r : Run ρ) : Run ρ × Except Error (Nat × Option Int) :=
  (r.emit [.called ⟨.exec, r.statement.sql.text, r.statement.sql.params⟩], r.pool.exec)

/-- Hands the text to the pool as a query. -/
def query (r : Run ρ) : Run ρ × Except Error Rows :=
  let (pool, outcome) := r.pool.query
  ({ r.emit [.called ⟨.query, r.statement.sql.text, r.statement.sql.params⟩] with pool }, outcome)

variable [Record ρ]

def probe (dialect : Dialect) (s : Statement ρ) : Probe where
  table := s.tableName?
  schema := s.schema.map (·.table)
  error := s.error
  sql := s.sql
  buildClauses := s.buildClauses
  shape := s.shape
  rowsAffected := s.rowsAffected
  destSize := s.destination?.map Record.size
  modelSize := s.modelRecord?.map Record.size
  dialect := dialect.name

/-- Writes one cell of the destination. -/
def setField (row : Nat) (column : String) (v : Value) (r : Run ρ) : Run ρ :=
  match r.statement.destination? with
  | none => r.emit [.fieldSet none]
  | some dest =>
    let done := Record.setValue dest row column v
    (r.modify (·.setDestination done.state)).emit [.fieldSet (some (done.error.elim (.ok ()) .error))]

mutual

/-- Carries out one edit. -/
def edit (env : Env) (r : Run ρ) : Edit → Run ρ
  | .emit label => r.emit [.emitted label]
  | .probe => r.emit [.probed (probe env.dialect r.statement)]
  | .addClause c => r.modify (·.addClause c)
  | .addClauseIfAbsent c => r.modify (·.addClauseIfAbsent c)
  | .build names => r.modify (·.build env.dialect names)
  | .buildDefault => r.modify (·.buildDefault env.dialect)
  | .addError e => r.addError e
  | .takeError => (r.modify fun s => { s with error := none }).emit [.taken r.statement.error]
  | .defer scope => r.modify (·.defer scope)
  | .setTable table => r.modify fun s => { s with table }
  | .setSchema schema => r.modify fun s => { s with schema }
  | .setShape shape => r.modify fun s => { s with shape }
  | .setText text => r.modify fun s => { s with sql := { s.sql with text } }
  | .setParams params => r.modify fun s => { s with sql := { s.sql with params } }
  | .setBuildClauses names => r.modify fun s => { s with buildClauses := names }
  | .setRowsAffected n => r.modify fun s => { s with rowsAffected := n }
  | .setDryRun on => r.modify fun s => { s with dryRun := on }
  | .setSkipHooks on => r.modify fun s => { s with skipHooks := on }
  | .setRaiseNotFound on => r.modify fun s => { s with raiseNotFound := on }
  | .setAssignments assignments => r.modify fun s => { s with assignments }
  | .setRows rows => r.modify fun s => { s with rows }
  | .assign a => r.modify (·.assign a)
  | .write p => r.modify (·.write env.dialect [p])
  | .setField row column v => r.setField row column v
  | .look next => edits env (next r.statement.view) r

/-- Carries out edits in order. -/
def edits (env : Env) : List Edit → Run ρ → Run ρ
  | [], r => r
  | e :: es, r => edits env es (edit env r e)

end

end Run

end SqlPipeline
