/-
  SqlPipeline.Edit — what user code sees of a statement and what it does to it.

  Steps, scopes and statement modifiers written by users are lists of edits. Edits are
  carried out in order; a scope among them is only queued. A look at the statement decides
  on further edits, so what user code does and queues may depend on all that it can read.
  However it goes on, it comes to an end, and so do the scopes within scopes.
-/

import SqlPipeline.Outcome.Error
import SqlPipeline.Sql.Clauses
import SqlPipeline.Sql.Rendered
import SqlPipeline.Table.Rows
import SqlPipeline.Table.Schema
import SqlPipeline.Table.Shape

namespace SqlPipeline

/-- What can be read of a record. -/
structure RecordView where
  schema : Except Error Schema
  size : Nat
  columns : List String
  value : Nat → String → Option Value
  /-- Why writing a cell would fail, if it would. -/
  refusal? : Nat → String → Value → Option Error

/-- What can be read of a statement. What is deferred cannot. -/
structure StatementView where
  error : Option Error
  rowsAffected : Nat
  table : Option String
  schema : Option Schema
  sql : Rendered
  clause? : String → Option Clause
  buildClauses : List String
  model : Option RecordView
  dest : Option RecordView
  shape : Shape
  dryRun : Bool
  skipHooks : Bool
  raiseNotFound : Bool
  assignments : List Assignment
  rows : Option Rows

inductive Edit where
  /-- Reports that this point was reached. -/
  | emit (label : String)
  /-- Reports what the statement looks like. -/
  | probe
  | addClause (c : Clause)
  | addClauseIfAbsent (c : Clause)
  /-- Writes the named clauses. -/
  | build (names : List String)
  /-- Writes the clauses the statement names. -/
  | buildDefault
  | addError (e : Error)
  /-- Clears the error and reports it. -/
  | takeError
  /-- Queues a scope. -/
  | defer (scope : List Edit)
  | setTable (table : Option String)
  | setSchema (schema : Option Schema)
  | setShape (shape : Shape)
  | setText (text : String)
  | setParams (params : List Value)
  | setBuildClauses (names : List String)
  | setRowsAffected (n : Nat)
  | setDryRun (on : Bool)
  | setSkipHooks (on : Bool)
  | setRaiseNotFound (on : Bool)
  | setAssignments (assignments : List Assignment)
  | setRows (rows : Option Rows)
  | assign (a : Assignment)
  /-- Appends to the text. -/
  | write (p : Piece)
  /-- Writes into the destination and reports how that went. -/
  | setField (row : Nat) (column : String) (v : Value)
  /-- Goes on as the statement is found. -/
  | look (next : StatementView → List Edit)

namespace Edit

/-- Whether an edit neither looks nor queues. -/
def isPlain : Edit → Bool
  | .defer _ | .look _ => false
  | _ => true

/-- What a list of edits is made of: what is left after the first, the scope that is queued, and
    whatever a look goes on with. -/
inductive PartOf : List Edit → List Edit → Prop
  | rest (e : Edit) (es : List Edit) : PartOf es (e :: es)
  | scope (scope es : List Edit) : PartOf scope (.defer scope :: es)
  | next (next : StatementView → List Edit) (v : StatementView) (es : List Edit) : PartOf (next v) (.look next :: es)

mutual

theorem acc_cons (e : Edit) (es : List Edit) (hrest : Acc PartOf es) : Acc PartOf (e :: es) := by
  cases e with
  | look next =>
    refine ⟨_, fun part hpart => ?_⟩
    cases hpart with
    | rest => exact hrest
    | next next v => exact acc_partOf (next v)
  | defer scope =>
    refine ⟨_, fun part hpart => ?_⟩
    cases hpart with
    | rest => exact hrest
    | scope => exact acc_partOf scope
  | _ =>
    refine ⟨_, fun part hpart => ?_⟩
    cases hpart with
    | rest => exact hrest

theorem acc_partOf (es : List Edit) : Acc PartOf es := by
  cases es with
  | nil => exact ⟨_, nofun⟩
  | cons e es => exact acc_cons e es (acc_partOf es)

end

theorem partOf_wellFounded : WellFounded PartOf := ⟨acc_partOf⟩

/-- Induction over what edits are made of: it leaves the single edits that neither look nor queue. -/
@[elab_as_elim]
theorem induct {P : List Edit → Prop} (nil : P [])
    (look : ∀ next es, (∀ v, P (next v)) → P es → P (.look next :: es))
    (defer : ∀ scope es, P scope → P es → P (.defer scope :: es))
    (plain : ∀ e es, e.isPlain = true → P es → P (e :: es)) (es : List Edit) : P es := by
  induction es using partOf_wellFounded.induction with
  | _ es ih =>
    cases es with
    | nil => exact nil
    | cons e es =>
      have hrest := ih es (.rest e es)
      cases e with
      | look next => exact look next es (fun v => ih (next v) (.next next v es)) hrest
      | defer scope => exact defer scope es (ih scope (.scope scope es)) hrest
      | _ => exact plain _ es rfl hrest

end Edit

end SqlPipeline
