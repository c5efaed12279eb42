/-
  SqlPipeline.Statement.Pool — the connection statements are executed on.

  The pool answers as it was set up: a statement without rows gets the set outcome, a
  query the next queued result set, or an empty one. While a failure is set every call
  gets it, and no result set is used up.
-/

import SqlPipeline.Outcome.Error
import SqlPipeline.Table.Rows

namespace SqlPipeline

structure Pool where
  rowsAffected : Nat := 1
  /-- The id generated for an insert, if the database reports one. -/
  lastInsertId : Option Int := none
  queued : List Rows := []
  failure : Option Error := none

namespace Pool

inductive Verb where
  | exec | query
  deriving DecidableEq, Repr

/-- A statement as it reached the database. -/
structure Call where
  verb : Verb
  sql : String
  params : List Value
  deriving DecidableEq, Repr

/-- The outcome of a statement without rows. -/
def exec (p : Pool) : Except Error (Nat × Option Int) :=
  match p.failure with
  | some e => .error e
  | none => .ok (p.rowsAffected, p.lastInsertId)

/-- The rows of a query, and the pool after it. -/
def query (p : Pool) : Pool × Except Error Rows :=
  match p.failure, p.queued with
  | some e, _ => (p, .error e)
  | none, rows :: rest => ({ p with queued := rest }, .ok rows)
  | none, [] => (p, .ok {})

end Pool

end SqlPipeline
