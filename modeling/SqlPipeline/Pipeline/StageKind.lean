/-
  SqlPipeline.Pipeline.StageKind — the operations a database runs, one pipeline of steps each.
-/

namespace SqlPipeline

inductive StageKind where
  | create | query | update | delete
  /-- A query whose rows stay on the statement. -/
  | row
  /-- A statement given as text. -/
  | raw
  deriving DecidableEq, Repr

namespace StageKind

def all : List StageKind := [.create, .query, .update, .delete, .row, .raw]

def name : StageKind → String
  | .create => "create"
  | .query => "query"
  | .update => "update"
  | .delete => "delete"
  | .row => "row"
  | .raw => "raw"

theorem mem_all (k : StageKind) : k ∈ all := by cases k <;> decide

end StageKind

end SqlPipeline
