/-
  SqlPipeline.Table.Rows — result sets.

  A row is read against the column names from the left. A row may be shorter or longer
  than the names; what has no partner is not seen.
-/

import SqlPipeline.Sql.Value

namespace SqlPipeline

structure Rows where
  columns : List String := []
  values : List (List Value) := []
  deriving DecidableEq, Repr

namespace Rows

def size (r : Rows) : Nat := r.values.length

def isEmpty (r : Rows) : Bool := r.values.isEmpty

/-- Each row with its column names. -/
def pairs (r : Rows) : List (List (String × Value)) := r.values.map r.columns.zip

/-- The cell of the first column of that name. -/
def get? (r : Rows) (row : Nat) (column : String) : Option Value := do
  let i ← r.columns.idxOf? column
  let cells ← r.values[row]?
  cells[i]?

end Rows

end SqlPipeline
