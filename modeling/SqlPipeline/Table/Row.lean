/-
  SqlPipeline.Table.Row — values by column name, the names in ascending order.
-/

import SqlPipeline.Sql.Value

namespace SqlPipeline

structure Row where
  cells : List (String × Value) := []
  deriving DecidableEq, Repr

namespace Row

/-- The cells with one of them set, in its place by name. -/
def put (column : String) (v : Value) : List (String × Value) → List (String × Value)
  | [] => [(column, v)]
  | (c, w) :: rest =>
    if column = c then (column, v) :: rest
    else if column < c then (column, v) :: (c, w) :: rest
    else (c, w) :: put column v rest

def get? (r : Row) (column : String) : Option Value := r.cells.lookup column

def set (r : Row) (column : String) (v : Value) : Row := ⟨put column v r.cells⟩

def setAll (r : Row) (cells : List (String × Value)) : Row := cells.foldl (fun r c => r.set c.1 c.2) r

def columns (r : Row) : List String := r.cells.map (·.1)

def ofCells (cells : List (String × Value)) : Row := setAll {} cells

end Row

end SqlPipeline
