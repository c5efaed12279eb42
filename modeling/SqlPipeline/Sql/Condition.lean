/-
  SqlPipeline.Sql.Condition — trees of conditions.

  Leaves compare a column with a value, test it for membership or NULL, or are raw text
  with values of its own. AND, OR and NOT have any number of members.
-/

import SqlPipeline.Sql.Value

namespace SqlPipeline

inductive Comparison where
  | eq | ne | gt | gte | lt | lte
  deriving DecidableEq, Repr

namespace Comparison

/-- The comparison that holds exactly when this one does not. -/
def negate : Comparison → Comparison
  | .eq => .ne
  | .ne => .eq
  | .gt => .lte
  | .gte => .lt
  | .lt => .gte
  | .lte => .gt

def sign : Comparison → String
  | .eq => "="
  | .ne => "<>"
  | .gt => ">"
  | .gte => ">="
  | .lt => "<"
  | .lte => "<="

end Comparison

inductive Expression where
  /-- Text in which each question mark takes the next value. -/
  | raw (sql : String) (values : List Value)
  | compare (column : String) (op : Comparison) (value : Value)
  | member (column : String) (values : List Value)
  | isNull (column : String)
  | and (members : List Expression)
  | or (members : List Expression)
  /-- Denies the conjunction of its members. -/
  | not (members : List Expression)
  deriving Repr

namespace Expression

/-! ## Smart constructors -/

/-- The conjunction. A single member stands for itself, unless it is an OR group. -/
def conjunction : List Expression → Expression
  | [.or members] => .and [.or members]
  | [e] => e
  | members => .and members

/-- The disjunction. -/
def disjunction (members : List Expression) : Expression := .or members

/-- The denial; a single AND group is taken apart. -/
def negation : List Expression → Expression
  | [.and members] => .not members
  | members => .not members

end Expression

end SqlPipeline
