/-
  SqlPipeline.Sql.Clause — the named parts of a statement.

  A second clause of a name merges with the first: conditions and orderings accumulate in
  the order they were given, a limit overlays the old one field by field, anything else
  replaces what was there.
-/

import SqlPipeline.Sql.Condition.Tokens

namespace SqlPipeline

/-- One term of an ordering. -/
structure OrderTerm where
  column : String
  descending : Bool
  deriving DecidableEq, Repr

/-- What to do when an inserted row collides with a stored one. -/
structure OnConflict where
  /-- The columns that may collide; none lets the database use any unique constraint. -/
  target : List String := []
  doNothing : Bool := false
  /-- Asks the create step to fill the update lists from the inserted columns. -/
  updateAll : Bool := false
  updates : List Assignment := []
  /-- Columns that take the value of the row proposed for insertion. -/
  updateColumns : List String := []
  deriving DecidableEq, Repr

/-- Whether colliding rows are left as they are. With nothing to update they are. -/
def OnConflict.ignores (c : OnConflict) : Bool :=
  c.doNothing || (c.updates.isEmpty && c.updateColumns.isEmpty)

inductive Clause where
  | insert (table : String) (modifier : Option String)
  | values (columns : List String) (rows : List (List Value))
  /-- No columns means all. -/
  | select (columns : List String) (distinct : Bool)
  | from (tables : List String)
  | where (conditions : List Expression)
  | update (table : String)
  | set (assignments : List Assignment)
  | delete
  | orderBy (terms : List OrderTerm)
  | limit (rows : Option Nat) (offset : Option Nat)
  /-- No columns means all. -/
  | returning (columns : List String)
  | onConflict (c : OnConflict)
  deriving Repr

namespace Clause

/-- The name under which a statement keeps the clause. -/
def name : Clause → String
  | .insert .. => "INSERT"
  | .values .. => "VALUES"
  | .select .. => "SELECT"
  | .from _ => "FROM"
  | .where _ => "WHERE"
  | .update _ => "UPDATE"
  | .set _ => "SET"
  | .delete => "DELETE"
  | .orderBy _ => "ORDER BY"
  | .limit .. => "LIMIT"
  | .returning _ => "RETURNING"
  | .onConflict _ => "ON CONFLICT"

/-- Every clause name, in the order of a statement's text. -/
def names : List String :=
  ["INSERT", "VALUES", "SELECT", "FROM", "WHERE", "UPDATE", "SET", "DELETE", "ORDER BY", "LIMIT",
    "RETURNING", "ON CONFLICT"]

/-- Whether the clause asks for nothing, so that a statement leaves it out. -/
def isEmpty : Clause → Bool
  | .where conditions => conditions.isEmpty
  | .set assignments => assignments.isEmpty
  | .orderBy terms => terms.isEmpty
  | .limit rows offset => rows.isNone && offset.isNone
  | _ => false

/-- This clause added to the one already there. -/
def merge (added : Clause) (present : Option Clause) : Clause :=
  match added, present with
  | .where new, some (.where old) => .where (old ++ new)
  | .orderBy new, some (.orderBy old) => .orderBy (old ++ new)
  | .limit rows offset, some (.limit rows' offset') => .limit (rows <|> rows') (offset <|> offset')
  | c, _ => c

/-! ## Text -/

def columnPieces (columns : List String) : List Piece :=
  Piece.commaSeparated (columns.map fun c => [.name c])

/-- The columns, or a star. -/
def columnsOrAll (columns : List String) : List Piece :=
  if columns.isEmpty then [.text "*"] else columnPieces columns

def assignmentPieces (a : Assignment) : List Piece := [.name a.column, .text "=", .param a.value]

def excludedPieces (column : String) : List Piece :=
  [.name column, .text "=", .name ("excluded." ++ column)]

def rowPieces (row : List Value) : List Piece :=
  .text "(" :: Piece.commaSeparated (row.map fun v => [.param v]) ++ [.text ")"]

def termPieces (t : OrderTerm) : List Piece :=
  .name t.column :: if t.descending then [.text " DESC"] else []

def conflictPieces (c : OnConflict) : List Piece :=
  .text "ON CONFLICT " ::
    (if c.target.isEmpty then [] else .text "(" :: columnPieces c.target ++ [.text ") "]) ++
    if c.ignores then [.text "DO NOTHING"]
    else .text "DO UPDATE SET " ::
      Piece.commaSeparated (c.updates.map assignmentPieces ++ c.updateColumns.map excludedPieces)

def limitPieces : Option Nat → Option Nat → List Piece
  | some n, some m => [.text ("LIMIT " ++ n.repr), .text " ", .text ("OFFSET " ++ m.repr)]
  | some n, none => [.text ("LIMIT " ++ n.repr)]
  | none, some m => [.text ("OFFSET " ++ m.repr)]
  | none, none => []

/-- The clause with its keyword. -/
def pieces : Clause → List Piece
  | .insert table modifier =>
    .text "INSERT " :: (modifier.elim [] fun m => [.text m, .text " "]) ++ [.text "INTO ", .name table]
  | .values columns rows =>
    if columns.isEmpty then [.text "DEFAULT VALUES"]
    else .text "(" :: columnPieces columns ++ .text ") VALUES " :: Piece.commaSeparated (rows.map rowPieces)
  | .select columns distinct =>
    .text "SELECT " :: (if distinct then [.text "DISTINCT "] else []) ++ columnsOrAll columns
  | .from tables => .text "FROM " :: columnPieces tables
  | .where conditions => .text "WHERE " :: (Expression.conditionTokens conditions).flatMap Token.pieces
  | .update table => [.text "UPDATE ", .name table]
  | .set assignments => .text "SET " :: Piece.commaSeparated (assignments.map assignmentPieces)
  | .delete => [.text "DELETE"]
  | .orderBy terms => .text "ORDER BY " :: Piece.commaSeparated (terms.map termPieces)
  | .limit rows offset => limitPieces rows offset
  | .returning columns => .text "RETURNING " :: columnsOrAll columns
  | .onConflict c => conflictPieces c

end Clause

end SqlPipeline
