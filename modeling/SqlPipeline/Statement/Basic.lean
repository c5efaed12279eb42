/-
  SqlPipeline.Statement.Basic — the state of one operation.

  Every step reads and writes the statement; steps return nothing else. A statement has a
  model, which it is about, and a destination, which results go to. Where only one is
  given the other stands for it, and writing to either then writes to the one value.
-/

import SqlPipeline.Edit
import SqlPipeline.Record.Basic

namespace SqlPipeline

/-- A model or a destination: a record, or whatever the other one holds. -/
inductive Slot (ρ : Type) where
  | value (r : ρ)
  | alias

structure Statement (ρ : Type) where
  /-- Every error so far. -/
  error : Option Error := none
  rowsAffected : Nat := 0
  /-- A table named for this statement, before the model's. -/
  table : Option String := none
  schema : Option Schema := none
  sql : Rendered := {}
  clauses : Clauses := {}
  /-- The clauses written by default, in order. -/
  buildClauses : List String := []
  model : Option (Slot ρ) := none
  dest : Option (Slot ρ) := none
  shape : Shape := .unusable
  /-- Deferred edits, the oldest first. -/
  scopes : List (List Edit) := []
  dryRun : Bool := false
  skipHooks : Bool := false
  /-- Whether a query without rows is an error. -/
  raiseNotFound : Bool := false
  /-- Columns to set in an update. -/
  assignments : List Assignment := []
  /-- The rows of a row query. -/
  rows : Option Rows := none

namespace Statement

variable {ρ : Type}

/-- A statement nothing was said about yet. -/
def fresh (config : Config) : Statement ρ := { dryRun := config.dryRun, skipHooks := config.skipHooks }

def failed (s : Statement ρ) : Bool := s.error.isSome

/-- Records an error after those recorded before. -/
def addError (s : Statement ρ) (e : Error) : Statement ρ := { s with error := some (e.added s.error) }

/-- Records an error, if there is one. -/
def note (s : Statement ρ) (e : Option Error) : Statement ρ := e.elim s s.addError

/-- The rows affected, or the error. -/
def result (s : Statement ρ) : Except Error Nat :=
  match s.error with
  | some e => .error e
  | none => .ok s.rowsAffected

/-! ## Model and destination -/

/-- The record of a slot whose other slot is `other`. -/
def held (slot other : Option (Slot ρ)) : Option ρ :=
  match slot, other with
  | some (.value r), _ => some r
  | some .alias, some (.value r) => some r
  | _, _ => none

def modelRecord? (s : Statement ρ) : Option ρ := held s.model s.dest

def destination? (s : Statement ρ) : Option ρ := held s.dest s.model

/-- Puts a changed record back where the destination is kept. -/
def setDestination (s : Statement ρ) (r : ρ) : Statement ρ :=
  match s.dest, s.model with
  | some (.value _), _ => { s with dest := some (.value r) }
  | some .alias, some (.value _) => { s with model := some (.value r) }
  | _, _ => s

/-- Where only one of model and destination is given, the other stands for it. -/
def normalizeTargets (s : Statement ρ) : Statement ρ :=
  match s.model, s.dest with
  | none, some _ => { s with model := some .alias }
  | some _, none => { s with dest := some .alias }
  | _, _ => s

/-- The named table, or else the schema's. -/
def tableName? (s : Statement ρ) : Option String := s.table <|> s.schema.map (·.table)

/-! ## Clauses and text -/

def clause? (s : Statement ρ) (name : String) : Option Clause := s.clauses.get? name

def addClause (s : Statement ρ) (c : Clause) : Statement ρ := { s with clauses := s.clauses.add c }

def addClauseIfAbsent (s : Statement ρ) (c : Clause) : Statement ρ :=
  { s with clauses := s.clauses.addIfAbsent c }

/-- Appends pieces to the text. -/
def write (s : Statement ρ) (d : Dialect) (pieces : List Piece) : Statement ρ :=
  { s with sql := s.sql.writeAll d pieces }

/-- Appends the named clauses to the text. -/
def build (s : Statement ρ) (d : Dialect) (names : List String) : Statement ρ :=
  s.write d (s.clauses.pieces names)

def buildDefault (s : Statement ρ) (d : Dialect) : Statement ρ := s.build d s.buildClauses

/-- Whether text was written. -/
def hasText (s : Statement ρ) : Bool := !s.sql.text.isEmpty

/-- Whether the statement names the clause to be written. -/
def writes (s : Statement ρ) (name : String) : Bool := s.buildClauses.contains name

/-- Whether any condition is set. -/
def hasConditions (s : Statement ρ) : Bool := (s.clause? "WHERE").any (!·.isEmpty)

/-! ## Chaining -/

def suchThat (s : Statement ρ) (e : Expression) : Statement ρ := s.addClause (.where [e])

def order (s : Statement ρ) (column : String) (descending : Bool) : Statement ρ :=
  s.addClause (.orderBy [{ column, descending }])

def limit (s : Statement ρ) (n : Nat) : Statement ρ := s.addClause (.limit (some n) none)

def offset (s : Statement ρ) (n : Nat) : Statement ρ := s.addClause (.limit none (some n))

def select (s : Statement ρ) (columns : List String) : Statement ρ := s.addClause (.select columns false)

def defer (s : Statement ρ) (scope : List Edit) : Statement ρ := { s with scopes := s.scopes ++ [scope] }

def assign (s : Statement ρ) (a : Assignment) : Statement ρ := { s with assignments := s.assignments ++ [a] }

/-- Replaces the text; question marks take the values in turn. -/
def raw (s : Statement ρ) (d : Dialect) (sql : String) (values : List Value) : Statement ρ :=
  { s with sql := Rendered.writeAll d {} (Expression.raw sql values).pieces }

/-! ## Preparation -/

variable [Record ρ]

/-- Adopts the model's schema. A value that describes no table is let pass when a table or
    a text is there already. -/
def readSchema (s : Statement ρ) : Statement ρ :=
  match s.modelRecord?.map Record.schema with
  | none => s
  | some (.ok schema) => { s with schema := some schema }
  | some (.error (.untabled what)) =>
    if s.table.isNone && !s.hasText then s.addError (.tableNotSet what) else s
  | some (.error e) => s.addError e

/-- Finds out what the destination is. -/
def resolveDestination (s : Statement ρ) : Statement ρ :=
  match s.destination?.map Record.resolve with
  | none => s
  | some (r, shape) =>
    let s := { s.setDestination r with shape }
    if shape = .unusable then s.addError .unusableDestination else s

/-! ## Reading -/

def view (s : Statement ρ) : StatementView where
  error := s.error
  rowsAffected := s.rowsAffected
  table := s.table
  schema := s.schema
  sql := s.sql
  clause? := s.clause?
  buildClauses := s.buildClauses
  model := s.modelRecord?.map Record.view
  dest := s.destination?.map Record.view
  shape := s.shape
  dryRun := s.dryRun
  skipHooks := s.skipHooks
  raiseNotFound := s.raiseNotFound
  assignments := s.assignments
  rows := s.rows

end Statement

end SqlPipeline
