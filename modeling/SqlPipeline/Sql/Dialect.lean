/-
  SqlPipeline.Sql.Dialect — what differs between databases when a statement is written.

  The pipeline never quotes an identifier or numbers a parameter itself; it asks the
  dialect. A dotted path is quoted part by part, and a star stays as it is.
-/

import SqlPipeline.Sql.Value

namespace SqlPipeline

/-- How parameters are spelled. -/
inductive Placeholder where
  /-- A question mark each. -/
  | question
  /-- A dollar sign and the parameter's position, from one. -/
  | numbered
  deriving DecidableEq, Repr

structure Dialect where
  name : String
  quote : Char := '"'
  placeholder : Placeholder := .question
  /-- Whether `RETURNING` is understood. -/
  returning : Bool := false
  /-- Whether `ON CONFLICT` is understood. -/
  upsert : Bool := false
  deriving DecidableEq, Repr

/-! ## Paths -/

/-- The parts between dots; there is always at least one. -/
def pathParts : List Char → List (List Char)
  | [] => [[]]
  | c :: cs =>
    if c = '.' then [] :: pathParts cs
    else match pathParts cs with
      | [] => [[c]]
      | part :: parts => (c :: part) :: parts

namespace Dialect

/-- ANSI SQL with either spelling of parameters. With numbered ones the database is taken
    to understand `RETURNING`. -/
def generic (placeholder : Placeholder) : Dialect :=
  { name := "generic", placeholder, returning := placeholder = .numbered, upsert := true }

def quotePart (d : Dialect) (part : List Char) : List Char :=
  if part = ['*'] then part else d.quote :: part ++ [d.quote]

def quotePath (d : Dialect) (path : List Char) : List Char :=
  ['.'].intercalate ((pathParts path).map d.quotePart)

def quoteIdentifier (d : Dialect) (name : String) : String := String.ofList (d.quotePath name.toList)

/-- The spelling of the parameter at a position. -/
def bind (d : Dialect) (position : Nat) : String :=
  match d.placeholder with
  | .question => "?"
  | .numbered => String.ofList ('$' :: Nat.toDigits 10 position)

end Dialect

end SqlPipeline
