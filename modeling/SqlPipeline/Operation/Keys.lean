/-
  SqlPipeline.Operation.Keys — the primary keys of a destination.

  A key that is absent or zero is not set. A statement is narrowed to the keys that are:
  one record to an equality, a list to a membership.
-/

import SqlPipeline.Statement.Basic

namespace SqlPipeline

namespace Operation

variable {ρ : Type} [Record ρ]

/-- Whether a row's key is still to be assigned. -/
def isUnset (dest : ρ) (column : String) (row : Nat) : Bool := (Record.value dest row column).all Value.isZero

/-- The keys set in the first rows, in row order. -/
def setKeys (dest : ρ) (column : String) (rows : Nat) : List Value :=
  ((List.range rows).filterMap (Record.value dest · column)).filter (!·.isZero)

/-- The rows a shape has keys in. -/
def keyedRows? : Shape → Option Nat
  | .record => some 1
  | .list n => some n
  | .map => none
  | .unusable => none

/-- The condition that a row has one of the keys. -/
def keyCondition? (shape : Shape) (column : String) : List Value → Option Expression
  | [] => none
  | [key] => some (if shape = .record then .compare column .eq key else .member column [key])
  | keys => some (.member column keys)

/-- The condition that narrows a statement to its destination. -/
def keyConditionOf? (s : Statement ρ) : Option Expression := do
  let schema ← s.schema
  let key ← schema.primary?
  let rows ← keyedRows? s.shape
  let dest ← s.destination?
  keyCondition? s.shape key.name (setKeys dest key.name rows)

def addKeyCondition (s : Statement ρ) : Statement ρ := (keyConditionOf? s).elim s s.suchThat

end Operation

end SqlPipeline
