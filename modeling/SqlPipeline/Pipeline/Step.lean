/-
  SqlPipeline.Pipeline.Step — named actions with a place in the order.

  A step may demand to run before or after another step, named or all of them. Steps are
  never edited once they are registered: a later entry supersedes the earlier ones of its
  name, and another kind of entry takes the name out.
-/

import SqlPipeline.Settings.Basic

namespace SqlPipeline

/-- What a step is placed against. -/
inductive Anchor where
  | all
  | step (name : String)
  deriving DecidableEq, Repr

namespace Anchor

/-- A star means all steps. -/
def ofText (s : String) : Anchor := if s = "*" then .all else .step s

def text : Anchor → String
  | .all => "*"
  | .step name => name

def name? : Anchor → Option String
  | .all => none
  | .step name => some name

end Anchor

inductive Constraint where
  | before (a : Anchor)
  | after (a : Anchor)
  deriving DecidableEq, Repr

def Constraint.text : Constraint → String
  | .before a => "before `" ++ a.text ++ "`"
  | .after a => "after `" ++ a.text ++ "`"

/-- A step with a constraint that cannot hold together with the others. -/
structure Conflict where
  step : String
  constraint : Constraint
  deriving DecidableEq, Repr

def Conflict.message (c : Conflict) : String :=
  "conflicting step `" ++ c.step ++ "`: cannot run " ++ c.constraint.text

/-- The place in a program a registration was made from. -/
structure Site where
  label : String
  deriving DecidableEq, Repr

/-- A step registered under a name that was taken. -/
structure Duplicate where
  name : String
  site : Site
  deriving DecidableEq, Repr

def Duplicate.message (d : Duplicate) : String :=
  "duplicated step `" ++ d.name ++ "` from " ++ d.site.label

/-- What an entry does to the steps of its name. -/
inductive Role (α : Type) where
  /-- Adds one. -/
  | adds (action : α)
  /-- Supersedes the earlier ones. -/
  | replaces (action : α)
  /-- Takes them out, the later ones included. -/
  | removes

/-- One entry of a stage's registry, with actions of type `α`. -/
structure Step (α : Type) where
  name : String
  before : Option Anchor := none
  after : Option Anchor := none
  condition : Option (Config → Bool) := none
  role : Role α
  site : Site

namespace Step

variable {α : Type}

def isRemoval (s : Step α) : Bool :=
  match s.role with
  | .removes => true
  | _ => false

def isReplacement (s : Step α) : Bool :=
  match s.role with
  | .replaces _ => true
  | _ => false

def hasConstraints (s : Step α) : Bool := s.before.isSome || s.after.isSome

end Step

end SqlPipeline
