/-
  SqlPipeline.Pipeline.Live — which entries of a stage are in effect.

  A registry only grows. Of the entries of one name
  - a replacement supersedes every earlier one;
  - a removal suppresses all of them, later ones too, unless a replacement came after it.
  What is left is live, in the order of registration. A replacement stands in the slot of
  the name's first step, and without constraints of its own it keeps those declared last
  before it.
-/

import SqlPipeline.Pipeline.Step

namespace SqlPipeline

/-- A live step with the constraints it is placed by and the slot that breaks ties. -/
structure Candidate (α : Type) where
  name : String
  before : Option Anchor
  after : Option Anchor
  slot : Nat
  condition : Option (Config → Bool)
  action : α
  replacing : Bool
  site : Site

namespace Registry

variable {α : Type}

/-- The index of the last entry with a property. -/
def lastIndex? (p : Step α → Bool) (entries : List (Step α)) : Option Nat :=
  (entries.zipIdx.filter fun e => p e.1).getLast?.map (·.2)

def replacedAt? (entries : List (Step α)) (name : String) : Option Nat :=
  lastIndex? (fun s => s.name == name && s.isReplacement) entries

def removedAt? (entries : List (Step α)) (name : String) : Option Nat :=
  lastIndex? (fun s => s.name == name && s.isRemoval) entries

/-- Whether the name is taken out for good: removed, and not replaced since. -/
def isSuppressed (entries : List (Step α)) (name : String) : Bool :=
  match removedAt? entries name, replacedAt? entries name with
  | none, _ => false
  | some _, none => true
  | some removed, some replaced => replaced < removed

/-- Whether an entry at this index has a replacement behind it. -/
def isSuperseded (entries : List (Step α)) (name : String) (index : Nat) : Bool :=
  (replacedAt? entries name).any (index < ·)

def isLive (entries : List (Step α)) (name : String) (index : Nat) : Bool :=
  !isSuperseded entries name index && !isSuppressed entries name

/-- The constraints last declared for a name. -/
def declared (entries : List (Step α)) (name : String) : Option Anchor × Option Anchor :=
  ((entries.filter fun s => s.name == name && !s.isRemoval && s.hasConstraints).getLast?.map
    fun s => (s.before, s.after)).getD (none, none)

/-- The index of the first step of a name. -/
def firstSlot? (entries : List (Step α)) (name : String) : Option Nat :=
  entries.findIdx? fun s => s.name == name && !s.isRemoval

/-- The candidate that an entry is, if it is live. -/
def candidate? (entries : List (Step α)) (index : Nat) (s : Step α) : Option (Candidate α) :=
  if isLive entries s.name index then
    match s.role with
    | .removes => none
    | .adds action =>
      some { s with slot := index, action, replacing := false }
    | .replaces action =>
      let (before, after) :=
        if s.hasConstraints then (s.before, s.after) else declared (entries.take index) s.name
      some { s with before, after, slot := (firstSlot? entries s.name).getD index, action, replacing := true }
  else none

/-- The entries in effect, in the order of registration. -/
def live (entries : List (Step α)) : List (Candidate α) :=
  entries.zipIdx.filterMap fun (s, index) => candidate? entries index s

/-- The live entries whose condition holds. -/
def candidates (config : Config) (entries : List (Step α)) : List (Candidate α) :=
  (live entries).filter fun c => c.condition.all (· config)

/-- The names whose condition is asked when the candidates are determined. -/
def asked (entries : List (Step α)) : List String :=
  ((live entries).filter (·.condition.isSome)).map (·.name)

/-- The newest live action of a name, whatever its condition. -/
def lookup (entries : List (Step α)) (name : String) : Option α :=
  ((live entries).filter (·.name == name)).getLast?.map (·.action)

end Registry

end SqlPipeline
