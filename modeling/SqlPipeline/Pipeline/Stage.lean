/-
  SqlPipeline.Pipeline.Stage — one registry and one compiled pipeline per operation.

  Every registration compiles at once. When that fails the entry stays, the stage is stale
  and has nothing to run, until a later registration compiles again. A duplicate is warned
  about once, by name and site, however often the stage is compiled.
-/

import SqlPipeline.Pipeline.Placement
import SqlPipeline.Pipeline.StageKind

namespace SqlPipeline

/-- The clauses a stage writes when a statement names none. -/
def StageKind.clauses (config : Config) : StageKind → List String
  | .create => config.createClauses
  | .query => config.queryClauses
  | .row => config.queryClauses
  | .update => config.updateClauses
  | .delete => config.deleteClauses
  | .raw => []

structure Stage (α : Type) where
  kind : StageKind
  clauses : List String
  /-- Every entry ever made. -/
  entries : List (Step α) := []
  /-- Nothing while the stage is stale. -/
  compiled : Option (Compiled α) := some {}
  warned : List Duplicate := []

/-- What a registration leads to besides a new stage. -/
structure Registration (α : Type) where
  stage : Stage α
  /-- Messages for the logger. -/
  notices : List (Severity × String) := []
  /-- Steps whose condition was asked. -/
  asked : List String := []
  result : Except Conflict Unit

namespace Stage

variable {α : Type}

def new (config : Config) (kind : StageKind) : Stage α := { kind, clauses := kind.clauses config }

def isStale (st : Stage α) : Bool := st.compiled.isNone

/-- Step names in the order they run. -/
def order? (st : Stage α) : Option (List String) := st.compiled.map fun c => c.steps.map (·.name)

def duplicates (st : Stage α) : List Duplicate := (st.compiled.map (·.duplicates)).getD []

def lookup (st : Stage α) (name : String) : Option α := Registry.lookup st.entries name

/-- The duplicates not warned about so far, each once. -/
def unwarned (warned : List Duplicate) : List Duplicate → List Duplicate
  | [] => []
  | d :: ds => if d ∈ warned then unwarned warned ds else d :: unwarned (warned ++ [d]) ds

/-- The notice that precedes compilation. -/
def announcement (s : Step α) : List (Severity × String) :=
  match s.role with
  | .adds _ => []
  | .replaces _ => [(.info, "replacing callback `" ++ s.name ++ "` from " ++ s.site.label)]
  | .removes => [(.warn, "removing callback `" ++ s.name ++ "` from " ++ s.site.label)]

/-- Adds an entry and compiles. -/
def register (config : Config) (st : Stage α) (s : Step α) : Registration α :=
  let entries := st.entries ++ [s]
  let asked := Registry.asked entries
  match compile (Registry.candidates config entries) with
  | .ok compiled =>
    let fresh := unwarned st.warned compiled.duplicates
    { stage := { st with entries, compiled := some compiled, warned := st.warned ++ fresh }
      notices := announcement s ++
        fresh.map fun d => (.warn, st.kind.name ++ " callbacks: " ++ d.message)
      asked
      result := .ok () }
  | .error conflict =>
    { stage := { st with entries, compiled := none }
      notices := announcement s ++ [(.error, st.kind.name ++ " callbacks: " ++ conflict.message)]
      asked
      result := .error conflict }

end Stage

end SqlPipeline
