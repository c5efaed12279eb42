/-
  SqlPipeline.Pipeline.Placement — one order for the candidates of a stage.

  Candidates are laid out by slot and split, order kept, into three groups: those before
  everything, those without a wildcard, those after everything. Then each is placed behind
  all it has to follow, predecessors first, depth by depth. A candidate that names itself,
  wants to be first and last, follows one of a later group, or follows one that is still
  waiting for it, is in conflict.

  The recursion ends because a candidate that is being placed is no longer waiting.
-/

import SqlPipeline.Pipeline.Live

namespace SqlPipeline

/-- The parts of a pipeline, in order. -/
inductive Group where
  | first | middle | last
  deriving DecidableEq, Repr

def Group.rank : Group → Nat
  | .first => 0
  | .middle => 1
  | .last => 2

namespace Candidate

variable {α : Type}

def group (c : Candidate α) : Group :=
  if c.before = some .all then .first else if c.after = some .all then .last else .middle

/-- What is wrong with a candidate on its own: it names itself, or wants to be both first
    and last. -/
def flaw? (c : Candidate α) : Option Conflict :=
  if c.before = some (.step c.name) then some ⟨c.name, .before (.step c.name)⟩
  else if c.after = some (.step c.name) then some ⟨c.name, .after (.step c.name)⟩
  else if c.before = some .all ∧ c.after = some .all then some ⟨c.name, .after .all⟩
  else none

end Candidate

namespace Placement

variable {α : Type}

def bySlot (cs : List (Candidate α)) : List (Candidate α) := cs.mergeSort fun a b => a.slot ≤ b.slot

/-- The candidates by group, each group as it stood. -/
def byGroup (cs : List (Candidate α)) : List (Candidate α) :=
  [Group.first, .middle, .last].flatMap fun g => cs.filter (·.group = g)

/-- The steps that come second under their name, or later. A replacement is none. -/
def duplicates (seen : List String) : List (Candidate α) → List Duplicate
  | [] => []
  | c :: cs =>
    (if c.name ∈ seen ∧ c.replacing = false then [⟨c.name, c.site⟩] else []) ++
      duplicates (c.name :: seen) cs

/-! ## Placing one behind another -/

/-- `pred` has to come first because of what `owner` declares. -/
structure Edge (n : Nat) where
  pred : Fin n
  owner : Fin n
  constraint : Constraint

section

variable (cs : List (Candidate α))

def edgesBetween (p i : Fin cs.length) : List (Edge cs.length) :=
  (if cs[p].before = some (.step cs[i].name) then [⟨p, p, .before (.step cs[i].name)⟩] else []) ++
    (if cs[i].after = some (.step cs[p].name) then [⟨p, i, .after (.step cs[p].name)⟩] else [])

/-- Everything a candidate has to follow, in the order of the list. -/
def edges (i : Fin cs.length) : List (Edge cs.length) :=
  (List.finRange cs.length).flatMap fun p => edgesBetween cs p i

def Edge.conflict (e : Edge cs.length) : Conflict := ⟨cs[e.owner].name, e.constraint⟩

mutual

/-- Places a candidate, unless it is being placed already. -/
def place (waiting : List (Fin cs.length)) (i : Fin cs.length) (placed : List (Fin cs.length)) :
    Except Conflict (List (Fin cs.length)) :=
  if i ∈ waiting then
    match follow (waiting.erase i) i (edges cs i) placed with
    | .ok placed => .ok (placed ++ [i])
    | .error c => .error c
  else .ok placed
termination_by (waiting.length, 0)
decreasing_by
  have := List.length_erase_of_mem ‹i ∈ waiting›
  have := List.length_pos_of_mem ‹i ∈ waiting›
  exact Prod.Lex.left _ _ (by omega)

/-- Places what a candidate has to follow. -/
def follow (waiting : List (Fin cs.length)) (i : Fin cs.length) :
    List (Edge cs.length) → List (Fin cs.length) → Except Conflict (List (Fin cs.length))
  | [], placed => .ok placed
  | e :: es, placed =>
    if cs[i].group.rank < cs[e.pred].group.rank then .error (e.conflict cs)
    else if e.pred ∈ placed then follow waiting i es placed
    else if e.pred ∈ waiting then
      match place waiting e.pred placed with
      | .ok placed => follow waiting i es placed
      | .error c => .error c
    else .error (e.conflict cs)
termination_by es => (waiting.length, es.length + 1)

end

/-- Places those of the list that are not placed yet, one after the other. -/
def placeAll : List (Fin cs.length) → List (Fin cs.length) → Except Conflict (List (Fin cs.length))
  | [], placed => .ok placed
  | i :: rest, placed =>
    if i ∈ placed then placeAll rest placed
    else
      match place cs (List.finRange cs.length) i placed with
      | .ok placed => placeAll rest placed
      | .error c => .error c

/-- The positions of the candidates in the order they run. -/
def order : Except Conflict (List (Fin cs.length)) := placeAll cs (List.finRange cs.length) []

end

end Placement

/-- A pipeline ready to run. -/
structure Compiled (α : Type) where
  steps : List (Candidate α) := []
  duplicates : List Duplicate := []

open Placement in
/-- The pipeline of a list of candidates, or what stands against it. -/
def compile {α : Type} (candidates : List (Candidate α)) : Except Conflict (Compiled α) :=
  let slotted := bySlot candidates
  match slotted.findSome? Candidate.flaw? with
  | some conflict => .error conflict
  | none =>
    let cs := byGroup slotted
    match order cs with
    | .ok positions => .ok { steps := positions.map (cs[·]), duplicates := duplicates [] slotted }
    | .error conflict => .error conflict

end SqlPipeline
