/-
  SqlPipeline.Proofs.Hooks.Visits — which rows a hook gets to.

  A hook goes through the rows of a destination from the first on and ends at the first that
  fails, which it has visited. Hooks called one after the other each find the destination as
  the one before left it; a failure of one does not keep the next from being called.

  - `callHook_visits`: the rows that one hook visits, and its failure.
  - `runHooks_attempts`: a series of hooks attempts every one of them.
-/

import SqlPipeline.Operation.Hooks
import SqlPipeline.Record.Destination

namespace SqlPipeline

open Operation

variable {μ : Type}

/-- How many rows a hook gets to: those up to the first that fails, or all. -/
def reached (call : μ → Attempt μ) (xs : List μ) : Nat :=
  min (xs.findIdx (fun x => (call x).error.isSome) + 1) xs.length

theorem reached_cons (call : μ → Attempt μ) (x : μ) (xs : List μ) :
    reached call (x :: xs) = if (call x).error.isSome then 1 else reached call xs + 1 := by
  unfold reached
  rw [List.findIdx_cons]
  cases (call x).error.isSome <;> simp [Nat.add_min_add_right]

theorem Model.callHook_visits {m : Model μ} {call : Hook → μ → Attempt μ} (hm : m.hooks = some call) (h : Hook)
    (row : Nat) (xs : List μ) :
    (m.callHook h row xs).visited = List.range' row (reached (call h) xs) ∧
      (m.callHook h row xs).error = xs.findSome? fun x => (call h x).error := by
  induction xs generalizing row with
  | nil => exact ⟨rfl, rfl⟩
  | cons x xs ih =>
    obtain ⟨hvisited, herror⟩ := ih (row + 1)
    rw [Model.callHook, hm, reached_cons, List.findSome?_cons]
    rcases hx : call h x with ⟨x', _ | e⟩ <;> simp only [hx]
    · simp [hvisited, herror, List.range'_succ]
    · simp

namespace Destination

/-- The values whose hooks are called. -/
def rows : Destination μ → List μ
  | .one _ x => [x]
  | .list _ xs => xs
  | .optional _ x => x.toList
  | _ => []

def hooks? : Destination μ → Option (Hook → μ → Attempt μ)
  | .one m _ | .list m _ | .optional m _ => m.hooks
  | _ => none

/-- The rows a hook visits. -/
def visits (h : Hook) (d : Destination μ) : List Nat :=
  d.hooks?.elim [] fun call => List.range (reached (call h) d.rows)

/-- The failure of the first row that fails. -/
def failure? (h : Hook) (d : Destination μ) : Option Error :=
  d.hooks?.bind fun call => d.rows.findSome? fun x => (call h x).error

theorem callHook_visits (h : Hook) (d : Destination μ) :
    (Record.callHook h d).visited = d.visits h ∧ (Record.callHook h d).error = d.failure? h := by
  have hmodel : ∀ (m : Model μ) (xs : List μ),
      (m.callHook h 0 xs).visited = m.hooks.elim [] (fun call => List.range (reached (call h) xs)) ∧
        (m.callHook h 0 xs).error = m.hooks.bind fun call => xs.findSome? fun x => (call h x).error := by
    intro m xs
    cases hm : m.hooks with
    | none => cases xs <;> simp [Model.callHook, hm]
    | some call => simpa [List.range_eq_range'] using Model.callHook_visits hm h 0 xs
  cases d with
  | one m x => exact hmodel m [x]
  | list m xs => exact hmodel m xs
  | optional m x => exact hmodel m x.toList
  | map r => exact ⟨rfl, rfl⟩
  | scripted s => exact ⟨rfl, rfl⟩

/-- A series of hooks attempted one after the other, each on what the one before left. -/
def attempts : List Hook → Destination μ → List (Hook × Destination μ)
  | [], _ => []
  | h :: hooks, d => (h, d) :: attempts hooks (Record.callHook h d).record

theorem attempts_hooks (hooks : List Hook) (d : Destination μ) : (attempts hooks d).map (·.1) = hooks := by
  induction hooks generalizing d with
  | nil => rfl
  | cons h hooks ih => rw [attempts, List.map_cons, ih]

theorem runHooks_attempts (hooks : List Hook) (d : Destination μ) :
    (runHooks hooks d).visited = (attempts hooks d).flatMap (fun a => (a.2.visits a.1).map (a.1, ·)) ∧
      (runHooks hooks d).errors = (attempts hooks d).filterMap (fun a => a.2.failure? a.1) := by
  induction hooks generalizing d with
  | nil => exact ⟨rfl, rfl⟩
  | cons h hooks ih =>
    obtain ⟨hvisited, herror⟩ := callHook_visits h d
    obtain ⟨ihvisited, iherrors⟩ := ih (Record.callHook h d).record
    rw [runHooks, attempts, List.flatMap_cons, List.filterMap_cons, hvisited, herror, ihvisited, iherrors]
    refine ⟨rfl, ?_⟩
    cases d.failure? h <;> rfl

end Destination

end SqlPipeline
