/-
  SqlPipeline.Proofs.Record.Shaped — the shape that was found out stays right.

  What a destination is, and how many rows it has, is found out once, when the statement gets
  ready. Until the statement is written only hooks get at the destination. They change what its
  rows hold, but not what it is, and they neither add rows nor take any away.

  - `resolve_shape`, `callHook_shape`: the two operations in between.
  - `hooked_shaped`: the shape of the statement is that of its destination when the executing
    step begins.
-/

import SqlPipeline.Proofs.Execution.Sending

namespace SqlPipeline

open Operation

variable {μ : Type}

/-! ## Destinations -/

theorem Model.callHook_length (m : Model μ) (h : Hook) (row : Nat) (xs : List μ) :
    (m.callHook h row xs).record.length = xs.length := by
  induction xs generalizing row with
  | nil => rfl
  | cons x xs ih =>
    rw [Model.callHook]
    cases m.hooks with
    | none => rfl
    | some call =>
      rcases hx : call h x with ⟨x', _ | e⟩
      · simp only [hx, List.length_cons, ih]
      · simp only [hx, List.length_cons]

namespace Destination

theorem resolve_shape (d : Destination μ) : d.resolve.1.resolve.2 = d.resolve.2 := by
  cases d <;> rfl

theorem callHook_shape (h : Hook) (d : Destination μ) : (d.callHook h).record.resolve.2 = d.resolve.2 := by
  cases d with
  | list m xs => exact congrArg Shape.list (m.callHook_length h 0 xs)
  | _ => rfl

theorem runHooks_shape (hooks : List Hook) (d : Destination μ) :
    (runHooks hooks d).record.resolve.2 = d.resolve.2 := by
  induction hooks generalizing d with
  | nil => rfl
  | cons h hooks ih => exact (ih _).trans (d.callHook_shape h)

end Destination

/-! ## Statements -/

namespace Statement

/-- The shape is that of the destination, if there is one. -/
def Shaped (s : Statement (Destination μ)) : Prop := ∀ d, s.destination? = some d → s.shape = d.resolve.2

theorem resolveDestination_some {s : Statement (Destination μ)} {d : Destination μ} (h : s.destination? = some d) :
    s.resolveDestination.destination? = some d.resolve.1 ∧ s.resolveDestination.shape = d.resolve.2 := by
  have hset : (s.setDestination d.resolve.1).destination? = some d.resolve.1 :=
    destination?_setDestination h d.resolve.1
  unfold resolveDestination
  rw [h, Option.map_some, show Record.resolve d = (d.resolve.1, d.resolve.2) from rfl]
  dsimp only
  split <;> exact ⟨hset, rfl⟩

theorem resolveDestination_shaped (s : Statement (Destination μ)) : s.resolveDestination.Shaped := by
  intro d hd
  cases hdest : s.destination? with
  | none =>
    have hsame : s.resolveDestination = s := by
      unfold resolveDestination
      rw [hdest]
      rfl
    rw [hsame, hdest] at hd
    cases hd
  | some d₀ =>
    obtain ⟨hresolved, hshape⟩ := resolveDestination_some hdest
    cases hresolved.symm.trans hd
    exact hshape.trans d₀.resolve_shape.symm

theorem addErrors_targets {ρ : Type} (errors : List Error) (s : Statement ρ) :
    (errors.foldl addError s).destination? = s.destination? ∧ (errors.foldl addError s).shape = s.shape := by
  induction errors generalizing s with
  | nil => exact ⟨rfl, rfl⟩
  | cons e errors ih => exact ih (s.addError e)

end Statement

theorem callHooks_shaped (hooks : List Hook) {r : Run (Destination μ)} (h : r.statement.Shaped) :
    (callHooks hooks r).statement.Shaped := by
  unfold callHooks
  split
  · exact h
  · split
    · exact h
    · next d hd =>
      intro d' hd'
      obtain ⟨hdest, hshape⟩ := Statement.addErrors_targets (runHooks hooks d).errors
        (r.statement.setDestination (runHooks hooks d).record)
      obtain ⟨-, hkept⟩ := r.statement.setDestination_same (runHooks hooks d).record
      cases (hdest.trans (Statement.destination?_setDestination hd _)).symm.trans hd'
      exact (hshape.trans hkept).trans ((h d hd).trans (d.runHooks_shape hooks).symm)

/-- When the executing step begins the shape is that of the destination. -/
theorem StageKind.hooked_shaped (env : Env) (kind : StageKind) (st : Stage Action) (r : Run (Destination μ)) :
    (kind.hooked (st.ready env r)).statement.Shaped :=
  callHooks_shaped _ (Statement.resolveDestination_shaped _)

end SqlPipeline
