/-
  SqlPipeline.Proofs.Execution.Untouched — what hooks leave alone.

  Hooks work on the destination and may fail. They reach neither the pool nor anything that
  is written: not the text, not the clauses, not the clause names.
-/

import SqlPipeline.Proofs.Execution.Idle

namespace SqlPipeline

open Operation

variable {ρ : Type}

/-- Text, clauses and clause names are as they were. -/
structure Statement.Unwritten (s s' : Statement ρ) : Prop where
  sql : s'.sql = s.sql
  clauses : s'.clauses = s.clauses
  buildClauses : s'.buildClauses = s.buildClauses

namespace Statement

theorem Unwritten.refl (s : Statement ρ) : Unwritten s s := ⟨rfl, rfl, rfl⟩

theorem Unwritten.trans {s s' s'' : Statement ρ} (h : Unwritten s s') (h' : Unwritten s' s'') : Unwritten s s'' :=
  ⟨h'.sql.trans h.sql, h'.clauses.trans h.clauses, h'.buildClauses.trans h.buildClauses⟩

theorem setDestination_unwritten (s : Statement ρ) (x : ρ) : Unwritten s (s.setDestination x) := by
  unfold setDestination
  split <;> exact ⟨rfl, rfl, rfl⟩

theorem addErrors_unwritten (errors : List Error) (s : Statement ρ) : Unwritten s (errors.foldl addError s) := by
  induction errors generalizing s with
  | nil => exact Unwritten.refl s
  | cons e errors ih =>
    have h : Unwritten s (s.addError e) := ⟨rfl, rfl, rfl⟩
    exact h.trans (ih (s.addError e))

theorem note_unwritten (s : Statement ρ) (e : Option Error) : Unwritten s (s.note e) := by
  cases e <;> exact ⟨rfl, rfl, rfl⟩

theorem setDestination_self {s : Statement ρ} {x : ρ} (h : s.destination? = some x) : s.setDestination x = s := by
  unfold destination? at h
  unfold setDestination
  split
  · next y hd =>
    rw [hd] at h
    cases h
    rw [← hd]
  · next y hd hm =>
    rw [hd, hm] at h
    cases h
    rw [← hm]
  · rfl

theorem destination?_setDestination {s : Statement ρ} {x : ρ} (h : s.destination? = some x) (y : ρ) :
    (s.setDestination y).destination? = some y := by
  unfold destination? at h
  unfold setDestination destination?
  rcases hd : s.dest with _ | x' | _ <;> rcases hm : s.model with _ | x'' | _ <;> simp_all [held]

theorem setDestination_same (s : Statement ρ) (x : ρ) :
    (s.setDestination x).schema = s.schema ∧ (s.setDestination x).shape = s.shape := by
  unfold setDestination
  split <;> exact ⟨rfl, rfl⟩

end Statement

/-- Nothing was sent, and nothing of the text touched. -/
structure Run.Untouched (r r' : Run ρ) : Prop where
  calls : r'.calls = r.calls
  statement : r.statement.Unwritten r'.statement

theorem Run.Untouched.refl (r : Run ρ) : Untouched r r := ⟨rfl, Statement.Unwritten.refl _⟩

theorem Run.emit_calls {effects : List Effect} (h : ∀ e ∈ effects, e.call? = none) (r : Run ρ) :
    (r.emit effects).calls = r.calls := by
  have hnone : effects.filterMap Effect.call? = [] := List.filterMap_eq_nil_iff.mpr h
  rw [calls, emit, List.filterMap_append, hnone, List.append_nil, calls]

variable [Record ρ]

theorem callHooks_untouched (hooks : List Hook) (r : Run ρ) : Run.Untouched r (callHooks hooks r) := by
  unfold callHooks
  split
  · exact Run.Untouched.refl r
  · split
    · exact Run.Untouched.refl r
    · next dest _ =>
      refine ⟨?_, ?_⟩
      · refine Run.emit_calls (fun e he => ?_) _
        obtain ⟨v, -, rfl⟩ := List.mem_map.mp he
        rfl
      · exact (Statement.setDestination_unwritten _ _).trans (Statement.addErrors_unwritten _ _)

end SqlPipeline
