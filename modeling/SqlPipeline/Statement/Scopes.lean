/-
  SqlPipeline.Statement.Scopes — deferred edits.

  Scopes are carried out when the statement executes, in batches: all that are pending,
  then all that those have queued, until none is pending. What a batch queues depends on
  the statement. It ends because a queued scope is a part of the one that queued it, and
  lists whose members are parts of members of the list before cannot go on for ever.
-/

import SqlPipeline.Statement.Run

namespace SqlPipeline

/-! ## Generations -/

/-- Each member of a list is below some member of the list before. -/
def Descends {α : Type} (r : α → α → Prop) (next batch : List α) : Prop :=
  batch ≠ [] ∧ ∀ a ∈ next, ∃ b ∈ batch, r a b

namespace Descends

variable {α : Type} {r : α → α → Prop}

theorem of_subset {next batch batch' : List α} (h : Descends r next batch) (hsub : batch ⊆ batch') :
    Descends r next batch' := by
  obtain ⟨hne, hbelow⟩ := h
  refine ⟨fun hnil => hne (List.subset_nil.mp (hnil ▸ hsub)), fun a ha => ?_⟩
  obtain ⟨b, hb, hab⟩ := hbelow a ha
  exact ⟨b, hsub hb, hab⟩

theorem acc_of_subset {batch batch' : List α} (h : Acc (Descends r) batch') (hsub : batch ⊆ batch') :
    Acc (Descends r) batch :=
  ⟨_, fun _ hnext => h.inv (hnext.of_subset hsub)⟩

theorem acc_append {batch batch' : List α} (h : Acc (Descends r) batch) (h' : Acc (Descends r) batch') :
    Acc (Descends r) (batch ++ batch') := by
  induction h generalizing batch' with
  | intro batch hacc ih =>
    rcases batch with _ | ⟨b, batch⟩
    · exact h'
    rcases batch' with _ | ⟨b', batch'⟩
    · rw [List.append_nil]
      exact ⟨_, hacc⟩
    refine ⟨_, fun next hnext => ?_⟩
    classical
    -- a member is below one of the first list or below one of the second
    have hfirst : Descends r (next.filter fun a => ∃ c ∈ b :: batch, r a c) (b :: batch) :=
      ⟨List.cons_ne_nil _ _, fun a ha => of_decide_eq_true (List.mem_filter.mp ha).2⟩
    have hsecond : Descends r (next.filter fun a => ∃ c ∈ b' :: batch', r a c) (b' :: batch') :=
      ⟨List.cons_ne_nil _ _, fun a ha => of_decide_eq_true (List.mem_filter.mp ha).2⟩
    refine acc_of_subset (ih _ hfirst (h'.inv hsecond)) fun a ha => ?_
    obtain ⟨c, hc, hac⟩ := hnext.2 a ha
    rcases List.mem_append.mp hc with hc | hc
    · exact List.mem_append_left _ (List.mem_filter.mpr ⟨ha, decide_eq_true ⟨c, hc, hac⟩⟩)
    · exact List.mem_append_right _ (List.mem_filter.mpr ⟨ha, decide_eq_true ⟨c, hc, hac⟩⟩)

theorem acc_nil : Acc (Descends r) [] := ⟨_, fun _ h => absurd rfl h.1⟩

theorem acc_of_forall {batch : List α} (h : ∀ a ∈ batch, Acc (Descends r) [a]) : Acc (Descends r) batch := by
  induction batch with
  | nil => exact acc_nil
  | cons a batch ih =>
    obtain ⟨ha, hbatch⟩ := List.forall_mem_cons.mp h
    exact acc_append ha (ih hbatch)

theorem acc_singleton {b : α} (h : Acc r b) : Acc (Descends r) [b] := by
  induction h with
  | intro b _ ih =>
    refine ⟨_, fun next hnext => acc_of_forall fun a ha => ?_⟩
    obtain ⟨b', hb', hab⟩ := hnext.2 a ha
    exact ih a (List.mem_singleton.mp hb' ▸ hab)

/-- If nothing goes down for ever, neither do lists. -/
theorem wellFounded (h : WellFounded r) : WellFounded (Descends r) :=
  ⟨fun _ => acc_of_forall fun a _ => acc_singleton (h.apply a)⟩

end Descends

/-! ## Scopes -/

namespace Edit

/-- A scope within another. -/
abbrev Within : List Edit → List Edit → Prop := Relation.TransGen PartOf

theorem within_wellFounded : WellFounded Within := partOf_wellFounded.transGen

end Edit

namespace Run

variable {ρ : Type}

theorem setDestination_scopes (s : Statement ρ) (x : ρ) : (s.setDestination x).scopes = s.scopes := by
  unfold Statement.setDestination
  split <;> rfl

variable [Record ρ]

theorem edit_scopes (env : Env) (r : Run ρ) {e : Edit} (h : e.isPlain = true) :
    (r.edit env e).statement.scopes = r.statement.scopes := by
  cases e with
  | setField row column v =>
    show (r.setField row column v).statement.scopes = _
    unfold setField
    split
    · rfl
    · exact setDestination_scopes _ _
  | look next => cases h
  | defer scope => cases h
  | _ => rfl

/-- Edits queue nothing but what is within them. -/
theorem edits_scopes (env : Env) (es : List Edit) (r : Run ρ) :
    ∀ scope ∈ (r.edits env es).statement.scopes, scope ∈ r.statement.scopes ∨ Edit.Within scope es := by
  induction es using Edit.induct generalizing r with
  | nil => exact fun _ hscope => Or.inl hscope
  | look next es hnext ih =>
    intro scope hscope
    rcases ih _ scope hscope with hscope | hscope
    · rcases hnext r.statement.view r scope hscope with hscope | hscope
      · exact Or.inl hscope
      · exact Or.inr (hscope.tail (.next next r.statement.view es))
    · exact Or.inr (hscope.tail (.rest _ es))
  | defer queued es _ ih =>
    intro scope hscope
    rcases ih _ scope hscope with hscope | hscope
    · rcases List.mem_append.mp hscope with hscope | hscope
      · exact Or.inl hscope
      · obtain rfl := List.mem_singleton.mp hscope
        exact Or.inr (.single (.scope scope es))
    · exact Or.inr (hscope.tail (.rest _ es))
  | plain e es hplain ih =>
    intro scope hscope
    rcases ih _ scope hscope with hscope | hscope
    · exact Or.inl (edit_scopes env r hplain ▸ hscope)
    · exact Or.inr (hscope.tail (.rest e es))

/-- Carries out a batch of scopes. -/
def applyBatch (env : Env) (batch : List (List Edit)) (r : Run ρ) : Run ρ :=
  batch.foldl (fun r scope => r.edits env scope) r

theorem applyBatch_scopes (env : Env) (batch : List (List Edit)) (r : Run ρ) :
    ∀ scope ∈ (r.applyBatch env batch).statement.scopes,
      scope ∈ r.statement.scopes ∨ ∃ queuing ∈ batch, Edit.Within scope queuing := by
  induction batch generalizing r with
  | nil => exact fun _ hscope => Or.inl hscope
  | cons first batch ih =>
    intro scope hscope
    rcases ih (r.edits env first) scope hscope with hscope | ⟨queuing, hq, hscope⟩
    · rcases edits_scopes env first r scope hscope with hscope | hscope
      · exact Or.inl hscope
      · exact Or.inr ⟨first, List.mem_cons_self, hscope⟩
    · exact Or.inr ⟨queuing, List.mem_cons_of_mem first hq, hscope⟩

/-- Carries out everything that is pending, and everything that this queues. -/
def applyScopes (env : Env) (r : Run ρ) : Run ρ :=
  if r.statement.scopes = [] then r
  else applyScopes env ((r.modify fun s => { s with scopes := [] }).applyBatch env r.statement.scopes)
termination_by (Descends.wellFounded Edit.within_wellFounded).wrap r.statement.scopes
decreasing_by
  refine ⟨‹_›, fun scope hscope => ?_⟩
  rcases applyBatch_scopes env _ _ scope hscope with hold | hnew
  · exact nomatch hold
  · exact hnew

end Run

end SqlPipeline
