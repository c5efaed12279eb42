/-
  SqlPipeline.Proofs.Placement.Compile — when candidates compile, and to what.

  - `compile_ok`: a pipeline holds every candidate once, in an order that honours them all.
  - `compile_error`: a conflict is never spurious. Some candidate wants to be both first and
    last, or no order at all honours the candidates.
  - `conflict_iff_no_order`: the two together. Slots play no part in whether there is a
    conflict, and the visit of the candidates always ends.
-/

import SqlPipeline.Proofs.Placement.Marks

namespace SqlPipeline

open Placement Candidate

variable {α : Type}

/-! ## Laying out -/

theorem bySlot_perm (cs : List (Candidate α)) : (bySlot cs).Perm cs := List.mergeSort_perm cs _

theorem byGroup_eq (cs : List (Candidate α)) :
    byGroup cs = cs.filter (·.group = .first) ++ (cs.filter (·.group = .middle) ++ cs.filter (·.group = .last)) := by
  simp [byGroup]

theorem byGroup_perm (cs : List (Candidate α)) : (byGroup cs).Perm cs := by
  induction cs with
  | nil => exact List.Perm.refl _
  | cons c cs ih =>
    rw [byGroup_eq] at ih ⊢
    cases hg : c.group with
    | first =>
      simp only [List.filter_cons, hg, decide_true, if_true, reduceCtorEq, decide_false, Bool.false_eq_true, if_false]
      exact ih.cons c
    | middle =>
      simp only [List.filter_cons, hg, decide_true, if_true, reduceCtorEq, decide_false, Bool.false_eq_true, if_false]
      exact List.perm_middle.trans (ih.cons c)
    | last =>
      simp only [List.filter_cons, hg, decide_true, if_true, reduceCtorEq, decide_false, Bool.false_eq_true, if_false]
      rw [← List.append_assoc] at ih ⊢
      exact List.perm_middle.trans (ih.cons c)

theorem byGroup_pairwise (cs : List (Candidate α)) :
    (byGroup cs).Pairwise fun a b => a.group.rank ≤ b.group.rank := by
  have rank : ∀ {g : Group} {c : Candidate α}, c ∈ cs.filter (·.group = g) → c.group.rank = g.rank := by
    intro g c hc
    rw [of_decide_eq_true (List.mem_filter.mp hc).2]
  have within : ∀ g : Group, (cs.filter (·.group = g)).Pairwise fun a b => a.group.rank ≤ b.group.rank := fun g =>
    List.pairwise_of_forall_mem_list fun a ha b hb => by rw [rank ha, rank hb]
  rw [byGroup_eq]
  refine List.pairwise_append.mpr ⟨within _, List.pairwise_append.mpr ⟨within _, within _, ?_⟩, ?_⟩
  · intro a ha b hb
    rw [rank ha, rank hb]
    decide
  · intro a ha b _
    rw [rank ha]
    exact Nat.zero_le _

theorem byGroup_sorted (cs : List (Candidate α)) : GroupSorted (byGroup cs) (List.finRange _) :=
  (List.pairwise_lt_finRange _).imp fun {i j : Fin _} hij =>
    List.pairwise_iff_getElem.mp (byGroup_pairwise cs) i.val j.val i.isLt j.isLt hij

/-! ## Compiling -/

theorem mem_bySlot {cs : List (Candidate α)} {c : Candidate α} : c ∈ bySlot cs ↔ c ∈ cs := (bySlot_perm cs).mem_iff

theorem grouped_perm (cs : List (Candidate α)) : (byGroup (bySlot cs)).Perm cs :=
  (byGroup_perm _).trans (bySlot_perm cs)

/-- A candidate that names itself cannot stand before itself. -/
theorem no_order_of_self {cs : List (Candidate α)} {c : Candidate α} (hc : c ∈ cs) (hs : c.Precedes c)
    {l : List (Candidate α)} (hp : l.Perm cs) : ¬ Honours l := by
  intro ho
  have hm : c ∈ l := hp.mem_iff.mpr hc
  exact ho.no_cycle c (.single ⟨hm, hm, hs⟩)

/-- A flawed candidate is in conflict, or one met before it is. -/
theorem compile_flawed {cs : List (Candidate α)} (h : ∃ x ∈ cs, x.flaw? ≠ none) :
    ∃ x ∈ cs, ∃ c, x.flaw? = some c ∧ compile cs = .error c := by
  cases hf : (bySlot cs).findSome? flaw? with
  | none =>
    obtain ⟨x, hx, hne⟩ := h
    exact absurd (List.findSome?_eq_none_iff.mp hf x (mem_bySlot.mpr hx)) hne
  | some c =>
    obtain ⟨x, hx, hxf⟩ := List.exists_of_findSome?_eq_some hf
    exact ⟨x, mem_bySlot.mp hx, c, hxf, by simp only [compile, hf]⟩

/-- Without flaws it is for the visit to find an order. -/
theorem compile_flawless {cs : List (Candidate α)} (h : ∀ x ∈ cs, x.flaw? = none) :
    compile cs = (order (byGroup (bySlot cs))).map fun positions =>
      { steps := positions.map (byGroup (bySlot cs)).get, duplicates := duplicates [] (bySlot cs) } := by
  have hf : (bySlot cs).findSome? flaw? = none :=
    List.findSome?_eq_none_iff.mpr fun x hx => h x (mem_bySlot.mp hx)
  simp only [compile, hf]
  cases order (byGroup (bySlot cs)) <;> rfl

/-- What compiling comes to: a pipeline of flawless candidates, or a conflict for a reason. -/
theorem compile_cases (cs : List (Candidate α)) :
    (∃ c, compile cs = .ok c ∧ c.steps.Perm cs ∧ Honours c.steps ∧ c.duplicates = duplicates [] (bySlot cs) ∧
      ∀ x ∈ cs, x.flaw? = none) ∨
    (∃ c, compile cs = .error c ∧ ((∃ x ∈ cs, x.Torn) ∨ ∀ l : List (Candidate α), l.Perm cs → ¬ Honours l)) := by
  cases hf : (bySlot cs).findSome? flaw? with
  | some c =>
    right
    refine ⟨c, by simp only [compile, hf], ?_⟩
    obtain ⟨x, hx, hxf⟩ := List.exists_of_findSome?_eq_some hf
    have hxm : x ∈ cs := mem_bySlot.mp hx
    by_cases ht : x.Torn
    · exact Or.inl ⟨x, hxm, ht⟩
    · have hs : x.Precedes x := by
        by_contra hs
        rw [(flaw?_eq_none_iff x).mpr ⟨hs, ht⟩] at hxf
        cases hxf
      exact Or.inr fun l hl => no_order_of_self hxm hs hl
  | none =>
    have h := order_outcome (byGroup_sorted (bySlot cs))
    cases ho : order (byGroup (bySlot cs)) with
    | error c =>
      rw [ho] at h
      right
      refine ⟨c, by simp only [compile, hf, ho], Or.inr fun l hl => ?_⟩
      exact Fault.no_order h (hl.trans (grouped_perm cs).symm)
    | ok positions =>
      rw [ho] at h
      left
      refine ⟨_, by simp only [compile, hf, ho]; rfl, ?_, order_honours h.1 h.2.1, rfl, fun x hx => ?_⟩
      · exact (order_perm h.1 h.2.2).trans (grouped_perm cs)
      · exact List.findSome?_eq_none_iff.mp hf x (mem_bySlot.mpr hx)

theorem compile_ok {cs : List (Candidate α)} {c : Compiled α} (h : compile cs = .ok c) :
    c.steps.Perm cs ∧ Honours c.steps ∧ c.duplicates = duplicates [] (bySlot cs) ∧ ∀ x ∈ cs, x.flaw? = none := by
  rcases compile_cases cs with ⟨c', h', hc⟩ | ⟨e, h', -⟩
  · rw [h] at h'
    cases h'
    exact hc
  · rw [h] at h'
    cases h'

theorem compile_error {cs : List (Candidate α)} {e : Conflict} (h : compile cs = .error e) :
    (∃ x ∈ cs, x.Torn) ∨ ∀ l : List (Candidate α), l.Perm cs → ¬ Honours l := by
  rcases compile_cases cs with ⟨c', h', -⟩ | ⟨e', -, hr⟩
  · rw [h] at h'
    cases h'
  · exact hr

theorem compile_error_iff (cs : List (Candidate α)) :
    (∃ e, compile cs = .error e) ↔ (∃ c ∈ cs, c.Torn) ∨ ¬ ∃ l, l.Perm cs ∧ Honours l := by
  constructor
  · rintro ⟨e, he⟩
    rcases compile_error he with ht | hn
    · exact Or.inl ht
    · exact Or.inr fun ⟨l, hl, ho⟩ => hn l hl ho
  · intro h
    cases hc : compile cs with
    | error e => exact ⟨e, rfl⟩
    | ok c =>
      obtain ⟨hp, ho, -, hf⟩ := compile_ok hc
      rcases h with ⟨x, hx, ht⟩ | hn
      · exact absurd ht ((flaw?_eq_none_iff x).mp (hf x hx)).2
      · exact absurd ⟨c.steps, hp, ho⟩ hn

/-- What compiles does so with fewer candidates too, in whatever order. -/
theorem compile_filter {cs : List (Candidate α)} {old : Compiled α} (h : compile cs = .ok old)
    (p : Candidate α → Bool) : ∃ new, compile (cs.filter p) = .ok new ∧ new.steps.Perm (old.steps.filter p) := by
  obtain ⟨hp, ho, -, hf⟩ := compile_ok h
  cases hc : compile (cs.filter p) with
  | ok new => exact ⟨new, rfl, (compile_ok hc).1.trans (hp.filter p).symm⟩
  | error e =>
    rcases compile_error hc with ⟨x, hx, ht⟩ | hn
    · exact absurd ht ((flaw?_eq_none_iff x).mp (hf x (List.mem_of_mem_filter hx))).2
    · exact absurd (ho.sublist List.filter_sublist) (hn _ (hp.filter p))

theorem torn_of_demands {cs ds : List (Candidate α)} (hd : (cs.map demand).Perm (ds.map demand))
    (h : ∃ c ∈ cs, c.Torn) : ∃ c ∈ ds, c.Torn := by
  obtain ⟨c, hc, hb, ha⟩ := h
  obtain ⟨d, hd, he⟩ := List.mem_map.mp (hd.mem_iff.mp (List.mem_map_of_mem hc))
  obtain ⟨-, hb', ha'⟩ := demand_eq_iff.mp he
  exact ⟨d, hd, hb'.trans hb, ha'.trans ha⟩

theorem compile_error_of_demands {cs ds : List (Candidate α)} (hd : (cs.map demand).Perm (ds.map demand))
    (h : ∃ e, compile cs = .error e) : ∃ e, compile ds = .error e := by
  rw [compile_error_iff] at h ⊢
  rcases h with ht | hn
  · exact Or.inl (torn_of_demands hd ht)
  · exact Or.inr fun ho => hn (honours_demands hd.symm ho)

/-- There is a conflict exactly when a candidate wants to be both first and last or no order
    honours the candidates, whatever their slots; and visiting the candidates ends, in one
    way. -/
theorem conflict_iff_no_order (cs : List (Candidate α)) :
    ((∃ e, compile cs = .error e) ↔
      (∃ c ∈ cs, c.before = some .all ∧ c.after = some .all) ∨ ¬ ∃ l, l.Perm cs ∧ Honours l) ∧
    (∀ ds : List (Candidate α), (ds.map demand).Perm (cs.map demand) →
      ((∃ e, compile ds = .error e) ↔ ∃ e, compile cs = .error e)) ∧
    ∃ out, Runs (byGroup (bySlot cs)) (.all (List.finRange _)) .start out ∧
      order (byGroup (bySlot cs)) = out.map (·.placed) ∧
      ∀ out', Runs (byGroup (bySlot cs)) (.all (List.finRange _)) .start out' → out' = out :=
  ⟨compile_error_iff cs, fun _ hd => ⟨compile_error_of_demands hd, compile_error_of_demands hd.symm⟩,
    exists_run _⟩

end SqlPipeline
