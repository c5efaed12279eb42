/-
  SqlPipeline.Proofs.Placement.Turns — the order candidates are met in.

  A candidate's turn is its group's and, within the group, its slot's. Candidates that share
  both keep the order they came in.

  - `filter_mergeSort_key`, `eq_of_filter_key`: sorting by a key keeps the members of each key
    as they stood, and that is all there is to know of the result.
  - `laidOut_eq`: taking the slots in order and then the groups is sorting by both at once.
-/

import Mathlib.Data.List.Permutation
import Mathlib.Data.Prod.Lex
import SqlPipeline.Proofs.Placement.Compile

namespace SqlPipeline

open Placement

/-! ## Sorting by a key -/

section

variable {β κ : Type} [LinearOrder κ] {key : β → κ}

theorem key_trans (a b c : β) : decide (key a ≤ key b) = true → decide (key b ≤ key c) = true →
    decide (key a ≤ key c) = true := by
  intro hab hbc
  simp only [decide_eq_true_eq] at hab hbc ⊢
  exact le_trans hab hbc

theorem key_total (a b : β) : (decide (key a ≤ key b) || decide (key b ≤ key a)) = true := by
  simpa using le_total (key a) (key b)

variable (key) in
theorem pairwise_mergeSort_key (l : List β) :
    (l.mergeSort fun a b => key a ≤ key b).Pairwise fun a b => key a ≤ key b :=
  (List.pairwise_mergeSort key_trans key_total l).imp fun h => by simpa using h

variable (key) in
/-- Members of one key stay as they stood. -/
theorem filter_mergeSort_key (l : List β) (k : κ) :
    (l.mergeSort fun a b => key a ≤ key b).filter (key · = k) = l.filter (key · = k) := by
  have hsorted : (l.filter (key · = k)).Pairwise fun a b => decide (key a ≤ key b) = true := by
    refine List.pairwise_of_forall_mem_list fun a ha b hb => ?_
    have hak : key a = k := by simpa using (List.mem_filter.mp ha).2
    have hbk : key b = k := by simpa using (List.mem_filter.mp hb).2
    simp [hak, hbk]
  have hsub := (List.sublist_mergeSort key_trans key_total hsorted List.filter_sublist).filter (key · = k)
  rw [List.filter_filter] at hsub
  simp only [Bool.and_self] at hsub
  exact (hsub.eq_of_length ((List.mergeSort_perm l _).filter _).length_eq.symm).symm

theorem mem_of_filter_key {l m : List β} (h : ∀ k, l.filter (key · = k) = m.filter (key · = k)) {x : β}
    (hx : x ∈ l) : x ∈ m := by
  have hk : x ∈ l.filter (key · = key x) := List.mem_filter.mpr ⟨hx, by simp⟩
  rw [h] at hk
  exact (List.mem_filter.mp hk).1

/-- Two sorted lists with the same members of each key are the same. -/
theorem eq_of_filter_key {l m : List β} (hl : l.Pairwise fun a b => key a ≤ key b)
    (hm : m.Pairwise fun a b => key a ≤ key b)
    (h : ∀ k, l.filter (key · = k) = m.filter (key · = k)) : l = m := by
  induction l generalizing m with
  | nil =>
    cases m with
    | nil => rfl
    | cons y m => exact absurd (mem_of_filter_key (fun k => (h k).symm) List.mem_cons_self) List.not_mem_nil
  | cons x l ih =>
    cases m with
    | nil => exact absurd (mem_of_filter_key h List.mem_cons_self) List.not_mem_nil
    | cons y m =>
      obtain ⟨hx, hl'⟩ := List.pairwise_cons.mp hl
      obtain ⟨hy, hm'⟩ := List.pairwise_cons.mp hm
      have hxy : key x ≤ key y := by
        have hmem : y ∈ x :: l := mem_of_filter_key (fun k => (h k).symm) List.mem_cons_self
        rcases List.mem_cons.mp hmem with rfl | hin
        · exact le_refl _
        · exact hx y hin
      have hyx : key y ≤ key x := by
        have hmem : x ∈ y :: m := mem_of_filter_key h List.mem_cons_self
        rcases List.mem_cons.mp hmem with rfl | hin
        · exact le_refl _
        · exact hy x hin
      -- the two heads share a key, so they head the same members
      have hk : key y = key x := le_antisymm hyx hxy
      have hhead := h (key x)
      simp only [List.filter_cons, hk, decide_true, if_true, List.cons.injEq] at hhead
      obtain ⟨rfl, -⟩ := hhead
      congr 1
      refine ih hl' hm' fun k => ?_
      have hcons := h k
      by_cases hxk : key x = k
      · simpa [List.filter_cons, hxk] using hcons
      · simpa [List.filter_cons, hxk] using hcons

theorem split_of_pairwise_key {l : List β} (hl : l.Pairwise fun a b => key a ≤ key b) (k : κ) :
    ∃ a b, l = a ++ b ∧ (∀ y ∈ a, key y ≤ k) ∧ ∀ y ∈ b, k < key y := by
  induction l with
  | nil => exact ⟨[], [], rfl, by simp, by simp⟩
  | cons x l ih =>
    obtain ⟨hx, hl'⟩ := List.pairwise_cons.mp hl
    by_cases hk : key x ≤ k
    · obtain ⟨a, b, rfl, ha, hb⟩ := ih hl'
      refine ⟨x :: a, b, rfl, fun y hy => ?_, hb⟩
      rcases List.mem_cons.mp hy with rfl | hy
      · exact hk
      · exact ha y hy
    · have hk : k < key x := lt_of_not_ge hk
      refine ⟨[], x :: l, rfl, by simp, fun y hy => ?_⟩
      rcases List.mem_cons.mp hy with rfl | hy
      · exact hk
      · exact lt_of_lt_of_le hk (hx y hy)

variable (key) in
/-- One more at the end comes behind those of its key, and the others stay. -/
theorem mergeSort_snoc (l : List β) (x : β) :
    ∃ a b, (l.mergeSort fun a b => key a ≤ key b) = a ++ b ∧
      ((l ++ [x]).mergeSort fun a b => key a ≤ key b) = a ++ x :: b ∧
      (∀ y ∈ a, key y ≤ key x) ∧ ∀ y ∈ b, key x < key y := by
  have hsorted : (l.mergeSort fun a b => key a ≤ key b).Pairwise fun a b => key a ≤ key b := pairwise_mergeSort_key key l
  obtain ⟨a, b, hab, ha, hb⟩ := split_of_pairwise_key hsorted (key x)
  rw [hab] at hsorted
  refine ⟨a, b, hab, eq_of_filter_key (pairwise_mergeSort_key key _) ?_ fun k => ?_, ha, hb⟩
  · obtain ⟨ha', hb', hcross⟩ := List.pairwise_append.mp hsorted
    refine List.pairwise_append.mpr ⟨ha', List.pairwise_cons.mpr ⟨fun y hy => le_of_lt (hb y hy), hb'⟩, ?_⟩
    intro y hy z hz
    rcases List.mem_cons.mp hz with rfl | hz
    · exact ha y hy
    · exact hcross y hy z hz
  · have hold : l.filter (key · = k) = a.filter (key · = k) ++ b.filter (key · = k) := by
      rw [← filter_mergeSort_key key l k, hab, List.filter_append]
    rw [filter_mergeSort_key, List.filter_append, hold, List.filter_append, List.filter_cons]
    by_cases hx : key x = k
    · have hnone : b.filter (key · = k) = [] := by
        rw [List.filter_eq_nil_iff]
        intro y hy hyk
        have hyk : key y = k := by simpa using hyk
        exact absurd (hb y hy) (by rw [hyk, hx]; exact lt_irrefl k)
      simp [hx, hnone]
    · simp [hx]

end

/-! ## Turns -/

variable {α : Type}

namespace Candidate

/-- The group comes first, then the slot. -/
def turn (c : Candidate α) : Nat ×ₗ Nat := toLex (c.group.rank, c.slot)

theorem turn_le_iff {a b : Candidate α} :
    a.turn ≤ b.turn ↔ a.group.rank < b.group.rank ∨ a.group.rank = b.group.rank ∧ a.slot ≤ b.slot :=
  Prod.Lex.toLex_le_toLex

theorem turn_eq_iff {c : Candidate α} {k : Nat ×ₗ Nat} :
    c.turn = k ↔ c.group.rank = (ofLex k).1 ∧ c.slot = (ofLex k).2 := by
  rw [turn, ← ofLex_inj, ofLex_toLex, Prod.ext_iff]

end Candidate

/-- The candidates in turn. -/
def laidOut (cs : List (Candidate α)) : List (Candidate α) := cs.mergeSort fun a b => a.turn ≤ b.turn

theorem bySlot_pairwise (cs : List (Candidate α)) : (bySlot cs).Pairwise (·.slot ≤ ·.slot) :=
  pairwise_mergeSort_key Candidate.slot cs

theorem filter_byGroup (cs : List (Candidate α)) (r : Nat) :
    (byGroup cs).filter (·.group.rank = r) = cs.filter (·.group.rank = r) := by
  have part : ∀ g : Group, (cs.filter (·.group = g)).filter (·.group.rank = r) =
      if g.rank = r then cs.filter (·.group.rank = r) else [] := by
    intro g
    rw [List.filter_filter]
    split
    · next hg =>
      refine List.filter_congr fun c _ => ?_
      have hiff : c.group.rank = r ↔ c.group = g := by
        rw [← hg]
        cases c.group <;> cases g <;> simp [Group.rank]
      simp [hiff]
    · next hg =>
      rw [List.filter_eq_nil_iff]
      intro c _ hc
      simp only [Bool.and_eq_true, decide_eq_true_eq] at hc
      exact hg (hc.2 ▸ hc.1)
  rw [byGroup_eq, List.filter_append, List.filter_append, part, part, part]
  match r with
  | 0 | 1 | 2 => simp [Group.rank]
  | r + 3 =>
    have hnone : cs.filter (·.group.rank = r + 3) = [] := by
      rw [List.filter_eq_nil_iff]
      intro c _ hc
      have := rank_le_two c.group
      simp only [decide_eq_true_eq] at hc
      omega
    simp [hnone]

/-- Between groups the ranks go up, and within a group the slots. -/
theorem grouped_pairwise (cs : List (Candidate α)) :
    (byGroup (bySlot cs)).Pairwise fun a b => a.turn ≤ b.turn := by
  rw [List.pairwise_iff_forall_sublist]
  intro a b hab
  rw [Candidate.turn_le_iff]
  have hrank : a.group.rank ≤ b.group.rank := List.pairwise_iff_forall_sublist.mp (byGroup_pairwise _) hab
  rcases Nat.lt_or_eq_of_le hrank with hlt | heq
  · exact Or.inl hlt
  · refine Or.inr ⟨heq, ?_⟩
    -- the group alone stands as it stood by slots
    have hsub := hab.filter (·.group.rank = b.group.rank)
    rw [filter_byGroup] at hsub
    simp only [heq, List.filter_cons, decide_true, if_true, List.filter_nil] at hsub
    exact List.pairwise_iff_forall_sublist.mp (bySlot_pairwise cs) (hsub.trans List.filter_sublist)

theorem filter_turn (cs : List (Candidate α)) (k : Nat ×ₗ Nat) :
    cs.filter (·.turn = k) = (cs.filter (·.slot = (ofLex k).2)).filter (·.group.rank = (ofLex k).1) := by
  rw [List.filter_filter]
  refine List.filter_congr fun c _ => ?_
  simp [Candidate.turn_eq_iff]

theorem laidOut_eq (cs : List (Candidate α)) : laidOut cs = byGroup (bySlot cs) := by
  refine eq_of_filter_key (pairwise_mergeSort_key Candidate.turn cs) (grouped_pairwise cs) fun k => ?_
  calc (laidOut cs).filter (·.turn = k)
    _ = (cs.filter (·.slot = (ofLex k).2)).filter (·.group.rank = (ofLex k).1) :=
      (filter_mergeSort_key Candidate.turn cs k).trans (filter_turn cs k)
    _ = ((bySlot cs).filter (·.slot = (ofLex k).2)).filter (·.group.rank = (ofLex k).1) :=
      congrArg _ (filter_mergeSort_key Candidate.slot cs _).symm
    _ = ((bySlot cs).filter (·.group.rank = (ofLex k).1)).filter (·.slot = (ofLex k).2) := List.filter_comm ..
    _ = ((byGroup (bySlot cs)).filter (·.group.rank = (ofLex k).1)).filter (·.slot = (ofLex k).2) := by
      rw [filter_byGroup]
    _ = (byGroup (bySlot cs)).filter (·.turn = k) := (List.filter_comm ..).trans (filter_turn _ k).symm

end SqlPipeline
