/-
  SqlPipeline.Proofs.Placement.Order — the orders that honour what the candidates declare.

  An order honours its candidates when the three groups stand one behind the other and each
  candidate stands strictly before (after) every candidate of the name it wants to run
  before (after). A name nobody carries asks for nothing.

  `honours_demands`: only names and constraints matter. Candidates with the same demands,
  whatever their slots, can be ordered alike.
  `Honours.no_cycle`: in such an order nothing has to precede itself, over any number of
  steps in between.
-/

import Mathlib.Data.List.NodupEquivFin
import Mathlib.Data.List.Perm.Basic
import Mathlib.Logic.Relation
import SqlPipeline.Pipeline.Placement

namespace SqlPipeline

open Relation

variable {α : Type}

namespace Candidate

/-- `a` has to run before `b`, because one of the two says so by name. -/
def Precedes (a b : Candidate α) : Prop := a.before = some (.step b.name) ∨ b.after = some (.step a.name)

/-- Wants to be both first and last. -/
def Torn (c : Candidate α) : Prop := c.before = some .all ∧ c.after = some .all

/-- All that matters for placing a candidate, ties apart. -/
def demand (c : Candidate α) : String × Option Anchor × Option Anchor := (c.name, c.before, c.after)

end Candidate

open Candidate

/-- The candidates stand in an order that all of them agree to. -/
structure Honours (cs : List (Candidate α)) : Prop where
  groups : ∀ i j : Fin cs.length, (cs.get i).group.rank < (cs.get j).group.rank → i < j
  before : ∀ (i j : Fin cs.length) t, (cs.get i).before = some (.step t) → (cs.get j).name = t → i < j
  after : ∀ (i j : Fin cs.length) t, (cs.get i).after = some (.step t) → (cs.get j).name = t → j < i

/-! ## Groups and flaws -/

theorem group_first {c : Candidate α} (h : c.before = some .all) : c.group = .first := if_pos h

theorem group_last {c : Candidate α} (h : c.after = some .all) (ht : ¬ c.Torn) : c.group = .last := by
  have hb : c.before ≠ some .all := fun hb => ht ⟨hb, h⟩
  rw [Candidate.group, if_neg hb, if_pos h]

theorem first_of_rank {c : Candidate α} (h : c.group.rank = 0) : c.before = some .all := by
  unfold Candidate.group at h
  split at h
  · assumption
  · split at h <;> cases h

theorem last_of_rank {c : Candidate α} (h : c.group.rank = 2) : c.after = some .all := by
  unfold Candidate.group at h
  split at h
  · cases h
  · split at h
    · assumption
    · cases h

theorem rank_le_two (g : Group) : g.rank ≤ 2 := by cases g <;> decide

theorem flaw?_eq_none_iff (c : Candidate α) : c.flaw? = none ↔ ¬ c.Precedes c ∧ ¬ c.Torn := by
  unfold flaw? Precedes Torn
  split_ifs with hb ha ht <;> simp [*]

/-! ## Only demands matter -/

theorem demand_eq_iff {a b : Candidate α} :
    a.demand = b.demand ↔ a.name = b.name ∧ a.before = b.before ∧ a.after = b.after := by
  simp [demand]

theorem group_eq_of_demand {a b : Candidate α} (h : a.demand = b.demand) : a.group = b.group := by
  obtain ⟨-, hb, ha⟩ := demand_eq_iff.mp h
  unfold Candidate.group
  rw [hb, ha]

/-- Equal demands, position by position: what honours the ones honours the others. -/
theorem Honours.of_demands {cs ds : List (Candidate α)} (h : Honours cs) (hd : cs.map demand = ds.map demand) :
    Honours ds := by
  have same : ∀ i : Fin ds.length, ∃ k : Fin cs.length, k.val = i.val ∧ (cs.get k).demand = (ds.get i).demand := by
    intro i
    have hlen : cs.length = ds.length := by simpa using congrArg List.length hd
    have hk : i.val < cs.length := by have := i.isLt; omega
    refine ⟨⟨i.val, hk⟩, rfl, ?_⟩
    have := List.getElem_of_eq hd (i := i.val) (by simpa using hk)
    simpa using this
  refine ⟨fun i j hr => ?_, fun i j t hb hn => ?_, fun i j t ha hn => ?_⟩ <;>
    obtain ⟨k, hk, dk⟩ := same i <;> obtain ⟨l, hl, dl⟩ := same j
  · have : k < l := h.groups k l (by rw [group_eq_of_demand dk, group_eq_of_demand dl]; exact hr)
    omega
  · have : k < l := h.before k l t ((demand_eq_iff.mp dk).2.1.trans hb) ((demand_eq_iff.mp dl).1.trans hn)
    omega
  · have : l < k := h.after k l t ((demand_eq_iff.mp dk).2.2.trans ha) ((demand_eq_iff.mp dl).1.trans hn)
    omega

/-- Whether candidates can be ordered depends on nothing but their demands. -/
theorem honours_demands {cs ds : List (Candidate α)} (hd : (cs.map demand).Perm (ds.map demand))
    (h : ∃ l, l.Perm cs ∧ Honours l) : ∃ l, l.Perm ds ∧ Honours l := by
  obtain ⟨l, hl, ho⟩ := h
  have hp : (l.map demand).Perm (ds.map demand) := (hl.map demand).trans hd
  obtain ⟨m, hm, hmd⟩ : (Comp (fun u v => u = List.map demand v) List.Perm) (l.map demand) ds := by
    rw [List.eq_map_comp_perm]
    exact hp
  exact ⟨m, hmd, ho.of_demands hm⟩

/-- Some of the candidates, as they stood. -/
theorem Honours.sublist {cs ds : List (Candidate α)} (h : Honours cs) (hs : ds.Sublist cs) : Honours ds := by
  obtain ⟨f, hf⟩ := List.sublist_iff_exists_fin_orderEmbedding_get_eq.mp hs
  refine ⟨fun i j hr => ?_, fun i j t hb hn => ?_, fun i j t ha hn => ?_⟩
  · rw [hf, hf] at hr
    exact f.lt_iff_lt.mp (h.groups _ _ hr)
  · rw [hf] at hb hn
    exact f.lt_iff_lt.mp (h.before _ _ t hb hn)
  · rw [hf] at ha hn
    exact f.lt_iff_lt.mp (h.after _ _ t ha hn)

/-! ## Chains of constraints -/

/-- `Precedes` among the candidates of a list. -/
def PrecedesIn (cs : List (Candidate α)) (a b : Candidate α) : Prop := a ∈ cs ∧ b ∈ cs ∧ a.Precedes b

theorem PrecedesIn.perm {cs ds : List (Candidate α)} (h : cs.Perm ds) {a b : Candidate α}
    (hp : PrecedesIn cs a b) : PrecedesIn ds a b := ⟨h.mem_iff.mp hp.1, h.mem_iff.mp hp.2.1, hp.2.2⟩

theorem Honours.lt_of_precedes {cs : List (Candidate α)} (h : Honours cs) {i j : Fin cs.length}
    (hp : (cs.get i).Precedes (cs.get j)) : i < j := by
  rcases hp with hb | ha
  · exact h.before i j _ hb rfl
  · exact h.after j i _ ha rfl

theorem Honours.lt_of_chain {cs : List (Candidate α)} (h : Honours cs) {a b : Candidate α}
    (hc : TransGen (PrecedesIn cs) a b) : ∀ i j : Fin cs.length, (cs.get i) = a → (cs.get j) = b → i < j := by
  induction hc with
  | single hab =>
    rintro i j rfl rfl
    exact h.lt_of_precedes hab.2.2
  | tail _ hbc ih =>
    rintro i j rfl rfl
    obtain ⟨k, hk, he⟩ := List.getElem_of_mem hbc.1
    have hik : i < ⟨k, hk⟩ := ih i ⟨k, hk⟩ rfl he
    have hkj : (⟨k, hk⟩ : Fin cs.length) < j := h.lt_of_precedes (by simpa [he] using hbc.2.2)
    exact Nat.lt_trans hik hkj

theorem Honours.no_cycle {cs : List (Candidate α)} (h : Honours cs) (a : Candidate α) :
    ¬ TransGen (PrecedesIn cs) a a := by
  intro hc
  have hm : a ∈ cs := by
    obtain ⟨b, hab, -⟩ := TransGen.head'_iff.mp hc
    exact hab.1
  obtain ⟨i, hi, he⟩ := List.getElem_of_mem hm
  exact Nat.lt_irrefl _ (h.lt_of_chain hc ⟨i, hi⟩ ⟨i, hi⟩ he he)

/-- Nor does anything have to precede a candidate of an earlier group. -/
theorem Honours.rank_le {cs : List (Candidate α)} (h : Honours cs) {a b : Candidate α}
    (hp : PrecedesIn cs a b) : a.group.rank ≤ b.group.rank := by
  obtain ⟨i, hi, rfl⟩ := List.getElem_of_mem hp.1
  obtain ⟨j, hj, rfl⟩ := List.getElem_of_mem hp.2.1
  by_contra hr
  have hij : (⟨i, hi⟩ : Fin cs.length) < ⟨j, hj⟩ := h.lt_of_precedes hp.2.2
  have hji : (⟨j, hj⟩ : Fin cs.length) < ⟨i, hi⟩ := h.groups _ _ (by simpa using hr)
  exact Nat.lt_asymm hij hji

end SqlPipeline
