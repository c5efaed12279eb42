/-
  SqlPipeline.Proofs.Placement.Displaced — who runs ahead of its turn, and for whose sake.

  The visit takes the candidates turn by turn, and places before each what it has to follow.
  So whatever is placed is placed for the sake of a candidate whose turn it is, and everything
  that is still to come has its turn no earlier than that one.

  - `placeAll_claimed`: of two candidates the one placed first is claimed by one whose turn is
    no later than the other's.
  - `displaced_only_when_forced`: so a candidate that runs ahead of its turn precedes, over a
    chain of constraints, one whose turn comes before. Without constraints all run in turn.
-/

import SqlPipeline.Proofs.Placement.Turns

namespace SqlPipeline

open Relation

variable {α : Type}

namespace Placement

variable {cs : List (Candidate α)}

variable (cs) in
/-- `x` is a candidate whose turn is no later than that of `y`, or has to precede one. -/
def Claimed (x y : Fin cs.length) : Prop := ∃ k, k ≤ y ∧ ReflTransGen (Leads cs) x k

/-- The turns go up in what is still to do, so a candidate placed at its turn claims all that
    it pulls forward against all that is to come. -/
theorem placeAll_claimed : ∀ todo placed result : List (Fin cs.length), Settled cs placed → todo.Pairwise (· < ·) →
    (∀ x, x ∈ placed ∨ x ∈ todo) → placed.Pairwise (Claimed cs) →
    (∀ x ∈ placed, ∀ y, y ∉ placed → Claimed cs x y) → placeAll cs todo placed = .ok result →
    result.Pairwise (Claimed cs) := by
  intro todo
  induction todo with
  | nil =>
    intro placed result _ _ _ hpairs _ h
    rw [placeAll] at h
    cases h
    exact hpairs
  | cons i rest ih =>
    intro placed result hs ht hall hpairs hcross h
    obtain ⟨hi, hrest⟩ := List.pairwise_cons.mp ht
    rw [placeAll] at h
    by_cases hp : i ∈ placed
    · rw [if_pos hp] at h
      exact ih placed result hs hrest (placed_or_to_do hall (fun _ hx => hx) hp) hpairs hcross h
    rw [if_neg hp] at h
    have hplace := place_at_turn hs hp
    cases hpl : place cs (List.finRange cs.length) i placed with
    | error c => rw [hpl] at h; cases h
    | ok middle =>
      rw [hpl] at h hplace
      obtain ⟨added, rfl, hadded⟩ := hplace.1.added
      have hdisjoint : ∀ x ∈ added, x ∉ placed := fun x hx hxp =>
        (List.nodup_append.mp hplace.1.settled.nodup).2.2 x hxp x hx rfl
      -- what was not placed before is to do, so its turn is not before that of `i`
      have hturn : ∀ y, y ∉ placed → i ≤ y := by
        intro y hy
        rcases List.mem_cons.mp ((hall y).resolve_left hy) with rfl | hy
        · exact Nat.le_refl _
        · exact Nat.le_of_lt (hi y hy)
      have hclaim : ∀ x ∈ added, ∀ y, y ∉ placed → Claimed cs x y := fun x hx y hy =>
        ⟨i, hturn y hy, (hadded x hx).2.1⟩
      have hall' := placed_or_to_do hall (fun x hx => hplace.1.subset hx) (hplace.2 i (List.mem_singleton_self i))
      refine ih (placed ++ added) result hplace.1.settled hrest hall' ?_ (fun x hx y hy => ?_) h
      · refine List.pairwise_append.mpr ⟨hpairs, ?_, fun x hx y hy => hcross x hx y (hdisjoint y hy)⟩
        exact List.pairwise_of_forall_mem_list fun x hx y hy => hclaim x hx y (hdisjoint y hy)
      · have hyp : y ∉ placed := fun hyp => hy (List.mem_append_left _ hyp)
        rcases List.mem_append.mp hx with hx | hx
        · exact hcross x hx y hyp
        · exact hclaim x hx y hyp

theorem order_claimed {positions : List (Fin cs.length)} (h : order cs = .ok positions) :
    positions.Pairwise (Claimed cs) :=
  placeAll_claimed _ [] positions .nil (List.pairwise_lt_finRange _) (fun x => Or.inr (List.mem_finRange x)) .nil
    (by simp) h

theorem claimed_of_idxOf {positions : List (Fin cs.length)} (h : positions.Pairwise (Claimed cs))
    {x y : Fin cs.length} (hy : y ∈ positions) (hxy : positions.idxOf x < positions.idxOf y) : Claimed cs x y := by
  have hylt : positions.idxOf y < positions.length := List.idxOf_lt_length_of_mem hy
  have hxlt : positions.idxOf x < positions.length := by omega
  have := List.pairwise_iff_getElem.mp h _ _ hxlt hylt hxy
  simpa using this

/-- Where nothing leads anything, all are placed in turn. -/
theorem order_of_unled {positions : List (Fin cs.length)} (h : order cs = .ok positions)
    (hp : positions.Perm (List.finRange _)) (hfree : ∀ a b, ¬ Leads cs a b) : positions = List.finRange _ := by
  have hsorted : positions.Pairwise (· ≤ ·) := by
    refine (order_claimed h).imp fun {x y} hxy => ?_
    obtain ⟨k, hk, hc⟩ := hxy
    rcases reflTransGen_iff_eq_or_transGen.mp hc with rfl | hc
    · exact hk
    · obtain ⟨b, hb, -⟩ := TransGen.head'_iff.mp hc
      exact absurd hb (hfree x b)
  refine hp.eq_of_pairwise (fun a b _ _ hab hba => Fin.le_antisymm hab hba) hsorted ?_
  exact (List.pairwise_lt_finRange _).imp fun hab => Nat.le_of_lt hab

end Placement

open Placement

theorem compile_order {cs : List (Candidate α)} {c : Compiled α} (h : compile cs = .ok c) :
    ∃ positions, order (byGroup (bySlot cs)) = .ok positions ∧ positions.Perm (List.finRange _) ∧
      c.steps = positions.map (byGroup (bySlot cs)).get := by
  rw [compile_flawless (compile_ok h).2.2.2] at h
  have ho := order_outcome (byGroup_sorted (bySlot cs))
  cases horder : order (byGroup (bySlot cs)) with
  | error conflict => rw [horder] at h; cases h
  | ok positions =>
    rw [horder] at h ho
    cases h
    exact ⟨positions, rfl, ho.1.perm ho.2.2, rfl⟩

/-- The steps are those laid out, rearranged. Where `j` runs before `i` though it stands behind
    it, `j` has to precede, over a chain of constraints, one that is `i` or stands ahead of it. -/
def ForcedFrom (laid steps : List (Candidate α)) : Prop :=
  ∃ positions : List (Fin laid.length), positions.Perm (List.finRange _) ∧ steps = positions.map laid.get ∧
    ∀ i j, i < j → positions.idxOf j < positions.idxOf i →
      ∃ k, k ≤ i ∧ TransGen (fun a b => (laid.get a).Precedes (laid.get b)) j k

/-- A candidate runs ahead of its turn only where constraints force it. Where no candidate has
    to precede another, all run in turn. -/
theorem displaced_only_when_forced {cs : List (Candidate α)} {c : Compiled α} (h : compile cs = .ok c) :
    ForcedFrom (laidOut cs) c.steps ∧ ((∀ a ∈ cs, ∀ b ∈ cs, ¬ a.Precedes b) → c.steps = laidOut cs) := by
  rw [laidOut_eq]
  obtain ⟨positions, horder, hperm, hsteps⟩ := compile_order h
  refine ⟨⟨positions, hperm, hsteps, fun i j hij hpos => ?_⟩, fun hfree => ?_⟩
  · have hi : i ∈ positions := hperm.mem_iff.mpr (List.mem_finRange i)
    obtain ⟨k, hk, hc⟩ := claimed_of_idxOf (order_claimed horder) hi hpos
    refine ⟨k, hk, ?_⟩
    rcases reflTransGen_iff_eq_or_transGen.mp hc with rfl | hc
    · exact absurd hk (Nat.not_le_of_lt hij)
    · exact hc
  · have hmem : ∀ x : Fin (byGroup (bySlot cs)).length, (byGroup (bySlot cs)).get x ∈ cs := fun x =>
      (grouped_perm cs).mem_iff.mp (List.getElem_mem x.isLt)
    rw [hsteps, order_of_unled horder hperm fun a b => hfree _ (hmem a) _ (hmem b), List.map_get_finRange]

/-- The stamp runs before the check, which was there first, because the audit that was there
    before both waits for it. -/
theorem displaced_stamp :
    let step (name : String) (after : Option Anchor) (slot : Nat) : Candidate Unit :=
      { name, before := none, after, slot, condition := none, action := (), replacing := false, site := ⟨"setup"⟩ }
    let audit := step "audit" (some (.step "stamp")) 0
    let check := step "check" none 1
    let stamp := step "stamp" none 2
    let cs := [audit, check, stamp]
    compile cs = .ok { steps := [stamp, audit, check] } ∧ ForcedFrom (laidOut cs) [stamp, audit, check] ∧
      ((∀ a ∈ cs, ∀ b ∈ cs, ¬ a.Precedes b) → [stamp, audit, check] = laidOut cs) := by
  intro step audit check stamp cs
  have h : compile cs = .ok { steps := [stamp, audit, check] } := by cbv
  exact ⟨h, displaced_only_when_forced h⟩

end SqlPipeline
