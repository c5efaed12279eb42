/-
  SqlPipeline.Proofs.Placement.Free — candidates that declare nothing.

  They follow nothing, so the visit takes them as it meets them, and all are of the middle
  group. `compile_free`: they run in the order of their slots.
-/

import SqlPipeline.Proofs.Placement.Compile

namespace SqlPipeline

open Placement

variable {α : Type}

/-- Declares no place. -/
def Candidate.Free (c : Candidate α) : Prop := c.before = none ∧ c.after = none

theorem flaw?_free {c : Candidate α} (h : c.Free) : c.flaw? = none := by
  rw [flaw?_eq_none_iff]
  simp [Candidate.Precedes, Candidate.Torn, h.1, h.2]

theorem group_free {c : Candidate α} (h : c.Free) : c.group = .middle := by
  simp [Candidate.group, h.1, h.2]

theorem edges_free {cs : List (Candidate α)} (h : ∀ c ∈ cs, c.Free) (i : Fin cs.length) : edges cs i = [] := by
  unfold edges
  rw [List.flatMap_eq_nil_iff]
  intro p _
  have hp : cs[p.val].Free := h _ (List.getElem_mem p.isLt)
  have hi : cs[i.val].Free := h _ (List.getElem_mem i.isLt)
  simp [edgesBetween, hp.1, hi.2]

theorem place_free {cs : List (Candidate α)} (h : ∀ c ∈ cs, c.Free) {waiting : List (Fin cs.length)}
    {i : Fin cs.length} (hi : i ∈ waiting) (placed : List (Fin cs.length)) :
    place cs waiting i placed = .ok (placed ++ [i]) := by
  rw [place, if_pos hi, edges_free h, follow]

/-- Each one met is placed behind those before it. -/
theorem placeAll_free {cs : List (Candidate α)} (h : ∀ c ∈ cs, c.Free) (rest placed : List (Fin cs.length))
    (hnd : (placed ++ rest).Nodup) : placeAll cs rest placed = .ok (placed ++ rest) := by
  induction rest generalizing placed with
  | nil => rw [placeAll, List.append_nil]
  | cons i rest ih =>
    have hi : i ∉ placed := fun hm => List.disjoint_of_nodup_append hnd hm List.mem_cons_self
    have hnd' : ((placed ++ [i]) ++ rest).Nodup := by simpa using hnd
    rw [placeAll, if_neg hi, place_free h (List.mem_finRange i)]
    show placeAll cs rest (placed ++ [i]) = _
    rw [ih _ hnd', List.append_assoc, List.singleton_append]

theorem order_free {cs : List (Candidate α)} (h : ∀ c ∈ cs, c.Free) : order cs = .ok (List.finRange _) := by
  unfold order
  rw [placeAll_free h _ _ (by simpa using List.nodup_finRange _), List.nil_append]

theorem byGroup_free {cs : List (Candidate α)} (h : ∀ c ∈ cs, c.Free) : byGroup cs = cs := by
  have none_in : ∀ g : Group, g ≠ .middle → cs.filter (·.group = g) = [] := by
    intro g hg
    rw [List.filter_eq_nil_iff]
    intro c hc
    simpa [group_free (h c hc)] using hg.symm
  have all_in : cs.filter (·.group = .middle) = cs :=
    List.filter_eq_self.mpr fun c hc => by simp [group_free (h c hc)]
  rw [byGroup_eq, none_in .first (by decide), none_in .last (by decide), all_in, List.nil_append, List.append_nil]

/-- Candidates that declare nothing run slot by slot. -/
theorem compile_free {cs : List (Candidate α)} (h : ∀ c ∈ cs, c.Free) (hs : cs.Pairwise (·.slot ≤ ·.slot)) :
    compile cs = .ok { steps := cs, duplicates := duplicates [] cs } := by
  have hslot : bySlot cs = cs := List.mergeSort_of_pairwise (hs.imp fun hle => by simpa using hle)
  have hgroup : byGroup (bySlot cs) = cs := by rw [hslot, byGroup_free h]
  have hflaw : (bySlot cs).findSome? Candidate.flaw? = none := by
    rw [hslot, List.findSome?_eq_none_iff]
    exact fun c hc => flaw?_free (h c hc)
  have horder : order (byGroup (bySlot cs)) = .ok (List.finRange _) := order_free (by rw [hgroup]; exact h)
  have hsteps : (List.finRange _).map ((byGroup (bySlot cs))[·]) = byGroup (bySlot cs) :=
    List.map_getElem_finRange _
  simp only [compile, hflaw, horder]
  rw [hsteps, hgroup, hslot]

end SqlPipeline
