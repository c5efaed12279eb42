/-
  SqlPipeline.Proofs.Placement.Alike — what the order of candidates depends on.

  Placing looks at names and constraints, and at slots to break ties. Whatever else a candidate
  carries comes along. So
  - `compile_map`: candidates changed in nothing of the three compile as they did before the
    change, to the same order or the same conflict;
  - `compile_perm`: where no two share a slot, it does not matter how they were handed over.
-/

import SqlPipeline.Proofs.Placement.Inserted
import SqlPipeline.Proofs.Placement.Turns

namespace SqlPipeline

open Placement Candidate

variable {α β : Type}

/-! ## One by one -/

theorem flaw?_eq_of_demand {a : Candidate α} {b : Candidate β} (h : a.demand = b.demand) : a.flaw? = b.flaw? := by
  simp only [demand, Prod.mk.injEq] at h
  obtain ⟨hn, hb, ha⟩ := h
  unfold flaw?
  rw [hn, hb, ha]

namespace Placement

section

variable {f : Candidate α → Candidate β} (hd : ∀ c, (f c).demand = c.demand)
include hd

theorem name_alike (c : Candidate α) : (f c).name = c.name := congrArg Prod.fst (hd c)

theorem before_alike (c : Candidate α) : (f c).before = c.before := congrArg (·.2.1) (hd c)

theorem after_alike (c : Candidate α) : (f c).after = c.after := congrArg (·.2.2) (hd c)

theorem group_alike (c : Candidate α) : (f c).group = c.group := by
  unfold Candidate.group
  rw [before_alike hd, after_alike hd]

end

/-! ## Positions -/

section

variable (f : Candidate α → Candidate β) (cs : List (Candidate α))

/-- The same position, among the candidates as they are changed. -/
def alongside (i : Fin cs.length) : Fin (cs.map f).length := i.cast (List.length_map f).symm

theorem get_alongside (i : Fin cs.length) : (cs.map f).get (alongside f cs i) = f (cs.get i) := List.getElem_map f

variable {cs} in
theorem mem_alongside {i : Fin cs.length} {l : List (Fin cs.length)} :
    alongside f cs i ∈ l.map (alongside f cs) ↔ i ∈ l :=
  List.mem_map_of_injective (Fin.cast_injective _)

theorem erase_alongside (i : Fin cs.length) (l : List (Fin cs.length)) :
    (l.map (alongside f cs)).erase (alongside f cs i) = (l.erase i).map (alongside f cs) :=
  (List.map_erase (Fin.cast_injective _) l).symm

theorem finRange_alongside : List.finRange (cs.map f).length = (List.finRange cs.length).map (alongside f cs) := by
  refine List.ext_getElem (by simp) fun i hi hi' => ?_
  simp [alongside]

end

/-! ## The visit -/

section

variable {f : Candidate α → Candidate β} (hd : ∀ c, (f c).demand = c.demand) (cs : List (Candidate α))
include hd

theorem edgesBetween_map (p i : Fin cs.length) :
    edgesBetween (cs.map f) (alongside f cs p) (alongside f cs i) =
      (edgesBetween cs p i).map (Edge.moved (alongside f cs)) := by
  have hp : (cs.map f)[alongside f cs p] = f cs[p] := get_alongside f cs p
  have hi : (cs.map f)[alongside f cs i] = f cs[i] := get_alongside f cs i
  unfold edgesBetween
  rw [hp, hi, name_alike hd, name_alike hd, before_alike hd, after_alike hd]
  split_ifs <;> rfl

theorem edges_map (i : Fin cs.length) :
    edges (cs.map f) (alongside f cs i) = (edges cs i).map (Edge.moved (alongside f cs)) := by
  unfold edges
  rw [finRange_alongside, List.flatMap_map, List.map_flatMap]
  exact List.flatMap_congr fun p _ => edgesBetween_map hd cs p i

theorem conflict_map (e : Edge cs.length) : (e.moved (alongside f cs)).conflict (cs.map f) = e.conflict cs := by
  unfold Edge.conflict
  show Conflict.mk ((cs.map f).get (alongside f cs e.owner)).name _ = _
  rw [get_alongside, name_alike hd]
  rfl

theorem follow_map {waiting : List (Fin cs.length)} {i : Fin cs.length}
    (hplace : ∀ p ∈ waiting, ∀ placed,
      place (cs.map f) (waiting.map (alongside f cs)) (alongside f cs p) (placed.map (alongside f cs)) =
        (place cs waiting p placed).map (List.map (alongside f cs))) :
    ∀ (es : List (Edge cs.length)) placed,
      follow (cs.map f) (waiting.map (alongside f cs)) (alongside f cs i) (es.map (Edge.moved (alongside f cs)))
          (placed.map (alongside f cs)) =
        (follow cs waiting i es placed).map (List.map (alongside f cs)) := by
  intro es
  induction es with
  | nil =>
    intro placed
    rw [List.map_nil, follow, follow]
    rfl
  | cons e es ih =>
    intro placed
    rw [List.map_cons, follow, follow, conflict_map hd]
    have hi : (cs.map f)[alongside f cs i].group = cs[i].group :=
      (congrArg Candidate.group (get_alongside f cs i)).trans (group_alike hd _)
    have hp : (cs.map f)[(e.moved (alongside f cs)).pred].group = cs[e.pred].group :=
      (congrArg Candidate.group (get_alongside f cs e.pred)).trans (group_alike hd _)
    rw [hi, hp]
    simp only [Edge.moved, mem_alongside]
    split_ifs with hr hp hw
    · rfl
    · exact ih placed
    · rw [hplace e.pred hw placed]
      cases place cs waiting e.pred placed with
      | error c => rfl
      | ok result => exact ih result
    · rfl

theorem place_map (n : Nat) : ∀ waiting : List (Fin cs.length), waiting.length = n → ∀ i placed,
    place (cs.map f) (waiting.map (alongside f cs)) (alongside f cs i) (placed.map (alongside f cs)) =
      (place cs waiting i placed).map (List.map (alongside f cs)) := by
  induction n with
  | zero =>
    intro waiting hn i placed
    rw [List.length_eq_zero_iff.mp hn, place, place, if_neg (by simp), if_neg (by simp)]
    rfl
  | succ n ih =>
    intro waiting hn i placed
    rw [place, place]
    simp only [mem_alongside]
    split_ifs with hi
    · have hlen : (waiting.erase i).length = n := by rw [List.length_erase_of_mem hi, hn]; rfl
      rw [erase_alongside, edges_map hd, follow_map hd cs fun p _ => ih _ hlen p]
      cases follow cs (waiting.erase i) i (edges cs i) placed with
      | error c => rfl
      | ok result =>
        show Except.ok (result.map (alongside f cs) ++ [alongside f cs i]) =
          .ok ((result ++ [i]).map (alongside f cs))
        rw [List.map_append]
        rfl
    · rfl

theorem placeAll_map : ∀ todo placed : List (Fin cs.length),
    placeAll (cs.map f) (todo.map (alongside f cs)) (placed.map (alongside f cs)) =
      (placeAll cs todo placed).map (List.map (alongside f cs)) := by
  intro todo
  induction todo with
  | nil =>
    intro placed
    rw [List.map_nil, placeAll, placeAll]
    rfl
  | cons i rest ih =>
    intro placed
    rw [List.map_cons, placeAll, placeAll]
    simp only [mem_alongside]
    split_ifs with hp
    · exact ih placed
    · rw [finRange_alongside, place_map hd cs _ _ rfl]
      cases place cs (List.finRange cs.length) i placed with
      | error c => rfl
      | ok result => exact ih result

theorem order_map : order (cs.map f) = (order cs).map (List.map (alongside f cs)) := by
  unfold order
  rw [finRange_alongside]
  exact placeAll_map hd cs _ []

theorem byGroup_map : byGroup (cs.map f) = (byGroup cs).map f := by
  have hfilter : ∀ g : Group, (cs.map f).filter (·.group = g) = (cs.filter (·.group = g)).map f := by
    intro g
    rw [List.filter_map]
    exact congrArg (List.map f) (List.filter_congr fun c _ => by simp [group_alike hd])
  rw [byGroup_eq, byGroup_eq, hfilter, hfilter, hfilter, List.map_append, List.map_append]

end

theorem bySlot_map {f : Candidate α → Candidate β} (hs : ∀ c, (f c).slot = c.slot) (cs : List (Candidate α)) :
    bySlot (cs.map f) = (bySlot cs).map f :=
  (List.map_mergeSort fun a _ b _ => by rw [hs, hs]).symm

theorem bySlot_strict {cs : List (Candidate α)} (h : cs.Pairwise (·.slot ≠ ·.slot)) :
    (bySlot cs).Pairwise (·.slot < ·.slot) := by
  have hdiffer : (bySlot cs).Pairwise (·.slot ≠ ·.slot) := (bySlot_perm cs).symm.pairwise h Ne.symm
  exact ((bySlot_pairwise cs).and hdiffer).imp fun h => Nat.lt_of_le_of_ne h.1 h.2

/-- There is one way to stand by slot, if no two share one. -/
theorem bySlot_perm_eq {cs ds : List (Candidate α)} (h : cs.Perm ds) (hslots : cs.Pairwise (·.slot ≠ ·.slot)) :
    bySlot cs = bySlot ds := by
  have hp : (bySlot cs).Perm (bySlot ds) := ((bySlot_perm cs).trans h).trans (bySlot_perm ds).symm
  exact hp.eq_of_pairwise (fun _ _ _ _ hab hba => absurd hab (Nat.lt_asymm hba)) (bySlot_strict hslots)
    (bySlot_strict (h.pairwise hslots Ne.symm))

/-- The candidates in an order that all agree to, or what stands against it. -/
def ordered (cs : List (Candidate α)) : Except Conflict (List (Candidate α)) :=
  (order cs).map fun positions => positions.map cs.get

theorem ordered_map {f : Candidate α → Candidate β} (hd : ∀ c, (f c).demand = c.demand) (cs : List (Candidate α)) :
    ordered (cs.map f) = (ordered cs).map (List.map f) := by
  unfold ordered
  rw [order_map hd]
  cases order cs with
  | error c => rfl
  | ok positions =>
    show Except.ok ((positions.map (alongside f cs)).map (cs.map f).get) = .ok ((positions.map cs.get).map f)
    rw [List.map_map, List.map_map]
    exact congrArg Except.ok (List.map_congr_left fun i _ => get_alongside f cs i)

/-- Compiles candidates that stand by slot. -/
def arrange (slotted : List (Candidate α)) : Except Conflict (Compiled α) :=
  match slotted.findSome? flaw? with
  | some conflict => .error conflict
  | none => (ordered (byGroup slotted)).map fun steps => { steps, duplicates := duplicates [] slotted }

theorem compile_eq_arrange (cs : List (Candidate α)) : compile cs = arrange (bySlot cs) := by
  unfold compile arrange ordered
  dsimp only
  cases (bySlot cs).findSome? flaw? with
  | some conflict => rfl
  | none => cases order (byGroup (bySlot cs)) <;> rfl

end Placement

/-! ## Compiling -/

theorem compile_perm {cs ds : List (Candidate α)} (h : cs.Perm ds) (hslots : cs.Pairwise (·.slot ≠ ·.slot)) :
    compile cs = compile ds := by
  rw [compile_eq_arrange, compile_eq_arrange, bySlot_perm_eq h hslots]

/-- Candidates that keep names, constraints and slots keep the order, or the conflict. -/
theorem compile_map {f : Candidate α → Candidate β} (hd : ∀ c, (f c).demand = c.demand)
    (hs : ∀ c, (f c).slot = c.slot) (cs : List (Candidate α)) :
    compile (cs.map f) = (compile cs).map fun old =>
      { steps := old.steps.map f, duplicates := duplicates [] ((bySlot cs).map f) } := by
  have hflaw : flaw? ∘ f = flaw? (α := α) := funext fun c => flaw?_eq_of_demand (hd c)
  rw [compile_eq_arrange, compile_eq_arrange, bySlot_map hs]
  unfold arrange
  rw [List.findSome?_map, hflaw]
  cases (bySlot cs).findSome? flaw? with
  | some conflict => rfl
  | none =>
    dsimp only
    rw [byGroup_map hd, ordered_map hd]
    cases ordered (byGroup (bySlot cs)) <;> rfl

end SqlPipeline
