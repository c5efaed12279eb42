/-
  SqlPipeline.Proofs.Placement.DepthFirst — what placing candidates depth by depth achieves.

  State of the recursion: `placed` is what stands already, `waiting` what may still be
  placed, and whatever is in neither is being placed further out. The invariant is that all
  the latter have to follow the candidate at hand, over a chain of constraints. So meeting
  one of them again closes a circle, and
  - `place_outcome`: placing a candidate appends it, behind all it has to follow, or ends in
    a `Fault`: a constraint on a circle, or one against the order of the groups.
  - `order_outcome`: an order that is found holds every candidate once, behind all it has to
    follow, group by group, and a conflict is a fault.
-/

import Mathlib.Data.List.FinRange
import SqlPipeline.Proofs.Placement.Order

namespace SqlPipeline

open Relation

namespace Placement

variable {α : Type} (cs : List (Candidate α))

/-! ## Edges -/

/-- The candidate at `p` has to run before the one at `i`. -/
def Leads (p i : Fin cs.length) : Prop := (cs.get p).Precedes (cs.get i)

theorem mem_edgesBetween {p i : Fin cs.length} {e : Edge cs.length} (h : e ∈ edgesBetween cs p i) :
    e.pred = p ∧ Leads cs p i := by
  unfold edgesBetween at h
  rcases List.mem_append.mp h with h | h <;> split at h
  · next hb =>
    rw [List.mem_singleton.mp h]
    exact ⟨rfl, Or.inl hb⟩
  · cases h
  · next ha =>
    rw [List.mem_singleton.mp h]
    exact ⟨rfl, Or.inr ha⟩
  · cases h

theorem leads_of_mem_edges {i : Fin cs.length} {e : Edge cs.length} (h : e ∈ edges cs i) : Leads cs e.pred i := by
  obtain ⟨p, -, hp⟩ := List.mem_flatMap.mp h
  obtain ⟨rfl, hl⟩ := mem_edgesBetween cs hp
  exact hl

theorem exists_edge {p i : Fin cs.length} (h : Leads cs p i) : ∃ e ∈ edges cs i, e.pred = p := by
  have hp : p ∈ List.finRange cs.length := List.mem_finRange p
  rcases h with hb | ha
  · have hb' : cs[p].before = some (.step cs[i].name) := hb
    exact ⟨⟨p, p, .before (.step cs[i].name)⟩,
      List.mem_flatMap.mpr ⟨p, hp, List.mem_append_left _ (by rw [if_pos hb']; exact List.mem_singleton_self _)⟩, rfl⟩
  · have ha' : cs[i].after = some (.step cs[p].name) := ha
    exact ⟨⟨p, i, .after (.step cs[p].name)⟩,
      List.mem_flatMap.mpr ⟨p, hp, List.mem_append_right _ (by rw [if_pos ha']; exact List.mem_singleton_self _)⟩, rfl⟩

/-! ## Outcomes -/

/-- Why placing gives up: the predecessor that a constraint demands is of a later group, or
    has to follow what it should precede. -/
def Fault (c : Conflict) : Prop :=
  ∃ i, ∃ e ∈ edges cs i, c = e.conflict cs ∧
    ((cs.get i).group.rank < (cs.get e.pred).group.rank ∨ ReflTransGen (Leads cs) i e.pred)

/-- Each candidate of the list stands behind all it has to follow, and none stands twice. -/
inductive Settled : List (Fin cs.length) → Prop
  | nil : Settled []
  | snoc {placed : List (Fin cs.length)} {i : Fin cs.length} : Settled placed → i ∉ placed →
      (∀ p, Leads cs p i → p ∈ placed) → Settled (placed ++ [i])

/-- More candidates stand behind those placed, all of them for the sake of `target`. -/
structure Extends (waiting placed : List (Fin cs.length)) (target : Fin cs.length)
    (result : List (Fin cs.length)) : Prop where
  settled : Settled cs result
  added : ∃ added, result = placed ++ added ∧
    ∀ x ∈ added, x ∈ waiting ∧ ReflTransGen (Leads cs) x target ∧ (cs.get x).group.rank ≤ (cs.get target).group.rank

/-- The goals got placed for the sake of `target`, or there is a fault. -/
def Outcome (waiting placed goals : List (Fin cs.length)) (target : Fin cs.length) :
    Except Conflict (List (Fin cs.length)) → Prop
  | .ok result => Extends cs waiting placed target result ∧ ∀ g ∈ goals, g ∈ result
  | .error c => Fault cs c

variable {cs}

theorem Settled.nodup {l : List (Fin cs.length)} (h : Settled cs l) : l.Nodup := by
  induction h with
  | nil => exact List.nodup_nil
  | snoc _ hi _ ih =>
    refine List.nodup_append.mpr ⟨ih, by simp, ?_⟩
    rintro a ha b hb rfl
    exact hi (List.mem_singleton.mp hb ▸ ha)

theorem Settled.closed {l : List (Fin cs.length)} (h : Settled cs l) {x p : Fin cs.length} (hx : x ∈ l)
    (hl : Leads cs p x) : p ∈ l := by
  induction h with
  | nil => cases hx
  | snoc _ _ hp ih =>
    rcases List.mem_append.mp hx with hx | hx
    · exact List.mem_append_left _ (ih hx)
    · rw [List.mem_singleton.mp hx] at hl
      exact List.mem_append_left _ (hp p hl)

theorem Settled.lt {l : List (Fin cs.length)} (h : Settled cs l) {a b : Nat} (ha : a < l.length) (hb : b < l.length)
    (hl : Leads cs l[a] l[b]) : a < b := by
  induction h generalizing a b with
  | nil => exact absurd ha (Nat.not_lt_zero a)
  | @snoc placed i hs hi hp ih =>
    have hlen : (placed ++ [i]).length = placed.length + 1 := by simp
    by_cases hbl : b < placed.length
    · -- the last one cannot lead an earlier one: what leads those is placed with them
      have hbe : (placed ++ [i])[b] = placed[b] := List.getElem_append_left hbl
      by_cases hal : a < placed.length
      · refine ih hal hbl ?_
        rwa [List.getElem_append_left hal, hbe] at hl
      · have hae : (placed ++ [i])[a] = i := by
          rw [List.getElem_append_right (by omega)]
          simp
        rw [hae, hbe] at hl
        exact absurd (hs.closed (List.getElem_mem hbl) hl) hi
    · have hbe : (placed ++ [i])[b] = i := by
        rw [List.getElem_append_right (by omega)]
        simp
      rw [hbe] at hl
      have hm := hp _ hl
      by_contra hab
      have hae : (placed ++ [i])[a] = i := by
        rw [List.getElem_append_right (by omega)]
        simp
      rw [hae] at hm
      exact hi hm

theorem Extends.refl {waiting placed : List (Fin cs.length)} {target : Fin cs.length} (h : Settled cs placed) :
    Extends cs waiting placed target placed := ⟨h, [], by simp, by simp⟩

theorem Extends.subset {waiting placed result : List (Fin cs.length)} {target x : Fin cs.length}
    (h : Extends cs waiting placed target result) (hx : x ∈ placed) : x ∈ result := by
  obtain ⟨added, rfl, -⟩ := h.added
  exact List.mem_append_left _ hx

theorem Extends.trans {waiting placed middle result : List (Fin cs.length)} {target : Fin cs.length}
    (h : Extends cs waiting placed target middle) (h' : Extends cs waiting middle target result) :
    Extends cs waiting placed target result := by
  obtain ⟨added, rfl, ha⟩ := h.added
  obtain ⟨more, rfl, hm⟩ := h'.added
  refine ⟨h'.settled, added ++ more, by simp, fun x hx => ?_⟩
  rcases List.mem_append.mp hx with hx | hx
  · exact ha x hx
  · exact hm x hx

/-- What is placed for a predecessor's sake is placed for its successor's. -/
theorem Extends.retarget {waiting placed result : List (Fin cs.length)} {p i : Fin cs.length}
    (h : Extends cs waiting placed p result) (hl : Leads cs p i) (hr : (cs.get p).group.rank ≤ (cs.get i).group.rank) :
    Extends cs waiting placed i result := by
  obtain ⟨added, he, ha⟩ := h.added
  refine ⟨h.settled, added, he, fun x hx => ?_⟩
  obtain ⟨hw, hc, hx⟩ := ha x hx
  exact ⟨hw, hc.tail hl, Nat.le_trans hx hr⟩

/-! ## The recursion -/

/-- Following the edges of `i`, given what placing does with as many waiting. -/
theorem follow_outcome {waiting : List (Fin cs.length)} {i : Fin cs.length}
    (hplace : ∀ p ∈ waiting, ∀ placed, Settled cs placed → p ∉ placed →
      (∀ x, x ∉ waiting → x ∉ placed → TransGen (Leads cs) p x) →
      Outcome cs waiting placed [p] p (place cs waiting p placed)) :
    ∀ es : List (Edge cs.length), (∀ e ∈ es, e ∈ edges cs i) → ∀ placed, Settled cs placed →
      (∀ x, x ∉ waiting → x ∉ placed → ReflTransGen (Leads cs) i x) →
      Outcome cs waiting placed (es.map (·.pred)) i (follow cs waiting i es placed) := by
  intro es
  induction es with
  | nil =>
    intro _ placed hs _
    rw [follow]
    exact ⟨Extends.refl hs, by simp⟩
  | cons e es ih =>
    intro hes placed hs hout
    have he : e ∈ edges cs i := hes e (List.mem_cons_self ..)
    have hl : Leads cs e.pred i := leads_of_mem_edges cs he
    have hrest : ∀ e' ∈ es, e' ∈ edges cs i := fun e' h => hes e' (List.mem_cons_of_mem _ h)
    rw [follow]
    by_cases hr : cs[i].group.rank < cs[e.pred].group.rank
    · rw [if_pos hr]
      exact ⟨i, e, he, rfl, Or.inl hr⟩
    rw [if_neg hr]
    by_cases hp : e.pred ∈ placed
    · rw [if_pos hp]
      have h := ih hrest placed hs hout
      cases hf : follow cs waiting i es placed with
      | error c => rw [hf] at h; exact h
      | ok result =>
        rw [hf] at h
        refine ⟨h.1, fun g hg => ?_⟩
        rcases List.mem_cons.mp hg with rfl | hg
        · exact h.1.subset hp
        · exact h.2 g hg
    rw [if_neg hp]
    by_cases hw : e.pred ∈ waiting
    · rw [if_pos hw]
      have h := hplace e.pred hw placed hs hp fun x hx hx' => TransGen.head' hl (hout x hx hx')
      cases hpl : place cs waiting e.pred placed with
      | error c => rw [hpl] at h; exact h
      | ok middle =>
        rw [hpl] at h
        have h1 : Extends cs waiting placed i middle := h.1.retarget hl (Nat.not_lt.mp hr)
        have h2 := ih hrest middle h.1.settled fun x hx hx' => hout x hx fun hm => hx' (h.1.subset hm)
        show Outcome cs waiting placed _ i (follow cs waiting i es middle)
        cases hf : follow cs waiting i es middle with
        | error c => rw [hf] at h2; exact h2
        | ok result =>
          rw [hf] at h2
          refine ⟨h1.trans h2.1, fun g hg => ?_⟩
          rcases List.mem_cons.mp hg with rfl | hg
          · exact h2.1.subset (h.2 _ (List.mem_singleton_self _))
          · exact h2.2 g hg
    · rw [if_neg hw]
      exact ⟨i, e, he, rfl, Or.inr (hout e.pred hw hp)⟩

/-- Placing a candidate that waits, while all that is being placed has to follow it. -/
theorem place_outcome (n : Nat) : ∀ waiting : List (Fin cs.length), waiting.length = n → waiting.Nodup →
    ∀ i ∈ waiting, ∀ placed, Settled cs placed → i ∉ placed →
      (∀ x, x ∉ waiting → x ∉ placed → TransGen (Leads cs) i x) →
      Outcome cs waiting placed [i] i (place cs waiting i placed) := by
  induction n with
  | zero =>
    intro waiting hn _ i hi
    rw [List.length_eq_zero_iff.mp hn] at hi
    cases hi
  | succ n ih =>
    intro waiting hn hnd i hi placed hs hip hout
    have hlen : (waiting.erase i).length = n := by rw [List.length_erase_of_mem hi, hn]; rfl
    have hnd' : (waiting.erase i).Nodup := hnd.erase i
    have hrec := ih (waiting.erase i) hlen hnd'
    -- now `i` is being placed too
    have hout' : ∀ x, x ∉ waiting.erase i → x ∉ placed → ReflTransGen (Leads cs) i x := by
      intro x hx hx'
      by_cases hxi : x = i
      · subst hxi; exact ReflTransGen.refl
      · exact (hout x (fun hw => hx ((List.mem_erase_of_ne hxi).mpr hw)) hx').to_reflTransGen
    have h := follow_outcome hrec (edges cs i) (fun _ he => he) placed hs hout'
    rw [place, if_pos hi]
    cases hf : follow cs (waiting.erase i) i (edges cs i) placed with
    | error c => rw [hf] at h; exact h
    | ok result =>
      rw [hf] at h
      obtain ⟨hx, hgoals⟩ := h
      obtain ⟨added, he, ha⟩ := hx.added
      have hir : i ∉ result := by
        rw [he]
        intro hm
        rcases List.mem_append.mp hm with hm | hm
        · exact hip hm
        · exact hnd.not_mem_erase (ha i hm).1
      have hpreds : ∀ p, Leads cs p i → p ∈ result := by
        intro p hl
        obtain ⟨e, hee, rfl⟩ := exists_edge cs hl
        exact hgoals _ (List.mem_map_of_mem hee)
      refine ⟨⟨Settled.snoc hx.settled hir hpreds, added ++ [i], by rw [he, List.append_assoc], fun x hxm => ?_⟩, ?_⟩
      · rcases List.mem_append.mp hxm with hxm | hxm
        · exact ⟨List.mem_of_mem_erase (ha x hxm).1, (ha x hxm).2⟩
        · rw [List.mem_singleton.mp hxm]
          exact ⟨hi, ReflTransGen.refl, Nat.le_refl _⟩
      · intro g hg
        exact List.mem_append_right _ hg

/-! ## One after the other -/

/-- At its turn nothing else is being placed. -/
theorem place_at_turn {placed : List (Fin cs.length)} {i : Fin cs.length} (hs : Settled cs placed) (hi : i ∉ placed) :
    Outcome cs (List.finRange _) placed [i] i (place cs (List.finRange _) i placed) :=
  place_outcome _ _ rfl (List.nodup_finRange _) i (List.mem_finRange i) placed hs hi
    fun x hx => absurd (List.mem_finRange x) hx

/-- Whatever is placed at a turn, nothing is left out. -/
theorem placed_or_to_do {placed result rest : List (Fin cs.length)} {i : Fin cs.length}
    (hall : ∀ x, x ∈ placed ∨ x ∈ i :: rest) (hsub : ∀ x ∈ placed, x ∈ result) (hi : i ∈ result) (x : Fin cs.length) :
    x ∈ result ∨ x ∈ rest := by
  rcases hall x with hx | hx
  · exact Or.inl (hsub x hx)
  · rcases List.mem_cons.mp hx with rfl | hx
    · exact Or.inl hi
    · exact Or.inr hx

variable (cs) in
/-- Each candidate's group is no later than those behind it. -/
def GroupSorted (l : List (Fin cs.length)) : Prop :=
  l.Pairwise fun i j => (cs.get i).group.rank ≤ (cs.get j).group.rank

/-- A complete order, or a fault. -/
def Ordered : Except Conflict (List (Fin cs.length)) → Prop
  | .ok result => Settled cs result ∧ GroupSorted cs result ∧ ∀ x, x ∈ result
  | .error c => Fault cs c

/-- What was placed is of no later group than what is still to do, so a candidate can pull
    forward only others of its own group. -/
theorem placeAll_outcome : ∀ todo placed : List (Fin cs.length), Settled cs placed → GroupSorted cs placed →
    GroupSorted cs todo → (∀ x, x ∈ placed ∨ x ∈ todo) →
    (∀ x ∈ placed, ∀ y ∈ todo, (cs.get x).group.rank ≤ (cs.get y).group.rank) → Ordered (placeAll cs todo placed) := by
  intro todo
  induction todo with
  | nil =>
    intro placed hs hg _ hall _
    rw [placeAll]
    exact ⟨hs, hg, fun x => (hall x).resolve_right (List.not_mem_nil)⟩
  | cons i rest ih =>
    intro placed hs hg ht hall hcross
    obtain ⟨hi, hrest⟩ := List.pairwise_cons.mp ht
    rw [placeAll]
    by_cases hp : i ∈ placed
    · rw [if_pos hp]
      refine ih placed hs hg hrest (placed_or_to_do hall (fun _ hx => hx) hp) fun x hx y hy => ?_
      exact hcross x hx y (List.mem_cons_of_mem _ hy)
    rw [if_neg hp]
    have h := place_at_turn hs hp
    cases hpl : place cs (List.finRange cs.length) i placed with
    | error c => rw [hpl] at h; exact h
    | ok result =>
      rw [hpl] at h
      obtain ⟨added, rfl, ha⟩ := h.1.added
      -- what is added was still to do, so its group is not only no later than `i`'s but the same
      have hrank : ∀ x ∈ added, (cs.get x).group.rank = (cs.get i).group.rank := by
        intro x hx
        refine Nat.le_antisymm (ha x hx).2.2 ?_
        have hxp : x ∉ placed := fun hxp => (List.nodup_append.mp h.1.settled.nodup).2.2 x hxp x hx rfl
        rcases List.mem_cons.mp ((hall x).resolve_left hxp) with rfl | hx
        · exact Nat.le_refl _
        · exact hi x hx
      have hall' := placed_or_to_do hall (fun x hx => h.1.subset hx) (h.2 i (List.mem_singleton_self i))
      refine ih (placed ++ added) h.1.settled (List.pairwise_append.mpr ⟨hg, ?_, fun x hx y hy => ?_⟩) hrest hall'
        fun x hx y hy => ?_
      · exact List.pairwise_of_forall_mem_list fun x hx y hy => by rw [hrank x hx, hrank y hy]
      · rw [hrank y hy]
        exact hcross x hx i (List.mem_cons_self ..)
      · rcases List.mem_append.mp hx with hx | hx
        · exact hcross x hx y (List.mem_cons_of_mem _ hy)
        · rw [hrank x hx]
          exact hi y hy

theorem order_outcome (hg : GroupSorted cs (List.finRange cs.length)) : Ordered (order cs) :=
  placeAll_outcome _ [] .nil List.Pairwise.nil hg (fun x => Or.inr (List.mem_finRange x)) (by simp)

/-! ## The order found, and the conflict met -/

theorem Settled.perm {l : List (Fin cs.length)} (hs : Settled cs l) (hall : ∀ x, x ∈ l) : l.Perm (List.finRange _) := by
  rw [List.perm_ext_iff_of_nodup hs.nodup (List.nodup_finRange _)]
  exact fun x => ⟨fun _ => List.mem_finRange x, fun _ => hall x⟩

theorem order_perm {l : List (Fin cs.length)} (hs : Settled cs l) (hall : ∀ x, x ∈ l) :
    (l.map cs.get).Perm cs := by
  have hm := (hs.perm hall).map cs.get
  rwa [List.map_get_finRange] at hm

theorem order_honours {l : List (Fin cs.length)} (hs : Settled cs l) (hg : GroupSorted cs l) :
    Honours (l.map cs.get) := by
  have precedes : ∀ i j : Fin (l.map cs.get).length,
      ((l.map cs.get).get i).Precedes ((l.map cs.get).get j) → i < j := by
    intro i j hp
    have hi : i.val < l.length := by simpa using i.isLt
    have hj : j.val < l.length := by simpa using j.isLt
    exact hs.lt hi hj (by simpa [Leads] using hp)
  refine ⟨fun i j hr => ?_, fun i j t hb hn => ?_, fun i j t ha hn => ?_⟩
  · by_contra hij
    have hi : i.val < l.length := by simpa using i.isLt
    have hj : j.val < l.length := by simpa using j.isLt
    have hne : i.val ≠ j.val := by
      intro he
      rw [show i = j from Fin.ext he] at hr
      exact Nat.lt_irrefl _ hr
    have := List.pairwise_iff_getElem.mp hg j.val i.val hj hi (by omega)
    simp only [List.get_eq_getElem, List.getElem_map] at hr this
    omega
  · exact precedes i j (Or.inl (by rw [hb, hn]))
  · exact precedes j i (Or.inr (by rw [ha, hn]))

/-- A circle of positions is a circle of candidates. -/
theorem chain_of_leads {i j : Fin cs.length} (h : ReflTransGen (Leads cs) i j) :
    ReflTransGen (PrecedesIn cs) (cs.get i) (cs.get j) :=
  h.lift cs.get fun a b hl => ⟨List.getElem_mem a.isLt, List.getElem_mem b.isLt, hl⟩

/-- With a fault no order at all honours the candidates. -/
theorem Fault.no_order {c : Conflict} (h : Fault cs c) {l : List (Candidate α)} (hp : l.Perm cs) : ¬ Honours l := by
  intro ho
  obtain ⟨i, e, he, -, hf⟩ := h
  have hl : PrecedesIn cs (cs.get e.pred) (cs.get i) :=
    ⟨List.getElem_mem e.pred.isLt, List.getElem_mem i.isLt, leads_of_mem_edges cs he⟩
  rcases hf with hr | hc
  · exact Nat.not_lt.mpr (ho.rank_le (hl.perm hp.symm)) hr
  · have hcyc : TransGen (PrecedesIn cs) (cs.get e.pred) (cs.get e.pred) := TransGen.head' hl (chain_of_leads hc)
    exact ho.no_cycle (cs.get e.pred) (hcyc.lift id fun _ _ h => h.perm hp.symm)

end Placement

end SqlPipeline
