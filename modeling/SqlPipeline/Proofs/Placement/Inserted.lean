/-
  SqlPipeline.Proofs.Placement.Inserted — placing the same candidates with one more among them.

  The positions move up to make room for the new candidate. If it does not both lead others
  and follow others, stands behind all it follows, and its group suits all it leads and
  follows, then it is placed the moment it is met: as one of the edges of another, for it has
  none itself, or at its turn, for all it follows stands already. So every move of the visit
  without it is a move of the visit with it, and what is placed differs in nothing else.

  - `follow_new`, `follow_moved`: one edge of the recursion, and `follow_widened` all of
    one candidate.
  - `turn_new`, `turn_moved`: one turn, and `order_widened` the whole visit.
  - `widens_insert`: a list with a candidate put in anywhere has such positions, so
    (`order_insert`) the order found is the old one with the candidate put in somewhere.
-/

import Mathlib.Order.Monotone.Basic
import SqlPipeline.Proofs.Placement.DepthFirst

namespace SqlPipeline

namespace Placement

variable {α : Type}

/-! ## Positions -/

/-- `ds` are the candidates of `cs` and one more, at `k`. Those of `cs` stand where `f` says, in
    the same order. -/
structure Widens (cs ds : List (Candidate α)) (f : Fin cs.length → Fin ds.length) (k : Fin ds.length) : Prop where
  mono : StrictMono f
  get : ∀ i, ds.get (f i) = cs.get i
  others : ∀ j, j ≠ k ↔ ∃ i, f i = j

/-- The candidate at `k` asks for nothing that its place, or its group, does not give it, and
    stands at the one end or the other of every chain. -/
structure Loose (ds : List (Candidate α)) (k : Fin ds.length) : Prop where
  follows : ∀ p, Leads ds p k → p < k ∧ (ds.get p).group.rank ≤ (ds.get k).group.rank
  leads : ∀ i, Leads ds k i → (ds.get k).group.rank ≤ (ds.get i).group.rank
  atEnd : ∀ p i, Leads ds p k → ¬ Leads ds k i

variable {cs ds : List (Candidate α)} {f : Fin cs.length → Fin ds.length} {k : Fin ds.length}

theorem Widens.ne (w : Widens cs ds f k) (i : Fin cs.length) : f i ≠ k := (w.others _).mpr ⟨i, rfl⟩

theorem Widens.inj (w : Widens cs ds f k) {i j : Fin cs.length} : f i = f j ↔ i = j := w.mono.injective.eq_iff

theorem Widens.finRange (w : Widens cs ds f k) :
    (List.finRange ds.length).filter (· ≠ k) = (List.finRange cs.length).map f := by
  have hsorted : ((List.finRange ds.length).filter (· ≠ k)).Pairwise (· < ·) :=
    (List.pairwise_lt_finRange _).filter _
  have hsorted' : ((List.finRange cs.length).map f).Pairwise (· < ·) :=
    List.pairwise_map.mpr ((List.pairwise_lt_finRange _).imp fun h => w.mono h)
  refine List.Perm.eq_of_pairwise (fun a b _ _ hab hba => absurd hab (Fin.lt_asymm hba)) hsorted hsorted' ?_
  rw [List.perm_ext_iff_of_nodup (hsorted.imp Fin.ne_of_lt) (hsorted'.imp Fin.ne_of_lt)]
  intro j
  simp [w.others j]

/-! ## Edges -/

/-- The edge between the same candidates. -/
def Edge.moved {m n : Nat} (f : Fin m → Fin n) (e : Edge m) : Edge n := ⟨f e.pred, f e.owner, e.constraint⟩

theorem Widens.edgesBetween (w : Widens cs ds f k) (p i : Fin cs.length) :
    edgesBetween ds (f p) (f i) = (edgesBetween cs p i).map (Edge.moved f) := by
  have hp : ds[f p] = cs[p] := w.get p
  have hi : ds[f i] = cs[i] := w.get i
  unfold Placement.edgesBetween
  rw [hp, hi]
  split_ifs <;> rfl

theorem flatMap_ite {β γ : Type} (p : β → Bool) (g : β → List γ) (l : List β) :
    (l.flatMap fun x => if p x then g x else []) = (l.filter p).flatMap g := by
  induction l with
  | nil => rfl
  | cons x l ih =>
    rw [List.flatMap_cons, ih]
    by_cases hx : p x = true <;> simp [hx]

/-- But for those that the new candidate leads, the edges are the same. -/
theorem Widens.edges (w : Widens cs ds f k) (i : Fin cs.length) :
    (edges ds (f i)).filter (·.pred ≠ k) = (edges cs i).map (Edge.moved f) := by
  have hbetween : ∀ p, (Placement.edgesBetween ds p (f i)).filter (·.pred ≠ k) =
      if decide (p ≠ k) then Placement.edgesBetween ds p (f i) else [] := by
    intro p
    by_cases hp : p = k
    · rw [if_neg (by simp [hp]), List.filter_eq_nil_iff]
      intro e he
      simp [(mem_edgesBetween ds he).1, hp]
    · rw [if_pos (by simp [hp]), List.filter_eq_self]
      intro e he
      simp [(mem_edgesBetween ds he).1, hp]
  unfold Placement.edges
  rw [List.filter_flatMap, List.map_flatMap]
  simp only [hbetween]
  rw [flatMap_ite, w.finRange, List.flatMap_map]
  exact List.flatMap_congr fun p _ => w.edgesBetween p i

/-! ## States of the two visits -/

/-- The same candidates wait, and the new one with them. -/
structure Waits (f : Fin cs.length → Fin ds.length) (k : Fin ds.length) (waiting : List (Fin cs.length))
    (waiting' : List (Fin ds.length)) : Prop where
  nodup : waiting.Nodup
  nodup' : waiting'.Nodup
  same : ∀ x, f x ∈ waiting' ↔ x ∈ waiting
  new : k ∈ waiting'

/-- But for the new candidate, the same are placed, in the same order. -/
def Shows (f : Fin cs.length → Fin ds.length) (k : Fin ds.length) (placed : List (Fin cs.length))
    (placed' : List (Fin ds.length)) : Prop :=
  placed'.filter (· ≠ k) = placed.map f

theorem Waits.erase (w : Widens cs ds f k) {waiting : List (Fin cs.length)} {waiting' : List (Fin ds.length)}
    (h : Waits f k waiting waiting') (i : Fin cs.length) : Waits f k (waiting.erase i) (waiting'.erase (f i)) where
  nodup := h.nodup.erase i
  nodup' := h.nodup'.erase (f i)
  same x := by rw [h.nodup.mem_erase_iff, h.nodup'.mem_erase_iff, h.same, ne_eq, w.inj]
  new := (List.mem_erase_of_ne (w.ne i).symm).mpr h.new

theorem Shows.mem (w : Widens cs ds f k) {placed : List (Fin cs.length)} {placed' : List (Fin ds.length)}
    (h : Shows f k placed placed') (x : Fin cs.length) : f x ∈ placed' ↔ x ∈ placed := by
  have hfilter : f x ∈ placed'.filter (· ≠ k) ↔ f x ∈ placed' := by simp [w.ne x]
  rw [← hfilter, h, List.mem_map]
  constructor
  · rintro ⟨y, hy, hxy⟩
    rwa [← w.inj.mp hxy]
  · exact fun hx => ⟨x, hx, rfl⟩

theorem Shows.snoc (w : Widens cs ds f k) {placed : List (Fin cs.length)} {placed' : List (Fin ds.length)}
    (h : Shows f k placed placed') (i : Fin cs.length) : Shows f k (placed ++ [i]) (placed' ++ [f i]) := by
  unfold Shows at h ⊢
  rw [List.filter_append, h, List.map_append]
  simp [w.ne i]

theorem Shows.snoc_new {placed : List (Fin cs.length)} {placed' : List (Fin ds.length)}
    (h : Shows f k placed placed') : Shows f k placed (placed' ++ [k]) := by
  unfold Shows at h ⊢
  rw [List.filter_append, h]
  simp

/-! ## Edges, one after the other -/

theorem follow_one (waiting : List (Fin cs.length)) (i : Fin cs.length) (e : Edge cs.length)
    (placed : List (Fin cs.length)) :
    follow cs waiting i [e] placed =
      if (cs.get i).group.rank < (cs.get e.pred).group.rank then .error (e.conflict cs)
      else if e.pred ∈ placed then .ok placed
      else if e.pred ∈ waiting then place cs waiting e.pred placed
      else .error (e.conflict cs) := by
  have hnil : ∀ placed, follow cs waiting i [] placed = .ok placed := fun placed => by rw [follow]
  rw [follow]
  simp only [hnil]
  cases place cs waiting e.pred placed <;> rfl

theorem follow_cons (waiting : List (Fin cs.length)) (i : Fin cs.length) (e : Edge cs.length)
    (es : List (Edge cs.length)) (placed : List (Fin cs.length)) :
    follow cs waiting i (e :: es) placed = (follow cs waiting i [e] placed).bind (follow cs waiting i es) := by
  rw [follow, follow_one]
  show (if (cs.get i).group.rank < (cs.get e.pred).group.rank then _ else _) = _
  split_ifs
  · rfl
  · rfl
  · cases place cs waiting e.pred placed <;> rfl
  · rfl

theorem follow_ready {waiting : List (Fin cs.length)} {i : Fin cs.length} {placed : List (Fin cs.length)} :
    ∀ es : List (Edge cs.length),
      (∀ e ∈ es, (cs.get e.pred).group.rank ≤ (cs.get i).group.rank ∧ e.pred ∈ placed) →
      follow cs waiting i es placed = .ok placed := by
  intro es
  induction es with
  | nil =>
    intro _
    rw [follow]
  | cons e es ih =>
    intro h
    obtain ⟨hr, hp⟩ := h e List.mem_cons_self
    have hnext : follow cs waiting i [e] placed = .ok placed := by
      rw [follow_one, if_neg (Nat.not_lt.mpr hr), if_pos hp]
    rw [follow_cons, hnext]
    exact ih fun e' he => h e' (List.mem_cons_of_mem _ he)

/-- A candidate behind all it follows is placed at once. -/
theorem place_ready {waiting : List (Fin cs.length)} {i : Fin cs.length} {placed : List (Fin cs.length)}
    (hi : i ∈ waiting)
    (h : ∀ p, Leads cs p i → (cs.get p).group.rank ≤ (cs.get i).group.rank ∧ p ∈ placed) :
    place cs waiting i placed = .ok (placed ++ [i]) := by
  rw [place, if_pos hi, follow_ready _ fun e he => h e.pred (leads_of_mem_edges cs he)]

/-- An edge of the new candidate: it stands already, or is placed here. -/
theorem follow_new (hk : Loose ds k) {waiting' : List (Fin ds.length)} (hw : k ∈ waiting') {j : Fin ds.length}
    (hl : Leads ds k j) {e : Edge ds.length} (he : e.pred = k) {placed : List (Fin cs.length)}
    {placed' : List (Fin ds.length)} (hs : Shows f k placed placed') :
    ∃ result', follow ds waiting' j [e] placed' = .ok result' ∧ Shows f k placed result' := by
  rw [follow_one, he, if_neg (Nat.not_lt.mpr (hk.leads j hl))]
  by_cases hp : k ∈ placed'
  · rw [if_pos hp]
    exact ⟨placed', rfl, hs⟩
  · -- it has no edges of its own, for it leads
    have hnow : place ds waiting' k placed' = .ok (placed' ++ [k]) :=
      place_ready hw fun p hp => absurd hl (hk.atEnd p j hp)
    rw [if_neg hp, if_pos hw, hnow]
    exact ⟨_, rfl, hs.snoc_new⟩

/-- An edge of the old list: the same tests come out the same. -/
theorem follow_moved (w : Widens cs ds f k) {waiting : List (Fin cs.length)} {waiting' : List (Fin ds.length)}
    (hw : Waits f k waiting waiting') {i : Fin cs.length} {e : Edge cs.length} {placed result : List (Fin cs.length)}
    {placed' : List (Fin ds.length)} (hs : Shows f k placed placed')
    (hplace : e.pred ∈ waiting → place cs waiting e.pred placed = .ok result →
      ∃ result', place ds waiting' (f e.pred) placed' = .ok result' ∧ Shows f k result result')
    (h : follow cs waiting i [e] placed = .ok result) :
    ∃ result', follow ds waiting' (f i) [e.moved f] placed' = .ok result' ∧ Shows f k result result' := by
  have hmoved : (e.moved f).pred = f e.pred := rfl
  rw [follow_one] at h
  rw [follow_one, hmoved, w.get, w.get]
  by_cases hr : (cs.get i).group.rank < (cs.get e.pred).group.rank
  · rw [if_pos hr] at h
    cases h
  rw [if_neg hr] at h ⊢
  by_cases hp : e.pred ∈ placed
  · rw [if_pos hp] at h
    cases h
    rw [if_pos ((hs.mem w e.pred).mpr hp)]
    exact ⟨placed', rfl, hs⟩
  rw [if_neg hp] at h
  rw [if_neg fun hp' => hp ((hs.mem w e.pred).mp hp')]
  by_cases hwait : e.pred ∈ waiting
  · rw [if_pos hwait] at h
    rw [if_pos ((hw.same e.pred).mpr hwait)]
    exact hplace hwait h
  · rw [if_neg hwait] at h
    cases h

/-- The edges of `i`, given that what they lead to is placed alike. Those of the new candidate
    stand anywhere between the others. -/
theorem follow_widened (w : Widens cs ds f k) (hk : Loose ds k) {waiting : List (Fin cs.length)}
    {waiting' : List (Fin ds.length)} (hw : Waits f k waiting waiting') {i : Fin cs.length}
    (hplace : ∀ p ∈ waiting, ∀ placed placed' result, Shows f k placed placed' →
      place cs waiting p placed = .ok result →
      ∃ result', place ds waiting' (f p) placed' = .ok result' ∧ Shows f k result result') :
    ∀ (es' : List (Edge ds.length)) (es : List (Edge cs.length)) placed placed' result,
      (∀ e ∈ es', e ∈ edges ds (f i)) → es'.filter (·.pred ≠ k) = es.map (Edge.moved f) →
      Shows f k placed placed' → follow cs waiting i es placed = .ok result →
      ∃ result', follow ds waiting' (f i) es' placed' = .ok result' ∧ Shows f k result result' := by
  intro es'
  induction es' with
  | nil =>
    intro es placed placed' result _ hes hs h
    have hnil : es = [] := by simpa using hes.symm
    rw [hnil, follow] at h
    cases h
    exact ⟨placed', by rw [follow], hs⟩
  | cons e' es' ih =>
    intro es placed placed' result hin hes hs h
    have hin' : ∀ e ∈ es', e ∈ edges ds (f i) := fun e he => hin e (List.mem_cons_of_mem _ he)
    rw [follow_cons]
    by_cases hpred : e'.pred = k
    · have hl : Leads ds k (f i) := hpred ▸ leads_of_mem_edges ds (hin e' List.mem_cons_self)
      obtain ⟨middle', hnext, hs'⟩ := follow_new hk hw.new hl hpred hs
      have hes' : es'.filter (·.pred ≠ k) = es.map (Edge.moved f) := by simpa [hpred] using hes
      rw [hnext]
      exact ih es placed middle' result hin' hes' hs' h
    · rw [List.filter_cons_of_pos (by simpa using hpred)] at hes
      obtain ⟨e, es, rfl, rfl, hes'⟩ := List.map_eq_cons_iff.mp hes.symm
      rw [follow_cons] at h
      cases hold : follow cs waiting i [e] placed with
      | error c => rw [hold] at h; cases h
      | ok middle =>
        rw [hold] at h
        obtain ⟨middle', hnext, hs'⟩ := follow_moved w hw hs
          (fun hwait hpl => hplace e.pred hwait placed placed' middle hs hpl) hold
        rw [hnext]
        exact ih es middle middle' result hin' hes'.symm hs' h

theorem place_widened (w : Widens cs ds f k) (hk : Loose ds k) (n : Nat) :
    ∀ (waiting : List (Fin cs.length)) (waiting' : List (Fin ds.length)), waiting.length = n →
      Waits f k waiting waiting' → ∀ i ∈ waiting, ∀ placed placed' result, Shows f k placed placed' →
      place cs waiting i placed = .ok result →
      ∃ result', place ds waiting' (f i) placed' = .ok result' ∧ Shows f k result result' := by
  induction n with
  | zero =>
    intro waiting waiting' hn _ i hi
    rw [List.length_eq_zero_iff.mp hn] at hi
    cases hi
  | succ n ih =>
    intro waiting waiting' hn hw i hi placed placed' result hs h
    have hlen : (waiting.erase i).length = n := by rw [List.length_erase_of_mem hi, hn]; rfl
    rw [place, if_pos hi] at h
    rw [place, if_pos ((hw.same i).mpr hi)]
    cases hf : follow cs (waiting.erase i) i (edges cs i) placed with
    | error c => rw [hf] at h; cases h
    | ok middle =>
      rw [hf] at h
      cases h
      obtain ⟨middle', hf', hs'⟩ := follow_widened w hk (hw.erase w i) (ih _ _ hlen (hw.erase w i)) (edges ds (f i))
        (edges cs i) placed placed' middle (fun _ he => he) (w.edges i) hs hf
      rw [hf']
      exact ⟨_, rfl, hs'.snoc w i⟩

/-! ## Turns, one after the other -/

theorem placeAll_one (i : Fin cs.length) (placed : List (Fin cs.length)) :
    placeAll cs [i] placed = if i ∈ placed then .ok placed else place cs (List.finRange cs.length) i placed := by
  have hnil : ∀ placed, placeAll cs [] placed = .ok placed := fun placed => by rw [placeAll]
  rw [placeAll]
  simp only [hnil]
  cases place cs (List.finRange cs.length) i placed <;> rfl

theorem placeAll_cons (i : Fin cs.length) (rest placed : List (Fin cs.length)) :
    placeAll cs (i :: rest) placed = (placeAll cs [i] placed).bind (placeAll cs rest) := by
  rw [placeAll, placeAll_one]
  split_ifs
  · rfl
  · cases place cs (List.finRange cs.length) i placed <;> rfl

theorem turn_ok {i : Fin cs.length} {placed result : List (Fin cs.length)} (hs : Settled cs placed)
    (h : placeAll cs [i] placed = .ok result) : Settled cs result ∧ (∀ x ∈ placed, x ∈ result) ∧ i ∈ result := by
  rw [placeAll_one] at h
  by_cases hp : i ∈ placed
  · rw [if_pos hp] at h
    cases h
    exact ⟨hs, fun _ hx => hx, hp⟩
  · rw [if_neg hp] at h
    have houtcome := place_at_turn hs hp
    rw [h] at houtcome
    exact ⟨houtcome.1.settled, fun x hx => houtcome.1.subset hx, houtcome.2 i (List.mem_singleton_self i)⟩

theorem waits_finRange : Waits f k (List.finRange cs.length) (List.finRange ds.length) where
  nodup := List.nodup_finRange _
  nodup' := List.nodup_finRange _
  same x := by simp
  new := List.mem_finRange k

theorem turn_moved (w : Widens cs ds f k) (hk : Loose ds k) {i : Fin cs.length}
    {placed result : List (Fin cs.length)} {placed' : List (Fin ds.length)} (hs : Shows f k placed placed')
    (h : placeAll cs [i] placed = .ok result) :
    ∃ result', placeAll ds [f i] placed' = .ok result' ∧ Shows f k result result' := by
  rw [placeAll_one] at h ⊢
  by_cases hp : i ∈ placed
  · rw [if_pos hp] at h
    cases h
    rw [if_pos ((hs.mem w i).mpr hp)]
    exact ⟨placed', rfl, hs⟩
  · rw [if_neg hp] at h
    rw [if_neg fun hp' => hp ((hs.mem w i).mp hp')]
    exact place_widened w hk _ _ _ rfl waits_finRange i (List.mem_finRange i) placed placed' result hs h

/-- At its turn all that the new candidate follows stands already, for that comes before it. -/
theorem turn_new (hk : Loose ds k) {placed : List (Fin cs.length)} {placed' : List (Fin ds.length)}
    (hbefore : ∀ p, p < k → p ∈ placed') (hs : Shows f k placed placed') :
    ∃ result', placeAll ds [k] placed' = .ok result' ∧ Shows f k placed result' := by
  rw [placeAll_one]
  by_cases hp : k ∈ placed'
  · rw [if_pos hp]
    exact ⟨placed', rfl, hs⟩
  · have hnow : place ds (List.finRange ds.length) k placed' = .ok (placed' ++ [k]) := by
      refine place_ready (List.mem_finRange k) fun p hl => ?_
      obtain ⟨hlt, hr⟩ := hk.follows p hl
      exact ⟨hr, hbefore p hlt⟩
    rw [if_neg hp, hnow]
    exact ⟨_, rfl, hs.snoc_new⟩

theorem placeAll_widened (w : Widens cs ds f k) (hk : Loose ds k) :
    ∀ (todo' : List (Fin ds.length)) (todo : List (Fin cs.length)) placed placed' result,
      todo'.filter (· ≠ k) = todo.map f → todo'.Pairwise (· < ·) → (∀ x, x ∈ placed' ∨ x ∈ todo') →
      Settled ds placed' → Shows f k placed placed' → placeAll cs todo placed = .ok result →
      ∃ result', placeAll ds todo' placed' = .ok result' ∧ Shows f k result result' := by
  intro todo'
  induction todo' with
  | nil =>
    intro todo placed placed' result htodo _ _ _ hs h
    have hnil : todo = [] := by simpa using htodo.symm
    rw [hnil, placeAll] at h
    cases h
    exact ⟨placed', by rw [placeAll], hs⟩
  | cons j rest ih =>
    intro todo placed placed' result htodo hsorted hall hset hs h
    obtain ⟨hj, hrest⟩ := List.pairwise_cons.mp hsorted
    rw [placeAll_cons]
    by_cases hjk : j = k
    · subst hjk
      have htodo' : rest.filter (· ≠ j) = todo.map f := by simpa using htodo
      -- whatever comes before it is not to come any more
      have hbefore : ∀ p, p < j → p ∈ placed' := by
        intro p hpj
        refine (hall p).resolve_right fun hx => ?_
        rcases List.mem_cons.mp hx with rfl | hx
        · exact Fin.lt_irrefl p hpj
        · exact Fin.lt_asymm hpj (hj p hx)
      obtain ⟨middle', hnext, hs'⟩ := turn_new hk hbefore hs
      obtain ⟨hset', hsub, hin⟩ := turn_ok hset hnext
      rw [hnext]
      exact ih todo placed middle' result htodo' hrest (placed_or_to_do hall hsub hin) hset' hs' h
    · rw [List.filter_cons_of_pos (by simpa using hjk)] at htodo
      obtain ⟨i, todo, rfl, rfl, htodo'⟩ := List.map_eq_cons_iff.mp htodo.symm
      rw [placeAll_cons] at h
      cases hold : placeAll cs [i] placed with
      | error c => rw [hold] at h; cases h
      | ok middle =>
        rw [hold] at h
        obtain ⟨middle', hnext, hs'⟩ := turn_moved w hk hs hold
        obtain ⟨hset', hsub, hin⟩ := turn_ok hset hnext
        rw [hnext]
        exact ih todo middle middle' result htodo'.symm hrest (placed_or_to_do hall hsub hin) hset' hs' h

theorem order_widened (w : Widens cs ds f k) (hk : Loose ds k) {positions : List (Fin cs.length)}
    (h : order cs = .ok positions) :
    ∃ positions', order ds = .ok positions' ∧ positions'.filter (· ≠ k) = positions.map f :=
  placeAll_widened w hk _ _ [] [] positions w.finRange (List.pairwise_lt_finRange _)
    (fun x => Or.inr (List.mem_finRange x)) .nil rfl h

/-! ## Putting one in -/

/-- Where a position of `a ++ b` is once `v` stands between the two. -/
def shifted (a b : List (Candidate α)) (v : Candidate α) (i : Fin (a ++ b).length) : Fin (a ++ v :: b).length :=
  ⟨if i.val < a.length then i.val else i.val + 1, by
    have hi := i.isLt
    have hold : (a ++ b).length = a.length + b.length := List.length_append
    have hnew : (a ++ v :: b).length = a.length + (b.length + 1) := List.length_append
    split <;> omega⟩

/-- The position between the two. -/
def between (a b : List (Candidate α)) (v : Candidate α) : Fin (a ++ v :: b).length := ⟨a.length, by simp⟩

theorem get_between (a b : List (Candidate α)) (v : Candidate α) : (a ++ v :: b).get (between a b v) = v := by
  simp [between]

/-- What is not one of those behind comes before. -/
theorem shifted_lt_between {a b : List (Candidate α)} {v : Candidate α} {i : Fin (a ++ b).length}
    (h : (a ++ b).get i ∉ b) : shifted a b v i < between a b v := by
  have hlt : i.val < a.length := by
    by_contra hge
    refine h ?_
    rw [List.get_eq_getElem, List.getElem_append_right (by omega)]
    exact List.getElem_mem _
  show (if i.val < a.length then i.val else i.val + 1) < a.length
  rw [if_pos hlt]
  exact hlt

theorem widens_insert (a b : List (Candidate α)) (v : Candidate α) :
    Widens (a ++ b) (a ++ v :: b) (shifted a b v) (between a b v) where
  mono i j hij := by
    have hij : i.val < j.val := hij
    show (if i.val < a.length then i.val else i.val + 1) < if j.val < a.length then j.val else j.val + 1
    split <;> split <;> omega
  get i := by
    simp only [List.get_eq_getElem, shifted]
    by_cases ha : i.val < a.length
    · simp [ha, List.getElem_append_left ha]
    · have hsub : i.val + 1 - a.length = (i.val - a.length) + 1 := by omega
      simp only [ha, if_false]
      rw [List.getElem_append_right (by omega), List.getElem_append_right (by omega)]
      simp [hsub]
  others j := by
    have hj := j.isLt
    have hold : (a ++ b).length = a.length + b.length := List.length_append
    have hnew : (a ++ v :: b).length = a.length + (b.length + 1) := List.length_append
    constructor
    · intro hne
      have hne : j.val ≠ a.length := fun he => hne (Fin.ext he)
      by_cases ha : j.val < a.length
      · refine ⟨⟨j.val, by omega⟩, Fin.ext ?_⟩
        simp [shifted, ha]
      · refine ⟨⟨j.val - 1, by omega⟩, Fin.ext ?_⟩
        simp only [shifted]
        rw [if_neg (by omega)]
        omega
    · rintro ⟨i, rfl⟩ he
      have he : (if i.val < a.length then i.val else i.val + 1) = a.length := congrArg Fin.val he
      split at he <;> omega

/-- What was filtered out is the new candidate, so it stands between two parts of the old order. -/
theorem steps_of_filter {a b : List (Candidate α)} {v : Candidate α} {positions : List (Fin (a ++ b).length)}
    {positions' : List (Fin (a ++ v :: b).length)} (hp : positions'.Perm (List.finRange _))
    (h : positions'.filter (· ≠ between a b v) = positions.map (shifted a b v)) :
    ∃ earlier later, positions.map (a ++ b).get = earlier ++ later ∧
      positions'.map (a ++ v :: b).get = earlier ++ v :: later := by
  have hnodup : positions'.Nodup := hp.nodup_iff.mpr (List.nodup_finRange _)
  obtain ⟨p, q, rfl⟩ := List.append_of_mem (hp.mem_iff.mpr (List.mem_finRange (between a b v)))
  have hnot : between a b v ∉ p ++ q := (List.nodup_middle.mp hnodup).notMem
  have hrest : p ++ q = positions.map (shifted a b v) := by
    rw [← h, List.filter_append, List.filter_cons_of_neg (by simp), ← List.filter_append]
    refine (List.filter_eq_self.mpr fun x hx => ?_).symm
    have hne : x ≠ between a b v := fun he => hnot (he ▸ hx)
    simpa using hne
  have hget : (a ++ v :: b).get ∘ shifted a b v = (a ++ b).get := funext (widens_insert a b v).get
  refine ⟨p.map (a ++ v :: b).get, q.map (a ++ v :: b).get, ?_, ?_⟩
  · rw [← List.map_append, hrest, List.map_map, hget]
  · rw [List.map_append, List.map_cons, get_between]

theorem order_insert {a b : List (Candidate α)} {v : Candidate α}
    (hg : GroupSorted (a ++ v :: b) (List.finRange _)) (hk : Loose (a ++ v :: b) (between a b v))
    {positions : List (Fin (a ++ b).length)} (h : order (a ++ b) = .ok positions) :
    ∃ positions' earlier later, order (a ++ v :: b) = .ok positions' ∧
      positions.map (a ++ b).get = earlier ++ later ∧ positions'.map (a ++ v :: b).get = earlier ++ v :: later := by
  obtain ⟨positions', horder, hfilter⟩ := order_widened (widens_insert a b v) hk h
  have ho := order_outcome hg
  rw [horder] at ho
  obtain ⟨earlier, later, hold, hnew⟩ := steps_of_filter (ho.1.perm ho.2.2) hfilter
  exact ⟨positions', earlier, later, horder, hold, hnew⟩

end Placement

end SqlPipeline
