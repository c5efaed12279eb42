/-
  SqlPipeline.Proofs.Placement.Marks — placing told with a mark on every candidate.

  A candidate is unvisited, being visited or placed. Visiting it marks it, goes through its
  edges, visits what is unvisited there and gives up on what is being visited; then the
  candidate is placed. `Runs` has these moves as rules and no measure that makes them end.

  `exists_run`: yet every visit of all candidates ends, and it ends as `order` says.
  `Runs.unique`: there is no second way for it to end.
-/

import SqlPipeline.Proofs.Placement.DepthFirst

namespace SqlPipeline

namespace Placement

variable {α : Type}

inductive Mark where
  | unvisited | visiting | placed
  deriving DecidableEq, Repr

/-- The marks of all candidates, and those placed in the order this happened. -/
structure Marks (n : Nat) where
  mark : Fin n → Mark
  placed : List (Fin n)

namespace Marks

variable {n : Nat}

def start : Marks n := ⟨fun _ => .unvisited, []⟩

def visiting (m : Marks n) (i : Fin n) : Marks n :=
  { m with mark := fun x => if x = i then .visiting else m.mark x }

def place (m : Marks n) (i : Fin n) : Marks n :=
  { mark := fun x => if x = i then .placed else m.mark x, placed := m.placed ++ [i] }

/-- The marks while some candidates wait and some are placed. The others are being visited. -/
def of (waiting placed : List (Fin n)) : Marks n :=
  { mark := fun x => if x ∈ placed then .placed else if x ∈ waiting then .unvisited else .visiting, placed }

theorem of_visiting {waiting placed : List (Fin n)} {i : Fin n} (hnd : waiting.Nodup) (hp : i ∉ placed) :
    (of waiting placed).visiting i = of (waiting.erase i) placed := by
  unfold of visiting
  congr 1
  funext x
  by_cases hx : x = i
  · subst hx
    simp [hp, hnd.not_mem_erase]
  · simp [hx, List.mem_erase_of_ne]

theorem of_place {waiting placed : List (Fin n)} {i : Fin n} :
    (of (waiting.erase i) placed).place i = of waiting (placed ++ [i]) := by
  unfold of place
  congr 1
  funext x
  by_cases hx : x = i
  · simp [hx]
  · simp [hx, List.mem_erase_of_ne]

theorem of_finRange : of (List.finRange n) [] = start := by
  unfold of start
  congr 1
  funext x
  simp

end Marks

/-- What there is to do. -/
inductive Task {α : Type} (cs : List (Candidate α)) where
  | visit (i : Fin cs.length)
  | edges (i : Fin cs.length) (es : List (Edge cs.length))
  | all (is : List (Fin cs.length))

/-- A task, begun with some marks, ends with others or with a conflict. -/
inductive Runs (cs : List (Candidate α)) :
    Task cs → Marks cs.length → Except Conflict (Marks cs.length) → Prop
  | placed {i m} : m.mark i = .placed → Runs cs (.visit i) m (.ok m)
  | visited {i m m'} : m.mark i ≠ .placed → Runs cs (.edges i (edges cs i)) (m.visiting i) (.ok m') →
      Runs cs (.visit i) m (.ok (m'.place i))
  | refused {i m c} : m.mark i ≠ .placed → Runs cs (.edges i (edges cs i)) (m.visiting i) (.error c) →
      Runs cs (.visit i) m (.error c)
  | edgesDone {i m} : Runs cs (.edges i []) m (.ok m)
  | later {i m e es} : (cs.get i).group.rank < (cs.get e.pred).group.rank →
      Runs cs (.edges i (e :: es)) m (.error (e.conflict cs))
  | circle {i m e es} : ¬ (cs.get i).group.rank < (cs.get e.pred).group.rank → m.mark e.pred = .visiting →
      Runs cs (.edges i (e :: es)) m (.error (e.conflict cs))
  | skip {i m e es out} : ¬ (cs.get i).group.rank < (cs.get e.pred).group.rank → m.mark e.pred = .placed →
      Runs cs (.edges i es) m out → Runs cs (.edges i (e :: es)) m out
  | descend {i m e es m' out} : ¬ (cs.get i).group.rank < (cs.get e.pred).group.rank → m.mark e.pred = .unvisited →
      Runs cs (.visit e.pred) m (.ok m') → Runs cs (.edges i es) m' out → Runs cs (.edges i (e :: es)) m out
  | fail {i m e es c} : ¬ (cs.get i).group.rank < (cs.get e.pred).group.rank → m.mark e.pred = .unvisited →
      Runs cs (.visit e.pred) m (.error c) → Runs cs (.edges i (e :: es)) m (.error c)
  | allDone {m} : Runs cs (.all []) m (.ok m)
  | next {i is m m' out} : Runs cs (.visit i) m (.ok m') → Runs cs (.all is) m' out →
      Runs cs (.all (i :: is)) m out
  | stop {i is m c} : Runs cs (.visit i) m (.error c) → Runs cs (.all (i :: is)) m (.error c)

variable {cs : List (Candidate α)}

/-- The marks decide every move. -/
theorem Runs.unique {t : Task cs} {m : Marks cs.length} {out out' : Except Conflict (Marks cs.length)}
    (h : Runs cs t m out) (h' : Runs cs t m out') : out = out' := by
  induction h generalizing out' with
  | placed hp =>
    cases h' with
    | placed => rfl
    | visited hn | refused hn => exact absurd hp hn
  | visited hn _ ih =>
    cases h' with
    | placed hp => exact absurd hp hn
    | visited _ hr => cases ih hr; rfl
    | refused _ hr => cases ih hr
  | refused hn _ ih =>
    cases h' with
    | placed hp => exact absurd hp hn
    | visited _ hr => cases ih hr
    | refused _ hr => cases ih hr; rfl
  | edgesDone => cases h'; rfl
  | later hl =>
    cases h' with
    | later => rfl
    | circle hn | skip hn | descend hn | fail hn => exact absurd hl hn
  | circle hn hv =>
    cases h' with
    | later hl => exact absurd hl hn
    | circle => rfl
    | skip _ hv' | descend _ hv' | fail _ hv' => rw [hv] at hv'; cases hv'
  | skip hn hv _ ih =>
    cases h' with
    | later hl => exact absurd hl hn
    | skip _ _ hr => exact ih hr
    | circle _ hv' | descend _ hv' | fail _ hv' => rw [hv] at hv'; cases hv'
  | descend hn hv _ _ ihv ihr =>
    cases h' with
    | later hl => exact absurd hl hn
    | circle _ hv' | skip _ hv' => rw [hv] at hv'; cases hv'
    | descend _ _ hd hr => cases ihv hd; exact ihr hr
    | fail _ _ hd => cases ihv hd
  | fail hn hv _ ih =>
    cases h' with
    | later hl => exact absurd hl hn
    | circle _ hv' | skip _ hv' => rw [hv] at hv'; cases hv'
    | descend _ _ hd => cases ih hd
    | fail _ _ hd => cases ih hd; rfl
  | allDone => cases h'; rfl
  | next _ _ ihv ihr =>
    cases h' with
    | next hd hr => cases ihv hd; exact ihr hr
    | stop hd => cases ihv hd
  | stop _ ih =>
    cases h' with
    | next hd => cases ih hd
    | stop hd => cases ih hd; rfl

/-! ## The recursion follows the marks -/

theorem follow_runs {waiting : List (Fin cs.length)} {i : Fin cs.length}
    (hplace : ∀ p ∈ waiting, ∀ placed, p ∉ placed →
      Runs cs (.visit p) (.of waiting placed) ((place cs waiting p placed).map (.of waiting))) :
    ∀ (es : List (Edge cs.length)) placed,
      Runs cs (.edges i es) (.of waiting placed) ((follow cs waiting i es placed).map (.of waiting)) := by
  intro es
  induction es with
  | nil =>
    intro placed
    rw [follow]
    exact .edgesDone
  | cons e es ih =>
    intro placed
    rw [follow]
    by_cases hr : cs[i].group.rank < cs[e.pred].group.rank
    · rw [if_pos hr]
      exact .later hr
    rw [if_neg hr]
    by_cases hp : e.pred ∈ placed
    · rw [if_pos hp]
      exact .skip hr (if_pos hp) (ih placed)
    rw [if_neg hp]
    by_cases hw : e.pred ∈ waiting
    · rw [if_pos hw]
      have hm : (Marks.of waiting placed).mark e.pred = .unvisited := by simp [Marks.of, hp, hw]
      have h := hplace e.pred hw placed hp
      cases hpl : place cs waiting e.pred placed with
      | error c => rw [hpl] at h; exact .fail hr hm h
      | ok middle => rw [hpl] at h; exact .descend hr hm h (ih middle)
    · rw [if_neg hw]
      exact .circle hr (by simp [Marks.of, hp, hw])

theorem place_runs (n : Nat) : ∀ waiting : List (Fin cs.length), waiting.length = n → waiting.Nodup →
    ∀ i ∈ waiting, ∀ placed, i ∉ placed →
      Runs cs (.visit i) (.of waiting placed) ((place cs waiting i placed).map (.of waiting)) := by
  induction n with
  | zero =>
    intro waiting hn _ i hi
    rw [List.length_eq_zero_iff.mp hn] at hi
    cases hi
  | succ n ih =>
    intro waiting hn hnd i hi placed hp
    have hlen : (waiting.erase i).length = n := by rw [List.length_erase_of_mem hi, hn]; rfl
    have hm : (Marks.of waiting placed).mark i ≠ .placed := by simp [Marks.of, hp, hi]
    have h := follow_runs (i := i) (ih _ hlen (hnd.erase i)) (edges cs i) placed
    rw [← Marks.of_visiting hnd hp] at h
    rw [place, if_pos hi]
    cases hf : follow cs (waiting.erase i) i (edges cs i) placed with
    | error c => rw [hf] at h; exact .refused hm h
    | ok result =>
      rw [hf] at h
      show Runs cs (.visit i) (.of waiting placed) (.ok (.of waiting (result ++ [i])))
      rw [← Marks.of_place]
      exact .visited hm h

theorem placeAll_runs : ∀ todo placed : List (Fin cs.length),
    Runs cs (.all todo) (.of (List.finRange _) placed) ((placeAll cs todo placed).map (.of (List.finRange _))) := by
  intro todo
  induction todo with
  | nil =>
    intro placed
    rw [placeAll]
    exact .allDone
  | cons i rest ih =>
    intro placed
    rw [placeAll]
    by_cases hp : i ∈ placed
    · rw [if_pos hp]
      exact .next (.placed (if_pos hp)) (ih placed)
    rw [if_neg hp]
    have h := place_runs _ (List.finRange cs.length) rfl (List.nodup_finRange _) i (List.mem_finRange i) placed hp
    cases hpl : place cs (List.finRange cs.length) i placed with
    | error c => rw [hpl] at h; exact .stop h
    | ok result => rw [hpl] at h; exact .next h (ih result)

/-- Visiting all candidates ends, in one way only, with the order that `order` finds or the
    conflict it meets. -/
theorem exists_run (cs : List (Candidate α)) :
    ∃ out, Runs cs (.all (List.finRange _)) .start out ∧ order cs = out.map (·.placed) ∧
      ∀ out', Runs cs (.all (List.finRange _)) .start out' → out' = out := by
  have h := placeAll_runs (List.finRange cs.length) []
  rw [Marks.of_finRange] at h
  refine ⟨_, h, ?_, fun out' h' => h'.unique h⟩
  rw [order]
  cases placeAll cs (List.finRange _) [] <;> rfl

end Placement

end SqlPipeline
