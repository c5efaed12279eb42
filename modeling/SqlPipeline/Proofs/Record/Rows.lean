/-
  SqlPipeline.Proofs.Record.Rows — a row that is not written.

  A write goes to one row. Whatever the model makes of it, and whether or not it succeeds, the
  other rows keep all they hold, and there are as many as before.

  - `setValue_outside`: one write, to a row that is there.
  - `setValue_apart`: two writes, to different rows.
-/

import SqlPipeline.Record.Destination

namespace SqlPipeline

variable {μ : Type}

namespace Destination

/-- As many rows, and those outside these as they were. -/
structure Outside (rows : List Nat) (d d' : Destination μ) : Prop where
  size : d'.size = d.size
  value : ∀ row, row ∉ rows → ∀ column, d'.value row column = d.value row column

theorem Outside.refl (rows : List Nat) (d : Destination μ) : Outside rows d d := ⟨rfl, fun _ _ _ => rfl⟩

theorem Outside.trans {rows : List Nat} {d d' d'' : Destination μ} (h : Outside rows d d') (h' : Outside rows d' d'') :
    Outside rows d d'' :=
  ⟨h'.size.trans h.size, fun row hrow column => (h'.value row hrow column).trans (h.value row hrow column)⟩

theorem Outside.mono {rows rows' : List Nat} {d d' : Destination μ} (h : Outside rows d d') (hsub : rows ⊆ rows') :
    Outside rows' d d' :=
  ⟨h.size, fun row hrow => h.value row fun hmem => hrow (hsub hmem)⟩

theorem setValue_outside {d : Destination μ} {row : Nat} (hrow : row < d.size) (column : String) (v : Value) :
    Outside [row] d (d.setValue row column v).state := by
  cases d with
  | one m x =>
    have hzero : row = 0 := Nat.lt_one_iff.mp hrow
    subst hzero
    refine ⟨rfl, fun other hother column' => ?_⟩
    have hne : other ≠ 0 := by simpa using hother
    show (if other = 0 then _ else none) = if other = 0 then _ else none
    rw [if_neg hne, if_neg hne]
  | list m xs =>
    have hx : xs[row]? = some xs[row] := List.getElem?_eq_getElem hrow
    have hstate : ((Destination.list m xs).setValue row column v).state =
        .list m (xs.set row (m.setValue xs[row] column v).state) := by
      unfold setValue
      simp only [hx]
      rfl
    rw [hstate]
    refine ⟨List.length_set, fun other hother column' => ?_⟩
    have hne : row ≠ other := by simpa [eq_comm] using hother
    show (xs.set row _)[other]?.bind (m.value · column') = xs[other]?.bind (m.value · column')
    rw [List.getElem?_set_ne hne]
  | optional m x =>
    cases x with
    | none => exact absurd hrow (Nat.not_lt_zero row)
    | some x =>
      have hzero : row = 0 := Nat.lt_one_iff.mp hrow
      subst hzero
      refine ⟨rfl, fun other hother column' => ?_⟩
      have hne : other ≠ 0 := by simpa using hother
      show (if other = 0 then _ else none) = if other = 0 then _ else none
      rw [if_neg hne, if_neg hne]
  | map r =>
    have hzero : row = 0 := Nat.lt_one_iff.mp hrow
    subst hzero
    refine ⟨rfl, fun other hother column' => ?_⟩
    have hne : other ≠ 0 := by simpa using hother
    show (if other = 0 then _ else none) = if other = 0 then _ else none
    rw [if_neg hne, if_neg hne]
  | scripted s =>
    unfold setValue
    dsimp only
    split
    · exact Outside.refl [row] _
    · next r _ hr =>
      refine ⟨?_, fun other hother column' => ?_⟩
      · show s.size?.getD (s.rows.set row _).length = s.size?.getD s.rows.length
        rw [List.length_set]
      · have hne : row ≠ other := by simpa [eq_comm] using hother
        show (s.rows.set row _)[other]?.bind (·.get? column') = s.rows[other]?.bind (·.get? column')
        rw [List.getElem?_set_ne hne]
    · exact Outside.refl [row] _

/-- Writes to different rows do not meet: the second does what it would do alone, and either may
    come first. -/
theorem setValue_apart {row row' : Nat} (h : row ≠ row') (d : Destination μ) (column column' : String) (v v' : Value) :
    ((d.setValue row column v).state.setValue row' column' v').error = (d.setValue row' column' v').error ∧
      ((d.setValue row column v).state.setValue row' column' v').state =
        ((d.setValue row' column' v').state.setValue row column v).state := by
  -- of a single record only row zero is there, so one of the writes changes nothing
  have hzero : row ≠ 0 ∨ row' ≠ 0 := by omega
  unfold setValue
  cases d with
  | one m x =>
    rcases hzero with hr | hr
    · by_cases hr' : row' = 0 <;> simp [hr, hr', Attempt.map]
    · by_cases hr' : row = 0 <;> simp [hr, hr', Attempt.map]
  | list m xs =>
    rcases hx : xs[row]? with _ | x <;> rcases hx' : xs[row']? with _ | x' <;>
      simp [hx, hx', Attempt.map, List.getElem?_set_ne h, List.getElem?_set_ne h.symm, List.set_comm _ _ h]
  | optional m x =>
    rcases hzero with hr | hr
    · by_cases hr' : row' = 0 <;> simp [hr, hr', Attempt.map]
    · by_cases hr' : row = 0 <;> simp [hr, hr', Attempt.map]
  | map r =>
    rcases hzero with hr | hr
    · by_cases hr' : row' = 0 <;> simp [hr, hr']
    · by_cases hr' : row = 0 <;> simp [hr, hr']
  | scripted s =>
    rcases hs : s.setError with _ | e <;> rcases hx : s.rows[row]? with _ | r <;>
      rcases hx' : s.rows[row']? with _ | r' <;>
      simp [hs, hx, hx', List.getElem?_set_ne h, List.getElem?_set_ne h.symm, List.set_comm _ _ h]

end Destination

end SqlPipeline
