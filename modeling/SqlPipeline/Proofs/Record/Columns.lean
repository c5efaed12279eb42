/-
  SqlPipeline.Proofs.Record.Columns — a column that is not written.

  What a write does is up to the model. A model keeps a column if writes to the others leave
  its values alone (`Model.Keeps`); those described by data do, and so does the fixed one.
  Lists, optional values, maps and records given in advance add nothing to that.

  - `setValue_alike`: a write to another column, in a row that is there, leaves the rows and
    the column as they were.
-/

import SqlPipeline.Record.Description
import SqlPipeline.Proofs.Record.Rows

namespace SqlPipeline

/-! ## Schemas -/

theorem Schema.isSome_field? (schema : Schema) (column : String) :
    (schema.field? column).isSome = true ↔ column ∈ schema.columns := by
  unfold field? columns
  rw [List.find?_isSome, List.mem_map]
  simp only [beq_iff_eq]

/-! ## Rows -/

namespace Row

theorem lookup_put_ne {column other : String} (h : column ≠ other) (v : Value) (cells : List (String × Value)) :
    (put column v cells).lookup other = cells.lookup other := by
  have hne : (other == column) = false := beq_eq_false_iff_ne.mpr (Ne.symm h)
  induction cells with
  | nil => simp [put, List.lookup_cons, hne]
  | cons cell rest ih =>
    obtain ⟨c, w⟩ := cell
    unfold put
    split
    · next hc =>
      subst hc
      simp [List.lookup_cons, hne]
    · split
      · simp [List.lookup_cons, hne]
      · simp [List.lookup_cons, ih]

theorem get?_set_ne {column other : String} (h : column ≠ other) (r : Row) (v : Value) :
    (r.set column v).get? other = r.get? other := lookup_put_ne h v r.cells

end Row

/-! ## Models -/

/-- Writing another column leaves this one alone. -/
def Model.Keeps {μ : Type} (m : Model μ) (column : String) : Prop :=
  ∀ x other v, other ≠ column → m.value (m.setValue x other v).state column = m.value x column

theorem Description.model_keeps (d : Description) (column : String) : d.model.Keeps column := by
  intro x other v hne
  show d.value (d.setValue x other v).state column = d.value x column
  have hget : (d.setValue x other v).state.get? column = x.get? column := by
    unfold setValue
    split
    · rfl
    · split
      · exact Row.get?_set_ne hne x v
      · rfl
  unfold value
  rw [hget]

theorem noteModel_keeps (column : String) : noteModel.Keeps column := by
  intro x other v hne
  have hget : (noteModel.setValue x other v).state.get? column = x.get? column := by
    unfold noteModel
    dsimp only
    split
    · exact Row.get?_set_ne hne x _
    · exact Row.get?_set_ne hne x _
    · rfl
  show (if _ then (noteModel.setValue x other v).state.get? column else none) = if _ then x.get? column else none
  rw [hget]

/-! ## Destinations -/

namespace Destination

variable {μ : Type}

/-- The model of the destination, if it has one, keeps the column. -/
def Keeps (column : String) : Destination μ → Prop
  | .one m _ | .list m _ | .optional m _ => m.Keeps column
  | .map _ | .scripted _ => True

/-- As many rows, and the column the same in each. -/
structure Alike (column : String) (d d' : Destination μ) : Prop where
  size : d'.size = d.size
  value : ∀ row, d'.value row column = d.value row column
  keeps : d'.Keeps column

theorem Alike.refl {column : String} {d : Destination μ} (h : d.Keeps column) : Alike column d d :=
  ⟨rfl, fun _ => rfl, h⟩

theorem Alike.trans {column : String} {d d' d'' : Destination μ} (h : Alike column d d')
    (h' : Alike column d' d'') : Alike column d d'' :=
  ⟨h'.size.trans h.size, fun row => (h'.value row).trans (h.value row), h'.keeps⟩

theorem setValue_keeps {column : String} {d : Destination μ} (h : d.Keeps column) (row : Nat) (other : String)
    (v : Value) : (d.setValue row other v).state.Keeps column := by
  cases d <;> unfold setValue <;> dsimp only <;> split <;> exact h

/-- In the row that is written the column is kept by the model, or by the row itself. -/
theorem setValue_same {column other : String} (hne : other ≠ column) {d : Destination μ} (hkeeps : d.Keeps column)
    {row : Nat} (hrow : row < d.size) (v : Value) :
    (d.setValue row other v).state.value row column = d.value row column := by
  cases d with
  | one m x =>
    have hzero : row = 0 := Nat.lt_one_iff.mp hrow
    subst hzero
    exact hkeeps x other v hne
  | list m xs =>
    have hx : xs[row]? = some xs[row] := List.getElem?_eq_getElem hrow
    unfold setValue
    simp only [hx]
    show (xs.set row _)[row]?.bind (m.value · column) = xs[row]?.bind (m.value · column)
    rw [List.getElem?_set_self hrow, hx]
    exact hkeeps xs[row] other v hne
  | optional m x =>
    cases x with
    | none => exact absurd hrow (Nat.not_lt_zero row)
    | some x =>
      have hzero : row = 0 := Nat.lt_one_iff.mp hrow
      subst hzero
      exact hkeeps x other v hne
  | map r =>
    have hzero : row = 0 := Nat.lt_one_iff.mp hrow
    subst hzero
    exact Row.get?_set_ne hne r v
  | scripted s =>
    unfold setValue
    dsimp only
    split
    · rfl
    · next r _ hr =>
      have hlt : row < s.rows.length := (List.getElem?_eq_some_iff.mp hr).1
      show (s.rows.set row _)[row]?.bind (·.get? column) = s.rows[row]?.bind (·.get? column)
      rw [List.getElem?_set_self hlt, hr]
      exact Row.get?_set_ne hne r v
    · rfl

theorem setValue_alike {column other : String} (hne : other ≠ column) {d : Destination μ} (hkeeps : d.Keeps column)
    {row : Nat} (hrow : row < d.size) (v : Value) : Alike column d (d.setValue row other v).state := by
  have houtside := setValue_outside hrow other v
  refine ⟨houtside.size, fun i => ?_, setValue_keeps hkeeps row other v⟩
  by_cases hi : i = row
  · subst hi
    exact setValue_same hne hkeeps hrow v
  · exact houtside.value i (by simpa using hi) column

end Destination

end SqlPipeline
