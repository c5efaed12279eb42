/-
  SqlPipeline.Proofs.Record.Stored — what a record reads as once it was written to.

  A record stores columns if what was last written to them is what is read: after writes that
  succeed, a cell reads as was last written to it, and as before where nothing was. Whether
  writes are stored is up to the model. Those described by data store what they do not hide, and
  the fixed one stores all it takes; lists, optional values, maps and records given in advance
  add nothing to that.

  - `Stores.setValue`, `Stores.after`: one write, and a record that was written to.
  - `stores_of_model`: a destination stores what its model does.
  - `writeAll_perm`: writes to different rows, in any order.
-/

import Mathlib.Data.List.Nodup
import Mathlib.Data.List.Perm.Basic
import SqlPipeline.Proofs.Record.Columns

namespace SqlPipeline

/-- A value for one cell of a record. -/
structure CellWrite where
  row : Nat
  column : String
  value : Value

/-! ## Writes in order -/

/-- What was last written to a cell, if anything was. -/
def lastWritten? (row : Nat) (column : String) (ws : List CellWrite) : Option Value :=
  (ws.reverse.find? fun w => w.row == row && w.column == column).map (·.value)

theorem lastWritten?_append (row : Nat) (column : String) (ws ws' : List CellWrite) :
    lastWritten? row column (ws ++ ws') = (lastWritten? row column ws').or (lastWritten? row column ws) := by
  unfold lastWritten?
  rw [List.reverse_append, List.find?_append, Option.map_or]

theorem lastWritten?_singleton (row : Nat) (column : String) (w : CellWrite) :
    lastWritten? row column [w] = if row = w.row ∧ column = w.column then some w.value else none := by
  unfold lastWritten?
  by_cases h : w.row = row ∧ w.column = column
  · rw [if_pos ⟨h.1.symm, h.2.symm⟩]
    simp [h]
  · rw [if_neg fun h' => h ⟨h'.1.symm, h'.2.symm⟩]
    simpa using h

theorem lastWritten?_cons (row : Nat) (column : String) (w : CellWrite) (ws : List CellWrite) :
    lastWritten? row column (w :: ws) =
      (lastWritten? row column ws).or (if row = w.row ∧ column = w.column then some w.value else none) := by
  rw [← lastWritten?_singleton]
  exact lastWritten?_append row column [w] ws

theorem lastWritten?_eq_none {row : Nat} {column : String} {ws : List CellWrite}
    (h : ∀ w ∈ ws, w.row = row → w.column ≠ column) : lastWritten? row column ws = none := by
  unfold lastWritten?
  rw [Option.map_eq_none_iff, List.find?_eq_none]
  intro w hw
  simpa using h w (List.mem_reverse.mp hw)

/-- Where each row is written once, what was written to it is what was last written. -/
theorem lastWritten?_of_mem {ws : List CellWrite} (hrows : (ws.map (·.row)).Nodup) {w : CellWrite} (hw : w ∈ ws) :
    lastWritten? w.row w.column ws = some w.value := by
  induction ws with
  | nil => cases hw
  | cons w' ws ih =>
    obtain ⟨hrow, hrows⟩ := List.nodup_cons.mp hrows
    rw [lastWritten?_cons]
    rcases List.mem_cons.mp hw with rfl | hw
    · have hnone : lastWritten? w.row w.column ws = none :=
        lastWritten?_eq_none fun w' hw' h => absurd (List.mem_map.mpr ⟨w', hw', h⟩) hrow
      rw [hnone, if_pos ⟨rfl, rfl⟩]
      rfl
    · rw [ih hrows hw]
      rfl

namespace Record

variable {ρ : Type} [Record ρ]

/-- Carries out writes in order, up to the first that fails. -/
def writeAll : List CellWrite → ρ → Attempt ρ
  | [], dest => ⟨dest, none⟩
  | w :: ws, dest =>
    match Record.setValue dest w.row w.column w.value with
    | ⟨dest, none⟩ => writeAll ws dest
    | failed => failed

theorem writeAll_cons {dest d : ρ} {w : CellWrite} (h : Record.setValue dest w.row w.column w.value = ⟨d, none⟩)
    (ws : List CellWrite) : writeAll (w :: ws) dest = writeAll ws d := by
  rw [writeAll, h]

theorem writeAll_append {dest d : ρ} {ws : List CellWrite} (h : writeAll ws dest = ⟨d, none⟩) (ws' : List CellWrite) :
    writeAll (ws ++ ws') dest = writeAll ws' d := by
  induction ws generalizing dest with
  | nil =>
    cases h
    rfl
  | cons w ws ih =>
    rcases hw : Record.setValue dest w.row w.column w.value with ⟨d', _ | e⟩
    · rw [writeAll_cons hw] at h
      rw [List.cons_append, writeAll_cons hw, ih h]
    · rw [writeAll, hw] at h
      cases h

/-! ## Reading back -/

/-- Once such columns were written, a cell reads as was last written to it, or as before. -/
def Stores (columns : String → Prop) (dest : ρ) : Prop :=
  ∀ ws after, (∀ w ∈ ws, columns w.column) → writeAll ws dest = ⟨after, none⟩ →
    ∀ row column, Record.value after row column = (lastWritten? row column ws).or (Record.value dest row column)

namespace Stores

variable {columns : String → Prop} {dest d : ρ}

theorem after (h : Stores columns dest) {ws : List CellWrite} (hws : ∀ w ∈ ws, columns w.column)
    (hd : writeAll ws dest = ⟨d, none⟩) : Stores columns d := by
  intro ws' after hws' hafter row column
  have hall : ∀ w ∈ ws ++ ws', columns w.column := fun w hw =>
    (List.mem_append.mp hw).elim (hws w) (hws' w)
  rw [h (ws ++ ws') after hall ((writeAll_append hd ws').trans hafter), h ws d hws hd, lastWritten?_append,
    Option.or_assoc]

theorem setValue (h : Stores columns dest) {row : Nat} {column : String} {v : Value} (hcolumn : columns column)
    (hd : Record.setValue dest row column v = ⟨d, none⟩) :
    Stores columns d ∧ ∀ row' column',
      Record.value d row' column' =
        if row' = row ∧ column' = column then some v else Record.value dest row' column' := by
  have hws : ∀ w ∈ [CellWrite.mk row column v], columns w.column := by simpa using hcolumn
  have hwrite : writeAll [⟨row, column, v⟩] dest = ⟨d, none⟩ := writeAll_cons (w := ⟨row, column, v⟩) hd []
  refine ⟨h.after hws hwrite, fun row' column' => ?_⟩
  rw [h _ d hws hwrite, lastWritten?_singleton]
  split <;> rfl

/-- It is enough that one write is stored, in every record that writes lead to. -/
theorem of_setValue (holds : ρ → Prop)
    (hstep : ∀ {d row column v d'}, holds d → columns column → Record.setValue d row column v = ⟨d', none⟩ →
      holds d' ∧ ∀ row' column',
        Record.value d' row' column' = if row' = row ∧ column' = column then some v else Record.value d row' column')
    (h : holds dest) : Stores columns dest := by
  intro ws
  induction ws generalizing dest with
  | nil =>
    intro after _ hafter row column
    cases hafter
    rfl
  | cons w ws ih =>
    intro after hws hafter row column
    obtain ⟨hw, hrest⟩ := List.forall_mem_cons.mp hws
    rcases hd : Record.setValue dest w.row w.column w.value with ⟨d, _ | e⟩
    · obtain ⟨hholds, hvalue⟩ := hstep h hw hd
      rw [writeAll_cons hd] at hafter
      rw [ih hholds after hrest hafter, hvalue, lastWritten?_cons, Option.or_assoc]
      split <;> rfl
    · rw [writeAll, hd] at hafter
      cases hafter

end Stores

end Record

/-! ## Models -/

theorem Row.lookup_put_self (column : String) (v : Value) (cells : List (String × Value)) :
    (Row.put column v cells).lookup column = some v := by
  induction cells with
  | nil => simp [Row.put]
  | cons cell rest ih =>
    obtain ⟨c, w⟩ := cell
    unfold Row.put
    split
    · simp
    · next hne =>
      split
      · simp
      · rw [List.lookup_cons, beq_eq_false_iff_ne.mpr hne]
        exact ih

theorem Row.get?_set (r : Row) (column : String) (v : Value) (other : String) :
    (r.set column v).get? other = if other = column then some v else r.get? other := by
  split
  · next h =>
    rw [h]
    exact Row.lookup_put_self column v r.cells
  · next h => exact Row.get?_set_ne (Ne.symm h) r v

/-- What is written to such a column is read back, and the other columns stay. -/
def Model.Stores {μ : Type} (columns : String → Prop) (m : Model μ) : Prop :=
  ∀ x column v x', columns column → m.setValue x column v = ⟨x', none⟩ →
    ∀ other, m.value x' other = if other = column then some v else m.value x other

theorem Description.setValue_ok (d : Description) {x x' : Row} {column : String} {v : Value}
    (h : d.setValue x column v = ⟨x', none⟩) : (∃ c, d.column? column = some c) ∧ x' = x.set column v := by
  unfold setValue at h
  split at h
  · cases h
  · next c hc =>
    split at h
    · cases h
      exact ⟨⟨c, hc⟩, rfl⟩
    · cases h

/-- A described model stores what it does not hide. -/
theorem Description.model_stores {d : Description} {columns : String → Prop}
    (hshown : ∀ c ∈ d.columns, columns c.name → c.hidden = false) : d.model.Stores columns := by
  intro x column v x' hcolumn hset other
  obtain ⟨⟨c, hc⟩, rfl⟩ := d.setValue_ok hset
  have hname : c.name = column := by simpa using List.find?_some hc
  have hhidden : c.hidden = false := hshown c (List.mem_of_find?_eq_some hc) (hname ▸ hcolumn)
  show d.value (x.set column v) other = if other = column then some v else d.value x other
  unfold value
  rw [Row.get?_set]
  by_cases hother : other = column
  · rw [hother, hc]
    simp [hhidden]
  · rw [if_neg hother, if_neg hother]

theorem noteModel_stores (columns : String → Prop) : noteModel.Stores columns := by
  intro x column v x' _ hset other
  have hwritten : (column = "id" ∨ column = "body") ∧ x' = x.set column v := by
    unfold noteModel at hset
    dsimp only at hset
    split at hset
    · cases hset
      exact ⟨Or.inl rfl, rfl⟩
    · cases hset
      exact ⟨Or.inr rfl, rfl⟩
    · cases hset
  obtain ⟨hcolumn, rfl⟩ := hwritten
  show (if other = "id" ∨ other = "body" then (x.set column v).get? other else none) =
    if other = column then some v else if other = "id" ∨ other = "body" then x.get? other else none
  rw [Row.get?_set]
  by_cases hother : other = column
  · rw [if_pos hother, if_pos hother, if_pos (hother ▸ hcolumn)]
  · rw [if_neg hother, if_neg hother]

/-! ## Destinations -/

theorem Attempt.map_ok {σ τ : Type} {f : σ → τ} {a : Attempt σ} {t : τ} (h : a.map f = ⟨t, none⟩) :
    ∃ s, a = ⟨s, none⟩ ∧ f s = t := by
  obtain ⟨s, e⟩ := a
  cases h
  exact ⟨s, rfl, rfl⟩

namespace Destination

variable {μ : Type}

/-- The model of the destination, if it has one, stores the columns. An optional value is there. -/
def ModelStores (columns : String → Prop) : Destination μ → Prop
  | .one m _ | .list m _ => m.Stores columns
  | .optional m x => m.Stores columns ∧ x.isSome = true
  | .map _ | .scripted _ => True

/-- A write that succeeds gives its cell the value, and no other cell. -/
theorem setValue_stored {columns : String → Prop} {d d' : Destination μ} (h : d.ModelStores columns) {row : Nat}
    {column : String} {v : Value} (hcolumn : columns column) (hd : d.setValue row column v = ⟨d', none⟩) :
    d'.ModelStores columns ∧ ∀ row' column',
      d'.value row' column' = if row' = row ∧ column' = column then some v else d.value row' column' := by
  unfold setValue at hd
  cases d with
  | one m x =>
    dsimp only at hd
    split at hd
    · next hrow =>
      obtain ⟨x', hx, rfl⟩ := Attempt.map_ok hd
      refine ⟨h, fun row' column' => ?_⟩
      by_cases hrow' : row' = 0 <;> simp [value, hrow, hrow', h _ _ _ _ hcolumn hx column']
    · cases hd
  | list m xs =>
    dsimp only at hd
    split at hd
    · next x hxrow =>
      obtain ⟨x', hx, rfl⟩ := Attempt.map_ok hd
      obtain ⟨hlt, rfl⟩ := List.getElem?_eq_some_iff.mp hxrow
      refine ⟨h, fun row' column' => ?_⟩
      by_cases hrow' : row' = row
      · simp [value, hrow', hlt, h _ _ _ _ hcolumn hx column']
      · simp [value, hrow', List.getElem?_set_ne (Ne.symm hrow')]
    · cases hd
  | optional m x =>
    obtain ⟨hm, hsome⟩ := h
    obtain ⟨x, rfl⟩ := Option.isSome_iff_exists.mp hsome
    dsimp only [Option.getD_some] at hd
    split at hd
    · next hrow =>
      obtain ⟨x', hx, rfl⟩ := Attempt.map_ok hd
      refine ⟨⟨hm, rfl⟩, fun row' column' => ?_⟩
      by_cases hrow' : row' = 0 <;> simp [value, hrow, hrow', hm _ _ _ _ hcolumn hx column']
    · cases hd
  | map r =>
    dsimp only at hd
    split at hd
    · next hrow =>
      cases hd
      refine ⟨trivial, fun row' column' => ?_⟩
      by_cases hrow' : row' = 0 <;> simp [value, hrow, hrow', Row.get?_set]
    · cases hd
  | scripted s =>
    dsimp only at hd
    split at hd
    · cases hd
    · next r _ hr =>
      cases hd
      obtain ⟨hlt, rfl⟩ := List.getElem?_eq_some_iff.mp hr
      refine ⟨trivial, fun row' column' => ?_⟩
      by_cases hrow' : row' = row
      · simp [value, hrow', hlt, Row.get?_set]
      · simp [value, hrow', List.getElem?_set_ne (Ne.symm hrow')]
    · cases hd

theorem stores_of_model {columns : String → Prop} {d : Destination μ} (h : d.ModelStores columns) :
    Record.Stores columns d :=
  Record.Stores.of_setValue (ModelStores columns) (fun h hcolumn hd => setValue_stored h hcolumn hd) h

/-! ## Writes to rows that are there -/

/-- Writing adds no row and takes none away. -/
theorem writeAll_size {ws : List CellWrite} {d : Destination μ} (h : ∀ w ∈ ws, w.row < d.size) :
    (Record.writeAll ws d).state.size = d.size := by
  induction ws generalizing d with
  | nil => rfl
  | cons w ws ih =>
    obtain ⟨hw, hrest⟩ := List.forall_mem_cons.mp h
    have hsize := (setValue_outside hw w.column w.value).size
    rw [Record.writeAll, show Record.setValue d w.row w.column w.value = d.setValue w.row w.column w.value from rfl]
    rcases hset : d.setValue w.row w.column w.value with ⟨d', _ | e⟩ <;> rw [hset] at hsize
    · exact (ih fun w' hw' => hsize ▸ hrest w' hw').trans hsize
    · exact hsize

/-! ## Writes to different rows -/

/-- Where each row is written once and takes its value, all is written. -/
theorem writeAll_apart {ws : List CellWrite} (hrows : (ws.map (·.row)).Nodup) {d : Destination μ}
    (htaken : ∀ w ∈ ws, (d.setValue w.row w.column w.value).error = none) :
    Record.writeAll ws d = ⟨ws.foldl (fun d w => (d.setValue w.row w.column w.value).state) d, none⟩ := by
  induction ws generalizing d with
  | nil => rfl
  | cons w ws ih =>
    obtain ⟨hw, hrest⟩ := List.forall_mem_cons.mp htaken
    obtain ⟨hrow, hrows⟩ := List.nodup_cons.mp hrows
    have hset : Record.setValue d w.row w.column w.value = ⟨(d.setValue w.row w.column w.value).state, none⟩ := by
      rw [← hw]
      rfl
    rw [Record.writeAll_cons hset, List.foldl_cons]
    refine ih hrows fun w' hw' => ?_
    have hne : w.row ≠ w'.row := fun h => hrow (List.mem_map.mpr ⟨w', hw', h.symm⟩)
    rw [(setValue_apart hne d w.column w'.column w.value w'.value).1]
    exact hrest w' hw'

/-- The order of such writes makes no difference. -/
theorem writeAll_perm {ws ws' : List CellWrite} (hperm : ws.Perm ws') (hrows : (ws.map (·.row)).Nodup)
    {d : Destination μ} (htaken : ∀ w ∈ ws, (d.setValue w.row w.column w.value).error = none) :
    Record.writeAll ws' d = Record.writeAll ws d := by
  rw [writeAll_apart hrows htaken, writeAll_apart ((hperm.map _).nodup_iff.mp hrows) fun w hw =>
    htaken w (hperm.mem_iff.mpr hw)]
  have hsame : ∀ w ∈ ws, ∀ w' ∈ ws, ∀ d : Destination μ,
      ((d.setValue w.row w.column w.value).state.setValue w'.row w'.column w'.value).state =
        ((d.setValue w'.row w'.column w'.value).state.setValue w.row w.column w.value).state := by
    intro w hw w' hw' d
    by_cases hrow : w.row = w'.row
    · rw [List.inj_on_of_nodup_map hrows hw hw' hrow]
    · exact (setValue_apart hrow d w.column w'.column w.value w'.value).2
  rw [hperm.foldl_eq' hsame]

end Destination

end SqlPipeline
