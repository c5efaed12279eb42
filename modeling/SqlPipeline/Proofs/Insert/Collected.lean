/-
  SqlPipeline.Proofs.Insert.Collected — the values of an insert are those of its destination.

  Collecting goes through the rows, and through the columns within each. A time that is zero is
  stamped on the destination before its cell is taken, so the cells are what the destination
  holds when all is collected, provided that it stores what is stamped. As no column is named
  twice no cell is visited twice, and so whether one is stamped is settled from the start.

  - `collectRow_stored`, `collectRows_stored`: one row, and the rows after each other.
  - `collected_values_held`: the columns, the tuples and what became of the destination.
-/

import Mathlib
import SqlPipeline.Operation.Create.Values
import SqlPipeline.Proofs.Record.Stored

namespace SqlPipeline

open Operation

/-! ## Columns -/

namespace Schema

/-- Whether the clock's time may be put into the column. -/
def stamps (schema : Schema) (column : String) : Bool := (schema.field? column).any Field.isStamped

theorem field?_eq_some_iff {schema : Schema} (hnames : schema.columns.Nodup) {name : String} {f : Field} :
    schema.field? name = some f ↔ f ∈ schema.fields ∧ f.name = name := by
  constructor
  · intro h
    exact ⟨List.mem_of_find?_eq_some h, by simpa using List.find?_some h⟩
  · rintro ⟨hf, rfl⟩
    have hfound : (schema.field? f.name).isSome = true := List.find?_isSome.mpr ⟨f, hf, beq_self_eq_true _⟩
    obtain ⟨g, hg⟩ := Option.isSome_iff_exists.mp hfound
    have hname : g.name = f.name := by simpa using List.find?_some hg
    rw [hg, List.inj_on_of_nodup_map hnames (List.mem_of_find?_eq_some hg) hf hname]

theorem stamps_iff {schema : Schema} (hnames : schema.columns.Nodup) (column : String) :
    schema.stamps column = true ↔ ∃ f ∈ schema.fields, f.name = column ∧ f.isStamped = true := by
  unfold stamps
  rw [Option.any_eq_true]
  simp only [field?_eq_some_iff hnames, and_assoc]

end Schema

namespace Operation

variable {ρ : Type} [Record ρ] {schema : Schema} {now : Instant}

theorem isUnset_eq (dest : ρ) (column : String) (row : Nat) :
    isUnset dest column row = ((Record.value dest row column).getD .null).isZero := by
  unfold isUnset
  cases Record.value dest row column <;> rfl

/-! ## Collecting -/

variable (schema now) in
/-- What a cell reads as once it was visited. -/
def visited (dest : ρ) (row : Nat) (column : String) : Option Value :=
  if schema.stamps column && isUnset dest column row then some (.timestamp now) else Record.value dest row column

theorem visited_congr {dest d : ρ} {row : Nat} {column : String}
    (h : Record.value d row column = Record.value dest row column) :
    visited schema now d row column = visited schema now dest row column := by
  unfold visited isUnset
  rw [h]

/-- One cell: it is taken as it reads afterwards, and no other changes. -/
theorem collectCell_stored {row : Nat} {column : String} {dest : ρ} {held : Value} {stamps : Bool} {written : Attempt ρ}
    (hstores : Record.Stores (schema.stamps · = true) dest) (hheld : held = (Record.value dest row column).getD .null)
    (hstamps : stamps = (schema.stamps column && held.isZero))
    (hwritten : written = if stamps then Record.setValue dest row column (.timestamp now) else ⟨dest, none⟩)
    (hok : written.error = none) :
    Record.Stores (schema.stamps · = true) written.state ∧
      (if stamps then Value.timestamp now else held) = (Record.value written.state row column).getD .null ∧
      ∀ row' column', Record.value written.state row' column' =
        if row' = row ∧ column' = column then visited schema now dest row' column'
        else Record.value dest row' column' := by
  have hvisited : visited schema now dest row column = if stamps then some (.timestamp now) else
      Record.value dest row column := by
    unfold visited
    rw [isUnset_eq, ← hheld, ← hstamps]
  cases hs : stamps with
  | true =>
    rw [hs] at hstamps hwritten hvisited
    have hcolumn : schema.stamps column = true := (Bool.and_eq_true_iff.mp hstamps.symm).1
    have hset : Record.setValue dest row column (.timestamp now) = ⟨written.state, none⟩ := by
      rw [← hok]
      exact hwritten.symm
    obtain ⟨hafter, hvalue⟩ := hstores.setValue hcolumn hset
    have hread : Record.value written.state row column = some (.timestamp now) :=
      (hvalue row column).trans (if_pos ⟨rfl, rfl⟩)
    refine ⟨hafter, ?_, fun row' column' => ?_⟩
    · rw [hread]
      rfl
    · rw [hvalue]
      split
      · next h =>
        rw [h.1, h.2]
        exact hvisited.symm
      · rfl
  | false =>
    rw [hs] at hwritten hvisited
    rw [show written = ⟨dest, none⟩ from hwritten]
    refine ⟨hstores, hheld, fun row' column' => ?_⟩
    split
    · next h =>
      rw [h.1, h.2]
      exact hvisited.symm
    · rfl

theorem collectRow_stored {row : Nat} {columns : List String} (hnodup : columns.Nodup) {dest after : ρ}
    {cells : List Value} (hstores : Record.Stores (schema.stamps · = true) dest)
    (h : collectRow schema now row columns dest = (after, .ok cells)) :
    Record.Stores (schema.stamps · = true) after ∧
      cells = columns.map (fun column => (Record.value after row column).getD .null) ∧
      ∀ row' column, Record.value after row' column =
        if row' = row ∧ column ∈ columns then visited schema now dest row' column
        else Record.value dest row' column := by
  induction columns generalizing dest cells with
  | nil =>
    cases h
    exact ⟨hstores, rfl, by simp⟩
  | cons column columns ih =>
    obtain ⟨hcolumn, hrest⟩ := List.nodup_cons.mp hnodup
    unfold collectRow at h
    extract_lets held stamps written at h
    split at h
    · cases h
    · next hok =>
      obtain ⟨hstores', hcell, hone⟩ :=
        collectCell_stored hstores (show held = _ from rfl) (show stamps = _ from rfl) (show written = _ from rfl) hok
      clear_value held stamps written
      rcases hcollect : collectRow schema now row columns written.state with ⟨d, e | rest⟩ <;>
        rw [hcollect] at h <;> cases h
      obtain ⟨hafter, hcells, hvalue⟩ := ih hrest hstores' hcollect
      refine ⟨hafter, ?_, fun row' column' => ?_⟩
      · have hkept : Record.value after row column = Record.value written.state row column := by
          rw [hvalue, if_neg fun h => hcolumn h.2]
        rw [List.map_cons, hkept, ← hcell, hcells]
      · have hother : ∀ c ∈ columns, Record.value written.state row c = Record.value dest row c := by
          intro c hc
          rw [hone, if_neg]
          rintro ⟨-, rfl⟩
          exact hcolumn hc
        rw [hvalue]
        by_cases hrow : row' = row
        · subst hrow
          by_cases hc : column' ∈ columns
          · rw [if_pos ⟨rfl, hc⟩, if_pos ⟨rfl, List.mem_cons_of_mem _ hc⟩, visited_congr (hother column' hc)]
          · rw [if_neg fun h => hc h.2, hone]
            simp [hc]
        · rw [if_neg fun h => hrow h.1, if_neg fun h => hrow h.1, hone, if_neg fun h => hrow h.1]

theorem collectRows_stored {columns : List String} (hnodup : columns.Nodup) {rows : List Nat} (hrows : rows.Nodup)
    {dest after : ρ} {tuples : List (List Value)} (hstores : Record.Stores (schema.stamps · = true) dest)
    (h : collectRows schema now columns rows dest = (after, .ok tuples)) :
    tuples = rows.map (fun row => columns.map fun column => (Record.value after row column).getD .null) ∧
      ∀ row column, Record.value after row column =
        if row ∈ rows ∧ column ∈ columns then visited schema now dest row column
        else Record.value dest row column := by
  induction rows generalizing dest tuples with
  | nil =>
    cases h
    exact ⟨rfl, by simp⟩
  | cons row rows ih =>
    obtain ⟨hrow, hrest⟩ := List.nodup_cons.mp hrows
    unfold collectRows at h
    split at h
    · cases h
    · next d cells hcollect =>
      obtain ⟨hstores', hcells, hone⟩ := collectRow_stored hnodup hstores hcollect
      rcases hcollects : collectRows schema now columns rows d with ⟨d', e | all⟩ <;>
        rw [hcollects] at h <;> cases h
      obtain ⟨hall, hvalue⟩ := ih hrest hstores' hcollects
      -- the rows behind are neither read nor written by the first
      refine ⟨?_, fun row' column => ?_⟩
      · have hkept : ∀ column, Record.value after row column = Record.value d row column := fun column => by
          rw [hvalue, if_neg fun h => hrow h.1]
        rw [List.map_cons, ← hall, hcells]
        simp only [hkept]
      · rw [hvalue]
        by_cases hr : row' ∈ rows
        · have hne : row' ≠ row := fun h => hrow (h ▸ hr)
          have hbefore : Record.value d row' column = Record.value dest row' column := by
            rw [hone, if_neg fun h => hne h.1]
          simp only [hr, List.mem_cons_of_mem, visited_congr hbefore, hbefore]
        · rw [if_neg fun h => hr h.1, hone]
          simp only [List.mem_cons, hr, or_false]

theorem insertColumns_sublist (schema : Schema) (dest : ρ) (rows : Nat) :
    (insertColumns schema dest rows).Sublist schema.columns := List.filter_sublist.map _

/-- By its name a column is named for the field of that name. -/
theorem name_mem_insertColumns (hnames : schema.columns.Nodup) {dest : ρ} {rows : Nat} {f : Field}
    (hf : f ∈ schema.fields) :
    f.name ∈ insertColumns schema dest rows ↔
      (!f.hasDefault || (List.range rows).all fun row => !isUnset dest f.name row) = true := by
  unfold insertColumns
  rw [List.mem_map]
  constructor
  · rintro ⟨g, hg, hname⟩
    obtain ⟨hg, hkept⟩ := List.mem_filter.mp hg
    rw [← List.inj_on_of_nodup_map hnames hg hf hname]
    exact hkept
  · intro h
    exact ⟨f, List.mem_filter.mpr ⟨hf, h⟩, rfl⟩

theorem mem_insertColumns (hnames : schema.columns.Nodup) {dest : ρ} {rows : Nat} {f : Field}
    (hf : f ∈ schema.fields) :
    f.name ∈ insertColumns schema dest rows ↔ f.hasDefault = false ∨
      ∀ row < rows, ∃ v, Record.value dest row f.name = some v ∧ v.isZero = false := by
  have hset : ∀ row, isUnset dest f.name row = false ↔
      ∃ v, Record.value dest row f.name = some v ∧ v.isZero = false := by
    intro row
    unfold isUnset
    cases Record.value dest row f.name <;> simp
  rw [name_mem_insertColumns hnames hf, Bool.or_eq_true, Bool.not_eq_true', List.all_eq_true]
  simp only [List.mem_range, Bool.not_eq_true', hset]

/-- The values collected from the first `rows` rows of a destination, and what became of it. -/
structure Collected (schema : Schema) (now : Instant) (rows : Nat) (dest after : ρ) (values : Values) : Prop where
  /-- The columns come in the order of the schema, each of them once. -/
  inOrder : values.columns.Sublist schema.columns ∧ values.columns.Nodup
  /-- What the database fills is named only if every row sets it. -/
  named : ∀ f ∈ schema.fields, f.name ∈ values.columns ↔ f.hasDefault = false ∨
    ∀ row < rows, ∃ v, Record.value dest row f.name = some v ∧ v.isZero = false
  held : values.rows =
    (List.range rows).map fun row => values.columns.map fun column => (Record.value after row column).getD .null
  stamped : ∀ row < rows, ∀ f ∈ schema.fields, f.isStamped = true → f.name ∈ values.columns →
    isUnset dest f.name row = true → Record.value after row f.name = some (.timestamp now)
  kept : ∀ row column,
    ¬ (row < rows ∧ column ∈ values.columns ∧ (∃ f ∈ schema.fields, f.name = column ∧ f.isStamped = true) ∧
      isUnset dest column row = true) → Record.value after row column = Record.value dest row column

end Operation

variable {ρ : Type} [Record ρ]

/-- Values that are collected from a destination that stores what is stamped are those it holds
    by then. -/
theorem collected_values_held (now : Instant) (shape : Shape) {schema : Schema} (hnames : schema.columns.Nodup)
    {dest : ρ} {values : Values} (hstores : Record.Stores (schema.stamps · = true) dest)
    (hvalues : (collectValues now shape (some schema) dest).2 = .ok values) :
    ∃ rows, insertedRows shape = .ok rows ∧ 1 ≤ rows ∧
      Collected schema now rows dest (collectValues now shape (some schema) dest).1 values := by
  obtain ⟨after, h⟩ : ∃ after, collectValues now shape (some schema) dest = (after, .ok values) :=
    ⟨_, Prod.ext rfl hvalues⟩
  rw [h]
  unfold collectValues at h
  dsimp only at h
  split at h
  · cases h
  · next rows hrows =>
    have hsome : 1 ≤ rows := by
      unfold insertedRows at hrows
      split at hrows <;> cases hrows
      · exact Nat.le_refl 1
      · exact Nat.le_refl 1
      · next hne => exact Nat.one_le_iff_ne_zero.mpr fun hzero => hne (by rw [hzero])
    have hsub := insertColumns_sublist schema dest rows
    have hnodup := hsub.nodup hnames
    rcases hcollect : collectRows schema now (insertColumns schema dest rows) (List.range rows) dest with
      ⟨d, e | tuples⟩ <;> rw [hcollect] at h <;> cases h
    obtain ⟨hheld, hvalue⟩ := collectRows_stored hnodup List.nodup_range hstores hcollect
    refine ⟨rows, hrows, hsome, ⟨hsub, hnodup⟩, fun f hf => mem_insertColumns hnames hf, hheld, ?_, ?_⟩
    · intro row hrow f hf hstamped hcolumn hunset
      have hstamps : schema.stamps f.name = true := (Schema.stamps_iff hnames _).mpr ⟨f, hf, rfl, hstamped⟩
      rw [hvalue, if_pos ⟨List.mem_range.mpr hrow, hcolumn⟩]
      unfold visited
      rw [hstamps, hunset]
      rfl
    · intro row column hnot
      rw [hvalue]
      split
      · next hin =>
        unfold visited
        rw [if_neg]
        intro hstamped
        obtain ⟨hstamps, hunset⟩ := Bool.and_eq_true_iff.mp hstamped
        exact hnot ⟨List.mem_range.mp hin.1, hin.2, (Schema.stamps_iff hnames _).mp hstamps, hunset⟩
      · rfl

/-- Visits are numbered by the database and say when they were made. -/
def visitsTable : Description :=
  { table := "visits"
    columns :=
      [{ name := "id", kind := .int, primaryKey := true, autoIncrement := true }, { name := "page", kind := .text },
        { name := "made_at", kind := .time, autoCreateTime := true }] }

/-- Of two visits one says when it was made; the other gets the clock's time. -/
theorem collected_from_visits :
    let now : Instant := ⟨1715000000, 0⟩
    let two : Destination Row :=
      .list visitsTable.model
        [⟨[("made_at", .timestamp ⟨5, 0⟩), ("page", .text "home")]⟩, ⟨[("id", .int 7), ("page", .text "end")]⟩]
    let values : Values :=
      ⟨["page", "made_at"], [[.text "home", .timestamp ⟨5, 0⟩], [.text "end", .timestamp now]]⟩
    let collected := collectValues now (.list 2) (some visitsTable.model.schema) two
    collected.2 = .ok values ∧ Collected visitsTable.model.schema now 2 two collected.1 values := by
  intro now two values collected
  have hstores : Record.Stores (visitsTable.model.schema.stamps · = true) two :=
    Destination.stores_of_model (show visitsTable.model.Stores _ from Description.model_stores (by decide))
  have hcollect : (collectValues now (.list 2) (some visitsTable.model.schema) two).2 = .ok values := by cbv
  obtain ⟨rows, hrows, -, hcollected⟩ := collected_values_held now (.list 2) (by decide) hstores hcollect
  cases hrows
  exact ⟨hcollect, hcollected⟩

end SqlPipeline
