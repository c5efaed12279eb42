/-
  SqlPipeline.Proofs.Find.Loaded — what a destination holds once it was loaded from a result set.

  Rows may be shorter or longer than the column names, names may repeat, and some may be no column
  of the model. In all of this one rule decides: a column takes the cell of the last result column of
  its name that the row has a cell for. Models take only what is a column of theirs; maps take
  everything. What takes no cell stays as it was or, in a list, is as in a blank value.

  - `Rows.lastCell?_of_pairs`: the rule, and the cells of a row paired with the names.
  - `Model.load_took`, `Model.loadAll_rows`: one value, and a list of them.
  - `scan_loads`: every kind of destination.
-/

import SqlPipeline.Proofs.Insert.Copied

namespace SqlPipeline

/-! ## The cell a column takes -/

theorem lastCell?_cons (column : String) (cell : String × Value) (cells : List (String × Value)) :
    lastCell? column (cell :: cells) =
      (lastCell? column cells).or (if cell.1 = column then some cell.2 else none) := by
  unfold lastCell?
  rw [List.reverse_cons, List.find?_append, Option.map_or, List.find?_singleton]
  by_cases h : cell.1 = column <;> simp [h]

namespace Rows

/-- The cell of a row under the column at that place. -/
def cell? (r : Rows) (row place : Nat) : Option Value := r.values[row]?.bind (·[place]?)

/-- The last column of that name that the row has a cell for. -/
def lastPlace? (r : Rows) (row : Nat) (column : String) : Option Nat :=
  (List.range r.columns.length).reverse.find? fun place =>
    r.columns[place]? == some column && (r.cell? row place).isSome

/-- The row's cell there. -/
def lastCell? (r : Rows) (row : Nat) (column : String) : Option Value := (r.lastPlace? row column).bind (r.cell? row)

theorem zip_eq_filterMap (columns : List String) (cells : List Value) :
    columns.zip cells =
      (List.range columns.length).filterMap fun place => columns[place]?.bind fun c => cells[place]?.map (c, ·) := by
  induction columns generalizing cells with
  | nil => rfl
  | cons column columns ih =>
    rw [List.length_cons, List.range_succ_eq_map, List.filterMap_cons, List.filterMap_map]
    cases cells with
    | nil => simp
    | cons cell cells => simpa [Function.comp_def] using ih cells

/-- In a row paired with the names the last cell of a name is the one. -/
theorem lastCell?_of_pairs {r : Rows} {row : Nat} {cells : List (String × Value)} (h : r.pairs[row]? = some cells) :
    r.lastCell? row = fun column => SqlPipeline.lastCell? column cells := by
  funext column
  obtain ⟨values, hvalues, rfl⟩ : ∃ values, r.values[row]? = some values ∧ r.columns.zip values = cells := by
    simpa [pairs] using h
  have hcell : ∀ place, r.cell? row place = values[place]? := by
    intro place
    rw [cell?, hvalues, Option.bind_some]
  have hnamed : ∀ place,
      (r.columns[place]?.bind fun c => values[place]?.map (c, ·)).any (·.1 == column) =
        (r.columns[place]? == some column && (r.cell? row place).isSome) := by
    intro place
    rw [hcell]
    cases r.columns[place]? <;> cases values[place]? <;> simp
  unfold SqlPipeline.lastCell? lastCell? lastPlace?
  rw [zip_eq_filterMap, ← List.filterMap_reverse, List.find?_filterMap, Option.map_bind]
  simp only [hnamed]
  refine Option.bind_congr fun place hfound => ?_
  have hlast := List.find?_some hfound
  simp only [Bool.and_eq_true, beq_iff_eq] at hlast
  rw [Function.comp_apply, hlast.1, hcell]
  simp

theorem lastCell?_of_none {r : Rows} {row : Nat} (h : r.pairs[row]? = none) : r.lastCell? row = fun _ => none := by
  have hnone : r.values[row]? = none := by simpa [pairs] using h
  have hcell : r.cell? row = fun _ => none := by
    funext place
    rw [cell?, hnone, Option.bind_none]
  funext column
  rw [lastCell?, hcell, Option.bind_fun_none]

theorem lastCell?_first (r : Rows) :
    r.lastCell? 0 = fun column => r.pairs.head?.bind (SqlPipeline.lastCell? column) := by
  cases hpairs : r.pairs with
  | nil => exact lastCell?_of_none (by rw [hpairs]; rfl)
  | cons cells rest => exact lastCell?_of_pairs (by rw [hpairs]; rfl)

theorem isEmpty_pairs (r : Rows) : r.isEmpty = r.pairs.isEmpty := List.isEmpty_map.symm

end Rows

theorem Row.get?_setAll (r : Row) (cells : List (String × Value)) (column : String) :
    (r.setAll cells).get? column = (lastCell? column cells).or (r.get? column) := by
  induction cells generalizing r with
  | nil => rfl
  | cons cell cells ih =>
    show ((r.set cell.1 cell.2).setAll cells).get? column = _
    rw [ih, lastCell?_cons, Row.get?_set, Option.or_assoc]
    by_cases h : cell.1 = column
    · simp [h]
    · simp [h, Ne.symm h]

/-! ## Models -/

namespace Model

variable {μ : Type}

/-- What is written is read back where the column is shown, and the other columns that are shown stay. -/
def Shows (shown : String → Prop) (m : Model μ) : Prop :=
  ∀ x column v x', m.setValue x column v = ⟨x', none⟩ →
    ∀ other, shown other → m.value x' other = if other = column then some v else m.value x other

/-- The columns of the model take their cells, those that have one. All else is as in `x`. -/
def Took (shown : String → Prop) (m : Model μ) (cell? : String → Option Value) (x x' : μ) : Prop :=
  ∀ column, shown column → m.value x' column =
    if column ∈ m.schema.columns then (cell? column).or (m.value x column) else m.value x column

variable {m : Model μ} {shown : String → Prop}

theorem took_nothing (x : μ) : m.Took shown (fun _ => none) x x := by
  intro column _
  simp

theorem load_took (hshows : m.Shows shown) {cells : List (String × Value)} {x x' : μ}
    (h : m.load x cells = ⟨x', none⟩) : m.Took shown (lastCell? · cells) x x' := by
  induction cells generalizing x with
  | nil =>
    cases h
    intro column _
    simp [lastCell?]
  | cons cell cells ih =>
    obtain ⟨name, v⟩ := cell
    intro column hcolumn
    dsimp only
    rw [lastCell?_cons, Option.or_assoc]
    rw [load] at h
    by_cases hknown : name ∈ m.schema.columns
    · rw [if_pos ((m.schema.isSome_field? name).mpr hknown)] at h
      rcases hset : m.setValue x name v with ⟨x₁, _ | e⟩ <;> rw [hset] at h
      · rw [ih h column hcolumn, hshows x name v x₁ hset column hcolumn]
        by_cases hname : column = name
        · simp [hname, hknown]
        · simp [hname, Ne.symm hname]
      · cases h
    · rw [if_neg (mt (m.schema.isSome_field? name).mp hknown)] at h
      rw [ih h column hcolumn]
      by_cases hname : column = name
      · simp [hname, hknown]
      · simp [Ne.symm hname]

theorem loadAll_took (hshows : m.Shows shown) {all : List (List (String × Value))} {xs : List μ}
    (h : m.loadAll all = ⟨xs, none⟩) :
    List.Forall₂ (fun cells x => m.Took shown (lastCell? · cells) m.blank x) all xs := by
  induction all generalizing xs with
  | nil =>
    cases h
    exact .nil
  | cons cells all ih =>
    rw [loadAll] at h
    rcases hload : m.load m.blank cells with ⟨x, _ | e⟩ <;> rw [hload] at h
    · obtain ⟨xs', hrest, rfl⟩ := Attempt.map_ok h
      exact .cons (load_took hshows hload) (ih hrest)
    · cases h

/-- Of a result set every row is loaded, into a value of its own. -/
theorem loadAll_rows (hshows : m.Shows shown) {rows : Rows} {xs : List μ} (h : m.loadAll rows.pairs = ⟨xs, none⟩) :
    xs.length = rows.size ∧ ∀ i x, xs[i]? = some x → m.Took shown (rows.lastCell? i) m.blank x := by
  obtain ⟨hlength, htook⟩ := List.forall₂_iff_get.mp (loadAll_took hshows h)
  refine ⟨hlength.symm.trans (List.length_map _), fun i x hx => ?_⟩
  obtain ⟨hi, rfl⟩ := List.getElem?_eq_some_iff.mp hx
  rw [Rows.lastCell?_of_pairs (List.getElem?_eq_getElem (hlength ▸ hi))]
  exact htook i (hlength ▸ hi) hi

end Model

/-- A described model shows what it does not hide, and stores whatever it takes. -/
theorem Description.model_shows (d : Description) : d.model.Shows fun column => (d.column? column).all (!·.hidden) := by
  intro x column v x' hset other hshown
  obtain ⟨⟨c, hc⟩, rfl⟩ := d.setValue_ok hset
  show d.value (x.set column v) other = if other = column then some v else d.value x other
  unfold value
  rw [Row.get?_set]
  by_cases hother : other = column
  · rw [hother, hc] at hshown ⊢
    simpa using hshown
  · rw [if_neg hother, if_neg hother]

/-! ## Destinations -/

namespace Destination

variable {μ : Type}

/-- The model of the destination, if it has one, stores what is written and shows it there. -/
def Shows (shown : String → Prop) : Destination μ → Prop
  | .one m _ | .list m _ | .optional m _ => m.Shows shown
  | .map _ | .scripted _ => True

/-- A destination before and after a result set was loaded into it. -/
inductive Loaded (shown : String → Prop) (rows : Rows) : Destination μ → Destination μ → Prop
  /-- The first row is taken. -/
  | one {m : Model μ} {x x' : μ} (taken : m.Took shown (rows.lastCell? 0) x x')
      (unchanged : rows.isEmpty = true → x' = x) : Loaded shown rows (.one m x) (.one m x')
  /-- One blank value for each row, in order, takes that row. -/
  | list {m : Model μ} {xs xs' : List μ} (size : xs'.length = rows.size)
      (taken : ∀ i x', xs'[i]? = some x' → m.Took shown (rows.lastCell? i) m.blank x') :
      Loaded shown rows (.list m xs) (.list m xs')
  | absent {m : Model μ} {x : Option μ} (empty : rows.isEmpty = true) :
      Loaded shown rows (.optional m x) (.optional m none)
  /-- The first row is taken by the value that was there, or else by a blank one. -/
  | present {m : Model μ} {x : Option μ} {x' : μ} (nonempty : rows.isEmpty = false)
      (taken : m.Took shown (rows.lastCell? 0) (x.getD m.blank) x') :
      Loaded shown rows (.optional m x) (.optional m (some x'))
  /-- The first row is taken under any name, and the other entries stay. -/
  | map {r r' : Row} (taken : ∀ column, r'.get? column = (rows.lastCell? 0 column).or (r.get? column)) :
      Loaded shown rows (.map r) (.map r')
  /-- Each row is taken as it is. -/
  | scripted {s : Scripted} {rs : List Row} (size : rs.length = rows.size)
      (taken : ∀ i r, rs[i]? = some r → ∀ column, r.get? column = rows.lastCell? i column) :
      Loaded shown rows (.scripted s) (.scripted { s with rows := rs })

/-- Whatever the rows are like, a load that succeeds leaves the destination as they say. -/
theorem scan_loads {shown : String → Prop} {rows : Rows} {d d' : Destination μ} (hshows : d.Shows shown)
    (h : d.scan rows = ⟨d', none⟩) : d.Loaded shown rows d' := by
  have hfirst := rows.lastCell?_first
  have hempty := rows.isEmpty_pairs
  cases d with
  | one m x =>
    cases hpairs : rows.pairs <;> simp only [scan, hpairs] at h <;> rw [hpairs] at hfirst hempty
    case nil =>
      cases h
      refine .one ?_ fun _ => rfl
      rw [hfirst]
      exact Model.took_nothing x
    case cons cells rest =>
      obtain ⟨x', hload, rfl⟩ := Attempt.map_ok h
      refine .one ?_ fun hnone => absurd (hempty.symm.trans hnone) Bool.false_ne_true
      rw [hfirst]
      exact Model.load_took hshows hload
  | list m xs =>
    simp only [scan] at h
    obtain ⟨xs', hload, rfl⟩ := Attempt.map_ok h
    obtain ⟨hsize, htook⟩ := Model.loadAll_rows hshows hload
    exact .list hsize htook
  | optional m x =>
    cases hpairs : rows.pairs <;> simp only [scan, hpairs] at h <;> rw [hpairs] at hfirst hempty
    case nil =>
      cases h
      exact .absent hempty
    case cons cells rest =>
      obtain ⟨x', hload, rfl⟩ := Attempt.map_ok h
      refine .present hempty ?_
      rw [hfirst]
      exact Model.load_took hshows hload
  | map r =>
    cases hpairs : rows.pairs <;> simp only [scan, hpairs] at h <;> rw [hpairs] at hfirst
    case nil =>
      cases h
      refine .map fun column => ?_
      rw [hfirst]
      rfl
    case cons cells rest =>
      cases h
      refine .map fun column => ?_
      rw [hfirst]
      exact r.get?_setAll cells column
  | scripted s =>
    simp only [scan] at h
    split at h
    · cases h
    · cases h
      have hsize : (rows.pairs.map Row.ofCells).length = rows.size := by
        rw [List.length_map, Rows.pairs, List.length_map, Rows.size]
      refine .scripted hsize fun i r hr column => ?_
      obtain ⟨cells, hcells, rfl⟩ : ∃ cells, rows.pairs[i]? = some cells ∧ Row.ofCells cells = r := by
        simpa using hr
      rw [Rows.lastCell?_of_pairs hcells, Row.ofCells, Row.get?_setAll]
      exact Option.or_none

/-- Accounts with a column that is not shown. The key comes twice, the second row has but one cell,
    and the age is no column of theirs. -/
theorem scan_of_accounts :
    let accounts : Description :=
      { table := "accounts"
        columns :=
          [{ name := "id", kind := .int }, { name := "name", kind := .text },
            { name := "secret", kind := .text, hidden := true }] }
    let rows : Rows :=
      ⟨["id", "name", "id", "secret", "age"],
        [[.int 1, .text "ann", .int 5, .text "sesame", .int 40], [.int 7]]⟩
    let dest : Destination Row := .list accounts.model [accounts.blank]
    let shown := fun column => (accounts.column? column).all (!·.hidden) = true
    dest.Shows shown ∧ ∃ d', dest.scan rows = ⟨d', none⟩ ∧ dest.Loaded shown rows d' ∧ d'.size = 2 ∧
      d'.value 0 "id" = some (.int 5) ∧ d'.value 0 "name" = some (.text "ann") ∧
      d'.value 1 "id" = some (.int 7) ∧ d'.value 1 "name" = some (.text "") := by
  intro accounts rows dest shown
  have hshows : dest.Shows shown := accounts.model_shows
  rcases hscan : dest.scan rows with ⟨d', error⟩
  have hdone : error = none := by
    rw [show error = (dest.scan rows).error by rw [hscan]]
    cbv
  subst hdone
  have hloaded : dest.Loaded shown rows d' := scan_loads hshows hscan
  refine ⟨hshows, d', rfl, hloaded, ?_⟩
  rw [show d' = (dest.scan rows).state by rw [hscan]]
  refine ⟨?_, ?_, ?_, ?_, ?_⟩ <;> cbv

end Destination

end SqlPipeline
