/-
  SqlPipeline.Proofs.Change.Assigned — what an update sets is what its destination holds.

  What was queued is set in its order, and behind it the update times that were not queued. All
  of that is written to every row. These are writes to single cells, one row after the other, so
  a column that is set twice is left with its later value; a column the schema does not know is
  set without being written. With nothing queued a single record is stamped, and what it then
  holds is set, as far as it is not zero.

  - `stamped_eq`: which update times are added. Those added before do not matter, as no two
    fields share a name.
  - `assignRows_stored`: the rows after they were written to.
  - `savedColumns_stored`: the record after it was stamped, and what is set from it.
  - `update_set_agrees`: the update step.
-/

import Mathlib
import SqlPipeline.Proofs.Execution.Sending
import SqlPipeline.Proofs.Keys.Stored
import SqlPipeline.Proofs.Record.Stored

namespace SqlPipeline

open Operation

/-! ## What is set -/

/-- The value a column is given last. -/
def lastAssigned? (column : String) (set : List Assignment) : Option Value :=
  (set.reverse.find? (·.column == column)).map (·.value)

theorem lastAssigned?_eq_none {column : String} {set : List Assignment} (h : ∀ a ∈ set, a.column ≠ column) :
    lastAssigned? column set = none := by
  unfold lastAssigned?
  rw [Option.map_eq_none_iff, List.find?_eq_none]
  intro a ha
  simpa using h a (List.mem_reverse.mp ha)

/-- Whether a record that is saved sets the column. -/
def Field.isSaved (f : Field) : Bool := !(f.primaryKey || f.autoCreateTime)

namespace Operation

/-- Update times that are not assigned. -/
def missingTimes (queued : List Assignment) (fields : List Field) : List Field :=
  fields.filter fun f => f.autoUpdateTime && !queued.any (·.column == f.name)

theorem stamped_cons (now : Value) (queued : List Assignment) (f : Field) (fields : List Field) :
    stamped now queued (f :: fields) =
      stamped now (queued ++ (missingTimes queued [f]).map fun f => ⟨f.name, now⟩) fields := by
  unfold stamped missingTimes
  rw [List.filter_cons, List.filter_singleton]
  cases htime : f.autoUpdateTime with
  | false => simp
  | true =>
    cases hqueued : queued.any (·.column == f.name) with
    | false => simp only [if_true, List.foldl_cons, hqueued, Bool.not_false, Bool.and_self, cond_true, List.map_cons,
        List.map_nil, Bool.false_eq_true, if_false]
    | true => simp only [if_true, List.foldl_cons, hqueued, Bool.not_true, Bool.and_false, cond_false, List.map_nil,
        List.append_nil]

/-- What is added for other fields adds no assignment of this one. -/
theorem missingTimes_append (now : Value) (queued : List Assignment) (added : List Field) {fields : List Field}
    (hadded : ∀ f ∈ added, ∀ g ∈ fields, f.name ≠ g.name) :
    missingTimes (queued ++ added.map fun f => ⟨f.name, now⟩) fields = missingTimes queued fields := by
  refine List.filter_congr fun g hg => ?_
  have hnone : (added.map fun f => (⟨f.name, now⟩ : Assignment)).any (·.column == g.name) = false := by
    rw [List.any_map, List.any_eq_false]
    intro f hf
    simpa using hadded f hf g hg
  rw [List.any_append, hnone, Bool.or_false]

theorem stamped_eq (now : Value) (queued : List Assignment) {fields : List Field}
    (hnames : (fields.map (·.name)).Nodup) :
    stamped now queued fields = queued ++ (missingTimes queued fields).map fun f => ⟨f.name, now⟩ := by
  induction fields generalizing queued with
  | nil => exact (List.append_nil _).symm
  | cons f fields ih =>
    obtain ⟨hname, hrest⟩ := List.nodup_cons.mp hnames
    have hothers : ∀ f' ∈ missingTimes queued [f], ∀ g ∈ fields, f'.name ≠ g.name := by
      intro f' hf' g hg h
      rw [List.mem_singleton.mp (List.mem_of_mem_filter hf')] at h
      exact hname (List.mem_map.mpr ⟨g, hg, h.symm⟩)
    rw [stamped_cons, ih _ hrest, missingTimes_append now queued _ hothers, List.append_assoc, ← List.map_append]
    unfold missingTimes
    rw [← List.filter_append]
    rfl

/-! ## Writing it to the rows -/

/-- What is written to one row. -/
def rowWrites (schema : Schema) (set : List Assignment) (row : Nat) : List CellWrite :=
  (set.filter fun a => (schema.field? a.column).isSome).map fun a => ⟨row, a.column, a.value⟩

theorem rowWrites_known {schema : Schema} {set : List Assignment} {row : Nat} :
    ∀ w ∈ rowWrites schema set row, w.column ∈ schema.columns := by
  intro w hw
  obtain ⟨a, ha, rfl⟩ := List.mem_map.mp hw
  exact (schema.isSome_field? _).mp (List.mem_filter.mp ha).2

theorem lastWritten?_rowWrites (schema : Schema) (set : List Assignment) (row row' : Nat) (column : String) :
    lastWritten? row' column (rowWrites schema set row) =
      if row' = row ∧ column ∈ schema.columns then lastAssigned? column set else none := by
  split
  · next h =>
    obtain ⟨rfl, hcolumn⟩ := h
    have hknown := (schema.isSome_field? column).mpr hcolumn
    unfold lastWritten? lastAssigned? rowWrites
    rw [← List.map_reverse, List.find?_map, Option.map_map, ← List.filter_reverse, List.find?_filter]
    refine congrArg (fun p => (set.reverse.find? p).map (·.value)) (funext fun a => ?_)
    by_cases ha : a.column = column
    · simp [ha, hknown]
    · simp [ha]
  · next h =>
    refine lastWritten?_eq_none fun w hw hrow hcolumn => h ⟨?_, hcolumn ▸ rowWrites_known w hw⟩
    obtain ⟨a, -, rfl⟩ := List.mem_map.mp hw
    exact hrow.symm

variable {ρ : Type} [Record ρ]

theorem assignRow_eq (schema : Schema) (row : Nat) (set : List Assignment) (dest : ρ) :
    assignRow schema row set dest = Record.writeAll (rowWrites schema set row) dest := by
  unfold rowWrites
  induction set generalizing dest with
  | nil => rfl
  | cons a set ih =>
    rw [assignRow]
    by_cases ha : (schema.field? a.column).isSome = true
    · rw [if_pos ha, List.filter_cons, if_pos ha, List.map_cons, Record.writeAll]
      dsimp only
      rcases Record.setValue dest row a.column a.value with ⟨d, _ | e⟩
      · exact ih d
      · rfl
    · rw [if_neg ha, List.filter_cons, if_neg ha]
      exact ih dest

/-- Rows that were all written to. -/
theorem assignRows_eq {schema : Schema} {set : List Assignment} {rows : List Nat} {dest after : ρ}
    (h : assignRows schema set rows dest = ⟨after, none⟩) :
    Record.writeAll (rows.flatMap (rowWrites schema set)) dest = ⟨after, none⟩ := by
  induction rows generalizing dest with
  | nil => exact h
  | cons row rows ih =>
    unfold assignRows at h
    split at h
    · next d hrow =>
      rw [assignRow_eq] at hrow
      rw [List.flatMap_cons, Record.writeAll_append hrow]
      exact ih h
    · next hfailed =>
      exact absurd h (hfailed after)

theorem lastWritten?_rows (schema : Schema) (set : List Assignment) (rows : List Nat) (row : Nat) (column : String) :
    lastWritten? row column (rows.flatMap (rowWrites schema set)) =
      if row ∈ rows ∧ column ∈ schema.columns then lastAssigned? column set else none := by
  induction rows with
  | nil => simp [lastWritten?]
  | cons row' rows ih =>
    rw [List.flatMap_cons, lastWritten?_append, ih, lastWritten?_rowWrites]
    by_cases hrow : row = row'
    · by_cases hrows : row ∈ rows <;> simp [← hrow, hrows, Option.or_self]
    · simp [hrow]

theorem assignRows_stored {schema : Schema} {set : List Assignment} {rows : List Nat} {dest after : ρ}
    (hstores : Record.Stores (· ∈ schema.columns) dest) (h : assignRows schema set rows dest = ⟨after, none⟩)
    (row : Nat) (column : String) :
    Record.value after row column =
      (if row ∈ rows ∧ column ∈ schema.columns then lastAssigned? column set else none).or
        (Record.value dest row column) := by
  have hknown : ∀ w ∈ rows.flatMap (rowWrites schema set), w.column ∈ schema.columns := by
    intro w hw
    obtain ⟨row, -, hw⟩ := List.mem_flatMap.mp hw
    exact rowWrites_known w hw
  rw [hstores _ after hknown (assignRows_eq h), lastWritten?_rows]

/-! ## Saving a record -/

/-- The update times a record that is saved is stamped with. -/
def savedTimes (fields : List Field) : List String :=
  (fields.filter fun f => f.isSaved && f.autoUpdateTime).map (·.name)

theorem savedTimes_cons (f : Field) (fields : List Field) :
    savedTimes (f :: fields) = (if f.isSaved && f.autoUpdateTime then [f.name] else []) ++ savedTimes fields := by
  unfold savedTimes
  rw [List.filter_cons]
  split <;> rfl

/-- What a record holds in a column, unless that is zero. -/
def heldIn (dest : ρ) (column : String) : List Assignment :=
  (((Record.value dest 0 column).filter (!·.isZero)).map fun value => { column, value }).toList

/-- The columns a record that is saved sets, with what it holds. -/
def savedFrom (dest : ρ) (fields : List Field) : List Assignment :=
  (fields.filter (·.isSaved)).flatMap fun f => heldIn dest f.name

theorem heldIn_nonzero {dest : ρ} {column : String} {a : Assignment} (h : a ∈ heldIn dest column) :
    a.value.isZero = false := by
  unfold heldIn at h
  obtain ⟨v, hv, rfl⟩ := Option.map_eq_some_iff.mp (Option.mem_toList.mp h)
  simpa using (Option.filter_eq_some_iff.mp hv).2

theorem savedFrom_cons (dest : ρ) (f : Field) (fields : List Field) :
    savedFrom dest (f :: fields) = (if f.isSaved then heldIn dest f.name else []) ++ savedFrom dest fields := by
  unfold savedFrom
  rw [List.filter_cons]
  split <;> rfl

theorem savedColumns_skipped {f : Field} (h : f.isSaved = false) (now : Value) (fields : List Field) (dest : ρ) :
    savedColumns now (f :: fields) dest = savedColumns now fields dest := by
  have hskipped : (f.primaryKey || f.autoCreateTime) = true := by
    simpa only [Field.isSaved, Bool.not_eq_false'] using h
  rw [savedColumns, if_pos hskipped]

/-- A column that is saved: the record is stamped if the field asks for it, and what it then
    holds comes first. -/
theorem savedColumns_cons {known : String → Prop} {now : Value} {f : Field} (hsaved : f.isSaved = true)
    (hknown : known f.name) {fields : List Field} {dest after : ρ} {set : List Assignment}
    (hstores : Record.Stores known dest) (h : savedColumns now (f :: fields) dest = (after, .ok set)) :
    ∃ d rest, savedColumns now fields d = (after, .ok rest) ∧ set = heldIn d f.name ++ rest ∧
      Record.Stores known d ∧ ∀ row column, Record.value d row column =
        if f.autoUpdateTime = true ∧ row = 0 ∧ column = f.name then some now else Record.value dest row column := by
  have htaken : (f.primaryKey || f.autoCreateTime) = false := by
    simpa only [Field.isSaved, Bool.not_eq_true'] using hsaved
  rw [savedColumns, if_neg (ne_true_of_eq_false htaken)] at h
  extract_lets written saved at h
  split at h
  · cases h
  · next hok =>
    rcases hrest : savedColumns now fields written.state with ⟨d, e | rest⟩ <;> rw [hrest] at h <;> cases h
    refine ⟨written.state, rest, hrest, ?_⟩
    by_cases htime : f.autoUpdateTime = true
    · have hset : Record.setValue dest 0 f.name now = ⟨written.state, none⟩ := by
        rw [← hok]
        exact (if_pos htime).symm
      obtain ⟨hstores', hvalue⟩ := hstores.setValue hknown hset
      have hread : saved = Record.value written.state 0 f.name := by
        rw [hvalue, if_pos ⟨rfl, rfl⟩]
        exact if_pos htime
      refine ⟨?_, hstores', fun row column => ?_⟩
      · rw [hread]
        rfl
      · rw [hvalue]
        simp [htime]
    · have hkept : written.state = dest := congrArg Attempt.state (if_neg htime : written = ⟨dest, none⟩)
      have hread : saved = Record.value written.state 0 f.name := if_neg htime
      refine ⟨?_, ?_, fun row column => ?_⟩
      · rw [hread]
        rfl
      · rw [hkept]
        exact hstores
      · rw [hkept]
        simp [htime]

theorem savedColumns_stored {known : String → Prop} {now : Value} {fields : List Field}
    (hnames : (fields.map (·.name)).Nodup) (hknown : ∀ f ∈ fields, known f.name) {dest after : ρ}
    {set : List Assignment} (hstores : Record.Stores known dest)
    (h : savedColumns now fields dest = (after, .ok set)) :
    (∀ row column, Record.value after row column =
      if row = 0 ∧ column ∈ savedTimes fields then some now else Record.value dest row column) ∧
      set = savedFrom after fields := by
  induction fields generalizing dest set with
  | nil =>
    cases h
    exact ⟨by simp [savedTimes], rfl⟩
  | cons f fields ih =>
    obtain ⟨hname, hrest⟩ := List.nodup_cons.mp hnames
    obtain ⟨hf, hknown⟩ := List.forall_mem_cons.mp hknown
    rw [savedFrom_cons]
    simp only [savedTimes_cons]
    cases hsaved : f.isSaved with
    | false =>
      rw [savedColumns_skipped hsaved] at h
      exact ih hrest hknown hstores h
    | true =>
      obtain ⟨d, rest, hfields, hset, hstores', hone⟩ := savedColumns_cons hsaved hf hstores h
      obtain ⟨hvalue, hsaves⟩ := ih hrest hknown hstores' hfields
      -- the other fields leave this column as it was read
      have hlater : f.name ∉ savedTimes fields := fun hmem => hname ((List.filter_sublist.map _).subset hmem)
      have hkept : Record.value after 0 f.name = Record.value d 0 f.name := by
        rw [hvalue, if_neg fun h => hlater h.2]
      refine ⟨fun row column => ?_, ?_⟩
      · rw [hvalue, hone]
        by_cases htime : f.autoUpdateTime = true
        · by_cases hcolumn : column = f.name <;> simp [htime, hcolumn, hlater]
        · simp [htime]
      · rw [hset, hsaves]
        unfold heldIn
        rw [hkept]
        rfl

/-! ## The step -/

omit [Record ρ] in
/-- Sending leaves what is stored alone. -/
theorem send_kept (r : Run ρ) :
    (send r).statement.destination? = r.statement.destination? ∧ (send r).statement.clauses = r.statement.clauses := by
  unfold send
  split
  · exact ⟨rfl, rfl⟩
  · unfold Run.exec
    cases r.pool.exec <;> exact ⟨rfl, rfl⟩

theorem update_kept (env : Env) {r : Run ρ} (hfree : r.failed = false) (htext : r.statement.hasText = false) :
    let prepared := (prepareUpdate env r.statement).1
    (update env r).statement.destination? = prepared.destination? ∧
      (update env r).statement.clauses = prepared.clauses := by
  intro prepared
  unfold update
  rw [if_neg (by simp [hfree]), if_neg (by simp [htext])]
  dsimp only
  split
  · exact send_kept { r with statement := prepared }
  · exact ⟨rfl, rfl⟩

/-- Narrowing the statement and writing it leave destination and assignments where they are. -/
theorem guarded_kept (env : Env) (s : Statement ρ) :
    let guarded := buildGuarded env (addKeyCondition s)
    guarded.destination? = s.destination? ∧ guarded.clause? "SET" = s.clause? "SET" := by
  intro guarded
  have hbuilt : guarded.destination? = (addKeyCondition s).destination? ∧
      guarded.clause? "SET" = (addKeyCondition s).clause? "SET" := by
    show (buildGuarded env _).destination? = _ ∧ (buildGuarded env _).clause? "SET" = _
    unfold buildGuarded
    split <;> exact ⟨rfl, rfl⟩
  rw [hbuilt.1, hbuilt.2]
  unfold addKeyCondition
  cases keyConditionOf? s with
  | none => exact ⟨rfl, rfl⟩
  | some e => exact ⟨rfl, (s.clauses.get?_add (.where [e]) "SET").trans (if_neg (by simp [Clause.name]))⟩

theorem assignmentsOf_eq (env : Env) {s : Statement ρ} {schema : Schema} (hschema : s.schema = some schema) {dest : ρ}
    (hdest : s.destination? = some dest) :
    let collected := collectAssignments (.timestamp env.now) s.shape schema s.assignments dest
    assignmentsOf env s = (s.setDestination collected.1, collected.2) := by
  intro collected
  unfold assignmentsOf
  rw [hschema, hdest]

theorem prepareUpdate_set (env : Env) {s : Statement ρ} {schema : Schema} (hschema : s.schema = some schema)
    {dest after : ρ} (hdest : s.destination? = some dest) {set : List Assignment}
    (hset : collectAssignments (.timestamp env.now) s.shape schema s.assignments dest = (after, .ok set)) :
    let prepared := (prepareUpdate env s).1
    prepared.destination? = some after ∧ (set ≠ [] → prepared.clause? "SET" = some (.set set)) := by
  intro prepared
  obtain ⟨table, htable⟩ := Statement.tableName?_of_schema hschema
  let s₁ := s.addClauseIfAbsent (.update table)
  let s₂ := s₁.setDestination after
  have hdest₂ : s₂.destination? = some after := Statement.destination?_setDestination (s := s₁) hdest after
  have hassign : assignmentsOf env s₁ = (s₂, .ok set) := by
    rw [assignmentsOf_eq env (s := s₁) hschema hdest,
      show collectAssignments _ s₁.shape schema s₁.assignments dest = _ from hset]
  have hprepared : prepared = (prepareUpdate env s).1 := rfl
  unfold prepareUpdate at hprepared
  simp only [htable, show assignmentsOf env (s.addClauseIfAbsent (.update table)) = _ from hassign] at hprepared
  cases set with
  | nil =>
    rw [hprepared]
    exact ⟨hdest₂, fun h => absurd rfl h⟩
  | cons a set =>
    obtain ⟨hkept, hclause⟩ := guarded_kept env (s₂.addClause (.set (a :: set)))
    rw [hprepared]
    refine ⟨hkept.trans hdest₂, fun _ => hclause.trans ?_⟩
    exact (s₂.clauses.get?_add (.set (a :: set)) "SET").trans (if_pos rfl)

end Operation

variable {μ : Type}

/-- What was queued is set, then the update times that were not, and every row holds it. -/
structure Mirrored (schema : Schema) (now : Value) (queued set : List Assignment) (dest after : Destination μ) :
    Prop where
  listed : set = queued ++ (missingTimes queued schema.fields).map fun f => ⟨f.name, now⟩
  size : after.size = dest.size
  held : ∀ row < after.size, ∀ column ∈ schema.columns, ∀ v, lastAssigned? column set = some v →
    after.value row column = some v
  kept : ∀ row column, ¬(row < dest.size ∧ column ∈ schema.columns ∧ ∃ a ∈ set, a.column = column) →
    after.value row column = dest.value row column

/-- The record was stamped, and what it now holds is set, as far as it is not zero. The clock's
    time is no exception: at zero it is written to the record and not set. -/
structure Saved (schema : Schema) (now : Value) (set : List Assignment) (dest after : Destination μ) : Prop where
  listed : set = savedFrom after schema.fields
  stamped : ∀ f ∈ schema.fields, f.isSaved = true → f.autoUpdateTime = true →
    after.value 0 f.name = some now ∧ (⟨f.name, now⟩ ∈ set ↔ now.isZero = false)
  kept : ∀ row column, ¬(row = 0 ∧ column ∈ savedTimes schema.fields) →
    after.value row column = dest.value row column

theorem mirrored_of_queued {schema : Schema} (hnames : schema.columns.Nodup) {now : Value} {shape : Shape}
    {queued set : List Assignment} (hqueued : queued ≠ []) {dest after : Destination μ}
    (hstores : Record.Stores (· ∈ schema.columns) dest)
    (h : collectAssignments now shape schema queued dest = (after, .ok set)) :
    Mirrored schema now queued set dest after := by
  unfold collectAssignments at h
  rw [if_neg (by simpa using hqueued)] at h
  dsimp only at h
  rcases hassign : assignRows schema (stamped now queued schema.fields) (List.range (Record.size dest)) dest with
    ⟨d, _ | e⟩ <;> rw [hassign] at h <;> cases h
  have hvalue := assignRows_stored hstores hassign
  have hsize : after.size = dest.size := by
    have hrows : ∀ w ∈ (List.range (Record.size dest)).flatMap (rowWrites schema (stamped now queued schema.fields)),
        w.row < dest.size := by
      intro w hw
      obtain ⟨row, hrow, hw⟩ := List.mem_flatMap.mp hw
      obtain ⟨a, -, rfl⟩ := List.mem_map.mp hw
      exact List.mem_range.mp hrow
    rw [← Destination.writeAll_size hrows, assignRows_eq hassign]
  refine ⟨stamped_eq now queued hnames, hsize, ?_, ?_⟩
  · intro row hrow column hcolumn v hv
    have hmem : row ∈ List.range (Record.size dest) := List.mem_range.mpr (Nat.lt_of_lt_of_eq hrow hsize)
    rw [show after.value row column = _ from hvalue row column, if_pos ⟨hmem, hcolumn⟩, hv]
    rfl
  · intro row column hnot
    rw [show after.value row column = _ from hvalue row column]
    split
    · next hin =>
      have hnone : lastAssigned? column (stamped now queued schema.fields) = none :=
        lastAssigned?_eq_none fun a ha h => hnot ⟨List.mem_range.mp hin.1, hin.2, a, ha, h⟩
      rw [hnone]
      rfl
    · rfl

theorem saved_of_record {schema : Schema} (hnames : schema.columns.Nodup) {now : Value} {shape : Shape}
    {set : List Assignment} {dest after : Destination μ} (hstores : Record.Stores (· ∈ schema.columns) dest)
    (h : collectAssignments now shape schema [] dest = (after, .ok set)) :
    shape = .record ∧ Saved schema now set dest after := by
  unfold collectAssignments at h
  rw [if_pos List.isEmpty_nil] at h
  split at h
  · next hshape =>
    have hknown : ∀ f ∈ schema.fields, f.name ∈ schema.columns := fun f hf => List.mem_map.mpr ⟨f, hf, rfl⟩
    obtain ⟨hvalue, hsaves⟩ := savedColumns_stored hnames hknown hstores h
    refine ⟨hshape, hsaves, fun f hf hsaved htime => ?_, fun row column hnot => ?_⟩
    · have htimes : f.name ∈ savedTimes schema.fields :=
        List.mem_map.mpr ⟨f, List.mem_filter.mpr ⟨hf, by simp [hsaved, htime]⟩, rfl⟩
      have hread : after.value 0 f.name = some now := (hvalue 0 f.name).trans (if_pos ⟨rfl, htimes⟩)
      refine ⟨hread, ?_, fun hnow => ?_⟩
      · intro hmem
        rw [hsaves] at hmem
        obtain ⟨g, -, hg⟩ := List.mem_flatMap.mp hmem
        exact heldIn_nonzero hg
      · rw [hsaves]
        refine List.mem_flatMap.mpr ⟨f, List.mem_filter.mpr ⟨hf, hsaved⟩, ?_⟩
        unfold heldIn
        rw [show Record.value after 0 f.name = some now from hread]
        simp [hnow]
    · exact (hvalue row column).trans (if_neg hnot)
  · cases h

/-- An update that turns its input into assignments sets them, and its destination holds what it
    sets: every row what was queued and the update times, or a single record, with nothing
    queued, what was saved of it. -/
theorem update_set_agrees (env : Env) {r : Run (Destination μ)} (hfree : r.failed = false)
    (htext : r.statement.hasText = false) {schema : Schema} (hschema : r.statement.schema = some schema)
    (hnames : schema.columns.Nodup) {dest : Destination μ} (hdest : r.statement.destination? = some dest)
    (hstores : Record.Stores (· ∈ schema.columns) dest) {set : List Assignment}
    (hset : (assignmentsOf env r.statement).2 = .ok set) :
    let queued := r.statement.assignments
    let done := (update env r).statement
    ∃ after, done.destination? = some after ∧ (set ≠ [] → done.clause? "SET" = some (.set set)) ∧
      (queued ≠ [] → Mirrored schema (.timestamp env.now) queued set dest after) ∧
      (queued = [] → r.statement.shape = .record ∧ Saved schema (.timestamp env.now) set dest after) := by
  intro queued done
  rw [assignmentsOf_eq env hschema hdest] at hset
  obtain ⟨after, hcollect⟩ : ∃ after, collectAssignments (.timestamp env.now) r.statement.shape schema queued dest =
      (after, .ok set) := ⟨_, Prod.ext rfl hset⟩
  obtain ⟨hdest', hclause⟩ := prepareUpdate_set env hschema hdest hcollect
  obtain ⟨hkept, hclauses⟩ := update_kept env hfree htext
  refine ⟨after, hkept.trans hdest', fun hne => ?_, fun hqueued => ?_, fun hqueued => ?_⟩
  · show done.clauses.get? "SET" = _
    rw [show done.clauses = _ from hclauses]
    exact hclause hne
  · exact mirrored_of_queued hnames hqueued hstores hcollect
  · rw [hqueued] at hcollect
    exact saved_of_record hnames hstores hcollect

/-- Tasks have a key, a title, a mark when they are done, and both times. -/
def tasksTable : Description :=
  { table := "tasks"
    columns :=
      [{ name := "id", kind := .int, primaryKey := true, autoIncrement := true }, { name := "title", kind := .text },
        { name := "done", kind := .bool }, { name := "made_at", kind := .time, autoCreateTime := true },
        { name := "changed_at", kind := .time, autoUpdateTime := true }] }

/-- Two tasks get a title twice, and a column that no task has. One task is saved as it is, its
    mark being zero. -/
theorem update_of_tasks :
    let env : Env := { now := ⟨1715000000, 0⟩ }
    let now : Value := .timestamp env.now
    let schema := tasksTable.model.schema
    let two : Destination Row :=
      .list tasksTable.model [⟨[("id", .int 1), ("title", .text "a")]⟩, ⟨[("done", .bool true), ("id", .int 2)]⟩]
    let one : Destination Row := .one tasksTable.model ⟨[("done", .bool false), ("id", .int 1), ("title", .text "a")]⟩
    let fresh : Statement (Destination Row) :=
      { schema := some schema, buildClauses := StageKind.update.clauses env.config }
    let queued : List Assignment := [⟨"title", .text "b"⟩, ⟨"note", .int 3⟩, ⟨"title", .text "c"⟩]
    let r : Run (Destination Row) :=
      { statement := { fresh with dest := some (.value two), shape := .list 2, assignments := queued } }
    let r' : Run (Destination Row) := { statement := { fresh with dest := some (.value one), shape := .record } }
    (∃ after, (update env r).statement.destination? = some after ∧
      Mirrored schema now queued (queued ++ [⟨"changed_at", now⟩]) two after ∧
      after.value 1 "title" = some (.text "c") ∧ after.value 1 "changed_at" = some now ∧
      after.value 1 "done" = some (.bool true)) ∧
    ∃ after, (update env r').statement.destination? = some after ∧
      Saved schema now [⟨"title", .text "a"⟩, ⟨"changed_at", now⟩] one after := by
  intro env now schema two one fresh queued r r'
  have hstores : tasksTable.model.Stores (· ∈ schema.columns) := Description.model_stores (by decide)
  have htwo : Record.Stores (· ∈ schema.columns) two :=
    Destination.stores_of_model (show two.ModelStores _ from hstores)
  have hone : Record.Stores (· ∈ schema.columns) one :=
    Destination.stores_of_model (show one.ModelStores _ from hstores)
  have hnames : schema.columns.Nodup := by decide
  have hset : (assignmentsOf env r.statement).2 = .ok (queued ++ [⟨"changed_at", now⟩]) := by cbv
  have hset' : (assignmentsOf env r'.statement).2 = .ok [⟨"title", .text "a"⟩, ⟨"changed_at", now⟩] := by cbv
  obtain ⟨after, hafter, -, hmirrored, -⟩ :=
    update_set_agrees env (r := r) rfl (by decide) rfl hnames rfl htwo hset
  obtain ⟨after', hafter', -, -, hsaved⟩ :=
    update_set_agrees env (r := r') rfl (by decide) rfl hnames rfl hone hset'
  have hheld := hmirrored (List.cons_ne_nil _ _)
  have hsecond : 1 < after.size := by
    rw [hheld.size]
    decide
  refine ⟨⟨after, hafter, hheld, ?_, ?_, ?_⟩, after', hafter', (hsaved rfl).2⟩
  · exact hheld.held 1 hsecond "title" (by decide) _ (by decide)
  · exact hheld.held 1 hsecond "changed_at" (by decide) _ (by decide)
  · rw [hheld.kept 1 "done" (by decide)]
    cbv

end SqlPipeline
