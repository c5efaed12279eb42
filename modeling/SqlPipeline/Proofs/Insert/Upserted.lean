/-
  SqlPipeline.Proofs.Insert.Upserted — what an upsert overwrites.

  A collision clause can ask to update everything. The insert then has it spelled out for the
  columns it inserts: keys, what the database fills and creation times stay as they are stored,
  update times get the clock's time, all else is taken from the inserted row. What the caller
  listed stands in front of that.

  - `overwrite_eq`, `foldl_overwrite`: one column, and the columns after each other.
  - `expanded_upserted`: a clause that was spelled out.
  - `upsert_spelled_out`: the clause an insert leaves on its statement.
-/

import SqlPipeline.Proofs.Insert.Collected
import SqlPipeline.Proofs.Insert.Returned

namespace SqlPipeline

open Operation

/-! ## Columns -/

/-- What becomes of a column of the stored row that an inserted row collides with. -/
inductive Overwriting where
  /-- It stays as it is stored. -/
  | kept
  /-- It gets the clock's time. -/
  | stamped
  /-- It takes the inserted row's value. -/
  | replaced
  deriving DecidableEq, Repr

def Field.overwriting (f : Field) : Overwriting :=
  if f.primaryKey || f.databaseDefault || f.autoIncrement || f.autoCreateTime then .kept
  else if f.autoUpdateTime then .stamped
  else .replaced

namespace Operation

variable {schema : Schema} {now : Instant}

theorem overwrite_eq {f : Field} (hf : schema.field? f.name = some f) (c : OnConflict) :
    overwrite schema now c f.name =
      match f.overwriting with
      | .kept => c
      | .stamped => { c with updates := c.updates ++ [⟨f.name, .timestamp now⟩] }
      | .replaced => { c with updateColumns := c.updateColumns ++ [f.name] } := by
  have hkept : (f.primaryKey || f.databaseDefault || f.autoIncrement || f.autoCreateTime) =
      (f.primaryKey || f.hasDefault || f.autoCreateTime) := by
    simp only [Field.hasDefault, Bool.or_assoc]
  unfold overwrite Field.overwriting
  rw [hf, hkept]
  dsimp only
  by_cases hstays : (f.primaryKey || f.hasDefault || f.autoCreateTime) = true
  · simp only [if_pos hstays]
  · by_cases htime : f.autoUpdateTime = true
    · simp only [if_neg hstays, if_pos htime]
    · simp only [if_neg hstays, if_neg htime]

/-- The columns that are stamped, and those that are replaced, go behind what is listed. -/
theorem foldl_overwrite (now : Instant) {fields : List Field}
    (hfields : ∀ f ∈ fields, schema.field? f.name = some f) (c : OnConflict) :
    (fields.map (·.name)).foldl (overwrite schema now) c =
      { c with
        updates := c.updates ++
          (fields.filter (·.overwriting = .stamped)).map fun f => ⟨f.name, .timestamp now⟩
        updateColumns := c.updateColumns ++ (fields.filter (·.overwriting = .replaced)).map (·.name) } := by
  induction fields generalizing c with
  | nil => simp
  | cons f fields ih =>
    obtain ⟨hf, hrest⟩ := List.forall_mem_cons.mp hfields
    rw [List.map_cons, List.foldl_cons, overwrite_eq hf, ih hrest]
    cases h : f.overwriting <;> simp [h]

end Operation

/-! ## The clause -/

/-- `c'` is the clause `c` spelled out for the inserted fields. -/
structure Upserted (schema : Schema) (now : Instant) (inserted : List Field) (c c' : OnConflict) : Prop where
  updates : c'.updates =
    c.updates ++ (inserted.filter (·.overwriting = .stamped)).map fun f => ⟨f.name, .timestamp now⟩
  updateColumns : c'.updateColumns = c.updateColumns ++ (inserted.filter (·.overwriting = .replaced)).map (·.name)
  target : c'.target = if c.target = [] then (schema.fields.filter (·.primaryKey)).map (·.name) else c.target
  settled : c'.updateAll = false
  wording : Piece.text "DO NOTHING" ∈ (Clause.onConflict c').pieces ↔
    c.doNothing = true ∨ (c'.updates = [] ∧ c'.updateColumns = [])

theorem expanded_upserted (now : Instant) {schema : Schema} {inserted : List Field}
    (hinserted : ∀ f ∈ inserted, schema.field? f.name = some f) (c : OnConflict) :
    Upserted schema now inserted c (expanded schema now (inserted.map (·.name)) c) := by
  have hfold := foldl_overwrite now hinserted c
  have hflag : (expanded schema now (inserted.map (·.name)) c).ignores = true ↔
      c.doNothing = true ∨ ((expanded schema now (inserted.map (·.name)) c).updates = [] ∧
        (expanded schema now (inserted.map (·.name)) c).updateColumns = []) := by
    rw [expanded_ignores]
    unfold expanded OnConflict.ignores
    rw [hfold]
    simp only [Bool.or_eq_true, Bool.and_eq_true, List.isEmpty_iff]
  refine ⟨?_, ?_, ?_, rfl, (mem_conflictPieces _).trans hflag⟩
  · unfold expanded
    rw [hfold]
  · unfold expanded
    rw [hfold]
  · unfold expanded
    rw [hfold]
    simp only [List.isEmpty_iff]

/-! ## The insert -/

namespace Operation

variable {ρ : Type}

/-- A dialect with upserts spells out every clause. -/
theorem expandOnConflict_ok {env : Env} (hupsert : env.dialect.upsert = true) (columns : List String)
    (s : Statement ρ) : ∃ s', expandOnConflict env columns s = .ok s' := by
  unfold expandOnConflict
  split
  · rw [if_pos hupsert]
    split
    · split
      · exact ⟨_, rfl⟩
      · exact ⟨_, rfl⟩
    · exact ⟨_, rfl⟩
  · exact ⟨_, rfl⟩

/-- A clause that no longer asks for everything is left alone. -/
theorem expandOnConflict_settled {env : Env} (hupsert : env.dialect.upsert = true) {s : Statement ρ} {c : OnConflict}
    (hc : s.clauses.conflict? = some c) (hsettled : c.updateAll = false) (columns : List String) :
    expandOnConflict env columns s = .ok s := by
  have hget : s.clause? "ON CONFLICT" = some (.onConflict c) := Clauses.conflict?_eq_some.mp hc
  unfold expandOnConflict
  rw [hget]
  dsimp only
  rw [if_pos hupsert, hsettled]
  cases s.schema <;> rfl

variable [Record ρ]

/-- The columns that are collected are those an insert of some rows names. -/
theorem collectValues_columns {now : Instant} {shape : Shape} {schema : Schema} {dest : ρ} {values : Values}
    (h : (collectValues now shape (some schema) dest).2 = .ok values) :
    ∃ rows, values.columns = insertColumns schema dest rows := by
  unfold collectValues at h
  dsimp only at h
  split at h
  · cases h
  · next rows _ =>
    rcases hcollect : collectRows schema now (insertColumns schema dest rows) (List.range rows) dest with
      ⟨d, e | tuples⟩ <;> rw [hcollect] at h <;> cases h
    exact ⟨rows, rfl⟩

/-- The fields whose columns an insert names, in its order. -/
theorem insertedFields_names {schema : Schema} (hnames : schema.columns.Nodup) (dest : ρ) (rows : Nat) :
    (schema.fields.filter (·.name ∈ insertColumns schema dest rows)).map (·.name) = insertColumns schema dest rows := by
  have hfields : schema.fields.filter (·.name ∈ insertColumns schema dest rows) =
      schema.fields.filter fun f => !f.hasDefault || (List.range rows).all fun row => !isUnset dest f.name row := by
    refine List.filter_congr fun f hf => ?_
    rw [Bool.eq_iff_iff, decide_eq_true_iff]
    exact name_mem_insertColumns hnames hf
  rw [hfields]
  rfl

/-- Where values are collected and the dialect knows upserts, an insert with a table is written. -/
theorem prepareInsert_sound {env : Env} {s : Statement ρ} {table : String} (htable : s.tableName? = some table)
    {dest : ρ} (hdest : s.destination? = some dest) {values : Values}
    (hvalues : (collectValues env.now s.shape s.schema dest).2 = .ok values) (hupsert : env.dialect.upsert = true) :
    (prepareInsert env s).failed = s.failed := by
  obtain ⟨stamped, hcollect⟩ : ∃ stamped, collectValues env.now s.shape s.schema dest = (stamped, .ok values) :=
    ⟨_, Prod.ext rfl hvalues⟩
  generalize hinsert : s.addClauseIfAbsent (.insert table none) = s₁
  have hsame : s₁.destination? = some dest ∧ s₁.shape = s.shape ∧ s₁.schema = s.schema ∧ s₁.failed = s.failed := by
    rw [← hinsert]
    exact ⟨hdest, rfl, rfl, rfl⟩
  obtain ⟨hdest₁, hshape₁, hschema₁, hfailed₁⟩ := hsame
  obtain ⟨s₂, hexpand⟩ := expandOnConflict_ok hupsert values.columns (s₁.setDestination stamped)
  have hfailed₂ : s₂.failed = s.failed := by
    rw [(expandOnConflict_spelled hexpand).statement, ← hfailed₁]
    unfold Statement.setDestination
    split <;> rfl
  unfold prepareInsert
  rw [htable]
  dsimp only
  rw [hinsert, hdest₁]
  dsimp only
  rw [hshape₁, hschema₁, hcollect]
  dsimp only
  rw [hexpand]
  dsimp only
  split
  · exact hfailed₂
  · exact hfailed₂

/-- An insert of at least one column, under a collision clause that asks to update everything,
    leaves the clause spelled out on its statement. Spelling it out again changes nothing. -/
theorem upsert_spelled_out {env : Env} (hupsert : env.dialect.upsert = true) {r : Run ρ} (hfree : r.failed = false)
    (htext : r.statement.hasText = false) {schema : Schema} (hschema : r.statement.schema = some schema)
    (hnames : schema.columns.Nodup) {dest : ρ} (hdest : r.statement.destination? = some dest) {values : Values}
    (hvalues : (collectValues env.now r.statement.shape (some schema) dest).2 = .ok values)
    (hsome : values.columns ≠ []) {c : OnConflict} (hc : r.statement.clauses.conflict? = some c)
    (hall : c.updateAll = true) :
    let after := (create env r).statement
    let inserted := schema.fields.filter (·.name ∈ values.columns)
    inserted.map (·.name) = values.columns ∧
      after.clause? "VALUES" = some (.values values.columns values.rows) ∧
      ∃ c', after.clauses.conflict? = some c' ∧ Upserted schema env.now inserted c c' ∧
        ∀ columns, expandOnConflict env columns after = .ok after := by
  intro after inserted
  obtain ⟨rows, hcolumns⟩ := collectValues_columns hvalues
  have hinserted : inserted.map (·.name) = values.columns := by
    show (schema.fields.filter (·.name ∈ values.columns)).map (·.name) = _
    rw [hcolumns]
    exact insertedFields_names hnames dest rows
  have hfound : ∀ f ∈ inserted, schema.field? f.name = some f := fun f hf =>
    (Schema.field?_eq_some_iff hnames).mpr ⟨List.mem_of_mem_filter hf, rfl⟩
  -- the insert is written, and the statement keeps what was written
  obtain ⟨table, htable⟩ := Statement.tableName?_of_schema hschema
  have hsound : (prepareInsert env r.statement).failed = false :=
    (prepareInsert_sound htable hdest (by rw [hschema]; exact hvalues) hupsert).trans hfree
  obtain ⟨dest', values', cs, hdest', hvalues', hprepared, hclauses⟩ := prepareInsert_written hsound
  rw [hdest] at hdest'
  cases hdest'
  rw [hschema, hvalues] at hvalues'
  cases hvalues'
  have hafter : after.clauses = cs := by
    obtain ⟨hkept, -⟩ := StageKind.create.executing_sent env hfree
    rw [StageKind.written_create env htext] at hkept
    exact hkept.trans (congrArg Statement.clauses hprepared)
  have hconflict : after.clauses.conflict? = some (expanded schema env.now values.columns c) := by
    rw [hafter, hclauses.conflict, hc, hschema, Option.map_some]
    unfold OnConflict.spelledOut
    dsimp only
    rw [if_pos (by simp [hall, hsome])]
  refine ⟨hinserted, ?_, _, hconflict, ?_, expandOnConflict_settled hupsert hconflict rfl⟩
  · show after.clauses.get? "VALUES" = _
    rw [hafter]
    exact hclauses.values
  · rw [← hinserted]
    exact expanded_upserted env.now hfound c

end Operation

/-- Pages have two keys, a count the database fills, and both times. -/
def pagesTable : Description :=
  { table := "pages"
    columns :=
      [{ name := "site", kind := .int, primaryKey := true }, { name := "path", kind := .text, primaryKey := true },
        { name := "title", kind := .text }, { name := "views", kind := .int, databaseDefault := true },
        { name := "made_at", kind := .time, autoCreateTime := true },
        { name := "changed_at", kind := .time, autoUpdateTime := true }] }

/-- A page whose count is set is inserted whole. Under one assignment of the caller's the stored
    page gets the time of its change and the title. -/
theorem upsert_of_page :
    let env : Env := { dialect := Dialect.generic .numbered, now := ⟨1715000000, 0⟩ }
    let schema := pagesTable.model.schema
    let page : Destination Row :=
      .one pagesTable.model ⟨[("path", .text "/"), ("site", .int 3), ("title", .text "Home"), ("views", .int 5)]⟩
    let c : OnConflict := { updateAll := true, updates := [⟨"seen", .int 1⟩] }
    let fresh : Statement (Destination Row) := Statement.fresh env.config
    let r : Run (Destination Row) :=
      { statement :=
          { fresh with
            dest := some (.value page), schema := some schema, shape := .record, clauses := ⟨[.onConflict c]⟩
            buildClauses := StageKind.create.clauses env.config } }
    ∃ c', (create env r).statement.clauses.conflict? = some c' ∧ Upserted schema env.now schema.fields c c' ∧
      c'.target = ["site", "path"] ∧
      c'.updates = [⟨"seen", .int 1⟩, ⟨"changed_at", .timestamp env.now⟩] ∧ c'.updateColumns = ["title"] := by
  intro env schema page c fresh r
  have hvalues : (collectValues env.now r.statement.shape (some schema) page).2 =
      .ok ⟨schema.columns, [[.int 3, .text "/", .text "Home", .int 5, .timestamp env.now, .timestamp env.now]]⟩ := by
    cbv
  have hupsert : env.dialect.upsert = true := rfl
  obtain ⟨-, -, c', hc', hupserted, -⟩ := upsert_spelled_out hupsert (r := r) rfl (by decide) rfl (by decide) rfl
    hvalues (List.cons_ne_nil _ _) (c := c) rfl rfl
  have hall : schema.fields.filter (·.name ∈ schema.columns) = schema.fields := by decide
  rw [hall] at hupserted
  exact ⟨c', hc', hupserted, hupserted.target, hupserted.updates, hupserted.updateColumns⟩

end SqlPipeline
