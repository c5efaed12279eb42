/-
  SqlPipeline.Proofs.Keys.Updated — which rows an update addresses.

  An update writes what it sets into its destination and then narrows the statement to the
  keys the destination has. Those are the keys that were there when it began, unless a key
  column is among the columns it sets.

  - `update_addressed`: the condition that is added binds the keys of the destination after
    that write; they are the keys of before if no key column was set.
  - `update_of_key_column`: an update of a key looks for the new key, not for the old one.
-/

import Mathlib
import SqlPipeline.Proofs.Execution.Steady
import SqlPipeline.Proofs.Keys.Stored
import SqlPipeline.Proofs.Record.Columns
import SqlPipeline.Proofs.Registry.Opened

namespace SqlPipeline

open Operation

variable {ρ μ : Type}

/-! ## Writing what is set -/

theorem mem_stamped (now : Value) (fields : List Field) (queued : List Assignment) :
    ∀ a ∈ queued, a ∈ stamped now queued fields := by
  unfold stamped
  generalize fields.filter (·.autoUpdateTime) = stamps
  induction stamps generalizing queued with
  | nil => exact fun _ h => h
  | cons f stamps ih =>
    intro a ha
    rw [List.foldl_cons]
    refine ih _ a ?_
    split
    · exact ha
    · exact List.mem_append_left _ ha

theorem assignRow_alike {column : String} (schema : Schema) {set : List Assignment}
    (hset : ∀ a ∈ set, a.column ≠ column) {d : Destination μ} (hkeeps : d.Keeps column) {row : Nat}
    (hrow : row < d.size) : d.Alike column (assignRow schema row set d).state := by
  induction set generalizing d with
  | nil => exact .refl hkeeps
  | cons a set ih =>
    obtain ⟨ha, hrest⟩ := List.forall_mem_cons.mp hset
    unfold assignRow
    split
    · have hwrite := Destination.setValue_alike ha hkeeps hrow a.value
      have hstate : Record.setValue d row a.column a.value = d.setValue row a.column a.value := rfl
      rw [hstate]
      rcases hv : d.setValue row a.column a.value with ⟨d', _ | e⟩ <;> rw [hv] at hwrite
      · exact hwrite.trans (ih hrest hwrite.keeps (hwrite.size ▸ hrow))
      · exact hwrite
    · exact ih hrest hkeeps hrow

theorem assignRows_alike {column : String} (schema : Schema) {set : List Assignment}
    (hset : ∀ a ∈ set, a.column ≠ column) {rows : List Nat} {d : Destination μ} (hkeeps : d.Keeps column)
    (hrows : ∀ row ∈ rows, row < d.size) : d.Alike column (assignRows schema set rows d).state := by
  induction rows generalizing d with
  | nil => exact .refl hkeeps
  | cons row rows ih =>
    obtain ⟨hrow, hrest⟩ := List.forall_mem_cons.mp hrows
    have hone := assignRow_alike schema hset hkeeps hrow
    unfold assignRows
    rcases hv : assignRow schema row set d with ⟨d', _ | e⟩ <;> rw [hv] at hone
    · exact hone.trans (ih hone.keeps fun i hi => hone.size ▸ hrest i hi)
    · exact hone

theorem setKeys_alike {column : String} {d d' : Destination μ} (h : d.Alike column d') (rows : Nat) :
    setKeys d' column rows = setKeys d column rows := by
  have hvalue : (Record.value d' · column) = (Record.value d · column) := funext h.value
  unfold setKeys
  rw [hvalue]

/-! ## What is prepared -/

variable [Record ρ]

theorem collectAssignments_queued (now : Value) (shape : Shape) (schema : Schema) {queued : List Assignment}
    (h : queued ≠ []) (dest : ρ) :
    let set := stamped now queued schema.fields
    let mirrored := assignRows schema set (List.range (Record.size dest)) dest
    collectAssignments now shape schema queued dest = (mirrored.state, mirrored.error.elim (.ok set) .error) := by
  unfold collectAssignments
  rw [if_neg (by simpa using h)]
  dsimp only
  rcases assignRows schema (stamped now queued schema.fields) (List.range (Record.size dest)) dest with ⟨d, _ | e⟩ <;>
    rfl

/-- An update with columns to set writes them into the destination; if that fails it goes no
    further. -/
theorem prepareUpdate_queued (env : Env) {s : Statement ρ} (hqueued : s.assignments ≠ []) {schema : Schema}
    (hschema : s.schema = some schema) {dest : ρ} (hdest : s.destination? = some dest) :
    ∃ table,
      let set := stamped (.timestamp env.now) s.assignments schema.fields
      let mirrored := assignRows schema set (List.range (Record.size dest)) dest
      let s' := (s.addClauseIfAbsent (.update table)).setDestination mirrored.state
      (prepareUpdate env s).1 =
        match mirrored.error with
        | some e => s'.addError e
        | none => buildGuarded env (addKeyCondition (s'.addClause (.set set))) := by
  obtain ⟨table, htable⟩ := Statement.tableName?_of_schema hschema
  refine ⟨table, ?_⟩
  intro set mirrored s'
  have hne : set ≠ [] := by
    obtain ⟨a, ha⟩ := List.exists_mem_of_ne_nil _ hqueued
    exact List.ne_nil_of_mem (mem_stamped _ _ _ a ha)
  have hassign : assignmentsOf env (s.addClauseIfAbsent (.update table)) =
      (s', mirrored.error.elim (.ok set) .error) := by
    unfold assignmentsOf
    rw [show (s.addClauseIfAbsent (.update table)).schema = some schema from hschema,
      show (s.addClauseIfAbsent (.update table)).destination? = some dest from hdest]
    dsimp only
    rw [show (s.addClauseIfAbsent (.update table)).assignments = s.assignments from rfl,
      collectAssignments_queued _ _ schema hqueued]
  unfold prepareUpdate
  rw [htable]
  dsimp only
  rw [hassign]
  cases mirrored.error with
  | some e => rfl
  | none =>
    cases hset : set with
    | nil => exact absurd hset hne
    | cons a rest => rfl

/-! ## The update -/

/-- Nothing was sent, or one statement with the clauses as they are stored now. -/
def SentAsStored (env : Env) (r r' : Run ρ) : Prop :=
  r'.calls = r.calls ∨
    let sql := r.statement.sql.writeAll env.dialect (r'.statement.clauses.pieces r.statement.buildClauses)
    r'.calls = r.calls ++ [⟨.exec, sql.text, sql.params⟩]

omit [Record ρ] in
theorem buildGuarded_written (env : Env) (s : Statement ρ) :
    (buildGuarded env s).clauses = s.clauses ∧
      ((buildGuarded env s).failed = false →
        (buildGuarded env s).sql = s.sql.writeAll env.dialect (s.clauses.pieces s.buildClauses)) := by
  unfold buildGuarded
  split
  · exact ⟨rfl, fun _ => rfl⟩
  · exact ⟨rfl, fun h => by cases h⟩

/-- The statement an update prepares is narrowed to the keys its destination has by then. -/
theorem prepareUpdate_narrowed (env : Env) {s : Statement ρ} (hqueued : s.assignments ≠ []) {schema : Schema}
    (hschema : s.schema = some schema) {dest : ρ} (hdest : s.destination? = some dest) :
    let mirrored := assignRows schema (stamped (.timestamp env.now) s.assignments schema.fields)
      (List.range (Record.size dest)) dest
    let prepared := (prepareUpdate env s).1
    (mirrored.error.isSome = true → prepared.failed = true ∧ prepared.conditions = s.conditions) ∧
    (mirrored.error = none → Narrowed (s.setDestination mirrored.state).heldKeys s prepared ∧
      (prepared.failed = false →
        prepared.sql = s.sql.writeAll env.dialect (prepared.clauses.pieces s.buildClauses))) := by
  intro mirrored prepared
  obtain ⟨table, hprepared⟩ := prepareUpdate_queued env hqueued hschema hdest
  have hprepared' : prepared = _ := hprepared
  generalize hs' : (s.addClauseIfAbsent (.update table)).setDestination mirrored.state = s' at hprepared'
  have hcommand : (s.addClauseIfAbsent (.update table)).Unwritten s' := hs' ▸ Statement.setDestination_unwritten _ _
  have hsame : s'.schema = s.schema ∧ s'.shape = s.shape := hs' ▸ Statement.setDestination_same _ _
  have hconditions : s'.conditions = s.conditions :=
    (Statement.conditions_of_clauses hcommand.clauses).trans (s.conditions_addClauseIfAbsent (by simp [Clause.name]))
  have hdest' : s'.destination? = some mirrored.state :=
    hs' ▸ Statement.destination?_setDestination (s := s.addClauseIfAbsent (.update table)) hdest mirrored.state
  rcases herror : mirrored.error with _ | e
  · refine ⟨fun h => (by cases h), fun _ => ?_⟩
    rw [show (assignRows schema _ _ dest).error = none from herror] at hprepared'
    dsimp only at hprepared'
    generalize hset : stamped (.timestamp env.now) s.assignments schema.fields = set at hprepared'
    have hkeys : (s'.addClause (.set set)).heldKeys = (s.setDestination mirrored.state).heldKeys := by
      obtain ⟨hschema', hshape'⟩ := s.setDestination_same mirrored.state
      exact heldKeys_of_same (hsame.1.trans hschema'.symm) (hsame.2.trans hshape'.symm)
        (hdest'.trans (Statement.destination?_setDestination hdest mirrored.state).symm)
    have hnarrowed := addKeyCondition_narrowed (s'.addClause (.set set))
    obtain ⟨hsql, hnames⟩ := addKeyCondition_sql (s'.addClause (.set set))
    obtain ⟨hclauses, hwritten⟩ := buildGuarded_written env (addKeyCondition (s'.addClause (.set set)))
    rw [hkeys] at hnarrowed
    rw [hprepared']
    refine ⟨hnarrowed.of_same hsame.1.symm ?_ (Statement.conditions_of_clauses hclauses), fun hfree => ?_⟩
    · exact hconditions.symm.trans (s'.conditions_addClause (by simp [Clause.name])).symm
    · rw [hwritten hfree, hclauses, hsql, hnames]
      exact congrArg₂ (fun sql names => Rendered.writeAll env.dialect sql (Clauses.pieces _ names)) hcommand.sql
        hcommand.buildClauses
  · refine ⟨fun _ => ?_, fun h => (by cases h)⟩
    rw [show (assignRows schema _ _ dest).error = some e from herror] at hprepared'
    rw [hprepared']
    exact ⟨rfl, hconditions⟩

/-- Which keys an update with columns to set addresses. It writes these columns into its
    destination; if that fails nothing is narrowed and nothing sent. -/
theorem update_addressed (env : Env) {r : Run (Destination μ)} (hfree : r.failed = false)
    (htext : r.statement.hasText = false) (hqueued : r.statement.assignments ≠ []) {schema : Schema}
    (hschema : r.statement.schema = some schema) {dest : Destination μ}
    (hdest : r.statement.destination? = some dest) :
    let s := r.statement
    let set := stamped (.timestamp env.now) s.assignments schema.fields
    let mirrored := assignRows schema set (List.range (Record.size dest)) dest
    let r' := update env r
    (mirrored.error.isSome = true →
      r'.failed = true ∧ r'.statement.conditions = s.conditions ∧ r'.calls = r.calls) ∧
    (mirrored.error = none →
      Narrowed (s.setDestination mirrored.state).heldKeys s r'.statement ∧ SentAsStored env r r' ∧
        ((∀ key, schema.primary? = some key → dest.Keeps key.name ∧ ∀ a ∈ set, a.column ≠ key.name) →
          Narrowed s.heldKeys s r'.statement)) := by
  intro s set mirrored r'
  obtain ⟨hbroken, hmirrored⟩ := prepareUpdate_narrowed env hqueued hschema hdest
  obtain ⟨hclauses, hfailed, hcalls⟩ := StageKind.update.executing_sent env hfree
  have hwritten : StageKind.update.written env r.statement = (prepareUpdate env r.statement).1 := by
    unfold StageKind.written
    rw [htext]
    rfl
  rw [hwritten] at hclauses hfailed hcalls
  have hconditions : r'.statement.conditions = (prepareUpdate env r.statement).1.conditions :=
    Statement.conditions_of_clauses hclauses
  refine ⟨fun herror => ?_, fun herror => ?_⟩
  · obtain ⟨hf, hkept⟩ := hbroken herror
    refine ⟨hfailed hf, hconditions.trans hkept, ?_⟩
    rw [hf, Bool.or_true, Bool.true_or, if_pos rfl, List.append_nil] at hcalls
    exact hcalls
  · obtain ⟨hnarrowed, hsql⟩ := hmirrored herror
    have hnow : Narrowed (s.setDestination mirrored.state).heldKeys s r'.statement :=
      hnarrowed.of_same rfl rfl hconditions
    refine ⟨hnow, ?_, fun hother => ?_⟩
    · split at hcalls
      · exact Or.inl (hcalls.trans (List.append_nil _))
      · next hgo =>
        simp only [Bool.or_eq_true, not_or, Bool.not_eq_true] at hgo
        refine Or.inr ?_
        rw [show r'.statement.clauses = _ from hclauses, ← hsql hgo.1.2]
        exact hcalls
    · have hkeys : (s.setDestination mirrored.state).heldKeys = s.heldKeys := by
        obtain ⟨hschema', hshape'⟩ := s.setDestination_same mirrored.state
        have hdest' := Statement.destination?_setDestination hdest mirrored.state
        unfold Statement.heldKeys
        rw [hschema', hshape', hdest', show s.schema = some schema from hschema, show s.destination? = _ from hdest,
          Option.bind_some]
        cases hk : schema.primary? with
        | none => rfl
        | some key =>
          obtain ⟨hkeeps, hset⟩ := hother key hk
          have halike := assignRows_alike schema hset hkeeps fun row hrow => List.mem_range.mp hrow
          cases keyedRows? s.shape with
          | none => rfl
          | some rows => exact setKeys_alike halike rows
      rw [← hkeys]
      exact hnow

/-- A note gets a new body: it is found by its key. -/
theorem update_of_other_column :
    let env : Env := { now := ⟨1715000000, 0⟩ }
    let note : Destination Row := .one noteModel ⟨[("body", .text "hi"), ("id", .int 7)]⟩
    let r : Run (Destination Row) :=
      { statement :=
          { schema := some noteModel.schema, model := some (.value note), dest := some .alias, shape := .record
            assignments := [⟨"body", .text "zed"⟩], buildClauses := StageKind.update.clauses env.config } }
    r.failed = false ∧ r.statement.hasText = false ∧ r.statement.destination? = some note ∧
      Narrowed [.int 7] r.statement (update env r).statement ∧
      (update env r).calls = [⟨.exec, "UPDATE \"notes\" SET \"body\"=? WHERE \"id\" = ?", [.text "zed", .int 7]⟩] := by
  intro env note r
  have htext : r.statement.hasText = false := by decide
  obtain ⟨-, hmirrored⟩ := update_addressed env (r := r) rfl htext (List.cons_ne_nil _ _) rfl rfl
  obtain ⟨-, -, hnarrowed⟩ := hmirrored (by decide)
  have hother : ∀ key, noteModel.schema.primary? = some key → note.Keeps key.name ∧
      ∀ a ∈ stamped (.timestamp env.now) r.statement.assignments noteModel.schema.fields, a.column ≠ key.name := by
    intro key hkey
    cases hkey
    exact ⟨noteModel_keeps "id", by decide⟩
  exact ⟨rfl, htext, rfl, hnarrowed hother, by cbv⟩

/-- A note gets a new key: the update looks for a row that has it already. -/
theorem update_of_key_column :
    let env : Env := { now := ⟨1715000000, 0⟩ }
    let note : Destination Row := .one noteModel ⟨[("body", .text "hi"), ("id", .int 7)]⟩
    let fresh : Statement (Destination Row) := Statement.fresh env.config
    let r : Run (Destination Row) :=
      { statement := { fresh with model := some (.value note), assignments := [⟨"id", .int 9⟩] } }
    let st := (Database.openWith env []).stages .update
    (st.ready env r).statement.heldKeys = [.int 7] ∧
      (st.execute env r).statement.conditions.flatMap Expression.bound = [.int 9] ∧
      (st.execute env r).calls = [⟨.exec, "UPDATE \"notes\" SET \"id\"=? WHERE \"id\" = ?", [.int 9, .int 9]⟩] := by
  intro env note fresh r st
  have hready : st.ready env r =
      { statement :=
          { fresh with
            model := some (.value note), dest := some .alias, schema := some noteModel.schema, shape := .record
            assignments := [⟨"id", .int 9⟩], buildClauses := ["UPDATE", "SET", "WHERE", "RETURNING"] } } := by
    show ((Database.openWith env []).stages .update).ready env r = _
    rw [Database.opened_ready env [] .update rfl]
    rfl
  have hdone : st.execute env r = _ := Database.opened_execute env [] .update r
  rw [show (Database.openWith env []).stages .update = st from rfl, hready] at hdone
  rw [hready]
  refine ⟨by cbv, ?_, ?_⟩
  · rw [hdone, Statement.conditions_of_clauses (by rw [Run.conclude_statement, Run.cleared_clauses])]
    cbv
  · rw [hdone, (Run.conclude_idle env _ _).calls]
    cbv

end SqlPipeline
