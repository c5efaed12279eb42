/-
  SqlPipeline.Proofs.Keys.Deleted — which rows a delete takes.

  A delete narrows its statement to the keys its destination has. The condition for them stands
  among those the caller gave, and what is sent is read as a whole. It takes no row with another
  key as long as the caller's conditions are contained (`Expression.isContained`).

  - `prepareDelete_narrowed`: with a key set, the guard lets the delete pass.
  - `delete_restricted`: over a whole execution; what is sent, and which rows meet it.
  - `delete_widened`: an OR group of one member is not contained, and widens it.
-/

import SqlPipeline.Proofs.Condition.Enclosure
import SqlPipeline.Proofs.Guard.Conditions
import SqlPipeline.Proofs.Keys.Updated

namespace SqlPipeline

open Operation

/-! ## Rows -/

/-- A row as a database compares it: what each leaf says of it, and what its key is equal to. -/
structure RowView (key : String) where
  truth : Leaf → Truth
  hasKey : Value → Prop
  eq_key : ∀ v, truth (.compare key .eq v) = .yes → hasKey v
  member_key : ∀ vs, truth (.member key vs false) = .yes → ∃ v ∈ vs, hasKey v

/-- A row of a table. Comparisons other than equality are left open. -/
def Row.view (r : Row) (key : String) : RowView key where
  truth
    | .compare column .eq v => if r.get? column = some v then .yes else .no
    | .member column vs false => if ∃ v ∈ vs, r.get? column = some v then .yes else .no
    | _ => .unknown
  hasKey v := r.get? key = some v
  eq_key v h := by
    by_cases hv : r.get? key = some v
    · exact hv
    · simp [hv] at h
  member_key vs h := by
    by_cases hvs : ∃ v ∈ vs, r.get? key = some v
    · exact hvs
    · simp only [if_neg hvs] at h
      cases h

variable {ρ : Type}

variable [Record ρ]

/-- With a key set a delete is narrowed to it, passes the guard and is written. -/
theorem prepareDelete_narrowed (env : Env) {s : Statement ρ} (hkeys : s.heldKeys ≠ []) :
    let prepared := prepareDelete env s
    Narrowed s.heldKeys s prepared ∧ prepared.failed = s.failed ∧
      prepared.sql = s.sql.writeAll env.dialect (prepared.clauses.pieces s.buildClauses) := by
  intro prepared
  obtain ⟨schema, hschema⟩ := Statement.schema_of_heldKeys hkeys
  obtain ⟨table, htable⟩ := Statement.tableName?_of_schema hschema
  let s' := (s.addClauseIfAbsent .delete).addClauseIfAbsent (.from [table])
  have hconditions : s'.conditions = s.conditions :=
    (Statement.conditions_addClauseIfAbsent _ (by simp [Clause.name])).trans
      (Statement.conditions_addClauseIfAbsent _ (by simp [Clause.name]))
  have hnarrowed : Narrowed s.heldKeys s (addKeyCondition s') :=
    (addKeyCondition_narrowed s').of_same rfl hconditions.symm rfl
  have hguard : (addKeyCondition s').hasConditions = true := by
    refine Statement.hasConditions_of_conditions ?_
    rcases hnarrowed with ⟨hnone, -⟩ | ⟨_, e, -, -, hadded, -⟩
    · exact absurd hnone hkeys
    · rw [hadded]
      exact List.append_ne_nil_of_right_ne_nil _ (List.cons_ne_nil e [])
  have hprepared : prepared = (addKeyCondition s').buildDefault env.dialect := by
    show prepareDelete env s = _
    unfold prepareDelete
    rw [htable]
    show buildGuarded env (addKeyCondition s') = _
    unfold buildGuarded
    rw [hguard]
    rfl
  obtain ⟨hsql, hnames⟩ := addKeyCondition_sql s'
  have hfailed : (addKeyCondition s').failed = s.failed := by
    unfold addKeyCondition
    cases keyConditionOf? s' <;> rfl
  rw [hprepared]
  refine ⟨hnarrowed.of_same rfl rfl rfl, hfailed, ?_⟩
  show (addKeyCondition s').sql.writeAll env.dialect _ = _
  rw [hsql, hnames]
  rfl

omit [Record ρ] in
/-- Among contained conditions, the one a statement is narrowed by has its say on every row. -/
theorem Narrowed.restricts {words : String → List Value → List Token} {keys : List Value} {s s' : Statement ρ}
    (h : Narrowed keys s s') (hkeys : keys ≠ []) (hcontained : ∀ e ∈ s.conditions, e.isContained = true)
    (hfits : ∀ e ∈ s.conditions, ∀ f ∈ e.fragments, Fits words f) :
    ∃ key, s.schema.bind Schema.primary? = some key ∧ ∀ row : RowView key.name,
      read row.truth (spliced words (Expression.conditionTokens s'.conditions)) = some .yes →
        ∃ v ∈ keys, row.hasKey v := by
  rcases h with ⟨hnone, -⟩ | ⟨key, e, -, hkey, hadded, hform, -⟩
  · exact absurd hnone hkeys
  · refine ⟨key, hkey, fun row hrow => ?_⟩
    rw [hadded] at hrow
    rcases hform with rfl | ⟨v, rfl, rfl⟩
    · exact row.member_key keys (Expression.read_conditionTokens hcontained hfits rfl hrow)
    · exact ⟨v, List.mem_singleton_self v,
        row.eq_key v (Expression.read_conditionTokens hcontained hfits rfl hrow)⟩

/-- A delete of a destination with keys. It sends, unless the run is dry, one statement with the
    stored conditions; of the rows that meet them, however the caller's contained conditions and
    its fragments are read, each has one of these keys. -/
theorem delete_restricted (env : Env) (records : List (Destination Row)) (r : Run ρ)
    (hsteps : env.config.skipDefaultSteps = false) (words : String → List Value → List Token) {start : Run ρ}
    (hstart : start = StageKind.delete.hooked (((Database.openWith env records).stages .delete).ready env r))
    (hfree : start.failed = false) (htext : start.statement.hasText = false)
    (hnames : "WHERE" ∈ start.statement.buildClauses) (hkeys : start.statement.heldKeys ≠ [])
    (hcontained : ∀ e ∈ start.statement.conditions, e.isContained = true)
    (hfits : ∀ e ∈ start.statement.conditions, ∀ f ∈ e.fragments, Fits words f) :
    let done := ((Database.openWith env records).stages .delete).execute env r
    let sql := start.statement.sql.writeAll env.dialect (done.statement.clauses.pieces start.statement.buildClauses)
    Clause.where done.statement.conditions ∈ done.statement.clauses.present start.statement.buildClauses ∧
      done.calls = r.calls ++ (if start.statement.dryRun then [] else [⟨.exec, sql.text, sql.params⟩]) ∧
      ∃ key, start.statement.schema.bind Schema.primary? = some key ∧ ∀ row : RowView key.name,
        read row.truth (spliced words (Expression.conditionTokens done.statement.conditions)) = some .yes →
          ∃ v ∈ start.statement.heldKeys, row.hasKey v := by
  intro done sql
  let prepared := prepareDelete env start.statement
  obtain ⟨hnarrowed, hsound, hsql⟩ := prepareDelete_narrowed env hkeys
  have hwritten : StageKind.delete.written env start.statement = prepared := by
    unfold StageKind.written
    rw [htext]
    rfl
  obtain ⟨hkept, -, hsent⟩ := StageKind.delete.executing_sent env hfree
  rw [hwritten] at hkept hsent
  obtain ⟨hbefore, hcalls, hclauses⟩ := StageKind.opened_sends hsteps records .delete r
  rw [← hstart] at hbefore hcalls hclauses
  rw [hkept] at hclauses
  have hconditions : done.statement.conditions = prepared.conditions := Statement.conditions_of_clauses hclauses
  have hadded : prepared.conditions ≠ [] := by
    rcases hnarrowed with ⟨hnone, -⟩ | ⟨_, e, -, -, hadded, -⟩
    · exact absurd hnone hkeys
    · rw [show prepared.conditions = _ from hadded]
      exact List.append_ne_nil_of_right_ne_nil _ (List.cons_ne_nil e [])
  refine ⟨?_, ?_, ?_⟩
  · refine Clauses.mem_present.mpr ⟨⟨"WHERE", hnames, ?_⟩, ?_⟩
    · exact Statement.clause?_of_conditions (hconditions ▸ hadded)
    · simpa [Clause.isEmpty, hconditions] using hadded
  · have hdry : prepared.dryRun = start.statement.dryRun := (prepareDelete_steady env start.statement).dryRun
    have hfree' : prepared.failed = false := hsound.trans hfree
    have htext' : prepared.sql = sql := by
      rw [show prepared.sql = _ from hsql]
      show _ = Rendered.writeAll env.dialect start.statement.sql (Clauses.pieces done.statement.clauses _)
      rw [show done.statement.clauses = prepared.clauses from hclauses]
    have hwork : StageKind.delete.hasWork env start.statement = true := rfl
    rw [hfree', hdry, hwork, Bool.or_false, Bool.not_true, Bool.or_false] at hsent
    rw [show done.calls = _ from hcalls, hsent, hbefore, StageKind.call, htext']
    rfl
  · rw [hconditions]
    exact hnarrowed.restricts hkeys hcontained hfits

/-- A note is deleted under two conditions more, one of them a fragment with an OR. -/
theorem delete_of_note :
    let env : Env := { now := ⟨1715000000, 0⟩ }
    let note : Destination Row := .one noteModel ⟨[("body", .text "hi"), ("id", .int 7)]⟩
    let conditions : List Expression := [.compare "body" .eq (.text "hi"), .raw "id > 3 or id < ?" [.int 2]]
    let words : String → List Value → List Token := fun sql values =>
      if sql = "id > 3 or id < ?" then [.leaf (.raw "id > 3" []), .or, .leaf (.raw "id < ?" values)]
      else [.leaf (.raw sql values)]
    let fresh : Statement (Destination Row) := Statement.fresh env.config
    let r : Run (Destination Row) :=
      { statement := { fresh with model := some (.value note), clauses := ⟨[.where conditions]⟩ } }
    let st := (Database.openWith env []).stages .delete
    let start := StageKind.delete.hooked (st.ready env r)
    let done := st.execute env r
    start.statement.heldKeys = [.int 7] ∧ start.statement.conditions = conditions ∧
      done.calls =
        [⟨.exec, "DELETE FROM \"notes\" WHERE \"body\" = ? AND (id > 3 or id < ?) AND \"id\" = ?",
          [.text "hi", .int 2, .int 7]⟩] ∧
      ∀ row : RowView "id",
        read row.truth (spliced words (Expression.conditionTokens done.statement.conditions)) = some .yes →
          row.hasKey (.int 7) := by
  intro env note conditions words fresh r st start done
  have hready : st.ready env r =
      { statement :=
          { fresh with
            model := some (.value note), dest := some .alias, schema := some noteModel.schema, shape := .record
            clauses := ⟨[.where conditions]⟩, buildClauses := ["DELETE", "FROM", "WHERE", "RETURNING"] } } := by
    show ((Database.openWith env []).stages .delete).ready env r = _
    rw [Database.opened_ready env [] .delete rfl]
    rfl
  have hstart : start =
      { statement :=
          { fresh with
            model := some (.value note), dest := some .alias, schema := some noteModel.schema, shape := .record
            clauses := ⟨[.where conditions]⟩, buildClauses := ["DELETE", "FROM", "WHERE", "RETURNING"] } } := by
    show StageKind.delete.hooked (st.ready env r) = _
    rw [hready]
    rfl
  have hkeys : start.statement.heldKeys = [.int 7] := by
    rw [hstart]
    cbv
  have hconditions : start.statement.conditions = conditions := by
    rw [hstart]
    rfl
  have hcontained : ∀ e ∈ conditions, e.isContained = true := by decide +kernel
  have hfits : ∀ e ∈ conditions, ∀ f ∈ e.fragments, Fits words f := by decide +kernel
  have hbegin : start = StageKind.delete.hooked (((Database.openWith env []).stages .delete).ready env r) := rfl
  obtain ⟨-, -, key, hkey, hrestricts⟩ := delete_restricted env [] r (by decide) words hbegin (by rw [hstart]; rfl)
    (by rw [hstart]; rfl) (by rw [hstart]; decide) (by rw [hkeys]; exact List.cons_ne_nil _ _)
    (hconditions ▸ hcontained) (hconditions ▸ hfits)
  rw [hstart] at hkey
  cases hkey
  refine ⟨hkeys, hconditions, ?_, fun row hrow => ?_⟩
  · rw [show done = _ from Database.opened_execute env [] .delete r,
      show (Database.openWith env []).stages .delete = st from rfl, hready, (Run.conclude_idle env _ _).calls]
    cbv
  · obtain ⟨v, hv, hrowkey⟩ := hrestricts row hrow
    rw [hkeys] at hv
    rwa [List.mem_singleton.mp hv] at hrowkey

/-- An OR group of one member joins the condition for the key with OR, and a row with another
    key meets both. So do a fragment whose OR is not between blanks, and one that is alone in two
    groups. -/
theorem delete_widened :
    let env : Env := { now := ⟨1715000000, 0⟩ }
    let note : Destination Row := .one noteModel ⟨[("body", .text "hi"), ("id", .int 7)]⟩
    let other : RowView "id" := Row.view ⟨[("body", .text "hi"), ("id", .int 9)]⟩ "id"
    let fresh : Statement (Destination Row) := Statement.fresh env.config
    let r : Run (Destination Row) :=
      { statement :=
          { fresh with
            model := some (.value note)
            clauses := ⟨[.where [.disjunction [.compare "body" .eq (.text "hi")]]]⟩ } }
    let st := (Database.openWith env []).stages .delete
    let done := st.execute env r
    let words : String → List Value → List Token := fun _ _ =>
      [.leaf (.compare "body" .eq (.text "hi")), .or, .leaf (.compare "body" .eq (.text "ho"))]
    let key : Expression := .compare "id" .eq (.int 7)
    (StageKind.delete.hooked (st.ready env r)).statement.heldKeys = [.int 7] ∧
      done.calls = [⟨.exec, "DELETE FROM \"notes\" WHERE \"id\" = ? OR \"body\" = ?", [.int 7, .text "hi"]⟩] ∧
      read other.truth (Expression.conditionTokens done.statement.conditions) = some .yes ∧
      ¬other.hasKey (.int 7) ∧
      read other.truth (spliced words (Expression.conditionTokens
        [.raw "body = 'hi'\nOR\nbody = 'ho'" [], key])) = some .yes ∧
      read other.truth (spliced words (Expression.conditionTokens
        [.and [.or [.raw "body = 'hi' OR body = 'ho'" []]], key])) = some .yes := by
  intro env note other fresh r st done words key
  have hready : st.ready env r =
      { statement :=
          { fresh with
            model := some (.value note), dest := some .alias, schema := some noteModel.schema, shape := .record
            clauses := ⟨[.where [.or [.compare "body" .eq (.text "hi")]]]⟩
            buildClauses := ["DELETE", "FROM", "WHERE", "RETURNING"] } } := by
    show ((Database.openWith env []).stages .delete).ready env r = _
    rw [Database.opened_ready env [] .delete rfl]
    rfl
  have hdone : done = _ := Database.opened_execute env [] .delete r
  rw [show (Database.openWith env []).stages .delete = st from rfl, hready] at hdone
  have hconditions : done.statement.conditions =
      [.or [.compare "body" .eq (.text "hi")], .compare "id" .eq (.int 7)] := by
    rw [hdone, Statement.conditions_of_clauses (by rw [Run.conclude_statement, Run.cleared_clauses])]
    cbv
  refine ⟨by rw [hready]; cbv, ?_, ?_, ?_, by decide +kernel, by decide +kernel⟩
  · rw [hdone, (Run.conclude_idle env _ _).calls]
    cbv
  · rw [hconditions]
    decide +kernel
  · show ¬Row.get? ⟨[("body", .text "hi"), ("id", .int 9)]⟩ "id" = some (.int 7)
    decide

end SqlPipeline
