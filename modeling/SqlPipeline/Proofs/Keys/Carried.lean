/-
  SqlPipeline.Proofs.Keys.Carried — the conditions a delete carries.

  Conditions are stored in the order they were added. Scopes and the destination's own edits may
  add more when the statement gets ready, but no edit takes one away or moves it. Behind them
  all the delete stores at most one of its own: the key of a single record, or the keys of a
  list that are set, in the order of its rows. With none at all it is refused, unless
  global updates are allowed.

  - `edit_conditions`, `ready_conditions`: getting ready only adds conditions.
  - `keyConditionOf?_shaped`: the condition a destination is narrowed by.
  - `prepareDelete_carries`: what the delete stores, and when it is refused.
  - `delete_carries_keys`: over a whole execution.
-/

import Mathlib
import SqlPipeline.Proofs.Execution.Steady
import SqlPipeline.Proofs.Guard.Sent
import SqlPipeline.Proofs.Record.Shaped

namespace SqlPipeline

open Operation

/-! ## Conditions that are added -/

namespace Statement

variable {ρ : Type}

theorem conditions_addClause_prefix (s : Statement ρ) (c : Clause) : s.conditions <+: (s.addClause c).conditions := by
  by_cases hname : c.name = "WHERE"
  · cases c with
    | «where» new =>
      rw [conditions_addWhere]
      exact List.prefix_append _ _
    | _ => simp [Clause.name] at hname
  · rw [s.conditions_addClause hname]

/-- A condition that is added only if there is none finds none before it. -/
theorem conditions_addClauseIfAbsent_prefix (s : Statement ρ) (c : Clause) :
    s.conditions <+: (s.addClauseIfAbsent c).conditions := by
  by_cases hname : c.name = "WHERE"
  · cases hget : s.clause? "WHERE" with
    | none =>
      have hnone : s.conditions = [] := by
        unfold conditions
        rw [hget]
      rw [hnone]
      exact List.nil_prefix
    | some c' =>
      have hsame : (s.addClauseIfAbsent c).clauses = s.clauses := by
        unfold addClauseIfAbsent Clauses.addIfAbsent
        rw [hname, show s.clauses.get? "WHERE" = some c' from hget]
        rfl
      rw [conditions_of_clauses hsame]
  · rw [s.conditions_addClauseIfAbsent hname]

theorem conditions_foldl_suchThat (s : Statement ρ) (given : List Expression) :
    (given.foldl suchThat s).conditions = s.conditions ++ given := by
  induction given generalizing s with
  | nil => exact (List.append_nil _).symm
  | cons e given ih => rw [List.foldl_cons, ih, conditions_suchThat, List.append_assoc, List.singleton_append]

end Statement

namespace Run

variable {ρ : Type} [Record ρ]

theorem edit_conditions (env : Env) {e : Edit} (h : e.isPlain = true) (r : Run ρ) :
    r.statement.conditions <+: (r.edit env e).statement.conditions := by
  cases e with
  | look next => cases h
  | addClause c => exact r.statement.conditions_addClause_prefix c
  | addClauseIfAbsent c => exact r.statement.conditions_addClauseIfAbsent_prefix c
  | setField row column v =>
    show _ <+: (r.setField row column v).statement.conditions
    unfold setField
    split
    · exact List.prefix_rfl
    · next d _ =>
      have hset := r.statement.setDestination_unwritten (Record.setValue d row column v).state
      show _ <+: (r.statement.setDestination (Record.setValue d row column v).state).conditions
      rw [Statement.conditions_of_clauses hset.clauses]
  | _ => exact List.prefix_rfl

theorem conditions_follow (env : Env) :
    Follows (ρ := ρ) env fun r r' => r.statement.conditions <+: r'.statement.conditions where
  refl _ := List.prefix_rfl
  trans := List.IsPrefix.trans
  edit := edit_conditions env
  modify r f h := by rw [show (r.modify f).statement.conditions = _ from Statement.conditions_of_clauses h]

theorem applyModifier_none (env : Env) {r : Run ρ}
    (h : ∀ d, r.statement.dest = some (.value d) → Record.modifier d = none) : r.applyModifier env = r := by
  unfold applyModifier
  split
  · next d hd =>
    rw [h d hd]
    rfl
  · rfl

theorem prepare_conditions (env : Env) (r : Run ρ) :
    (r.prepare env).statement.conditions = (r.applyModifier env).statement.conditions :=
  Statement.conditions_of_clauses (targets_clauses _)

end Run

namespace Stage

variable {ρ : Type} [Record ρ]

/-- Getting ready only adds conditions, and none where neither a scope is pending nor the
    destination has edits to make. -/
theorem ready_conditions (env : Env) (st : Stage Action) (r : Run ρ) :
    r.statement.conditions <+: (st.ready env r).statement.conditions ∧
      (r.statement.scopes = [] → (∀ d, r.statement.dest = some (.value d) → Record.modifier d = none) →
        (st.ready env r).statement.conditions = r.statement.conditions) := by
  refine ⟨st.ready_follows (Run.conditions_follow env) r, fun hscopes hmodifier => ?_⟩
  unfold ready
  rw [Run.prepare_conditions, Run.applyScopes_none env hscopes]
  split
  · rw [Run.applyModifier_none env (r := r.modify fun s => { s with buildClauses := st.clauses }) hmodifier]
    rfl
  · rw [Run.applyModifier_none env hmodifier]

end Stage

/-! ## The condition for the keys -/

/-- The condition for one row that has its key set. -/
def Expression.ofKey? (column : String) (key : Option Value) : Option Expression :=
  (key.filter (!·.isZero)).map (.compare column .eq)

/-- The condition for rows of which some have their keys set. -/
def Expression.ofKeys? (column : String) (keys : List Value) : Option Expression :=
  let set := keys.filter (!·.isZero)
  if set = [] then none else some (.member column set)

variable {μ : Type}

/-- A record given in advance has as many rows as its shape says, as far as it has them. -/
def Scripted.keyedBy? (column : String) (s : Scripted) : Option Expression :=
  match s.shape with
  | .record => Expression.ofKey? column (s.rows.head?.bind (·.get? column))
  | .list n => Expression.ofKeys? column ((s.rows.take n).filterMap (·.get? column))
  | .map | .unusable => none

/-- The condition that a row is one of those in the destination. -/
def Destination.keyedBy? (column : String) : Destination μ → Option Expression
  | .one m x => Expression.ofKey? column (m.value x column)
  | .optional m x => Expression.ofKey? column (x.bind (m.value · column))
  | .list m xs => Expression.ofKeys? column (xs.filterMap (m.value · column))
  | .map _ => none
  | .scripted s => s.keyedBy? column

theorem filterMap_range_take {α β : Type} (f : α → Option β) (xs : List α) (n : Nat) :
    (List.range n).filterMap (fun i => xs[i]?.bind f) = (xs.take n).filterMap f := by
  induction n with
  | zero => simp
  | succ n ih =>
    rw [List.range_succ, List.filterMap_append, ih, List.take_add_one, List.filterMap_append]
    cases h : xs[n]? <;> simp [h, List.filterMap_cons]

namespace Operation

theorem keyCondition?_record (column : String) (d : Destination μ) :
    keyCondition? .record column (setKeys d column 1) = Expression.ofKey? column (d.value 0 column) := by
  have hkeys : setKeys d column 1 = ((d.value 0 column).filter (!·.isZero)).toList := by
    show ([0].filterMap (d.value · column)).filter _ = _
    cases hv : d.value 0 column with
    | none => simp [hv]
    | some v => cases h : v.isZero <;> simp [hv, h, Option.filter]
  rw [hkeys]
  unfold Expression.ofKey?
  cases (d.value 0 column).filter (!·.isZero) <;> rfl

theorem keyCondition?_list (n : Nat) (column : String) {d : Destination μ} {keys : List Value}
    (h : (List.range n).filterMap (d.value · column) = keys) :
    keyCondition? (.list n) column (setKeys d column n) = Expression.ofKeys? column keys := by
  have hkeys : setKeys d column n = keys.filter (!·.isZero) := by rw [← h]; rfl
  rw [hkeys]
  unfold Expression.ofKeys?
  generalize keys.filter (!·.isZero) = set
  rcases set with _ | ⟨v, _ | ⟨v', vs⟩⟩ <;> rfl

theorem keyCondition?_keyedBy (column : String) (d : Destination μ) :
    ((keyedRows? d.resolve.2).bind fun rows => keyCondition? d.resolve.2 column (setKeys d column rows)) =
      d.keyedBy? column := by
  cases d with
  | one m x => exact keyCondition?_record column _
  | optional m x => exact keyCondition?_record column _
  | map r => rfl
  | list m xs =>
    have hrows := filterMap_range_take (m.value · column) xs xs.length
    rw [List.take_length] at hrows
    exact keyCondition?_list xs.length column hrows
  | scripted s =>
    let d : Destination μ := .scripted s
    show ((keyedRows? s.shape).bind fun rows => keyCondition? s.shape column (setKeys d column rows)) =
      s.keyedBy? column
    unfold Scripted.keyedBy?
    cases s.shape with
    | record =>
      rw [List.head?_eq_getElem?]
      exact keyCondition?_record column d
    | list n =>
      have hrows := filterMap_range_take (Row.get? · column) s.rows n
      exact keyCondition?_list n column (d := d) hrows
    | map => rfl
    | unusable => rfl

end Operation

namespace Statement

/-- The condition that a row is in the destination, by the primary key of the schema. -/
def keyedBy? (s : Statement (Destination μ)) : Option Expression :=
  (s.schema.bind Schema.primary?).bind fun key => s.destination?.bind (·.keyedBy? key.name)

theorem keyConditionOf?_shaped {s : Statement (Destination μ)} (h : s.Shaped) : keyConditionOf? s = s.keyedBy? := by
  unfold keyConditionOf? keyedBy?
  cases s.schema with
  | none => rfl
  | some schema =>
    show (schema.primary?.bind fun key => (keyedRows? s.shape).bind fun rows => s.destination?.bind fun d => _) =
      schema.primary?.bind _
    congr 1
    funext key
    cases hdest : s.destination? with
    | none => cases keyedRows? s.shape <;> rfl
    | some d =>
      rw [h d hdest]
      exact keyCondition?_keyedBy key.name d

end Statement

/-! ## The delete -/

/-- Nothing stored, and global updates not allowed. -/
def Refused {ρ : Type} (env : Env) (s : Statement ρ) : Prop :=
  s.conditions = [] ∧ env.config.allowGlobalUpdate = false

instance {ρ : Type} (env : Env) (s : Statement ρ) : Decidable (Refused env s) :=
  inferInstanceAs (Decidable (_ ∧ _))

theorem buildGuarded_eq {ρ : Type} (env : Env) (s : Statement ρ) :
    buildGuarded env s = if Refused env s then s.addError .missingConditions else s.buildDefault env.dialect := by
  have hguard : (s.hasConditions || env.config.allowGlobalUpdate) = true ↔ ¬Refused env s := by
    unfold Refused
    rw [Bool.or_eq_true, hasConditions_iff, not_and_or, Bool.not_eq_false]
  unfold buildGuarded
  by_cases h : Refused env s
  · rw [if_pos h, if_neg fun hgo => hguard.mp hgo h]
  · rw [if_neg h, if_pos (hguard.mpr h)]

/-- What a delete stores when it is prepared, and what it writes unless it is refused. -/
theorem prepareDelete_carries (env : Env) {s : Statement (Destination μ)} (hshaped : s.Shaped) {table : String}
    (htable : s.tableName? = some table) :
    let prepared := prepareDelete env s
    prepared.conditions = s.conditions ++ s.keyedBy?.toList ∧ prepared.dryRun = s.dryRun ∧
      (Refused env prepared → prepared.error = some (Error.missingConditions.added s.error)) ∧
      (¬Refused env prepared → prepared.error = s.error ∧
        prepared.sql = s.sql.writeAll env.dialect (prepared.clauses.pieces s.buildClauses)) := by
  intro prepared
  let s₁ := (s.addClauseIfAbsent .delete).addClauseIfAbsent (.from [table])
  have hconditions : s₁.conditions = s.conditions :=
    (Statement.conditions_addClauseIfAbsent _ (by simp [Clause.name])).trans
      (Statement.conditions_addClauseIfAbsent _ (by simp [Clause.name]))
  have hkey : keyConditionOf? s₁ = s.keyedBy? := Statement.keyConditionOf?_shaped (s := s₁) hshaped
  -- narrowing touches the clauses only, and the guard looks at what they are by then
  let s₂ := addKeyCondition s₁
  have hcarried : s₂.conditions = s.conditions ++ s.keyedBy?.toList := by
    rw [addKeyCondition_conditions, hconditions, hkey]
  have hsame : s₂ = { s with clauses := s₂.clauses } := by
    show addKeyCondition s₁ = { s with clauses := (addKeyCondition s₁).clauses }
    unfold addKeyCondition
    cases keyConditionOf? s₁ <;> rfl
  have hprepared : prepared = buildGuarded env s₂ := by
    show prepareDelete env s = _
    unfold prepareDelete
    rw [htable]
  rw [buildGuarded_eq] at hprepared
  split at hprepared
  · next hrefused =>
    rw [hprepared]
    refine ⟨hcarried, by rw [hsame]; rfl, fun _ => by rw [hsame]; rfl, fun hgo => absurd hrefused hgo⟩
  · next hgo =>
    rw [hprepared]
    refine ⟨hcarried, by rw [hsame]; rfl, fun hrefused => absurd hrefused hgo, fun _ => ⟨by rw [hsame]; rfl, ?_⟩⟩
    rw [hsame]
    rfl

/-- What the step of a delete stores and sends, if it begins without text and without an error. -/
theorem delete_executed (env : Env) {start : Run (Destination μ)} (hfree : start.failed = false)
    (htext : start.statement.hasText = false) (hshaped : start.statement.Shaped) {table : String}
    (htable : start.statement.tableName? = some table) :
    let executed := StageKind.delete.executing.run env start
    let sql := start.statement.sql.writeAll env.dialect
      (executed.statement.clauses.pieces start.statement.buildClauses)
    executed.statement.conditions = start.statement.conditions ++ start.statement.keyedBy?.toList ∧
      (Refused env executed.statement →
        executed.statement.error = some .missingConditions ∧ executed.calls = start.calls) ∧
      (¬Refused env executed.statement →
        executed.calls = start.calls ++ (if start.statement.dryRun then [] else [⟨.exec, sql.text, sql.params⟩]) ∧
        (executed.calls = start.calls → executed.statement.error = none)) := by
  intro executed sql
  let prepared := prepareDelete env start.statement
  obtain ⟨hstored, hdry, hrefused, hwritten⟩ := prepareDelete_carries env hshaped htable
  have hprepared : StageKind.delete.written env start.statement = prepared := by
    unfold StageKind.written
    rw [htext]
    rfl
  have hnone : start.statement.error = none := by simpa [Run.failed, Statement.failed] using hfree
  rw [hnone] at hrefused hwritten
  have hclauses : executed.statement.clauses = prepared.clauses := by
    rw [← hprepared]
    exact (StageKind.delete.executing_sent env hfree).1
  have hconditions : executed.statement.conditions = prepared.conditions := Statement.conditions_of_clauses hclauses
  have hsame : Refused env executed.statement ↔ Refused env prepared := by
    unfold Refused
    rw [hconditions]
  obtain ⟨call, hwent⟩ := StageKind.delete.executing_went env start
  have hcalls : executed.calls = start.calls ++ call.toList := hwent.calls
  refine ⟨hconditions.trans hstored, ?_⟩
  rw [hsame]
  cases hwent with
  | idle failed => exact absurd (hfree.symm.trans failed) Bool.false_ne_true
  | written _ why same =>
    have hleft : executed.statement = prepared := by
      rw [← hprepared]
      exact congrArg Run.statement same
    have hidle : executed.calls = start.calls := hcalls.trans (List.append_nil _)
    rw [hprepared] at why
    refine ⟨fun hrefuse => ⟨(congrArg Statement.error hleft).trans (hrefused hrefuse), hidle⟩, fun hgo => ?_⟩
    have hsound : prepared.error = none := (hwritten hgo).1
    have hstop : start.statement.dryRun = true := by
      rcases why with hd | hf | hwork
      · exact hdry.symm.trans hd
      · cases (congrArg Option.isSome hsound).symm.trans hf
      · cases hwork
    rw [if_pos hstop, List.append_nil]
    exact ⟨hidle, fun _ => (congrArg Statement.error hleft).trans hsound⟩
  | sent _ live sound _ _ =>
    rw [hprepared] at live sound
    refine ⟨fun hrefuse => ?_, fun hgo => ?_⟩
    · cases sound.symm.trans (congrArg Option.isSome (hrefused hrefuse))
    · have hsql : prepared.sql = sql := by
        rw [show prepared.sql = _ from (hwritten hgo).2, ← hclauses]
      have hone : executed.calls = start.calls ++ [⟨.exec, sql.text, sql.params⟩] := by
        rw [hcalls, hprepared, ← hsql]
        rfl
      rw [if_neg (by rw [← hdry]; exact ne_true_of_eq_false live)]
      refine ⟨hone, fun hidle => ?_⟩
      rw [hidle] at hone
      simp at hone

/-- A delete of `r` under these conditions: `start` is where its step began, `executed` where the
    step ended, and `done` the end of it. -/
structure Carried (env : Env) (conditions : List Expression) (r start executed done : Run (Destination μ)) :
    Prop where
  kept : conditions <+: start.statement.conditions
  /-- More can only come from scopes and from the edits of the destination. -/
  unedited : r.statement.scopes = [] → (∀ d, r.statement.dest = some (.value d) → Record.modifier d = none) →
    start.statement.conditions = conditions
  stored : done.statement.conditions = start.statement.conditions ++ start.statement.keyedBy?.toList
  refused : executed.statement.error = some .missingConditions ∧ done.statement.error = some .missingConditions ∧
    done.calls = r.calls ↔ Refused env done.statement
  sent : ¬Refused env done.statement →
    let sql := start.statement.sql.writeAll env.dialect (done.statement.clauses.pieces start.statement.buildClauses)
    done.calls = r.calls ++ if start.statement.dryRun then [] else [⟨.exec, sql.text, sql.params⟩]

/-- A delete of a known table, that begins without text and without an error, carries the
    conditions there were, those of the caller in the order of the calls, and behind them the one
    for the keys of its destination. -/
theorem delete_carries_keys (env : Env) (hsteps : env.config.skipDefaultSteps = false)
    (records : List (Destination Row)) (given : List Expression) (before : Run (Destination μ))
    {r start : Run (Destination μ)} (hr : r = before.modify (given.foldl Statement.suchThat))
    (hstart : start = StageKind.delete.hooked (((Database.openWith env records).stages .delete).ready env r))
    (hfree : start.failed = false) (htext : start.statement.hasText = false) {table : String}
    (htable : start.statement.tableName? = some table) :
    Carried env (before.statement.conditions ++ given) r start (StageKind.delete.executing.run env start)
      (((Database.openWith env records).stages .delete).execute env r) := by
  obtain ⟨hready, hunedited⟩ := ((Database.openWith env records).stages .delete).ready_conditions env r
  have hgiven : r.statement.conditions = before.statement.conditions ++ given := by
    rw [hr]
    exact before.statement.conditions_foldl_suchThat given
  rw [hgiven] at hready hunedited
  -- hooks touch no clause, so the step begins with what getting ready left
  have hbegin : start.statement.conditions =
      (((Database.openWith env records).stages .delete).ready env r).statement.conditions := by
    rw [hstart]
    exact Statement.conditions_of_clauses (callHooks_untouched _ _).statement.clauses
  have hshaped : start.statement.Shaped := hstart ▸ StageKind.hooked_shaped env .delete _ r
  obtain ⟨hstored, hrefused, hsent⟩ := delete_executed env hfree htext hshaped htable
  -- after the step only hooks and the conclusion follow, and no hook where it failed
  have hend := StageKind.opened_done hsteps records .delete r
  obtain ⟨hbefore, hcalls, hkept⟩ := StageKind.opened_sends hsteps records .delete r
  dsimp only at hend
  rw [← hstart] at hend hbefore hcalls hkept
  generalize StageKind.delete.executing.run env start = executed at *
  generalize ((Database.openWith env records).stages .delete).execute env r = done at *
  have hconditions : done.statement.conditions = executed.statement.conditions := Statement.conditions_of_clauses hkept
  have hsame : Refused env executed.statement ↔ Refused env done.statement := by
    unfold Refused
    rw [hconditions]
  rw [hsame, hbefore] at hrefused hsent
  refine ⟨hbegin ▸ hready, fun hscopes hmodifier => hbegin.trans (hunedited hscopes hmodifier),
    hconditions.trans hstored, ⟨?_, fun hrefuse => ?_⟩, fun hgo => ?_⟩
  · rintro ⟨herror, -, hidle⟩
    refine by_contra fun hgo => ?_
    cases herror.symm.trans ((hsent hgo).2 (hcalls.symm.trans hidle))
  · obtain ⟨herror, hidle⟩ := hrefused hrefuse
    refine ⟨herror, ?_, hcalls.trans hidle⟩
    rw [hend, Run.conclude_statement, Run.cleared_error, StageKind.callHooks_failed _ (congrArg Option.isSome herror)]
    exact herror
  · rw [hkept, hcalls]
    exact (hsent hgo).1

/-- Three notes are deleted under two conditions. Two of them have their keys. -/
theorem delete_of_three_notes :
    let env : Env := { now := ⟨1715000000, 0⟩ }
    let notes : Destination Row :=
      .list noteModel [⟨[("body", .text "a"), ("id", .int 9)]⟩, ⟨[("body", .text "b"), ("id", .int 0)]⟩,
        ⟨[("body", .text "c"), ("id", .int 7)]⟩]
    let given : List Expression := [.compare "body" .gt (.text "hi"), .raw "id < ?" [.int 20]]
    let fresh : Statement (Destination Row) := Statement.fresh env.config
    let before : Run (Destination Row) := { statement := { fresh with model := some (.value notes) } }
    let r := before.modify (given.foldl Statement.suchThat)
    let st := (Database.openWith env []).stages .delete
    let start := StageKind.delete.hooked (st.ready env r)
    let done := st.execute env r
    Carried env given r start (StageKind.delete.executing.run env start) done ∧
      done.statement.conditions = given ++ [.member "id" [.int 9, .int 7]] ∧
      done.calls =
        [⟨.exec, "DELETE FROM \"notes\" WHERE \"body\" > ? AND id < ? AND \"id\" IN (?,?)",
          [.text "hi", .int 20, .int 9, .int 7]⟩] := by
  intro env notes given fresh before r st start done
  have hready : st.ready env r =
      { statement :=
          { fresh with
            model := some (.value notes), dest := some .alias, schema := some noteModel.schema, shape := .list 3
            clauses := ⟨[.where given]⟩, buildClauses := ["DELETE", "FROM", "WHERE", "RETURNING"] } } := by
    show ((Database.openWith env []).stages .delete).ready env r = _
    rw [Database.opened_ready env [] .delete rfl]
    rfl
  have hstart : start =
      { statement :=
          { fresh with
            model := some (.value notes), dest := some .alias, schema := some noteModel.schema, shape := .list 3
            clauses := ⟨[.where given]⟩, buildClauses := ["DELETE", "FROM", "WHERE", "RETURNING"] } } := by
    show StageKind.delete.hooked (st.ready env r) = _
    rw [hready]
    rfl
  have hbegin : start = StageKind.delete.hooked (((Database.openWith env []).stages .delete).ready env r) := rfl
  have htable : start.statement.tableName? = some "notes" := by rw [hstart]; rfl
  have hcarried := delete_carries_keys env (by decide) [] given before (r := r) rfl hbegin (by rw [hstart]; rfl)
    (by rw [hstart]; rfl) htable
  refine ⟨hcarried, ?_, ?_⟩
  · rw [show done.statement.conditions = _ from hcarried.stored, hstart]
    cbv
  · rw [show done = _ from Database.opened_execute env [] .delete r,
      show (Database.openWith env []).stages .delete = st from rfl, hready, (Run.conclude_idle env _ _).calls]
    cbv

end SqlPipeline
