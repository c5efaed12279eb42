/-
  SqlPipeline.Proofs.Execution.DryRun — a dry run next to the real one.

  Whether a run is dry is looked at in two places: before a text is sent, and when the text is
  cleared at the end. All else does the same with the flag and without it, as long as no edit
  sets it or goes by it. So the two runs go the same way up to the point where the real one sends.

  - `ready_withDryRun`: getting ready commutes with setting the flag.
  - `steps_withDryRun`: the built-in steps, dry and real, from one state.
  - `dryRun_predicts`: over a whole execution; the dry run sends nothing and leaves the text and
    the parameters that the real run sends, if it sends anything.
-/

import Mathlib
import SqlPipeline.Proofs.Execution.Sending

namespace SqlPipeline

open Operation

variable {ρ : Type}

def Statement.withDryRun (s : Statement ρ) (on : Bool) : Statement ρ := { s with dryRun := on }

def Run.withDryRun (r : Run ρ) (on : Bool) : Run ρ := r.modify (·.withDryRun on)

namespace Statement

section Fields

variable (s : Statement ρ) (on : Bool)

@[simp] theorem withDryRun_table : (s.withDryRun on).table = s.table := rfl
@[simp] theorem withDryRun_schema : (s.withDryRun on).schema = s.schema := rfl
@[simp] theorem withDryRun_clause? (name : String) : (s.withDryRun on).clause? name = s.clause? name := rfl
@[simp] theorem withDryRun_shape : (s.withDryRun on).shape = s.shape := rfl
@[simp] theorem withDryRun_assignments : (s.withDryRun on).assignments = s.assignments := rfl
@[simp] theorem withDryRun_hasText : (s.withDryRun on).hasText = s.hasText := rfl
@[simp] theorem withDryRun_tableName? : (s.withDryRun on).tableName? = s.tableName? := rfl
@[simp] theorem withDryRun_destination? : (s.withDryRun on).destination? = s.destination? := rfl
@[simp] theorem withDryRun_modelRecord? : (s.withDryRun on).modelRecord? = s.modelRecord? := rfl
@[simp] theorem withDryRun_hasConditions : (s.withDryRun on).hasConditions = s.hasConditions := rfl

@[simp] theorem addError_withDryRun (e : Error) : (s.withDryRun on).addError e = (s.addError e).withDryRun on := rfl
@[simp] theorem addClause_withDryRun (c : Clause) : (s.withDryRun on).addClause c = (s.addClause c).withDryRun on := rfl
@[simp] theorem addClauseIfAbsent_withDryRun (c : Clause) :
    (s.withDryRun on).addClauseIfAbsent c = (s.addClauseIfAbsent c).withDryRun on := rfl
@[simp] theorem buildDefault_withDryRun (d : Dialect) :
    (s.withDryRun on).buildDefault d = (s.buildDefault d).withDryRun on := rfl

@[simp] theorem setDestination_withDryRun (x : ρ) :
    (s.withDryRun on).setDestination x = (s.setDestination x).withDryRun on := by
  unfold setDestination
  dsimp only [withDryRun]
  split <;> rfl

@[simp] theorem normalizeTargets_withDryRun :
    (s.withDryRun on).normalizeTargets = s.normalizeTargets.withDryRun on := by
  unfold normalizeTargets
  dsimp only [withDryRun]
  split <;> rfl

end Fields

variable [Record ρ]

@[simp] theorem readSchema_withDryRun (s : Statement ρ) (on : Bool) :
    (s.withDryRun on).readSchema = s.readSchema.withDryRun on := by
  unfold readSchema
  simp only [withDryRun_modelRecord?, withDryRun_table, withDryRun_hasText, addError_withDryRun]
  rcases s.modelRecord?.map Record.schema with _ | e | schema
  · rfl
  · cases e with
    | untabled what => by_cases h : (s.table.isNone && !s.hasText) = true <;> simp [h]
    | _ => rfl
  · rfl

@[simp] theorem resolveDestination_withDryRun (s : Statement ρ) (on : Bool) :
    (s.withDryRun on).resolveDestination = s.resolveDestination.withDryRun on := by
  unfold resolveDestination
  simp only [withDryRun_destination?, setDestination_withDryRun]
  rcases s.destination?.map Record.resolve with _ | ⟨x, shape⟩
  · rfl
  · by_cases h : shape = .unusable
    · subst h
      rfl
    · simp only [if_neg h]
      rfl

end Statement

namespace Operation

variable (env : Env)

theorem expandOnConflict_withDryRun (columns : List String) (s : Statement ρ) (on : Bool) :
    expandOnConflict env columns (s.withDryRun on) = (expandOnConflict env columns s).map (·.withDryRun on) := by
  unfold expandOnConflict
  simp only [Statement.withDryRun_clause?, Statement.withDryRun_schema]
  cases s.clause? "ON CONFLICT" with
  | none => rfl
  | some clause =>
    cases clause with
    | onConflict c =>
      cases s.schema with
      | none => cases env.dialect.upsert <;> rfl
      | some schema =>
        cases env.dialect.upsert with
        | false => rfl
        | true => by_cases h : (c.updateAll && !columns.isEmpty) = true <;> simp [h, Except.map]
    | _ => rfl

variable (s : Statement ρ) (on : Bool)

@[simp] theorem buildGuarded_withDryRun : buildGuarded env (s.withDryRun on) = (buildGuarded env s).withDryRun on := by
  unfold buildGuarded
  by_cases h : (s.hasConditions || env.config.allowGlobalUpdate) = true <;> simp [h]

@[simp] theorem returnedColumns_withDryRun : returnedColumns env (s.withDryRun on) = returnedColumns env s := rfl

variable [Record ρ]

@[simp] theorem addKeyCondition_withDryRun : addKeyCondition (s.withDryRun on) = (addKeyCondition s).withDryRun on := by
  show (keyConditionOf? s).elim (s.withDryRun on) (s.withDryRun on).suchThat = _
  unfold addKeyCondition
  cases keyConditionOf? s <;> rfl

theorem prepareDelete_withDryRun : prepareDelete env (s.withDryRun on) = (prepareDelete env s).withDryRun on := by
  unfold prepareDelete
  cases ht : s.tableName? <;> simp [ht]

theorem prepareQuery_withDryRun : prepareQuery env (s.withDryRun on) = (prepareQuery env s).withDryRun on := by
  unfold prepareQuery
  by_cases htext : s.hasText = true
  · simp [htext]
  · cases ht : s.tableName? with
    | none => simp [htext, ht]
    | some table =>
      by_cases hs : ((s.addClauseIfAbsent (.select [] false)).addClauseIfAbsent (.from [table])).shape = .record <;>
        simp [htext, ht, hs]

theorem assignmentsOf_withDryRun :
    assignmentsOf env (s.withDryRun on) = ((assignmentsOf env s).1.withDryRun on, (assignmentsOf env s).2) := by
  unfold assignmentsOf
  simp only [Statement.withDryRun_schema, Statement.withDryRun_destination?]
  cases s.schema with
  | none => rfl
  | some schema =>
    cases s.destination? with
    | none => rfl
    | some dest => simp

theorem prepareUpdate_withDryRun :
    prepareUpdate env (s.withDryRun on) = ((prepareUpdate env s).1.withDryRun on, (prepareUpdate env s).2) := by
  unfold prepareUpdate
  cases ht : s.tableName? with
  | none => simp [ht]
  | some table =>
    simp only [ht, Statement.withDryRun_tableName?, Statement.addClauseIfAbsent_withDryRun, assignmentsOf_withDryRun]
    rcases assignmentsOf env (s.addClauseIfAbsent (.update table)) with ⟨s', e | _ | ⟨a, set⟩⟩ <;> simp

theorem prepareInsert_withDryRun : prepareInsert env (s.withDryRun on) = (prepareInsert env s).withDryRun on := by
  unfold prepareInsert
  cases ht : s.tableName? with
  | none => simp [ht]
  | some table =>
    simp only [ht, Statement.withDryRun_tableName?, Statement.addClauseIfAbsent_withDryRun,
      Statement.withDryRun_destination?]
    generalize s.addClauseIfAbsent (.insert table none) = s'
    cases s'.destination? with
    | none => rfl
    | some dest =>
      simp only [Statement.withDryRun_shape, Statement.withDryRun_schema, Statement.setDestination_withDryRun]
      rcases collectValues env.now s'.shape s'.schema dest with ⟨dest', e | values⟩
      · rfl
      · simp only [expandOnConflict_withDryRun]
        rcases expandOnConflict env values.columns (s'.setDestination dest') with e | s''
        · rfl
        · simp only [Except.map]
          by_cases h : (returnedColumns env (s''.addClause (.values values.columns values.rows))).isEmpty = true <;>
            simp [h]

end Operation

theorem StageKind.written_withDryRun [Record ρ] (env : Env) (kind : StageKind) (s : Statement ρ) (on : Bool) :
    kind.written env (s.withDryRun on) = (kind.written env s).withDryRun on := by
  unfold StageKind.written
  by_cases htext : s.hasText = true
  · simp [htext]
  · cases kind with
    | create => simp [htext, Operation.prepareInsert_withDryRun]
    | query | row => simp [htext, Operation.prepareQuery_withDryRun]
    | update => simp [htext, Operation.prepareUpdate_withDryRun]
    | delete => simp [htext, Operation.prepareDelete_withDryRun]
    | raw => simp [htext]

/-! ## Edits -/

/-- Edits that neither read nor set the flag, and nor do the scopes they queue. -/
inductive Edit.IgnoreDryRun : List Edit → Prop
  | nil : IgnoreDryRun []
  | look {next : StatementView → List Edit} {es : List Edit} (unread : ∀ v on, next { v with dryRun := on } = next v)
      (hnext : ∀ v, IgnoreDryRun (next v)) (hrest : IgnoreDryRun es) : IgnoreDryRun (.look next :: es)
  | defer {scope es : List Edit} (hscope : IgnoreDryRun scope) (hrest : IgnoreDryRun es) :
      IgnoreDryRun (.defer scope :: es)
  | plain {e : Edit} {es : List Edit} (hplain : e.isPlain = true) (unset : ∀ on, e ≠ .setDryRun on)
      (hrest : IgnoreDryRun es) : IgnoreDryRun (e :: es)

namespace Edit.IgnoreDryRun

theorem part {part es : List Edit} (h : IgnoreDryRun es) (hpart : PartOf part es) : IgnoreDryRun part := by
  cases hpart with
  | rest => cases h <;> assumption
  | scope =>
    cases h with
    | defer hscope _ => exact hscope
    | plain hplain => cases hplain
  | next next v =>
    cases h with
    | look _ hnext _ => exact hnext v
    | plain hplain => cases hplain

theorem within {scope es : List Edit} (h : IgnoreDryRun es) (hwithin : Within scope es) : IgnoreDryRun scope := by
  induction hwithin with
  | single hpart => exact h.part hpart
  | tail _ hpart ih => exact ih (h.part hpart)

end Edit.IgnoreDryRun

/-- A destination neither reads nor sets the flag in what it makes of a statement. -/
structure StatementView.IgnoreDryRun {α : Type} (modify : StatementView → α × List Edit) : Prop where
  unread : ∀ v on, modify { v with dryRun := on } = modify v
  edits : ∀ v, Edit.IgnoreDryRun (modify v).2

namespace Run

variable [Record ρ] (env : Env)

theorem callHooks_withDryRun (hooks : List Hook) (r : Run ρ) (on : Bool) :
    callHooks hooks (r.withDryRun on) = (callHooks hooks r).withDryRun on := by
  have hadd : ∀ (errors : List Error) (s : Statement ρ),
      errors.foldl Statement.addError (s.withDryRun on) = (errors.foldl Statement.addError s).withDryRun on := by
    intro errors
    induction errors with
    | nil => exact fun _ => rfl
    | cons e errors ih => exact fun s => ih (s.addError e)
  have hoff : ((r.withDryRun on).failed || (r.withDryRun on).statement.skipHooks ||
      (r.withDryRun on).statement.schema.isNone) =
        (r.failed || r.statement.skipHooks || r.statement.schema.isNone) := rfl
  unfold callHooks
  rw [hoff]
  by_cases h : (r.failed || r.statement.skipHooks || r.statement.schema.isNone) = true
  · rw [if_pos h, if_pos h]
  · rw [if_neg h, if_neg h]
    rw [show (r.withDryRun on).statement.destination? = r.statement.destination? from rfl]
    cases r.statement.destination? with
    | none => rfl
    | some dest =>
      simp only [Run.emit, Run.modify, Run.withDryRun, Statement.setDestination_withDryRun, hadd]

theorem edit_withDryRun {e : Edit} (hplain : e.isPlain = true) (unset : ∀ on, e ≠ .setDryRun on) (r : Run ρ)
    (on : Bool) : (r.withDryRun on).edit env e = (r.edit env e).withDryRun on := by
  cases e with
  | setDryRun on' => exact absurd rfl (unset on')
  | look next => cases hplain
  | setField row column v =>
    show (r.withDryRun on).setField row column v = (r.setField row column v).withDryRun on
    unfold setField
    rw [show (r.withDryRun on).statement.destination? = r.statement.destination? from rfl]
    cases r.statement.destination? with
    | none => rfl
    | some dest => simp only [emit, modify, withDryRun, Statement.setDestination_withDryRun]
  | _ => rfl

theorem edits_withDryRun {es : List Edit} (h : Edit.IgnoreDryRun es) (r : Run ρ) (on : Bool) :
    (r.withDryRun on).edits env es = (r.edits env es).withDryRun on := by
  induction h generalizing r with
  | nil => rfl
  | @look next es unread _ _ hnext ih =>
    have hview : next (r.withDryRun on).statement.view = next r.statement.view := unread r.statement.view on
    show ((r.withDryRun on).edits env (next (r.withDryRun on).statement.view)).edits env es = _
    rw [hview, hnext]
    exact ih (r.edits env (next r.statement.view))
  | @defer scope _ _ _ _ ih => exact ih (r.modify (·.defer scope))
  | @plain e es hplain unset _ ih =>
    show ((r.withDryRun on).edit env e).edits env es = _
    rw [edit_withDryRun env hplain unset]
    exact ih (r.edit env e)

theorem applyBatch_withDryRun {batch : List (List Edit)} (h : ∀ scope ∈ batch, Edit.IgnoreDryRun scope)
    (r : Run ρ) (on : Bool) : (r.withDryRun on).applyBatch env batch = (r.applyBatch env batch).withDryRun on := by
  induction batch generalizing r with
  | nil => rfl
  | cons scope batch ih =>
    obtain ⟨hscope, hrest⟩ := List.forall_mem_cons.mp h
    show ((r.withDryRun on).edits env scope).applyBatch env batch = _
    rw [edits_withDryRun env hscope]
    exact ih hrest (r.edits env scope)

theorem applyScopes_withDryRun (r : Run ρ) (h : ∀ scope ∈ r.statement.scopes, Edit.IgnoreDryRun scope)
    (on : Bool) : (r.withDryRun on).applyScopes env = (r.applyScopes env).withDryRun on := by
  fun_induction applyScopes env r with
  | case1 r hnone => exact applyScopes_none env hnone
  | case2 r hsome ih =>
    rw [applyScopes, if_neg (show (r.withDryRun on).statement.scopes ≠ [] from hsome)]
    rw [← ih]
    · exact congrArg (applyScopes env) (applyBatch_withDryRun env h (r.modify fun s => { s with scopes := [] }) on)
    · -- what the batch queued was within it
      intro scope hscope
      rcases applyBatch_scopes env _ _ scope hscope with hold | ⟨queuing, hq, hwithin⟩
      · exact absurd hold List.not_mem_nil
      · exact (h queuing hq).within hwithin

theorem modifiedBy_withDryRun {modify : StatementView → ρ × List Edit} (h : StatementView.IgnoreDryRun modify)
    (r : Run ρ) (on : Bool) : (r.withDryRun on).modifiedBy env modify = (r.modifiedBy env modify).withDryRun on := by
  let alone := r.modify fun s => { s with dest := none }
  let giveBack (done : ρ × List Edit) (r : Run ρ) : Run ρ :=
    (r.edits env done.2).modify fun s => { s with dest := some (.value done.1) }
  show giveBack (modify (alone.withDryRun on).statement.view) (alone.withDryRun on) =
    (giveBack (modify alone.statement.view) alone).withDryRun on
  have hview : modify (alone.withDryRun on).statement.view = modify alone.statement.view :=
    h.unread alone.statement.view on
  dsimp only [giveBack]
  rw [hview, edits_withDryRun env (h.edits alone.statement.view)]
  rfl

theorem prepare_withDryRun (r : Run ρ)
    (h : ∀ dest modify, r.statement.dest = some (.value dest) → Record.modifier dest = some modify →
      StatementView.IgnoreDryRun modify) (on : Bool) :
    (r.withDryRun on).prepare env = (r.prepare env).withDryRun on := by
  have hmod : (r.withDryRun on).applyModifier env = (r.applyModifier env).withDryRun on := by
    unfold applyModifier
    rw [show (r.withDryRun on).statement.dest = r.statement.dest from rfl]
    rcases hd : r.statement.dest with _ | dest | _
    · rfl
    · dsimp only
      cases hm : Record.modifier dest with
      | none => rfl
      | some modify => exact modifiedBy_withDryRun env (h dest modify hd hm) r on
    · rfl
  unfold prepare
  rw [hmod]
  simp only [modify, withDryRun, Statement.normalizeTargets_withDryRun, Statement.readSchema_withDryRun,
    Statement.resolveDestination_withDryRun]

theorem ready_withDryRun (st : Stage Action) (r : Run ρ)
    (hscopes : ∀ scope ∈ r.statement.scopes, Edit.IgnoreDryRun scope)
    (hmodifier : ∀ dest modify, (r.applyScopes env).statement.dest = some (.value dest) →
      Record.modifier dest = some modify → StatementView.IgnoreDryRun modify) (on : Bool) :
    st.ready env (r.withDryRun on) = (st.ready env r).withDryRun on := by
  have hadopts : Stage.adopts env (r.withDryRun on) = Stage.adopts env r := by
    unfold Stage.adopts
    rw [applyScopes_withDryRun env r hscopes]
    rfl
  unfold Stage.ready
  rw [hadopts, applyScopes_withDryRun env r hscopes]
  by_cases h : Stage.adopts env r = true
  · rw [if_pos h, if_pos h]
    exact prepare_withDryRun env ((r.applyScopes env).modify fun s => { s with buildClauses := st.clauses })
      hmodifier on
  · rw [if_neg h, if_neg h]
    exact prepare_withDryRun env (r.applyScopes env) hmodifier on

omit [Record ρ] in
theorem cleared_sql {s : Statement ρ} (h : s.dryRun = true) (adopted : Bool) : (cleared adopted s).sql = s.sql := by
  unfold cleared
  rw [h]
  cases adopted <;> rfl

/-! ## The executing step -/

theorem executing_dry (kind : StageKind) (r : Run ρ) :
    kind.executing.run env (r.withDryRun true) =
      (if r.failed then r else r.modify (kind.written env)).withDryRun true := by
  rw [StageKind.executing_run]
  cases hf : r.failed with
  | true => rw [if_pos (show (r.withDryRun true).failed = true from hf), if_pos rfl]
  | false =>
    have hw : (r.withDryRun true).modify (kind.written env) = (r.modify (kind.written env)).withDryRun true := by
      simp only [modify, withDryRun, StageKind.written_withDryRun]
    have hf' : (r.withDryRun true).failed = false := hf
    rw [hw, hf']
    rfl

theorem executing_real (kind : StageKind) (r : Run ρ) :
    (kind.executing.run env (r.withDryRun false)).calls = r.calls ∨
      r.failed = false ∧ (kind.executing.run env (r.withDryRun false)).calls =
        r.calls ++ [kind.call (kind.written env r.statement)] := by
  rw [StageKind.executing_run]
  cases hf : r.failed with
  | true => exact Or.inl (by rw [if_pos (show (r.withDryRun false).failed = true from hf)]; rfl)
  | false =>
    have hw : (r.withDryRun false).modify (kind.written env) = (r.modify (kind.written env)).withDryRun false := by
      simp only [modify, withDryRun, StageKind.written_withDryRun]
    have hf' : (r.withDryRun false).failed = false := hf
    rw [hw, hf']
    dsimp only
    split
    · next h => cases h
    · split
      · exact Or.inl rfl
      · refine Or.inr ⟨rfl, ?_⟩
        unfold calls StageKind.deliver
        rw [List.filterMap_append]
        rfl

end Run

/-- The built-in steps, dry and real, from states that differ in nothing else. -/
theorem StageKind.steps_withDryRun [Record ρ] (env : Env) (kind : StageKind) (start : Run ρ) :
    let dry := kind.steps env (start.withDryRun true)
    let real := kind.steps env (start.withDryRun false)
    dry.statement.dryRun = true ∧ dry.calls = start.calls ∧
      (real.calls = start.calls ∨ ∃ verb, real.calls =
        start.calls ++ [⟨verb, dry.statement.sql.text, dry.statement.sql.params⟩]) := by
  intro dry real
  have hhooks : (callHooks kind.hooksBefore start).calls = start.calls :=
    (callHooks_untouched kind.hooksBefore start).calls
  generalize hh : callHooks kind.hooksBefore start = hooked at hhooks
  generalize hw : (if hooked.failed then hooked else hooked.modify (kind.written env)) = written
  have hwritten : written.calls = start.calls := by
    rw [← hw, ← hhooks]
    split <;> rfl
  -- what follows the executing step changes neither calls nor text
  have hdry : dry = callHooks (kind.hooksLater (written.withDryRun true).statement) (written.withDryRun true) := by
    show kind.steps env (start.withDryRun true) = _
    unfold StageKind.steps
    rw [Run.callHooks_withDryRun, hh, Run.executing_dry, hw]
  have hlater := callHooks_untouched (kind.hooksLater (written.withDryRun true).statement) (written.withDryRun true)
  have hreal : real.calls = (kind.executing.run env (hooked.withDryRun false)).calls := by
    show (kind.steps env (start.withDryRun false)).calls = _
    unfold StageKind.steps
    rw [Run.callHooks_withDryRun, hh]
    exact (callHooks_untouched _ _).calls
  refine ⟨?_, ?_, ?_⟩
  · rw [hdry, Run.callHooks_withDryRun]
    rfl
  · rw [hdry]
    exact hlater.calls.trans hwritten
  · rw [hreal, hdry, hlater.statement.sql, ← hhooks]
    rcases Run.executing_real env kind hooked with hnone | ⟨hf, hsent⟩
    · exact Or.inl hnone
    · refine Or.inr ⟨kind.verb (kind.written env hooked.statement), ?_⟩
      rw [hsent, ← hw, hf]
      rfl

/-- A dry run sends nothing. If the real run from the same state sends anything, it sends one
    thing, with the text and the parameters that the dry run leaves on the statement. -/
theorem dryRun_predicts [Record ρ] (env : Env) (records : List (Destination Row)) (kind : StageKind) (r : Run ρ)
    (hscopes : ∀ scope ∈ r.statement.scopes, Edit.IgnoreDryRun scope)
    (hmodifier : ∀ dest modify, (r.applyScopes env).statement.dest = some (.value dest) →
      Record.modifier dest = some modify → StatementView.IgnoreDryRun modify) :
    let st := (Database.openWith env records).stages kind
    let dry := st.execute env (r.withDryRun true)
    let real := st.execute env (r.withDryRun false)
    dry.calls = r.calls ∧
      (real.calls = r.calls ∨ ∃ verb, real.calls =
        r.calls ++ [⟨verb, dry.statement.sql.text, dry.statement.sql.params⟩]) := by
  intro st dry real
  have hdry : dry = _ := Database.opened_execute env records kind (r.withDryRun true)
  have hreal : real = _ := Database.opened_execute env records kind (r.withDryRun false)
  have hready : (st.ready env r).calls = r.calls := (Stage.ready_idle env st r).calls
  rw [Run.ready_withDryRun env _ r hscopes hmodifier] at hdry hreal
  have hrealcalls := (congrArg Run.calls hreal).trans (Run.conclude_idle env _ _).calls
  have hdrycalls := (congrArg Run.calls hdry).trans (Run.conclude_idle env _ _).calls
  cases hskip : env.config.skipDefaultSteps with
  | true =>
    have hnone : Database.openSteps env.config kind = [] := by rw [Database.openSteps, hskip]; rfl
    rw [hnone] at hdrycalls hrealcalls
    exact ⟨hdrycalls.trans hready, Or.inl (hrealcalls.trans hready)⟩
  | false =>
    rw [StageKind.openSteps_run hskip] at hdry hdrycalls hrealcalls
    obtain ⟨hflag, hnone, hsent⟩ := StageKind.steps_withDryRun env kind (st.ready env r)
    have hsql : dry.statement.sql = (kind.steps env ((st.ready env r).withDryRun true)).statement.sql := by
      rw [hdry, Run.conclude_statement]
      exact Run.cleared_sql hflag _
    rw [hsql, hdrycalls, hrealcalls, ← hready]
    exact ⟨hnone, hsent⟩

/-- An insert with a scope that looks at the statement and a destination that edits it: what the
    dry run leaves is what the real run sends. -/
theorem dryRun_predicts_insert :
    let env : Env := { now := ⟨1715000000, 0⟩ }
    let model : Model Row := { noteModel with modifier := some fun x _ => (x, [.addClause (.returning ["id"])]) }
    let note : Destination Row := .one model ⟨[("body", .text "hi"), ("id", .int 0)]⟩
    let scope : List Edit :=
      [.look fun v => if v.error.isNone then [.defer [.addClause (.insert "notes" (some "IGNORE"))]] else []]
    let r : Run (Destination Row) := { statement := { dest := some (.value note), scopes := [scope] } }
    let st := (Database.openWith env []).stages .create
    let dry := st.execute env (r.withDryRun true)
    (∀ scope ∈ r.statement.scopes, Edit.IgnoreDryRun scope) ∧
      (∀ dest modify, (r.applyScopes env).statement.dest = some (.value dest) →
        Record.modifier dest = some modify → StatementView.IgnoreDryRun modify) ∧
      dry.calls = [] ∧
      dry.statement.sql = ⟨"INSERT IGNORE INTO \"notes\" (\"body\") VALUES (?) RETURNING \"id\"", [.text "hi"]⟩ ∧
      (st.execute env (r.withDryRun false)).calls =
        [⟨.query, dry.statement.sql.text, dry.statement.sql.params⟩] := by
  intro env model note scope r st dry
  have hadd : ∀ c : Clause, Edit.IgnoreDryRun [.addClause c] := fun _ => .plain rfl (fun _ => by simp) .nil
  have hscopes : ∀ scope ∈ r.statement.scopes, Edit.IgnoreDryRun scope := by
    intro scope hscope
    rcases List.mem_singleton.mp hscope with rfl
    refine .look (fun _ _ => rfl) (fun v => ?_) .nil
    split
    · exact .defer (hadd _) .nil
    · exact .nil
  have happly : r.applyScopes env =
      { statement := { dest := some (.value note), clauses := ⟨[.insert "notes" (some "IGNORE")]⟩ } } := by
    cbv
  have hmodifier : ∀ dest modify, (r.applyScopes env).statement.dest = some (.value dest) →
      Record.modifier dest = some modify → StatementView.IgnoreDryRun modify := by
    intro dest modify hd hm
    rw [happly] at hd
    cases hd
    cases hm
    exact ⟨fun _ _ => rfl, fun _ => hadd _⟩
  have hready : st.ready env r =
      { statement :=
          { dest := some (.value note), model := some .alias, schema := some noteModel.schema, shape := .record,
            clauses := ⟨[.returning ["id"], .insert "notes" (some "IGNORE")]⟩,
            buildClauses := ["INSERT", "VALUES", "ON CONFLICT", "RETURNING"] } } := by
    show ((Database.openWith env []).stages .create).ready env r = _
    unfold Stage.ready Stage.adopts
    rw [happly, Database.opened_stage, Stage.called_clauses]
    rfl
  have hstart := Run.ready_withDryRun env st r hscopes hmodifier
  rw [hready] at hstart
  have hsql : dry.statement.sql =
      ⟨"INSERT IGNORE INTO \"notes\" (\"body\") VALUES (?) RETURNING \"id\"", [.text "hi"]⟩ := by
    rw [show dry = _ from Database.opened_execute env [] .create (r.withDryRun true), hstart, Run.conclude_statement,
      Run.cleared_sql (by cbv)]
    cbv
  have hsent : (st.execute env (r.withDryRun false)).calls =
      [⟨.query, dry.statement.sql.text, dry.statement.sql.params⟩] := by
    rw [hsql, show st.execute env (r.withDryRun false) = _ from
      Database.opened_execute env [] .create (r.withDryRun false), hstart, (Run.conclude_idle env _ _).calls]
    cbv
  exact ⟨hscopes, hmodifier, (dryRun_predicts env [] .create r hscopes hmodifier).1, hsql, hsent⟩

end SqlPipeline
