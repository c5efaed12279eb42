/-
  SqlPipeline.Proofs.Execution.Sending — what the built-in steps of a stage do, stage by stage.

  Every stage has one step that talks to the pool, with hooks before and after it. That step
  first writes the statement (`StageKind.written`). Unless this fails, the run is dry or there
  is nothing to send, it then hands the text to the pool, once, and takes the answer
  (`StageKind.deliver`).

  - `executing_run`, `executing_went`: the step of a stage is these two moves, behind their
    guards.
  - `openSteps_run`: the built-in steps of a stage are its hooks around that step.
-/

import SqlPipeline.Proofs.Execution.Untouched
import SqlPipeline.Proofs.Registry.Opened

namespace SqlPipeline

open Operation

/-! ## Answers of the pool -/

inductive Pool.Response where
  | refused (e : Error)
  /-- Rows affected, and the id generated, if the database reports one. -/
  | counted (affected : Nat) (id : Option Int)
  | returned (rows : Rows)

/-- The pool after a call, and its answer. -/
def Pool.respond (p : Pool) : Verb → Pool × Response
  | .exec =>
    match p.exec with
    | .ok (affected, id) => (p, .counted affected id)
    | .error e => (p, .refused e)
  | .query =>
    match p.query with
    | (p, .ok rows) => (p, .returned rows)
    | (p, .error e) => (p, .refused e)

namespace StageKind

/-- The step of the stage that talks to the pool. -/
def executing : StageKind → BuiltIn
  | .create => .create
  | .query => .query
  | .update => .update
  | .delete => .delete
  | .row => .row
  | .raw => .raw

def hooksBefore : StageKind → List Hook
  | .create => [.beforeSave, .beforeCreate]
  | .update => [.beforeSave, .beforeUpdate]
  | .delete => [.beforeDelete]
  | _ => []

def hooksAfter : StageKind → List Hook
  | .create => [.afterCreate, .afterSave]
  | .query => [.afterFind]
  | .update => [.afterUpdate, .afterSave]
  | .delete => [.afterDelete]
  | _ => []

variable {ρ : Type} [Record ρ]

/-! ## The executing step -/

/-- The statement as the executing step would send it. -/
def written (env : Env) (kind : StageKind) (s : Statement ρ) : Statement ρ :=
  if s.hasText then s
  else
    match kind with
    | .create => prepareInsert env s
    | .query | .row => prepareQuery env s
    | .update => (prepareUpdate env s).1
    | .delete => prepareDelete env s
    | .raw => s

/-- Whether there is anything to send. Only an update may have nothing to set. -/
def hasWork (env : Env) (kind : StageKind) (s : Statement ρ) : Bool :=
  match kind with
  | .update => s.hasText || (prepareUpdate env s).2
  | _ => true

/-- An insert asks for rows when it returns any. -/
def verb (kind : StageKind) (s : Statement ρ) : Pool.Verb :=
  match kind with
  | .create => if (s.clause? "RETURNING").isSome && s.writes "RETURNING" then .query else .exec
  | .query | .row => .query
  | .update | .delete | .raw => .exec

/-- The statement once the answer is taken. -/
def taken (env : Env) (kind : StageKind) (s : Statement ρ) : Pool.Response → Statement ρ
  | .refused e => s.addError e
  | .counted affected id =>
    match kind with
    | .create => takeInserted env affected id s
    | _ => { s with rowsAffected := affected }
  | .returned rows =>
    match kind with
    | .create => takeReturned rows s
    | .row => keepRows rows s
    | _ => loadRows rows s

/-- The call by which a statement is sent. -/
def call (kind : StageKind) (s : Statement ρ) : Pool.Call := ⟨kind.verb s, s.sql.text, s.sql.params⟩

/-- Hands the text to the pool and takes the answer. -/
def deliver (env : Env) (kind : StageKind) (r : Run ρ) : Run ρ :=
  let answer := r.pool.respond (kind.verb r.statement)
  { statement := kind.taken env r.statement answer.2
    pool := answer.1
    effects := r.effects ++ [.called (kind.call r.statement)] }

theorem deliver_calls (env : Env) (kind : StageKind) (r : Run ρ) :
    (kind.deliver env r).calls = r.calls ++ [kind.call r.statement] := by
  show List.filterMap _ (r.effects ++ [Effect.called _]) = _
  rw [List.filterMap_append]
  rfl

theorem send_eq (env : Env) {kind : StageKind} (h : kind = .update ∨ kind = .delete ∨ kind = .raw) (r : Run ρ) :
    send r = if r.statement.dryRun || r.failed then r else kind.deliver env r := by
  unfold send
  split
  · rfl
  · rcases h with rfl | rfl | rfl <;>
      simp only [deliver, verb, call, Pool.respond, Run.exec] <;>
      cases r.pool.exec <;> rfl

theorem sendInsert_eq (env : Env) (r : Run ρ) : sendInsert env r = StageKind.create.deliver env r := by
  unfold sendInsert
  cases hv : ((r.statement.clause? "RETURNING").isSome && r.statement.writes "RETURNING") with
  | true =>
    simp only [deliver, verb, call, hv, Pool.respond, Run.query, if_true]
    rcases r.pool.query with ⟨pool, e | rows⟩ <;> rfl
  | false =>
    simp only [deliver, verb, call, hv, Pool.respond, Run.exec, Bool.false_eq_true, if_false]
    cases r.pool.exec <;> rfl

/-- A query step; `take` is what the stage does with the rows. -/
theorem queryWith_eq (env : Env) (kind : StageKind) (take : Rows → Statement ρ → Statement ρ)
    (hverb : ∀ s : Statement ρ, kind.verb s = .query)
    (htaken : ∀ s rows, kind.taken env s (.returned rows) = take rows s) (r : Run ρ) :
    queryWith env take r =
      if r.failed then r
      else
        let r' := r.modify (prepareQuery env)
        if r'.statement.dryRun || r'.failed then r' else kind.deliver env r' := by
  unfold queryWith
  split
  · rfl
  · dsimp only
    split
    · rfl
    · simp only [deliver, call, hverb, Pool.respond, Run.query]
      rcases (r.modify (prepareQuery env)).pool.query with ⟨pool, e | rows⟩
      · rfl
      · simp only [htaken]
        rfl

theorem written_query (env : Env) {kind : StageKind} (h : kind = .query ∨ kind = .row) :
    kind.written env = prepareQuery (ρ := ρ) env := by
  funext s
  unfold written prepareQuery
  rcases h with rfl | rfl <;> cases s.hasText <;> rfl

theorem modify_written (env : Env) (kind : StageKind) (r : Run ρ) :
    r.modify (kind.written env) =
      if r.statement.hasText then r else r.modify (kind.written env) := by
  cases ht : r.statement.hasText with
  | true => simp [Run.modify, written, ht]
  | false => rfl

/-- The executing step on a run: nothing on a failed one; else the statement is written, and
    then sent, unless the run is dry, writing failed, or there is nothing to send. -/
theorem executing_run (env : Env) (kind : StageKind) (r : Run ρ) :
    kind.executing.run env r =
      if r.failed then r
      else
        let r' := r.modify (kind.written env)
        if r'.statement.dryRun || r'.failed || !kind.hasWork env r.statement then r' else kind.deliver env r' := by
  rw [modify_written env kind r]
  cases kind with
  | create =>
    simp only [executing, BuiltIn.run, Operation.create, hasWork, sendInsert_eq]
    by_cases ht : r.statement.hasText = true <;> simp [Run.modify, written, ht]
  | query =>
    rw [← modify_written, written_query env (Or.inl rfl)]
    exact (queryWith_eq env .query loadRows (fun _ => rfl) (fun _ _ => rfl) r).trans (by simp [hasWork])
  | row =>
    rw [← modify_written, written_query env (Or.inr rfl)]
    exact (queryWith_eq env .row keepRows (fun _ => rfl) (fun _ _ => rfl) r).trans (by simp [hasWork])
  | update =>
    simp only [executing, BuiltIn.run, Operation.update, hasWork, send_eq env (Or.inl rfl)]
    by_cases ht : r.statement.hasText = true
    · simp [ht]
    · by_cases hset : (prepareUpdate env r.statement).2 = true <;> simp [Run.modify, written, ht, hset]
  | delete =>
    simp only [executing, BuiltIn.run, Operation.delete, hasWork, send_eq env (Or.inr (Or.inl rfl))]
    by_cases ht : r.statement.hasText = true <;> simp [Run.modify, written, ht]
  | raw =>
    simp only [executing, BuiltIn.run, Operation.raw, hasWork, send_eq env (Or.inr (Or.inr rfl))]
    by_cases ht : r.statement.hasText = true <;> simp [Run.modify, written, ht]

/-- What is written soundly on a live run, and has work, is sent. -/
theorem executing_delivered (env : Env) (kind : StageKind) {r : Run ρ} (hfree : r.failed = false) :
    let written := kind.written env r.statement
    written.dryRun = false → written.failed = false → kind.hasWork env r.statement = true →
      kind.executing.run env r = kind.deliver env { r with statement := written } := by
  intro written hlive hsound hwork
  have hgo : (written.dryRun || written.failed || !kind.hasWork env r.statement) = false := by
    rw [hlive, hsound, hwork]
    rfl
  rw [executing_run, if_neg (by simp [hfree])]
  exact if_neg fun h => Bool.false_ne_true (hgo.symm.trans h)

/-- How the executing step goes from `r` to `r'`, and what it sends. -/
inductive Went (env : Env) (kind : StageKind) (r r' : Run ρ) : Option Pool.Call → Prop
  | idle (failed : r.failed = true) (same : r' = r) : Went env kind r r' none
  | written (free : r.failed = false)
    (why : (kind.written env r.statement).dryRun = true ∨ (kind.written env r.statement).failed = true ∨
      kind.hasWork env r.statement = false)
    (same : r' = r.modify (kind.written env)) : Went env kind r r' none
  | sent (free : r.failed = false) (live : (kind.written env r.statement).dryRun = false)
    (sound : (kind.written env r.statement).failed = false) (work : kind.hasWork env r.statement = true)
    (same : r' = kind.deliver env (r.modify (kind.written env))) :
    Went env kind r r' (some (kind.call (kind.written env r.statement)))

theorem executing_went (env : Env) (kind : StageKind) (r : Run ρ) :
    ∃ call, Went env kind r (kind.executing.run env r) call := by
  have hrun := executing_run env kind r
  cases hf : r.failed with
  | true => exact ⟨none, .idle hf (hrun.trans (if_pos hf))⟩
  | false =>
    rw [if_neg (by rw [hf]; exact Bool.false_ne_true)] at hrun
    dsimp only at hrun
    split at hrun
    · next hstop =>
      simp only [Bool.or_eq_true, Bool.not_eq_true', or_assoc] at hstop
      exact ⟨none, .written hf hstop hrun⟩
    · next hgo =>
      simp only [Bool.or_eq_true, not_or, Bool.not_eq_true, Bool.not_eq_true', Bool.not_eq_false] at hgo
      exact ⟨_, .sent hf hgo.1.1 hgo.1.2 hgo.2 hrun⟩

theorem Went.effects {env : Env} {kind : StageKind} {r r' : Run ρ} {call : Option Pool.Call}
    (h : Went env kind r r' call) : r'.effects = r.effects ++ call.toList.map .called := by
  cases h with
  | idle _ same => rw [same]; exact (List.append_nil _).symm
  | written _ _ same => rw [same]; exact (List.append_nil _).symm
  | sent _ _ _ _ same => rw [same]; rfl

theorem Went.calls {env : Env} {kind : StageKind} {r r' : Run ρ} {call : Option Pool.Call}
    (h : Went env kind r r' call) : r'.calls = r.calls ++ call.toList := by
  rw [Run.calls, h.effects, List.filterMap_append]
  cases call <;> rfl

/-! ## The stage -/

/-- The hooks that follow: after a query only if it found something. -/
def hooksLater (kind : StageKind) (s : Statement ρ) : List Hook :=
  if kind = .query ∧ s.rowsAffected = 0 then [] else kind.hooksAfter

theorem callHooks_nil (r : Run ρ) : callHooks [] r = r := by
  unfold callHooks
  split
  · rfl
  · split
    · rfl
    · next dest hdest =>
      have hself : r.statement.setDestination dest = r.statement := Statement.setDestination_self hdest
      simp only [runHooks, List.foldl_nil, Run.modify, hself, List.map_nil, Run.emit, List.append_nil]

/-- No hook of a run that failed is called. -/
theorem callHooks_failed (hooks : List Hook) {r : Run ρ} (h : r.failed = true) : callHooks hooks r = r := by
  unfold callHooks
  rw [h]
  rfl

/-- The run once the hooks before are through. -/
def hooked (kind : StageKind) (start : Run ρ) : Run ρ := callHooks kind.hooksBefore start

/-- The built-in steps of a stage: hooks, the executing step, hooks. -/
def steps (env : Env) (kind : StageKind) (r : Run ρ) : Run ρ :=
  let r' := kind.executing.run env (callHooks kind.hooksBefore r)
  callHooks (kind.hooksLater r'.statement) r'

theorem openSteps_run {config : Config} (h : config.skipDefaultSteps = false) (env : Env) (kind : StageKind)
    (r : Run ρ) : (Database.openSteps config kind).foldl (BuiltIn.run env) r = kind.steps env r := by
  unfold Database.openSteps steps
  rw [h]
  cases kind with
  | query =>
    simp only [hooksBefore, callHooks_nil, hooksLater, true_and]
    show afterQuery (BuiltIn.query.run env r) = _
    unfold afterQuery
    by_cases hn : (BuiltIn.query.run env r).statement.rowsAffected = 0
    · simp [hn, executing, callHooks_nil]
    · simp [hn, executing, Nat.pos_of_ne_zero hn, hooksAfter]
  | row | raw => simp [hooksBefore, hooksLater, hooksAfter, callHooks_nil, BuiltIn.ofStage, executing]
  | _ => rfl

/-- An execution is the hooks around the executing step, and its conclusion. -/
theorem opened_done {env : Env} (h : env.config.skipDefaultSteps = false) (records : List (Destination Row))
    (kind : StageKind) (r : Run ρ) :
    let st := (Database.openWith env records).stages kind
    let executed := kind.executing.run env (kind.hooked (st.ready env r))
    st.execute env r =
      (callHooks (kind.hooksLater executed.statement) executed).conclude env (Stage.adopts env r) := by
  intro st executed
  rw [show st.execute env r = _ from Database.opened_execute env records kind r, openSteps_run h]
  rfl

/-- Around the executing step nothing is sent, and after it no clause is touched. -/
theorem opened_sends {env : Env} (h : env.config.skipDefaultSteps = false) (records : List (Destination Row))
    (kind : StageKind) (r : Run ρ) :
    let st := (Database.openWith env records).stages kind
    let start := kind.hooked (st.ready env r)
    let executed := kind.executing.run env start
    start.calls = r.calls ∧ (st.execute env r).calls = executed.calls ∧
      (st.execute env r).statement.clauses = executed.statement.clauses := by
  intro st start executed
  have hbefore : start.calls = (st.ready env r).calls := (callHooks_untouched kind.hooksBefore (st.ready env r)).calls
  have hafter := callHooks_untouched (kind.hooksLater executed.statement) executed
  rw [show st.execute env r = _ from opened_done h records kind r]
  refine ⟨hbefore.trans (Stage.ready_idle env st r).calls, ?_, ?_⟩
  · exact (Run.conclude_idle env _ _).calls.trans hafter.calls
  · rw [Run.conclude_statement, Run.cleared_clauses, hafter.statement.clauses]

end StageKind

end SqlPipeline
