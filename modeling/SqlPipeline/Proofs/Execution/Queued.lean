/-
  SqlPipeline.Proofs.Execution.Queued — deferred edits, in the order they were queued.

  Pending scopes are carried out in batches, and while they are they look at the statement and
  queue more. What is pending cannot be looked at, and edits take nothing from it. So it makes no
  difference to what a scope does how the rest is kept: a scope is deferred work on a run that is
  kept apart from its queue, and what holds of such work holds of scopes.

  - `edits_ahead`: what is pending in front stays there and changes nothing else.
  - `deferral`, `edits_resume`: scopes as deferred work.
  - `turn_resume`, `applyScopes_resume`: a turn and the batches are those of deferred work.
  - `fifo_applied`: so scopes are carried out in the order of that work.
  - `scopes_first_in_first_out`: for functions and for edits, and what an execution does afterwards.
-/

import Mathlib
import SqlPipeline.Proofs.Execution.Deferred
import SqlPipeline.Proofs.Execution.Idle

namespace SqlPipeline

namespace Run

variable {ρ : Type}

/-- The run with other scopes pending. -/
def withScopes (scopes : List (List Edit)) (r : Run ρ) : Run ρ := r.modify fun s => { s with scopes }

/-- The run with more scopes pending, in front of the others. -/
def ahead (queue : List (List Edit)) (r : Run ρ) : Run ρ := r.withScopes (queue ++ r.statement.scopes)

variable [Record ρ]

/-! ## What is pending makes no difference -/

theorem setField_withScopes (scopes : List (List Edit)) (row : Nat) (column : String) (v : Value) (r : Run ρ) :
    (r.withScopes scopes).setField row column v = (r.setField row column v).withScopes scopes := by
  have hdest : (r.withScopes scopes).statement.destination? = r.statement.destination? := rfl
  unfold setField
  rw [hdest]
  cases r.statement.destination? with
  | none => rfl
  | some dest =>
    dsimp only
    have hset : ∀ x, Statement.setDestination { r.statement with scopes } x =
        { r.statement.setDestination x with scopes } := by
      intro x
      unfold Statement.setDestination
      dsimp only
      split <;> rfl
    simp only [withScopes, modify, emit, hset]

theorem edit_ahead (env : Env) (queue : List (List Edit)) {e : Edit} (h : e.isPlain = true) (r : Run ρ) :
    (r.ahead queue).edit env e = (r.edit env e).ahead queue := by
  cases e with
  | setField row column v =>
    have hscopes : (r.setField row column v).statement.scopes = r.statement.scopes := edit_scopes env r h
    show (r.ahead queue).setField row column v = (r.setField row column v).ahead queue
    rw [ahead, setField_withScopes, ahead, hscopes]
  | look next => cases h
  | defer scope => cases h
  | _ => rfl

theorem edits_ahead (env : Env) (queue : List (List Edit)) (es : List Edit) (r : Run ρ) :
    (r.ahead queue).edits env es = (r.edits env es).ahead queue := by
  induction es using Edit.induct generalizing r with
  | nil => rfl
  | look next es hnext ih =>
    show ((r.ahead queue).edits env (next r.statement.view)).edits env es = _
    rw [hnext]
    exact ih _
  | defer scope es _ ih =>
    have hdefer : (r.ahead queue).modify (·.defer scope) = (r.modify (·.defer scope)).ahead queue :=
      congrArg (r.withScopes ·) (List.append_assoc queue r.statement.scopes [scope])
    show ((r.ahead queue).modify (·.defer scope)).edits env es = _
    rw [hdefer]
    exact ih _
  | plain e es hplain ih =>
    show ((r.ahead queue).edit env e).edits env es = _
    rw [edit_ahead env queue hplain]
    exact ih _

/-! ## Scopes as deferred work -/

/-- A scope does its work on a run with nothing pending, and hands over what it queued. -/
def deferral (env : Env) : Deferral (List Edit) (Run ρ) where
  run scope r :=
    let done := (r.withScopes []).edits env scope
    (done.withScopes [], done.statement.scopes)
  ends := by
    refine Subrelation.wf (fun {queued scope} ⟨r, hqueued⟩ => ?_) Edit.within_wellFounded
    exact (edits_scopes env scope (r.withScopes []) queued hqueued).resolve_left nofun

/-- The run and what is pending, put together. -/
def resume (p : Run ρ × List (List Edit)) : Run ρ := p.1.withScopes p.2

theorem edits_resume (env : Env) (scope : List Edit) (r : Run ρ) (queue : List (List Edit)) :
    (resume (r, queue)).edits env scope =
      resume (((deferral env).run scope r).1, queue ++ ((deferral env).run scope r).2) := by
  have hahead : resume (r, queue) = (r.withScopes []).ahead queue :=
    congrArg (r.withScopes ·) (List.append_nil queue).symm
  rw [hahead, edits_ahead]
  rfl

theorem applyBatch_resume (env : Env) (batch : List (List Edit)) (r : Run ρ) (queue : List (List Edit)) :
    (resume (r, queue)).applyBatch env batch =
      resume (((deferral env).batch batch r).1, queue ++ ((deferral env).batch batch r).2) := by
  induction batch generalizing r queue with
  | nil => exact congrArg (r.withScopes ·) (List.append_nil queue).symm
  | cons scope batch ih =>
    show ((resume (r, queue)).edits env scope).applyBatch env batch = _
    rw [edits_resume, ih, Deferral.batch_cons, List.append_assoc]

/-- One turn of the queue: its oldest scope leaves it and is carried out. -/
def turn (env : Env) (r : Run ρ) : Run ρ :=
  match r.statement.scopes with
  | [] => r
  | scope :: queue => (r.withScopes queue).edits env scope

theorem turn_resume (env : Env) : Function.Semiconj resume (deferral (ρ := ρ) env).turn (turn env) := by
  rintro ⟨r, _ | ⟨scope, queue⟩⟩
  · rfl
  · exact (edits_resume env scope r queue).symm

theorem applyScopes_resume (env : Env) (p : Run ρ × List (List Edit)) :
    (resume p).applyScopes env = resume ((deferral env).drain p) := by
  fun_induction Deferral.drain (deferral env) p with
  | case1 p hnone => rw [applyScopes, if_pos (show (resume p).statement.scopes = [] from hnone)]
  | case2 p hsome ih =>
    rw [applyScopes, if_neg (show (resume p).statement.scopes ≠ [] from hsome), ← ih]
    exact congrArg (applyScopes env) (applyBatch_resume env p.2 p.1 [])

/-! ## First in, first out -/

/-- `order` is the order in which the scopes of a run are carried out, first in, first out. -/
structure Fifo (env : Env) (r : Run ρ) (order : List (List Edit)) : Prop where
  /-- Carried out in this order, each once, they queue what comes behind those pending. -/
  queued : (r.applyBatch env order).statement.scopes = order
  unique : ∀ other, (r.applyBatch env other).statement.scopes = other → other = order
  /-- The batches carry out all of them and leave nothing pending. -/
  applied : r.applyScopes env = (r.applyBatch env order).withScopes []
  /-- A turn at a time: those whose turn it was are carried out, the others are pending. -/
  turns : ∀ n,
    let done := r.applyBatch env (order.take n)
    (turn env)^[n] r = done.withScopes (done.statement.scopes.drop n)
  /-- Nothing is pending as soon as all had their turn, and not before. -/
  ends : ∀ n, ((turn env)^[n] r).statement.scopes = [] ↔ order.length ≤ n
  /-- Then the turns have come to what the batches come to. -/
  agree : (turn env)^[order.length] r = r.applyScopes env

theorem fifo_applied (env : Env) (r : Run ρ) :
    r.Fifo env ((deferral env).order r r.statement.scopes) := by
  obtain ⟨hqueued, hunique, hdrained, hturns, hends, hagree⟩ := (deferral env).fifo_order r r.statement.scopes
  have hbatch : ∀ batch, r.applyBatch env batch =
      ((deferral env).batch batch r).1.withScopes (r.statement.scopes ++ ((deferral env).batch batch r).2) :=
    fun batch => applyBatch_resume env batch r r.statement.scopes
  have hbatches : r.applyScopes env = resume ((deferral env).drain (r, r.statement.scopes)) :=
    applyScopes_resume env (r, r.statement.scopes)
  have hturn : ∀ n, (turn env)^[n] r = resume ((deferral env).turn^[n] (r, r.statement.scopes)) :=
    fun n => ((turn_resume env).iterate_right n (r, r.statement.scopes)).symm
  refine ⟨?_, fun other hother => hunique other ?_, ?_, fun n => ?_, fun n => ?_, ?_⟩
  · rw [hbatch]
    exact hqueued
  · rw [hbatch] at hother
    exact hother
  · rw [hbatches, hdrained, hbatch]
    rfl
  · rw [hturn, hturns, hbatch]
    rfl
  · rw [hturn]
    exact hends n
  · rw [hturn, hbatches, hagree]

/-- Scopes are carried out first in, first out, in batches as well as a turn at a time. That holds
    of any functions that hand over what they queue, and of the scopes of a run. Only when none of
    them is pending does an execution look for clause names, get the statement ready and come to
    its steps. -/
theorem scopes_first_in_first_out :
    (∀ (σ : Type) (x : σ) (queue : List (Scope σ)), ∃ order, Scope.deferral.Fifo x queue order) ∧
      ∀ (ρ : Type) [Record ρ] (env : Env) (st : Stage Action) (r : Run ρ), ∃ order,
        r.Fifo env order ∧
          (let done := (r.applyBatch env order).withScopes []
          let adopts := done.statement.buildClauses.isEmpty
          let named := if adopts then done.modify fun s => { s with buildClauses := st.clauses } else done
          st.execute env r = (st.work env (named.prepare env)).conclude env adopts) := by
  refine ⟨fun σ x queue => ⟨_, Scope.deferral.fifo_order x queue⟩, fun ρ _ env st r => ⟨_, fifo_applied env r, ?_⟩⟩
  rw [← (fifo_applied env r).applied]
  exact Stage.execute_eq env st r

/-- What a scope queues may depend on those before it. Here the third looks at the error that the
    second has left, and what it then queues waits for those that the first two queued. -/
example :
    let env : Env := { now := ⟨0, 0⟩ }
    let third : List Edit := [.look fun v => if v.error.isSome then [.defer [.emit "failed"]] else []]
    let scopes : List (List Edit) :=
      [[.defer [.emit "first"]], [.addError .recordNotFound, .defer [.emit "second"]], third]
    let r : Run ρ := { statement := { scopes } }
    (r.applyScopes env).effects = [.emitted "first", .emitted "second", .emitted "failed"] := by
  cbv

end Run

end SqlPipeline
