/-
  SqlPipeline.Proofs.Execution.Idle — what an execution does besides its steps.

  An execution gets the statement ready, runs the steps and concludes. Getting ready carries
  out edits, those of deferred scopes and of the destination. However many there are, no edit
  reaches the pool, calls a hook, runs a step or logs anything; the conclusion only logs.

  - `Follows`, `ready_follows`: what holds for every single edit holds for getting ready.
  - `ready_edited`: getting ready leaves nothing behind but the reports of edits.
  - `ready_idle`, `conclude_idle`: so whatever an execution sends, its steps send
    (`Idle.calls`).
  - `execute_stale`: a stage with nothing to run does none of it, and says so last.
-/

import SqlPipeline.Operation.Execution

namespace SqlPipeline

variable {ρ : Type}

/-- Whether the effect is the work of a step: its own report, a hook, or a call to the pool. -/
def Effect.isWork : Effect → Bool
  | .ran _ | .hooked _ _ | .called _ => true
  | _ => false

/-- Whether the effect is what an edit reports. -/
def Effect.isReport : Effect → Bool
  | .emitted _ | .probed _ | .taken _ | .fieldSet _ => true
  | _ => false

theorem Effect.isWork_of_isReport {e : Effect} (h : e.isReport = true) : e.isWork = false := by
  cases e <;> first | rfl | cases h

def Effect.call? : Effect → Option Pool.Call
  | .called c => some c
  | _ => none

/-- What reached the pool, in order. -/
def Run.calls (r : Run ρ) : List Pool.Call := r.effects.filterMap Effect.call?

/-- `r'` comes after `r` with no step at work in between. -/
structure Run.Idle (r r' : Run ρ) : Prop where
  pool : r'.pool = r.pool
  effects : ∃ new, r'.effects = r.effects ++ new ∧ ∀ e ∈ new, e.isWork = false

/-- `r'` comes after `r` with nothing in between but edits. -/
structure Run.Edited (r r' : Run ρ) : Prop where
  pool : r'.pool = r.pool
  effects : ∃ new, r'.effects = r.effects ++ new ∧ ∀ e ∈ new, e.isReport = true

namespace Run

theorem Idle.refl (r : Run ρ) : Idle r r := ⟨rfl, [], by simp, by simp⟩

theorem Idle.trans {r r' r'' : Run ρ} (h : Idle r r') (h' : Idle r' r'') : Idle r r'' := by
  obtain ⟨new, he, hn⟩ := h.effects
  obtain ⟨new', he', hn'⟩ := h'.effects
  refine ⟨h'.pool.trans h.pool, new ++ new', by rw [he', he, List.append_assoc], fun e hm => ?_⟩
  rcases List.mem_append.mp hm with hm | hm
  · exact hn e hm
  · exact hn' e hm

theorem Idle.calls {r r' : Run ρ} (h : Idle r r') : r'.calls = r.calls := by
  obtain ⟨new, he, hn⟩ := h.effects
  have hnone : new.filterMap Effect.call? = [] := by
    rw [List.filterMap_eq_nil_iff]
    intro e hm
    have := hn e hm
    cases e <;> first | rfl | simp [Effect.isWork] at this
  rw [Run.calls, he, List.filterMap_append, hnone, List.append_nil, Run.calls]

theorem idle_modify (f : Statement ρ → Statement ρ) (r : Run ρ) : Idle r (r.modify f) :=
  ⟨rfl, [], by simp [modify], by simp⟩

theorem idle_emit {effects : List Effect} (h : ∀ e ∈ effects, e.isWork = false) (r : Run ρ) :
    Idle r (r.emit effects) :=
  ⟨rfl, effects, rfl, h⟩

theorem Edited.idle {r r' : Run ρ} (h : Edited r r') : Idle r r' := by
  obtain ⟨new, he, hn⟩ := h.effects
  exact ⟨h.pool, new, he, fun e hm => Effect.isWork_of_isReport (hn e hm)⟩

/-! ## Concluding -/

/-- The statement as an execution leaves it: without its text, unless the run is dry, and
    without the clause names it adopted. -/
def cleared (adopted : Bool) (s : Statement ρ) : Statement ρ :=
  let s := if s.dryRun then s else { s with sql := {} }
  if adopted then { s with buildClauses := [] } else s

/-- What becomes of a run when its steps are through. -/
def conclude (env : Env) (adopted : Bool) (r : Run ρ) : Run ρ := (r.trace env).modify (cleared adopted)

theorem trace_idle (env : Env) (r : Run ρ) : Idle r (r.trace env) := by
  unfold trace
  split
  · refine idle_emit (fun e he => ?_) r
    obtain ⟨entry, -, rfl⟩ := List.mem_map.mp he
    rfl
  · exact Idle.refl r

theorem trace_statement (env : Env) (r : Run ρ) : (r.trace env).statement = r.statement := by
  unfold trace
  split <;> rfl

theorem conclude_eq (env : Env) (adopted : Bool) (r : Run ρ) :
    r.conclude env adopted =
      let r := r.trace env
      let r := if r.statement.dryRun then r else r.modify fun s => { s with sql := {} }
      if adopted then r.modify fun s => { s with buildClauses := [] } else r := by
  unfold conclude cleared modify
  cases adopted <;> cases h : (r.trace env).statement.dryRun <;> simp [h]

theorem conclude_idle (env : Env) (adopted : Bool) (r : Run ρ) : Idle r (r.conclude env adopted) :=
  (trace_idle env r).trans (idle_modify _ _)

theorem conclude_statement (env : Env) (adopted : Bool) (r : Run ρ) :
    (r.conclude env adopted).statement = cleared adopted r.statement := by
  rw [← trace_statement env r]
  rfl

theorem cleared_error (adopted : Bool) (s : Statement ρ) : (cleared adopted s).error = s.error := by
  unfold cleared
  cases adopted <;> cases s.dryRun <;> rfl

theorem cleared_clauses (adopted : Bool) (s : Statement ρ) : (cleared adopted s).clauses = s.clauses := by
  unfold cleared
  cases adopted <;> cases s.dryRun <;> rfl

/-! ## Edits -/

theorem Edited.trans {r r' r'' : Run ρ} (h : Edited r r') (h' : Edited r' r'') : Edited r r'' := by
  obtain ⟨new, he, hn⟩ := h.effects
  obtain ⟨new', he', hn'⟩ := h'.effects
  refine ⟨h'.pool.trans h.pool, new ++ new', by rw [he', he, List.append_assoc], fun e hm => ?_⟩
  rcases List.mem_append.mp hm with hm | hm
  · exact hn e hm
  · exact hn' e hm

/-- Only the statement changed. -/
theorem edited_of_eq {r r' : Run ρ} (hp : r'.pool = r.pool) (he : r'.effects = r.effects) : Edited r r' :=
  ⟨hp, [], by rw [he, List.append_nil], by simp⟩

theorem edited_modify (f : Statement ρ → Statement ρ) (r : Run ρ) : Edited r (r.modify f) := edited_of_eq rfl rfl

theorem Edited.refl (r : Run ρ) : Edited r r := edited_modify id r

theorem edited_emit {e : Effect} (h : e.isReport = true) (r : Run ρ) : Edited r (r.emit [e]) :=
  ⟨rfl, [e], rfl, by simpa using h⟩

variable [Record ρ]

theorem setField_edited (row : Nat) (column : String) (v : Value) (r : Run ρ) :
    Edited r (r.setField row column v) := by
  unfold setField
  split
  · exact edited_emit rfl r
  · exact (edited_modify _ r).trans (edited_emit rfl _)

theorem edit_edited (env : Env) {e : Edit} (h : e.isPlain = true) (r : Run ρ) : Edited r (r.edit env e) := by
  cases e with
  | look next => cases h
  | emit label => exact edited_emit rfl r
  | probe => exact edited_emit rfl r
  | takeError => exact (edited_modify _ r).trans (edited_emit rfl _)
  | setField row column v => exact setField_edited row column v r
  | _ => exact edited_of_eq rfl rfl

/-! ## Getting ready -/

/-- A relation between runs, step by step, that holds for every edit that neither looks nor queues
    and for whatever leaves the clauses alone. -/
structure Follows (env : Env) (R : Run ρ → Run ρ → Prop) : Prop where
  refl : ∀ r, R r r
  trans : ∀ {r r' r''}, R r r' → R r' r'' → R r r''
  edit : ∀ {e}, e.isPlain = true → ∀ r, R r (r.edit env e)
  modify : ∀ r f, (f r.statement).clauses = r.statement.clauses → R r (r.modify f)

theorem edited_follows (env : Env) : Follows (ρ := ρ) env Edited where
  refl := Edited.refl
  trans := Edited.trans
  edit := edit_edited env
  modify r f _ := edited_modify f r

theorem applyScopes_none (env : Env) {r : Run ρ} (h : r.statement.scopes = []) : r.applyScopes env = r := by
  rw [applyScopes, if_pos h]

theorem targets_clauses (s : Statement ρ) :
    s.normalizeTargets.readSchema.resolveDestination.clauses = s.clauses := by
  have hset : ∀ (s : Statement ρ) d, (s.setDestination d).clauses = s.clauses := by
    intro s d
    unfold Statement.setDestination
    split <;> rfl
  have hresolved : ∀ s : Statement ρ, s.resolveDestination.clauses = s.clauses := by
    intro s
    unfold Statement.resolveDestination
    split
    · rfl
    · dsimp only
      split <;> exact hset s _
  have hread : ∀ s : Statement ρ, s.readSchema.clauses = s.clauses := by
    intro s
    unfold Statement.readSchema
    split
    · rfl
    · rfl
    · split <;> rfl
    · rfl
  rw [hresolved, hread]
  unfold Statement.normalizeTargets
  split <;> rfl

namespace Follows

variable {env : Env} {R : Run ρ → Run ρ → Prop} (h : Follows env R)

include h

theorem edits (es : List Edit) (r : Run ρ) : R r (r.edits env es) := by
  induction es using Edit.induct generalizing r with
  | nil => exact h.refl r
  | look next es hnext ih => exact h.trans (hnext r.statement.view r) (ih _)
  | defer scope es _ ih => exact h.trans (h.modify r (·.defer scope) rfl) (ih _)
  | plain e es hplain ih => exact h.trans (h.edit hplain r) (ih _)

theorem batch (scopes : List (List Edit)) (r : Run ρ) : R r (r.applyBatch env scopes) := by
  induction scopes generalizing r with
  | nil => exact h.refl r
  | cons scope scopes ih => exact h.trans (h.edits scope r) (ih (r.edits env scope))

theorem scopes (r : Run ρ) : R r (r.applyScopes env) := by
  fun_induction applyScopes env r with
  | case1 r hnone => exact h.refl r
  | case2 r hsome ih => exact h.trans (h.trans (h.modify r _ rfl) (h.batch r.statement.scopes _)) ih

theorem modifiedBy (modify : StatementView → ρ × List Edit) (r : Run ρ) : R r (r.modifiedBy env modify) := by
  unfold Run.modifiedBy
  exact h.trans (h.trans (h.modify r _ rfl) (h.edits _ _)) (h.modify _ _ rfl)

theorem modifier (r : Run ρ) : R r (r.applyModifier env) := by
  unfold applyModifier
  split
  · next dest _ =>
    cases Record.modifier dest with
    | none => exact h.refl r
    | some modify => exact h.modifiedBy modify r
  · exact h.refl r

theorem prepare (r : Run ρ) : R r (r.prepare env) :=
  h.trans (h.modifier r) (h.modify _ _ (targets_clauses _))

end Follows

end Run

/-! ## The whole -/

namespace Stage

variable [Record ρ]

/-- Whether the statement takes the clause names of the stage, having none. -/
def adopts (env : Env) (r : Run ρ) : Bool := (r.applyScopes env).statement.buildClauses.isEmpty

/-- The run as the steps of the stage find it. -/
def ready (env : Env) (st : Stage Action) (r : Run ρ) : Run ρ :=
  (if adopts env r then (r.applyScopes env).modify fun s => { s with buildClauses := st.clauses }
    else r.applyScopes env).prepare env

/-- The steps of the stage on a run that is ready. -/
def work (env : Env) (st : Stage Action) (r : Run ρ) : Run ρ :=
  match st.compiled with
  | some compiled => r.runSteps env compiled.steps
  | none => r.addError (.stale st.kind)

theorem execute_eq (env : Env) (st : Stage Action) (r : Run ρ) :
    st.execute env r = (st.work env (st.ready env r)).conclude env (adopts env r) := by
  rw [Run.conclude_eq]
  rfl

theorem ready_follows {env : Env} {R : Run ρ → Run ρ → Prop} (h : Run.Follows env R) (st : Stage Action) (r : Run ρ) :
    R r (st.ready env r) := by
  unfold ready
  refine h.trans (h.scopes r) ?_
  split
  · exact h.trans (h.modify _ _ rfl) (h.prepare _)
  · exact h.prepare _

theorem ready_edited (env : Env) (st : Stage Action) (r : Run ρ) : Run.Edited r (st.ready env r) :=
  st.ready_follows (Run.edited_follows env) r

theorem ready_idle (env : Env) (st : Stage Action) (r : Run ρ) : Run.Idle r (st.ready env r) :=
  (ready_edited env st r).idle

/-- A stale stage runs no step. The statement is as it was found, but for an error that says
    so after all others. -/
theorem execute_stale {st : Stage Action} (h : st.compiled = none) (env : Env) (r : Run ρ) :
    st.execute env r = ((st.ready env r).addError (.stale st.kind)).conclude env (adopts env r) ∧
      Run.Idle r (st.execute env r) ∧
      (st.execute env r).statement.error = some ((Error.stale st.kind).added (st.ready env r).statement.error) := by
  have hexec : st.execute env r = ((st.ready env r).addError (.stale st.kind)).conclude env (adopts env r) := by
    rw [execute_eq, work, h]
  refine ⟨hexec, ?_, ?_⟩
  · rw [hexec]
    exact ((ready_idle env st r).trans (Run.idle_modify _ _)).trans (Run.conclude_idle env _ _)
  · rw [hexec, Run.conclude_statement, Run.cleared_error]
    rfl

end Stage

end SqlPipeline
