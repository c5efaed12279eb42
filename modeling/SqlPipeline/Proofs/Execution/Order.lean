/-
  SqlPipeline.Proofs.Execution.Order — in which order an execution calls hooks and the pool.

  Steps work together only through the error of the statement. Hooks are not called on a
  failed one, nothing is written or sent for it, and what goes wrong on the way is recorded
  before the next step looks.

  - `callHooks_series`: hooks are passed over as a whole, or all of them are attempted.
  - `steps_orderly`: the built-in steps of a stage; hooks, one call at most, hooks again, and
    when there is none of them.
  - `execution_orderly`: the same over a whole execution.

  The hook after a query looks at the rows affected, which a query sets when it is answered.
  In a dry run there is no answer: `afterFind_unanswered`.
-/

import Mathlib
import SqlPipeline.Proofs.Execution.Steady
import SqlPipeline.Proofs.Hooks.Visits
import SqlPipeline.Proofs.Outcome.Leaves

namespace SqlPipeline

open Operation

/-! ## Hook calls and pool calls -/

/-- Whether a hook or the pool is called. -/
def Effect.isAct : Effect → Bool
  | .hooked _ _ | .called _ => true
  | _ => false

/-- The hook calls and pool calls of one execution. -/
structure Course where
  before : List (Hook × Nat) := []
  call : Option Pool.Call := none
  after : List (Hook × Nat) := []

def visitEffects (visited : List (Hook × Nat)) : List Effect := visited.map fun v => .hooked v.1 v.2

/-- In the order they are made. -/
def Course.acts (c : Course) : List Effect :=
  visitEffects c.before ++ c.call.toList.map .called ++ visitEffects c.after

namespace Run

variable {ρ : Type}

/-- The hook calls and pool calls so far, in order. -/
def acts (r : Run ρ) : List Effect := r.effects.filter Effect.isAct

theorem acts_append {r r' : Run ρ} {new : List Effect} (h : r'.effects = r.effects ++ new) :
    r'.acts = r.acts ++ new.filter Effect.isAct := by
  rw [acts, h, List.filter_append, acts]

theorem Idle.acts {r r' : Run ρ} (h : Idle r r') : r'.acts = r.acts := by
  obtain ⟨new, he, hn⟩ := h.effects
  have hnone : new.filter Effect.isAct = [] := by
    rw [List.filter_eq_nil_iff]
    intro e hm
    have := hn e hm
    cases e <;> simp_all [Effect.isWork, Effect.isAct]
  rw [acts_append he, hnone, List.append_nil]

end Run

theorem Course.filter_acts (c : Course) : c.acts.filter Effect.isAct = c.acts := by
  rw [List.filter_eq_self]
  intro e he
  simp only [acts, visitEffects, List.mem_append, List.mem_map] at he
  rcases he with (⟨v, -, rfl⟩ | ⟨call, -, rfl⟩) | ⟨v, -, rfl⟩ <;> rfl

/-! ## Hooks -/

variable {μ : Type}

/-- What becomes of a series of hooks on a statement: the rows visited, and the single errors
    the statement has met when it is over. -/
inductive Series (hooks : List Hook) (s : Statement (Destination μ)) : List (Hook × Nat) → List Error → Prop
  | passed (h : s.failed = true ∨ s.skipHooks = true ∨ s.schema = none ∨ s.destination? = none) :
    Series hooks s [] s.leaves
  /-- Each hook visits the rows up to its first failure, whatever the others do. -/
  | attempted {d : Destination μ} (free : s.failed = false) (hooked : s.skipHooks = false)
    (dest : s.destination? = some d) :
    Series hooks s ((d.attempts hooks).flatMap fun a => (a.2.visits a.1).map (a.1, ·))
      (Error.leavesOf ((d.attempts hooks).filterMap fun a => a.2.failure? a.1))

namespace Series

variable {hooks : List Hook} {s : Statement (Destination μ)} {visited : List (Hook × Nat)} {leaves : List Error}

theorem hooks_mem (h : Series hooks s visited leaves) : ∀ v ∈ visited, v.1 ∈ hooks := by
  cases h with
  | passed => simp
  | @attempted d =>
    intro v hv
    obtain ⟨a, ha, hv⟩ := List.mem_flatMap.mp hv
    obtain ⟨row, -, rfl⟩ := List.mem_map.mp hv
    rw [← d.attempts_hooks hooks]
    exact List.mem_map_of_mem ha

theorem nil_of_failed (h : Series hooks s visited leaves) (hf : s.failed = true) :
    visited = [] ∧ leaves = s.leaves := by
  cases h with
  | passed => exact ⟨rfl, rfl⟩
  | attempted free => rw [hf] at free; cases free

theorem nil_of_skipHooks (h : Series hooks s visited leaves) (hs : s.skipHooks = true) : visited = [] := by
  cases h with
  | passed => rfl
  | attempted _ hooked => rw [hs] at hooked; cases hooked

theorem of_visited (h : Series hooks s visited leaves) (hv : visited ≠ []) :
    hooks ≠ [] ∧ s.failed = false ∧ ∃ d, s.destination? = some d := by
  refine ⟨?_, ?_⟩
  · rintro rfl
    cases h <;> exact hv rfl
  · cases h with
    | passed => exact absurd rfl hv
    | attempted free _ dest => exact ⟨free, _, dest⟩

end Series

theorem callHooks_series (hooks : List Hook) (r : Run (Destination μ)) :
    ∃ visited, Series hooks r.statement visited (callHooks hooks r).statement.leaves ∧
      (callHooks hooks r).effects = r.effects ++ visitEffects visited := by
  unfold callHooks
  by_cases hoff : (r.failed || r.statement.skipHooks || r.statement.schema.isNone) = true
  · rw [if_pos hoff]
    refine ⟨[], .passed ?_, by simp [visitEffects]⟩
    simp only [Bool.or_eq_true, Option.isNone_iff_eq_none] at hoff
    rcases hoff with (hoff | hoff) | hoff
    · exact Or.inl hoff
    · exact Or.inr (Or.inl hoff)
    · exact Or.inr (Or.inr (Or.inl hoff))
  · rw [if_neg hoff]
    simp only [Bool.or_eq_true, not_or, Bool.not_eq_true] at hoff
    obtain ⟨⟨hfree, hskip⟩, -⟩ := hoff
    cases hdest : r.statement.destination? with
    | none => exact ⟨[], .passed (Or.inr (Or.inr (Or.inr hdest))), by simp [visitEffects]⟩
    | some d =>
      obtain ⟨hvisited, herrors⟩ := d.runHooks_attempts hooks
      have hleaves : ∀ s : Statement (Destination μ), s.failed = false →
          ((runHooks hooks d).errors.foldl Statement.addError s).leaves =
            Error.leavesOf ((d.attempts hooks).filterMap fun a => a.2.failure? a.1) := by
        intro s hs
        rw [Statement.leaves_addErrors, Statement.leaves_of_not_failed hs, List.nil_append, herrors]
      have hset : (r.statement.setDestination (runHooks hooks d).record).failed = false := by
        unfold Statement.setDestination
        split <;> exact hfree
      have hdone := hleaves _ hset
      refine ⟨_, ?_, congrArg (fun v => r.effects ++ visitEffects v) hvisited⟩
      show Series hooks r.statement _ ((runHooks hooks d).errors.foldl Statement.addError
        (r.statement.setDestination (runHooks hooks d).record)).leaves
      rw [hdone]
      exact .attempted hfree hskip hdest

/-! ## The steps of a stage -/

namespace StageKind

/-- The run once the executing step is through. -/
def executed (env : Env) (kind : StageKind) (start : Run (Destination μ)) : Run (Destination μ) :=
  kind.executing.run env (kind.hooked start)

/-- The statement as it would be sent. -/
def toSend (env : Env) (kind : StageKind) (start : Run (Destination μ)) : Statement (Destination μ) :=
  kind.written env (kind.hooked start).statement

/-- The answer it would get. -/
def answer (env : Env) (kind : StageKind) (start : Run (Destination μ)) : Pool.Response :=
  ((kind.hooked start).pool.respond (kind.verb (kind.toSend env start))).2

end StageKind

/-- A course the built-in steps may take from `start`; `leaves` are the single errors met when
    they are through. -/
structure Course.Orderly (env : Env) (kind : StageKind) (start : Run (Destination μ)) (leaves : List Error)
    (c : Course) : Prop where
  before : Series kind.hooksBefore start.statement c.before (kind.hooked start).statement.leaves
  after : Series (kind.hooksLater (kind.executed env start).statement) (kind.executed env start).statement
    c.after leaves
  hooks : (∀ v ∈ c.before, v.1 ∈ kind.hooksBefore) ∧ ∀ v ∈ c.after, v.1 ∈ kind.hooksAfter
  /-- Only the statement as written is sent, and not in a dry run. -/
  sent : ∀ call, c.call = some call →
    call = kind.call (kind.toSend env start) ∧ (kind.toSend env start).dryRun = false
  /-- An error is there before the statement is written, or comes up while it is. -/
  unsent : (kind.hooked start).failed = true ∨ (kind.toSend env start).failed = true →
    c.call = none ∧ c.after = []
  /-- The pool refuses, or its answer cannot be taken. -/
  unanswered : c.call.isSome = true →
    (∃ e, kind.answer env start = .refused e) ∨
      (kind.taken env (kind.toSend env start) (kind.answer env start)).failed = true →
    c.after = []
  skipped : start.statement.skipHooks = true → c.before = [] ∧ c.after = []
  /-- The hook after a query: rows were found and loaded. In a dry run the count is the one
      that was there before. -/
  found : kind = .query → c.after ≠ [] →
    (c.call.isSome = true ∧ ∃ rows dest, kind.answer env start = .returned rows ∧ 0 < rows.size ∧
      (kind.toSend env start).destination? = some dest ∧ (Record.scan dest rows).error = none) ∨
    (c.call = none ∧ (kind.toSend env start).dryRun = true ∧ 0 < start.statement.rowsAffected)

namespace StageKind

variable (env : Env) (kind : StageKind) (start : Run (Destination μ))

theorem hooksLater_subset (s : Statement (Destination μ)) : ∀ h ∈ kind.hooksLater s, h ∈ kind.hooksAfter := by
  unfold hooksLater
  split
  · simp
  · exact fun _ h => h

namespace Went

variable {env kind start} {call : Option Pool.Call}

theorem skipHooks (h : Went env kind (kind.hooked start) (kind.executed env start) call) :
    (kind.executed env start).statement.skipHooks = start.statement.skipHooks := by
  have hframe := callHooks_steady kind.hooksBefore start
  have hwritten := hframe.trans (written_steady env kind (kind.hooked start).statement)
  cases h with
  | idle _ same => rw [same]; exact hframe.skipHooks
  | written _ _ same => rw [same]; exact hwritten.skipHooks
  | sent _ _ _ _ same => rw [same]; exact (taken_skipHooks env kind _ _).trans hwritten.skipHooks

/-- An error that is there, or comes up, stays and keeps the text from being sent. -/
theorem of_failed (h : Went env kind (kind.hooked start) (kind.executed env start) call)
    (hf : (kind.hooked start).failed = true ∨ (kind.toSend env start).failed = true) :
    call = none ∧ (kind.executed env start).failed = true := by
  cases h with
  | idle failed same => exact ⟨rfl, same ▸ failed⟩
  | written free _ same =>
    rcases hf with hf | hf
    · rw [free] at hf; cases hf
    · exact ⟨rfl, same ▸ hf⟩
  | sent free _ sound =>
    rcases hf with hf | hf
    · rw [free] at hf; cases hf
    · rw [show (kind.toSend env start).failed = false from sound] at hf; cases hf

theorem of_unanswered (h : Went env kind (kind.hooked start) (kind.executed env start) call)
    (hc : call.isSome = true)
    (hf : (∃ e, kind.answer env start = .refused e) ∨
      (kind.taken env (kind.toSend env start) (kind.answer env start)).failed = true) :
    (kind.executed env start).failed = true := by
  cases h with
  | idle | written => cases hc
  | sent _ _ _ _ same =>
    rw [same]
    show (kind.taken env (kind.toSend env start) (kind.answer env start)).failed = true
    rcases hf with ⟨e, he⟩ | hf
    · rw [he]; rfl
    · exact hf

end Went

/-- A query that was answered and leaves the statement free of errors loaded its rows. -/
theorem loaded_of_not_failed {s : Statement (Destination μ)} {rows : Rows}
    (hfree : (loadRows rows s).failed = false) {d : Destination μ} (hdest : (loadRows rows s).destination? = some d) :
    ∃ dest, s.destination? = some dest ∧ (Record.scan dest rows).error = none := by
  rw [loadRows_eq] at hfree hdest
  dsimp only at hfree hdest
  split at hfree
  · cases hfree
  · next hkeep =>
    rw [if_neg hkeep] at hdest
    unfold writeBack at hfree hdest
    cases hs : s.destination? with
    | none =>
      have hnone : ({ s with rowsAffected := rows.size } : Statement (Destination μ)).destination? = none := hs
      simp only [hnone] at hdest
      cases hdest
    | some dest =>
      have hsome : ({ s with rowsAffected := rows.size } : Statement (Destination μ)).destination? = some dest := hs
      simp only [hsome] at hfree
      refine ⟨dest, rfl, ?_⟩
      cases herror : (Record.scan dest rows).error with
      | none => rfl
      | some e => rw [herror] at hfree; cases hfree

theorem respond_query (p : Pool) :
    (∃ e, (p.respond .query).2 = .refused e) ∨ ∃ rows, (p.respond .query).2 = .returned rows := by
  unfold Pool.respond
  rcases p.query with ⟨p', e | rows⟩
  · exact Or.inl ⟨e, rfl⟩
  · exact Or.inr ⟨rows, rfl⟩

/-- The hook after a query finds rows that were loaded or, in a dry run, a count from before. -/
theorem Went.found {call : Option Pool.Call}
    (h : Went env .query (StageKind.query.hooked start) (StageKind.query.executed env start) call)
    {visited : List (Hook × Nat)} {leaves : List Error}
    (hafter : Series (StageKind.query.hooksLater (StageKind.query.executed env start).statement)
      (StageKind.query.executed env start).statement visited leaves)
    (hne : visited ≠ []) :
    (call.isSome = true ∧ ∃ rows dest, StageKind.query.answer env start = .returned rows ∧ 0 < rows.size ∧
      (StageKind.query.toSend env start).destination? = some dest ∧ (Record.scan dest rows).error = none) ∨
    (call = none ∧ (StageKind.query.toSend env start).dryRun = true ∧ 0 < start.statement.rowsAffected) := by
  obtain ⟨hhooks, hfree, d, hdest⟩ := hafter.of_visited hne
  have hrows : (StageKind.query.executed env start).statement.rowsAffected ≠ 0 :=
    fun hzero => hhooks (if_pos ⟨rfl, hzero⟩)
  cases h with
  | idle failed same =>
    have hf : (StageKind.query.executed env start).failed = true := by rw [same]; exact failed
    rw [show (StageKind.query.executed env start).statement.failed = true from hf] at hfree
    cases hfree
  | written _ why same =>
    have hstmt : (StageKind.query.executed env start).statement = StageKind.query.toSend env start := by
      rw [same]; rfl
    rw [hstmt] at hfree hrows
    have hkept : (StageKind.query.toSend env start).rowsAffected = start.statement.rowsAffected :=
      ((callHooks_steady _ start).trans (written_steady env .query _)).rowsAffected
    rcases why with hdry | hf | hidle
    · exact Or.inr ⟨rfl, hdry, by rw [← hkept]; exact Nat.pos_of_ne_zero hrows⟩
    · rw [show (StageKind.query.toSend env start).failed = true from hf] at hfree
      cases hfree
    · cases hidle
  | sent _ _ _ _ same =>
    have hstmt : (StageKind.query.executed env start).statement =
        StageKind.query.taken env (StageKind.query.toSend env start) (StageKind.query.answer env start) := by
      rw [same]; rfl
    rcases respond_query (StageKind.query.hooked start).pool with ⟨e, he⟩ | ⟨rows, hreturned⟩
    · rw [hstmt, show StageKind.query.answer env start = .refused e from he] at hfree
      cases hfree
    · have hload : (StageKind.query.executed env start).statement =
          loadRows rows (StageKind.query.toSend env start) := by
        rw [hstmt, show StageKind.query.answer env start = .returned rows from hreturned]; rfl
      rw [hload] at hfree hdest hrows
      rw [(loadRows_steady _ rows).rowsAffected] at hrows
      obtain ⟨dest, hd, hscan⟩ := loaded_of_not_failed hfree hdest
      exact Or.inl ⟨rfl, rows, dest, hreturned, Nat.pos_of_ne_zero hrows, hd, hscan⟩

/-- The built-in steps of a stage take an orderly course. -/
theorem steps_orderly :
    ∃ c : Course, (kind.steps env start).effects = start.effects ++ c.acts ∧
      c.Orderly env kind start (kind.steps env start).statement.leaves := by
  obtain ⟨before, hbefore, hbeforeEffects⟩ := callHooks_series kind.hooksBefore start
  obtain ⟨call, hwent⟩ : ∃ call, Went env kind (kind.hooked start) (kind.executed env start) call :=
    executing_went env kind (kind.hooked start)
  obtain ⟨after, hafter, hafterEffects⟩ :=
    callHooks_series (kind.hooksLater (kind.executed env start).statement) (kind.executed env start)
  have hquiet : (kind.executed env start).failed = true → after = [] := fun h => (hafter.nil_of_failed h).1
  refine ⟨⟨before, call, after⟩, ?_, ?_⟩
  · show (callHooks (kind.hooksLater (kind.executed env start).statement) (kind.executed env start)).effects = _
    rw [hafterEffects, hwent.effects, show (kind.hooked start).effects = _ from hbeforeEffects]
    simp only [Course.acts, List.append_assoc]
  · exact
      { before := hbefore
        after := hafter
        hooks := ⟨hbefore.hooks_mem, fun v hv => kind.hooksLater_subset _ _ (hafter.hooks_mem v hv)⟩
        sent := fun c hc => by
          cases hwent with
          | idle | written => cases hc
          | sent _ live => cases hc; exact ⟨rfl, live⟩
        unsent := fun hf => ⟨(hwent.of_failed hf).1, hquiet (hwent.of_failed hf).2⟩
        unanswered := fun hc hf => hquiet (hwent.of_unanswered hc hf)
        skipped := fun hskip =>
          ⟨hbefore.nil_of_skipHooks hskip, hafter.nil_of_skipHooks (hwent.skipHooks.trans hskip)⟩
        found := by
          rintro rfl hne
          exact hwent.found env start hafter hne }

end StageKind

/-! ## The execution -/

/-- An execution calls hooks and the pool in one order: hooks, at most one call, hooks. Errors
    before the call keep it and the hooks after it from being made, errors of the call those
    hooks. Getting ready and concluding call neither. -/
theorem execution_orderly (env : Env) (records : List (Destination Row)) (kind : StageKind)
    (r : Run (Destination μ)) :
    let st := (Database.openWith env records).stages kind
    ∃ c : Course, (st.execute env r).acts = r.acts ++ c.acts ∧
      if env.config.skipDefaultSteps then c = {}
      else c.Orderly env kind (st.ready env r) (st.execute env r).statement.leaves := by
  intro st
  have hexec : st.execute env r = _ := Database.opened_execute env records kind r
  have hready : (st.ready env r).acts = r.acts := (Stage.ready_idle env st r).acts
  have hacts := (congrArg Run.acts hexec).trans (Run.conclude_idle env _ _).acts
  cases hskip : env.config.skipDefaultSteps with
  | true =>
    have hnone : Database.openSteps env.config kind = [] := by rw [Database.openSteps, hskip]; rfl
    rw [hnone] at hacts
    exact ⟨{}, hacts.trans (hready.trans (List.append_nil _).symm), by rw [if_pos rfl]⟩
  | false =>
    rw [StageKind.openSteps_run hskip] at hexec hacts
    obtain ⟨c, heffects, horderly⟩ := StageKind.steps_orderly env kind (st.ready env r)
    have hleaves : (st.execute env r).statement.leaves = (kind.steps env (st.ready env r)).statement.leaves := by
      rw [hexec, Run.conclude_statement]
      exact congrArg (·.elim [] Error.leaves) (Run.cleared_error _ _)
    refine ⟨c, ?_, ?_⟩
    · rw [hacts, Run.acts_append heffects, hready, Course.filter_acts]
    · rw [if_neg Bool.false_ne_true, hleaves]
      exact horderly

/-- A dry run of a find sends nothing, and its hook is called all the same if the count is
    there already; here the destination sets it. -/
theorem afterFind_unanswered :
    let env : Env := { now := ⟨1715000000, 0⟩ }
    let user : Description :=
      { table := "users", columns := [{ name := "id", primaryKey := true, autoIncrement := true, kind := .int }]
        hooks := fun _ => []
        modifier := some [.setRowsAffected 5] }
    let fresh : Statement (Destination Row) := Statement.fresh env.config
    let r : Run (Destination Row) :=
      { statement := { fresh with dest := some (.value (.one user.model user.blank)), dryRun := true } }
    let done := ((Database.openWith env []).stages .query).execute env r
    done.acts = [.hooked .afterFind 0] ∧ done.calls = [] := by
  intro env user fresh r done
  have hready : ((Database.openWith env []).stages .query).ready env r =
      { statement :=
          { fresh with
            dest := some (.value (.one user.model user.blank)), model := some .alias, dryRun := true
            schema := some user.model.schema, shape := .record, rowsAffected := 5
            buildClauses := ["SELECT", "FROM", "WHERE", "ORDER BY", "LIMIT"] } } := by
    rw [Database.opened_ready env [] .query rfl]
    rfl
  have hdone : done = _ := Database.opened_execute env [] .query r
  rw [hready] at hdone
  have hidle := Run.conclude_idle env (Stage.adopts env r)
    ((Database.openSteps env.config .query).foldl (BuiltIn.run env)
      (((Database.openWith env []).stages .query).ready env r))
  rw [hready] at hidle
  rw [hdone, hidle.acts, hidle.calls]
  constructor <;> cbv

end SqlPipeline
