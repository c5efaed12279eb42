/-
  SqlPipeline.Proofs.Execution.Traced — what is told about an execution, and what is left of it.

  The statement is reported once, when all steps are through, and from what it holds by then.
  That this is what was sent is no matter of course: between the call and the report lie the
  answer of the pool, the write-back and the hooks, and each of them may fail. None of them
  writes to the text.

  - `ready_edited` (in `Idle`), `callHooks_logs`, `Went.logs`: before the report nothing is told.
  - `stage_sends`: the text the steps leave behind is the text they sent.
  - `execution_traced`: so the report tells what was sent, with the final rows and error, and
    after it the statement is as clean as it was.
-/

import Mathlib
import SqlPipeline.Proofs.Execution.Steady

namespace SqlPipeline

open Operation

/-! ## What is told -/

def Effect.log? : Effect → Option LogEntry
  | .logged entry => some entry
  | _ => none

/-- A logger has at most one thing to say about a statement. -/
theorem Logger.trace_length (l : Logger) (elapsed : Nat) (t : Trace) : (l.trace elapsed t).length ≤ 1 := by
  cases l with
  | recording | redacting => exact Nat.le_refl 1
  | levelled config =>
    simp only [Logger.trace]
    cases config.verdict? elapsed t.error with
    | none => exact Nat.zero_le 1
    | some verdict => cases verdict <;> exact Nat.le_refl 1

namespace Run

variable {ρ : Type}

/-- What was told to the logger, in order. -/
def logs (r : Run ρ) : List LogEntry := r.effects.filterMap Effect.log?

theorem logs_append {r r' : Run ρ} {new : List Effect} (h : r'.effects = r.effects ++ new) :
    r'.logs = r.logs ++ new.filterMap Effect.log? := by
  rw [logs, h, List.filterMap_append, logs]

theorem logs_of_silent {r r' : Run ρ} {new : List Effect} (h : r'.effects = r.effects ++ new)
    (silent : ∀ e ∈ new, e.log? = none) : r'.logs = r.logs := by
  rw [logs_append h, List.filterMap_eq_nil_iff.mpr silent, List.append_nil]

theorem Edited.logs {r r' : Run ρ} (h : Edited r r') : r'.logs = r.logs := by
  obtain ⟨new, he, hn⟩ := h.effects
  refine logs_of_silent he fun e hm => ?_
  have := hn e hm
  cases e <;> first | rfl | simp [Effect.isReport] at this

/-! ## The report -/

/-- What there is to tell about a text that was sent: the text as the logger's filter leaves it,
    with its parameters in place, and what became of the statement. -/
def report (env : Env) (sql : String) (params : List Value) (s : Statement ρ) : Trace :=
  let shown := (env.logger.filter?.getD Prod.mk) sql params
  { sql := env.dialect.explain shown.1 shown.2, rows := s.rowsAffected, error := s.error }

theorem trace_logs (env : Env) (r : Run ρ) :
    (r.trace env).logs = r.logs ++
      let sql := r.statement.sql
      if r.statement.hasText then env.logger.trace env.elapsed (report env sql.text sql.params r.statement) else [] := by
  unfold trace
  split
  · have hself : (Effect.log? ∘ Effect.logged) = some := rfl
    have hexplained : explained env r.statement.sql =
        (report env r.statement.sql.text r.statement.sql.params r.statement).sql := by
      unfold explained report
      cases env.logger.filter? <;> rfl
    rw [logs_append rfl, List.filterMap_map, hself, List.filterMap_some, hexplained]
    rfl
  · exact (List.append_nil _).symm

theorem conclude_logs (env : Env) (adopted : Bool) (r : Run ρ) : (r.conclude env adopted).logs = (r.trace env).logs :=
  rfl

/-- Concluding clears the text, of a run that is not dry, and the adopted names; it touches
    neither count nor error. -/
theorem conclude_cleared (env : Env) (adopted : Bool) (r : Run ρ) :
    let s := (r.conclude env adopted).statement
    s.rowsAffected = r.statement.rowsAffected ∧ s.error = r.statement.error ∧
      (s.dryRun = false → s.sql = {}) ∧ (adopted = true → s.buildClauses = []) := by
  intro s
  have hs : s = cleared adopted r.statement := conclude_statement env adopted r
  rw [hs]
  unfold cleared
  cases adopted <;> cases hdry : r.statement.dryRun <;> simp [hdry]

end Run

/-! ## The steps -/

variable {ρ : Type} [Record ρ]

theorem callHooks_logs (hooks : List Hook) (r : Run ρ) : (callHooks hooks r).logs = r.logs := by
  unfold callHooks
  split
  · rfl
  · split
    · rfl
    · refine Run.logs_of_silent rfl fun e he => ?_
      obtain ⟨v, -, rfl⟩ := List.mem_map.mp he
      rfl

/-- From `r` to `r'` this call was made and nothing told; what was sent is still there. -/
structure Run.Sends (r : Run ρ) (call : Option Pool.Call) (r' : Run ρ) : Prop where
  calls : r'.calls = r.calls ++ call.toList
  logs : r'.logs = r.logs
  text : ∀ c, call = some c → r'.statement.sql = ⟨c.sql, c.params⟩

/-- Hooks around it change nothing of this. -/
theorem Run.Sends.between {r r' : Run ρ} {call : Option Pool.Call} {before : List Hook}
    (h : Run.Sends (callHooks before r) call r') (after : List Hook) : Run.Sends r call (callHooks after r') := by
  have hbefore := callHooks_untouched before r
  have hafter := callHooks_untouched after r'
  refine ⟨?_, ?_, fun c hc => ?_⟩
  · rw [hafter.calls, h.calls, hbefore.calls]
  · rw [callHooks_logs, h.logs, callHooks_logs]
  · rw [hafter.statement.sql, h.text c hc]

namespace StageKind

theorem Went.logs {env : Env} {kind : StageKind} {r r' : Run ρ} {call : Option Pool.Call}
    (h : Went env kind r r' call) : r'.logs = r.logs := by
  refine Run.logs_of_silent h.effects fun e he => ?_
  obtain ⟨c, -, rfl⟩ := List.mem_map.mp he
  rfl

/-- Whatever the pool answers, and whether or not the answer can be taken, the text stays. -/
theorem Went.sends {env : Env} {kind : StageKind} {r r' : Run ρ} {call : Option Pool.Call}
    (h : Went env kind r r' call) : Run.Sends r call r' := by
  refine ⟨h.calls, h.logs, fun c hc => ?_⟩
  cases h with
  | idle => cases hc
  | written => cases hc
  | sent _ _ _ _ same =>
    cases hc
    rw [same]
    exact (taken_unwritten env kind (kind.written env r.statement) _).sql

/-- The built-in steps of an opened stage, if it has any, make one call at most and tell nothing. -/
theorem stage_sends (env : Env) (kind : StageKind) (r : Run ρ) :
    ∃ call, Run.Sends r call ((Database.openSteps env.config kind).foldl (BuiltIn.run env) r) := by
  cases hskip : env.config.skipDefaultSteps with
  | true =>
    refine ⟨none, ?_⟩
    rw [Database.openSteps, hskip]
    exact ⟨(List.append_nil _).symm, rfl, fun c hc => by cases hc⟩
  | false =>
    obtain ⟨call, hwent⟩ := executing_went env kind (callHooks kind.hooksBefore r)
    refine ⟨call, ?_⟩
    rw [openSteps_run hskip]
    exact hwent.sends.between _

end StageKind

/-! ## The whole -/

/-- What an execution from `r` to `done` leaves behind, having made this call and told this. -/
structure Run.Concluded (env : Env) (r : Run ρ) (call : Option Pool.Call) (told : Option Trace)
    (done : Run ρ) : Prop where
  calls : done.calls = r.calls ++ call.toList
  logs : done.logs = r.logs ++ told.toList.flatMap (env.logger.trace env.elapsed)
  entries : done.logs.length ≤ r.logs.length + 1
  report : ∀ c, call = some c → c.sql ≠ "" → told = some (Run.report env c.sql c.params done.statement)
  text : done.statement.dryRun = false → done.statement.sql = {}
  names : (r.applyScopes env).statement.buildClauses = [] → done.statement.buildClauses = []

/-- One execution of an opened stage, on any statement and however hooks, pool and write-back
    turn out. -/
theorem execution_traced (env : Env) (records : List (Destination Row)) (kind : StageKind) (r : Run ρ) :
    ∃ call told, Run.Concluded env r call told (((Database.openWith env records).stages kind).execute env r) := by
  rw [Database.opened_execute env records kind r]
  generalize hstart : ((Database.openWith env records).stages kind).ready env r = start
  have hedited : Run.Edited r start := hstart ▸ Stage.ready_edited env _ r
  obtain ⟨call, hsends⟩ := StageKind.stage_sends env kind start
  generalize (Database.openSteps env.config kind).foldl (BuiltIn.run env) start = last at hsends ⊢
  obtain ⟨hrows, herror, htext, hnames⟩ := Run.conclude_cleared env (Stage.adopts env r) last
  let sent := last.statement.sql
  let told := if last.statement.hasText then some (Run.report env sent.text sent.params last.statement) else none
  have hlogs : (last.conclude env (Stage.adopts env r)).logs = r.logs ++ told.toList.flatMap (env.logger.trace env.elapsed) := by
    rw [Run.conclude_logs, Run.trace_logs, hsends.logs, hedited.logs]
    cases hhas : last.statement.hasText <;> simp [told, sent, hhas]
  refine ⟨call, told, ⟨?_, hlogs, ?_, fun c hc hne => ?_, htext, fun hempty => ?_⟩⟩
  · rw [(Run.conclude_idle env _ last).calls, hsends.calls, hedited.idle.calls]
  · rw [hlogs, List.length_append]
    have hone : (told.toList.flatMap (env.logger.trace env.elapsed)).length ≤ 1 := by
      cases told with
      | none => exact Nat.zero_le 1
      | some t => simpa using env.logger.trace_length env.elapsed t
    omega
  · have hsent : sent = ⟨c.sql, c.params⟩ := hsends.text c hc
    have hhas : last.statement.hasText = true := by
      show (!sent.text.isEmpty) = true
      simpa [hsent] using hne
    simp only [told, hhas, if_true, hsent, Run.report, hrows, herror]
  · exact hnames (by simp [Stage.adopts, hempty])

/-- The database refuses a statement: it is told with the error it left, and then cleared. -/
theorem execution_of_refused :
    let env : Env := { now := ⟨1715000000, 0⟩ }
    let r : Run (Destination Row) :=
      { statement := { sql := ⟨"DELETE FROM users WHERE id = ?", [.int 7]⟩ }
        pool := { failure := some (.database "gone") } }
    let done := ((Database.openWith env []).stages .raw).execute env r
    done.calls = [⟨.exec, "DELETE FROM users WHERE id = ?", [.int 7]⟩] ∧
      done.logs = [.trace none ⟨"DELETE FROM users WHERE id = 7", 0, some (.database "gone")⟩] ∧
      done.statement.sql = {} := by
  intro env r done
  obtain ⟨call, told, h⟩ := execution_traced env [] .raw r
  have hdone : done = _ := Database.opened_execute env [] .raw r
  have hcalls : done.calls = [⟨.exec, "DELETE FROM users WHERE id = ?", [.int 7]⟩] := by rw [hdone]; cbv
  have hcall : call = some ⟨.exec, "DELETE FROM users WHERE id = ?", [.int 7]⟩ := by
    have hsplit : done.calls = call.toList := h.calls
    cases call <;> simp_all
  have hlive : done.statement.dryRun = false := by rw [hdone]; cbv
  have hlogs : done.logs = told.toList.flatMap (env.logger.trace env.elapsed) := h.logs
  rw [h.report _ hcall (by decide)] at hlogs
  refine ⟨hcalls, ?_, h.text hlive⟩
  rw [hlogs]
  show [LogEntry.trace none (Run.report env _ _ done.statement)] = _
  rw [hdone]
  cbv

end SqlPipeline
