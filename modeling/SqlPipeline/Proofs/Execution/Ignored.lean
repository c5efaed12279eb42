/-
  SqlPipeline.Proofs.Execution.Ignored — what is not reported because a row was missing.

  A logger may be told to ignore missing rows. It then looks for one among all the errors of a
  statement and, if it finds one, passes over them together. A missing row alone is not reported,
  as it should be; but neither is any other failure that was met with it.

  - `verdict?_failed_iff`: when a statement is reported as failed.
  - `failure_reported_iff`: the failure is reported once, or passed over for a missing row.
  - `first_failure_ignored`: a query that found no row and could not load it says nothing.
-/

import SqlPipeline.Database.Chain
import SqlPipeline.Proofs.Execution.Traced
import SqlPipeline.Proofs.Outcome.Leaves

namespace SqlPipeline

/-! ## What counts as a missing row -/

theorem Error.isRecordNotFound_iff {e : Error} : e.isRecordNotFound = true ↔ e = .recordNotFound := by
  cases e <;> simp [isRecordNotFound]

theorem LoggerConfig.ignores_iff {c : LoggerConfig} {e : Error} :
    c.ignores e = true ↔ c.ignoreRecordNotFound = true ∧ .recordNotFound ∈ e.leaves := by
  have hfound : e.any Error.isRecordNotFound = true ↔ .recordNotFound ∈ e.leaves := by
    rw [Error.any_leaves, List.any_eq_true]
    simp only [Error.isRecordNotFound_iff, exists_eq_right]
  rw [ignores, Bool.and_eq_true, hfound]

/-! ## Reports of failures -/

/-- How severe an entry is. Recording loggers do not say of a statement. -/
def LogEntry.severity? : LogEntry → Option Severity
  | .message severity _ => some severity
  | .trace verdict _ => verdict.map Verdict.severity

/-- The entries that say that something failed. -/
def failures (entries : List LogEntry) : List LogEntry := entries.filter (·.severity? == some .error)

theorem LoggerConfig.verdict?_failed_iff {c : LoggerConfig} {elapsed : Nat} {error : Option Error} :
    c.verdict? elapsed error = some .failed ↔ c.lets .error = true ∧ ∃ e, error = some e ∧ c.ignores e = false := by
  have hothers : (if c.lets .warn && c.isSlow elapsed then some Verdict.slow
      else if c.lets .info then some .executed else none) ≠ some .failed := by
    split
    · simp
    · split <;> simp
  have hfailed : error.any (fun e => c.lets .error && !c.ignores e) = true ↔
      c.lets .error = true ∧ ∃ e, error = some e ∧ c.ignores e = false := by
    simp only [Option.any_eq_true, Bool.and_eq_true, Bool.not_eq_true']
    exact ⟨fun ⟨e, he, hlets, hignores⟩ => ⟨hlets, e, he, hignores⟩,
      fun ⟨hlets, e, he, hignores⟩ => ⟨e, he, hlets, hignores⟩⟩
  rw [← hfailed]
  unfold verdict?
  split
  · next h => exact iff_of_true rfl h
  · next h => exact iff_of_false hothers h

/-- A levelled logger has a severe entry only for a failure, and that entry carries the error. -/
theorem Logger.failures_trace (c : LoggerConfig) (elapsed : Nat) (t : Trace) :
    failures ((Logger.levelled c).trace elapsed t) =
      if c.verdict? elapsed t.error = some .failed then [.trace (some .failed) t] else [] := by
  simp only [trace]
  cases c.verdict? elapsed t.error with
  | none => rfl
  | some verdict => cases verdict <;> rfl

/-- A failure of a statement is reported exactly once, with its error, unless missing rows are
    ignored and one is among the errors: then no failure is reported, whatever else is among them.
    So nothing is reported of missing rows alone, which is what ignoring them is for. -/
theorem failure_reported_iff {c : LoggerConfig} (hlevel : LogLevel.error.rank ≤ c.level.rank) (elapsed : Nat)
    {t : Trace} {e : Error} (he : t.error = some e) :
    let reported := failures ((Logger.levelled c).trace elapsed t)
    (reported = [.trace (some .failed) t] ↔ (c.ignoreRecordNotFound = true → .recordNotFound ∉ e.leaves)) ∧
      (reported = [] ↔ c.ignoreRecordNotFound = true ∧ .recordNotFound ∈ e.leaves) ∧
      (c.ignoreRecordNotFound = true → e.leaves ≠ [] → (∀ leaf ∈ e.leaves, leaf = .recordNotFound) → reported = []) := by
  intro reported
  have hlets : c.lets .error = true := decide_eq_true hlevel
  have hverdict : c.verdict? elapsed t.error = some .failed ↔
      ¬(c.ignoreRecordNotFound = true ∧ .recordNotFound ∈ e.leaves) := by
    rw [LoggerConfig.verdict?_failed_iff, ← LoggerConfig.ignores_iff, he]
    simp [hlets]
  have hreported : reported = _ := Logger.failures_trace c elapsed t
  have hnothing : reported = [] ↔ c.ignoreRecordNotFound = true ∧ .recordNotFound ∈ e.leaves := by
    rw [hreported, ite_eq_right_iff, ← not_iff_not, ← hverdict]
    simp
  refine ⟨?_, hnothing, fun hignore hne hall => hnothing.mpr ⟨hignore, ?_⟩⟩
  · rw [hreported, ite_eq_left_iff, ← not_and, ← hverdict]
    simp
  · obtain ⟨leaf, hleaf⟩ := List.exists_mem_of_ne_nil e.leaves hne
    exact hall leaf hleaf ▸ hleaf

/-- Two failures and no missing row: both are reported though missing rows are ignored. -/
theorem failure_reported_of_two :
    let c : LoggerConfig := { level := .error, ignoreRecordNotFound := true }
    let e : Error := .several [.database "gone", .validation "name is required"]
    let t : Trace := { sql := "SELECT 1", rows := 0, error := some e }
    LogLevel.error.rank ≤ c.level.rank ∧ t.error = some e ∧
      failures ((Logger.levelled c).trace 0 t) = [.trace (some .failed) t] := by
  intro c e t
  have hlevel : LogLevel.error.rank ≤ c.level.rank := by decide
  refine ⟨hlevel, rfl, (failure_reported_iff hlevel 0 rfl).1.mpr fun _ => ?_⟩
  have hleaves : e.leaves = [.database "gone", .validation "name is required"] := rfl
  simp [hleaves]

/-- The first user is asked for. There is none, and the record the answer is for cannot be loaded:
    two things went wrong, and nothing is reported. -/
theorem first_failure_ignored :
    let config : Config := { logger := { ignoreRecordNotFound := true } }
    let env : Env := { config, logger := .levelled config.logger, now := ⟨1715000000, 0⟩ }
    let user : Destination Row :=
      .scripted
        { schema := .ok { table := "users", fields := [{ name := "id", primaryKey := true }] }
          shape := .record
          scanError := some (.database "gone") }
    let done := (Finisher.first user).apply env (Database.openWith env []).stages { statement := Statement.fresh config }
    let e : Error := .several [.database "gone", .recordNotFound]
    LogLevel.error.rank ≤ config.logger.level.rank ∧ done.statement.error = some e ∧
      (∃ leaf ∈ e.leaves, leaf ≠ .recordNotFound) ∧ done.logs = [] := by
  intro config env user done e
  let r : Run (Destination Row) :=
    Finisher.withDestination user
      (Run.modify (Finisher.narrowToFirst user) { statement := Statement.fresh config })
  have hdone : done = _ := Database.opened_execute env [] .query r
  refine ⟨by decide, ?_, ⟨.database "gone", List.mem_cons_self, by simp⟩, ?_⟩
  · rw [hdone]
    cbv
  · rw [hdone]
    cbv

end SqlPipeline
