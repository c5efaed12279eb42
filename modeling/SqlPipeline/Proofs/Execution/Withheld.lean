/-
  SqlPipeline.Proofs.Execution.Withheld — parameters that are kept out of the log.

  A logger that wants statements without their parameters is not trusted to leave them out: they are
  dropped before the text is explained. Explaining has nothing to put in then, so whatever looks
  like a placeholder is kept as it is written, within literals and outside, and the text comes out as
  it went in. From there on nothing depends on the parameters.

  - `Dialect.explain_nil`: explaining without parameters changes no text.
  - `parameters_withheld`: what is told of two runs that differ in their parameters.
-/

import SqlPipeline.Proofs.Execution.Traced
import SqlPipeline.Proofs.Explained.Literals

namespace SqlPipeline

/-! ## The text -/

namespace Stretch

theorem documented_nil (s : Stretch) : s.documented [] = s.written := by
  rcases s with _ | ⟨_ | _, _, _⟩ <;> rfl

theorem valued_nil (s : Stretch) : s.valued [] = s.written := by
  cases s <;> rfl

end Stretch

/-- The text is read as stretches that make it up, and each is written as it was read. -/
theorem Dialect.explain_nil (d : Dialect) (sql : String) : d.explain sql [] = sql := by
  have hwhole : ∀ style : Placeholder, (style.read false 0 sql.toList).flatMap Stretch.written = sql.toList :=
    fun style => (style.spells_read false 0 sql.toList).whole
  refine String.toList_injective ?_
  rw [explain, String.toList_ofList]
  cases d.placeholder with
  | question =>
    have hread := Explain.questions_read false 0 [] sql.toList
    rw [funext Stretch.documented_nil, hwhole] at hread
    exact hread
  | numbered =>
    have hread := Explain.numbered_read false 0 [] sql.toList
    rw [funext Stretch.valued_nil, hwhole] at hread
    exact hread

/-! ## What is told -/

/-- The text of a statement, where an entry shows one. -/
def LogEntry.sql? : LogEntry → Option String
  | .message _ _ => none
  | .trace _ t => some t.sql

namespace Run

variable {ρ : Type}

/-- The run with other parameters to its text. -/
def withParams (params : List Value) (r : Run ρ) : Run ρ := r.modify fun s => { s with sql := { s.sql with params } }

/-- What a logger is told of the run's text, if that took so many nanoseconds. -/
def told (env : Env) (elapsed : Nat) (r : Run ρ) : List LogEntry :=
  env.logger.trace elapsed (report env r.statement.sql.text r.statement.sql.params r.statement)

theorem trace_told (env : Env) (r : Run ρ) :
    (r.trace env).logs = r.logs ++ if r.statement.hasText then r.told env env.elapsed else [] := trace_logs env r

section

variable {env : Env} {config : LoggerConfig} (hlogger : env.logger = .levelled config)
  (hparameterized : config.parameterizedQueries = true)

include hlogger hparameterized

theorem report_withheld (sql : String) (params : List Value) (s : Statement ρ) :
    report env sql params s = { sql, rows := s.rowsAffected, error := s.error } := by
  unfold report
  rw [hlogger, Logger.filter?, if_pos hparameterized]
  exact congrArg (Trace.mk · s.rowsAffected s.error) (env.dialect.explain_nil sql)

theorem told_withheld (elapsed : Nat) (r : Run ρ) :
    r.told env elapsed = (Logger.levelled config).trace elapsed
      { sql := r.statement.sql.text, rows := r.statement.rowsAffected, error := r.statement.error } := by
  rw [told, report_withheld hlogger hparameterized, hlogger]

/-- A logger that wants statements without parameters is told the same whatever they are, of every
    text, count and error and however long it took, and so an execution leaves the same traces. What
    it is told shows the text of the statement to the letter. -/
theorem parameters_withheld (elapsed : Nat) (r : Run ρ) (params params' : List Value) :
    let one := r.withParams params
    let other := r.withParams params'
    one.told env elapsed = other.told env elapsed ∧
      (one.trace env).logs = (other.trace env).logs ∧
      (one.told env elapsed = [] ↔ config.verdict? elapsed r.statement.error = none) ∧
      ∀ entry ∈ one.told env elapsed, entry.sql? = some r.statement.sql.text := by
  intro one other
  have hsame : ∀ elapsed, one.told env elapsed = other.told env elapsed := fun elapsed =>
    (told_withheld hlogger hparameterized elapsed one).trans (told_withheld hlogger hparameterized elapsed other).symm
  have hentries : ∀ t : Trace,
      ((Logger.levelled config).trace elapsed t = [] ↔ config.verdict? elapsed t.error = none) ∧
        ∀ entry ∈ (Logger.levelled config).trace elapsed t, entry.sql? = some t.sql := by
    intro t
    simp only [Logger.trace]
    cases config.verdict? elapsed t.error with
    | none => simp
    | some verdict => cases verdict <;> simp [LogEntry.sql?]
  refine ⟨hsame elapsed, ?_, ?_⟩
  · rw [trace_told, trace_told, hsame env.elapsed]
    rfl
  · rw [told_withheld hlogger hparameterized]
    exact hentries _

end

/-- A secret, in a text that has its placeholder in a literal too, a number that no parameter has
    and a literal that is not closed. -/
theorem secret_withheld :
    let config : LoggerConfig := { level := .info, parameterizedQueries := true }
    let env : Env := { dialect := .generic .numbered, logger := .levelled config, now := ⟨1715000000, 0⟩ }
    let sql := "UPDATE users SET token = $1, note = 'from $1' WHERE id = $12 AND name <> 'O"
    let r : Run (Destination Row) := { statement := { sql := { text := sql } } }
    let one := r.withParams [.text "secret"]
    let other := r.withParams []
    env.logger = .levelled config ∧ config.parameterizedQueries = true ∧
      (one.trace env).logs = (other.trace env).logs ∧ one.told env 1000 ≠ [] ∧
      ∀ entry ∈ one.told env 1000, entry.sql? = some sql := by
  intro config env sql r one other
  have hlogger : env.logger = .levelled config := rfl
  obtain ⟨-, hlogs, htold, hsql⟩ := parameters_withheld hlogger rfl 1000 r [.text "secret"] []
  refine ⟨hlogger, rfl, hlogs, fun hnone => ?_, hsql⟩
  exact absurd (htold.mp hnone) (by decide)

end Run

end SqlPipeline
