/-
  SqlPipeline.Outcome.Log — who is told about registrations and executed statements.

  A levelled logger lets messages through by its level and reports a statement once at
  most: as failed, as slow, or, when it tells everything, as executed. A failure that is
  only a missing record may be passed over. The recording loggers keep every message and
  every trace; the redacting one shows no parameter.
-/

import SqlPipeline.Outcome.Error
import SqlPipeline.Sql.Value

namespace SqlPipeline

/-- What a levelled logger has to report about a statement. -/
inductive Verdict where
  | failed | slow | executed
  deriving DecidableEq, Repr

namespace Verdict

def severity : Verdict → Severity
  | .failed => .error
  | .slow => .warn
  | .executed => .info

def message : Verdict → String
  | .failed => "Statement failed"
  | .slow => "Slow statement"
  | .executed => "Executed statement"

end Verdict

/-- A statement as it was executed. -/
structure Trace where
  sql : String
  rows : Nat
  error : Option Error := none
  deriving Repr

inductive LogEntry where
  | message (severity : Severity) (text : String)
  /-- Recording loggers give no verdict. -/
  | trace (verdict : Option Verdict) (t : Trace)
  deriving Repr

inductive Logger where
  | recording
  | redacting
  | levelled (config : LoggerConfig)
  deriving DecidableEq, Repr

namespace LoggerConfig

def lets (c : LoggerConfig) (s : Severity) : Bool := s.level.rank ≤ c.level.rank

/-- Whether a statement that took so many nanoseconds is slow. -/
def isSlow (c : LoggerConfig) (elapsed : Nat) : Bool :=
  0 < c.slowThresholdMs && c.slowThresholdMs * 1000000 < elapsed

/-- Whether an error is passed over. -/
def ignores (c : LoggerConfig) (e : Error) : Bool :=
  c.ignoreRecordNotFound && e.any Error.isRecordNotFound

def verdict? (c : LoggerConfig) (elapsed : Nat) (error : Option Error) : Option Verdict :=
  if error.any (fun e => c.lets .error && !c.ignores e) then some .failed
  else if c.lets .warn && c.isSlow elapsed then some .slow
  else if c.lets .info then some .executed
  else none

end LoggerConfig

namespace Logger

def log (l : Logger) (severity : Severity) (text : String) : List LogEntry :=
  match l with
  | .levelled c => if c.lets severity then [.message severity text] else []
  | _ => [.message severity text]

/-- The entries for an executed statement. A levelled logger mentions the error only where
    it reports a failure. -/
def trace (l : Logger) (elapsed : Nat) (t : Trace) : List LogEntry :=
  match l with
  | .levelled c =>
    match c.verdict? elapsed t.error with
    | some .failed => [.trace (some .failed) t]
    | some v => [.trace (some v) { t with error := none }]
    | none => []
  | _ => [.trace none t]

/-- What becomes of text and parameters before they are shown, if anything. -/
def filter? (l : Logger) : Option (String → List Value → String × List Value) :=
  match l with
  | .recording => none
  | .redacting => some fun sql params => (sql, params.map fun _ => .text "***")
  | .levelled c => if c.parameterizedQueries then some fun sql _ => (sql, []) else none

end Logger

end SqlPipeline
