/-
  SqlPipeline.Settings.Basic — the settings of a database handle and of its logger.

  Every setting has a default. The clause lists name the clauses a stage writes, in order.
-/

namespace SqlPipeline

inductive LogLevel where
  | silent | error | warn | info
  deriving DecidableEq, Repr

namespace LogLevel

/-- Levels by how much they let through. -/
def rank : LogLevel → Nat
  | .silent => 0
  | .error => 1
  | .warn => 2
  | .info => 3

def name : LogLevel → String
  | .silent => "silent"
  | .error => "error"
  | .warn => "warn"
  | .info => "info"

def ofName? : String → Option LogLevel
  | "silent" => some .silent
  | "error" => some .error
  | "warn" => some .warn
  | "info" => some .info
  | _ => none

theorem ofName?_name (l : LogLevel) : ofName? l.name = some l := by cases l <;> rfl

end LogLevel

inductive Severity where
  | error | warn | info
  deriving DecidableEq, Repr

/-- The level from which messages of a severity are let through. -/
def Severity.level : Severity → LogLevel
  | .error => .error
  | .warn => .warn
  | .info => .info

structure LoggerConfig where
  level : LogLevel := .warn
  /-- Slower statements are warned about; zero switches that off. -/
  slowThresholdMs : Nat := 200
  ignoreRecordNotFound : Bool := false
  /-- Statements are logged without their parameters. -/
  parameterizedQueries : Bool := false
  deriving DecidableEq, Repr

structure Config where
  /-- Statements are written and not executed. -/
  dryRun : Bool := false
  skipHooks : Bool := false
  /-- The built-in steps are left out. -/
  skipDefaultSteps : Bool := false
  /-- Updates and deletes may do without conditions. -/
  allowGlobalUpdate : Bool := false
  /-- The id reported for a batch is its last one, not its first. -/
  lastInsertIdReversed : Bool := false
  createClauses : List String := ["INSERT", "VALUES", "ON CONFLICT", "RETURNING"]
  queryClauses : List String := ["SELECT", "FROM", "WHERE", "ORDER BY", "LIMIT"]
  updateClauses : List String := ["UPDATE", "SET", "WHERE", "RETURNING"]
  deleteClauses : List String := ["DELETE", "FROM", "WHERE", "RETURNING"]
  logger : LoggerConfig := {}
  deriving DecidableEq, Repr

/-! ## Conditions on the configuration -/

/-- The settings that are either on or off. -/
inductive Flag where
  | dryRun | skipHooks | skipDefaultSteps | allowGlobalUpdate | lastInsertIdReversed
  deriving DecidableEq, Repr

namespace Flag

def get (c : Config) : Flag → Bool
  | .dryRun => c.dryRun
  | .skipHooks => c.skipHooks
  | .skipDefaultSteps => c.skipDefaultSteps
  | .allowGlobalUpdate => c.allowGlobalUpdate
  | .lastInsertIdReversed => c.lastInsertIdReversed

def set (c : Config) (on : Bool) : Flag → Config
  | .dryRun => { c with dryRun := on }
  | .skipHooks => { c with skipHooks := on }
  | .skipDefaultSteps => { c with skipDefaultSteps := on }
  | .allowGlobalUpdate => { c with allowGlobalUpdate := on }
  | .lastInsertIdReversed => { c with lastInsertIdReversed := on }

/-- The name the setting is stored under. -/
def name : Flag → String
  | .dryRun => "dry_run"
  | .skipHooks => "skip_hooks"
  | .skipDefaultSteps => "skip_default_callbacks"
  | .allowGlobalUpdate => "allow_global_update"
  | .lastInsertIdReversed => "last_insert_id_reversed"

def all : List Flag := [.dryRun, .skipHooks, .skipDefaultSteps, .allowGlobalUpdate, .lastInsertIdReversed]

end Flag

/-- When a step joins its pipeline. -/
inductive Condition where
  | const (b : Bool)
  | flag (f : Flag)
  | not (c : Condition)
  deriving DecidableEq, Repr

def Condition.holds (config : Config) : Condition → Bool
  | .const b => b
  | .flag f => f.get config
  | .not c => !c.holds config

end SqlPipeline
