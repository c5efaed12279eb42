/-
  SqlPipeline.Proofs.Settings.Restored — a stored configuration is read back, all of it or a part.

  A stored text may have some of the settings only, and some of the logger's, in any order and with
  any blanks between the words. What it does not have is left at the default.

  - `Config.jsonOf_all`: all settings in their own order are the text that is written.
  - `Config.ofJson_restores`: reading gives the settings in the text and the defaults for all others;
    from the full text the configuration itself.
-/

import Mathlib
import SqlPipeline.Settings.Stored
import SqlPipeline.Proofs.JsonText.Words

namespace SqlPipeline

open JsonText

/-! ## The logger's settings -/

inductive LoggerConfig.Field where
  | level | slowThresholdMs | ignoreRecordNotFound | parameterizedQueries
  deriving DecidableEq, Repr

namespace LoggerConfig

namespace Field

def all : List Field := [.level, .slowThresholdMs, .ignoreRecordNotFound, .parameterizedQueries]

/-- The name the setting is stored under. -/
def name : Field → String
  | .level => "level"
  | .slowThresholdMs => "slow_threshold_ms"
  | .ignoreRecordNotFound => "ignore_record_not_found"
  | .parameterizedQueries => "parameterized_queries"

/-- The member as it is stored. -/
def text (c : LoggerConfig) : Field → List Char
  | .level => memberText "level" (stringText c.level.name)
  | .slowThresholdMs => memberText "slow_threshold_ms" (naturalText c.slowThresholdMs)
  | .ignoreRecordNotFound => memberText "ignore_record_not_found" (boolText c.ignoreRecordNotFound)
  | .parameterizedQueries => memberText "parameterized_queries" (boolText c.parameterizedQueries)

/-- The words of the value. -/
def words (c : LoggerConfig) : Field → List (List Char)
  | .level => [stringText c.level.name]
  | .slowThresholdMs => [naturalText c.slowThresholdMs]
  | .ignoreRecordNotFound => [boolText c.ignoreRecordNotFound]
  | .parameterizedQueries => [boolText c.parameterizedQueries]

/-- `s` with the setting of `c`. -/
def put (c : LoggerConfig) : Field → LoggerConfig → LoggerConfig
  | .level, s => { s with level := c.level }
  | .slowThresholdMs, s => { s with slowThresholdMs := c.slowThresholdMs }
  | .ignoreRecordNotFound, s => { s with ignoreRecordNotFound := c.ignoreRecordNotFound }
  | .parameterizedQueries, s => { s with parameterizedQueries := c.parameterizedQueries }

theorem mem_all (f : Field) : f ∈ all := by cases f <;> decide

theorem name_injective : Function.Injective name := fun f g h =>
  List.inj_on_of_nodup_map (show (all.map name).Nodup by decide) (mem_all f) (mem_all g) h

theorem flatten_words (c : LoggerConfig) (f : Field) : (memberWords f.name (f.words c)).flatten = f.text c := by
  rw [flatten_memberWords]
  cases f <;> simp [name, words, text]

end Field

/-- `s` with the settings of `c` that are listed. -/
def onto (c : LoggerConfig) (fields : List Field) (s : LoggerConfig) : LoggerConfig where
  level := if .level ∈ fields then c.level else s.level
  slowThresholdMs := if .slowThresholdMs ∈ fields then c.slowThresholdMs else s.slowThresholdMs
  ignoreRecordNotFound := if .ignoreRecordNotFound ∈ fields then c.ignoreRecordNotFound else s.ignoreRecordNotFound
  parameterizedQueries := if .parameterizedQueries ∈ fields then c.parameterizedQueries else s.parameterizedQueries

/-- The settings of `c` that are listed; every other one is the default. -/
def only (c : LoggerConfig) (fields : List Field) : LoggerConfig := c.onto fields {}

def words (c : LoggerConfig) (fields : List Field) : List (List Char) :=
  objectWords (fields.map fun f => memberWords f.name (f.words c))

theorem foldl_put (c : LoggerConfig) (fields : List Field) (s : LoggerConfig) :
    fields.foldl (fun s f => f.put c s) s = c.onto fields s := by
  induction fields generalizing s with
  | nil => simp [onto]
  | cons f fields ih =>
    rw [List.foldl_cons, ih]
    cases f <;> simp [onto, Field.put]

theorem flatten_words (c : LoggerConfig) (fields : List Field) :
    (c.words fields).flatten = objectText (fields.map fun f => f.text c) := by
  rw [words, flatten_objectWords, List.map_map]
  exact congrArg objectText (List.map_congr_left fun f _ => f.flatten_words c)

end LoggerConfig

theorem reads_level (l : LogLevel) : Reads readLevel [stringText l.name] l := by
  intro text h rest _
  obtain ⟨text', hnil, -, hskip⟩ := h.skip_string
  have hlevel : level l.name = .ok l := by rw [level, LogLevel.ofName?_name]
  simp only [readLevel, hskip, spaced_nil.mp hnil, List.nil_append, string_escaped, hlevel]
  rfl

theorem LoggerConfig.Field.known {c : LoggerConfig} (hc : c.slowThresholdMs < UInt64.size) (f : Field) :
    Knows loggerMembers f.name (f.words c) (f.put c) := by
  cases f with
  | level => exact ⟨_, rfl, fun s => (reads_level c.level).member _ _ s⟩
  | slowThresholdMs => exact ⟨_, rfl, fun s => (reads_natural hc).member _ _ s⟩
  | ignoreRecordNotFound => exact ⟨_, rfl, fun s => (reads_bool c.ignoreRecordNotFound).member _ _ s⟩
  | parameterizedQueries => exact ⟨_, rfl, fun s => (reads_bool c.parameterizedQueries).member _ _ s⟩

theorem reads_logger {c : LoggerConfig} (hc : c.slowThresholdMs < UInt64.size) {fields : List LoggerConfig.Field}
    (hfields : fields.Nodup) : Reads (readRecord loggerMembers {}) (c.words fields) (c.only fields) := by
  have hread := reads_record (fun f _ => LoggerConfig.Field.known hc f)
    (hfields.map LoggerConfig.Field.name_injective) {}
  rw [c.foldl_put] at hread
  exact hread

/-! ## The whole configuration -/

inductive Config.Field where
  | flag (f : Flag)
  | createClauses | queryClauses | updateClauses | deleteClauses
  | logger
  deriving DecidableEq, Repr

namespace Config

namespace Field

def all : List Field :=
  Flag.all.map .flag ++ [.createClauses, .queryClauses, .updateClauses, .deleteClauses, .logger]

/-- The name the setting is stored under. -/
def name : Field → String
  | .flag f => f.name
  | .createClauses => "create_clauses"
  | .queryClauses => "query_clauses"
  | .updateClauses => "update_clauses"
  | .deleteClauses => "delete_clauses"
  | .logger => "logger"

variable (c : Config) (ofLogger : List LoggerConfig.Field)

/-- The member as it is stored; of the logger only the settings that are listed. -/
def text : Field → List Char
  | .flag f => memberText f.name (boolText (f.get c))
  | .createClauses => memberText "create_clauses" (arrayText (c.createClauses.map stringText))
  | .queryClauses => memberText "query_clauses" (arrayText (c.queryClauses.map stringText))
  | .updateClauses => memberText "update_clauses" (arrayText (c.updateClauses.map stringText))
  | .deleteClauses => memberText "delete_clauses" (arrayText (c.deleteClauses.map stringText))
  | .logger => memberText "logger" (objectText (ofLogger.map fun f => f.text c.logger))

/-- The words of the value. -/
def words : Field → List (List Char)
  | .flag f => [boolText (f.get c)]
  | .createClauses => arrayWords (c.createClauses.map fun s => [stringText s])
  | .queryClauses => arrayWords (c.queryClauses.map fun s => [stringText s])
  | .updateClauses => arrayWords (c.updateClauses.map fun s => [stringText s])
  | .deleteClauses => arrayWords (c.deleteClauses.map fun s => [stringText s])
  | .logger => c.logger.words ofLogger

/-- `s` with the setting of `c`. -/
def put : Field → Config → Config
  | .flag f, s => f.set s (f.get c)
  | .createClauses, s => { s with createClauses := c.createClauses }
  | .queryClauses, s => { s with queryClauses := c.queryClauses }
  | .updateClauses, s => { s with updateClauses := c.updateClauses }
  | .deleteClauses, s => { s with deleteClauses := c.deleteClauses }
  | .logger, s => { s with logger := c.logger.only ofLogger }

theorem mem_all (f : Field) : f ∈ all := by
  rcases f with f | _ | _ | _ | _ | _
  · cases f <;> decide
  all_goals decide

theorem name_injective : Function.Injective name := fun f g h =>
  List.inj_on_of_nodup_map (show (all.map name).Nodup by decide) (mem_all f) (mem_all g) h

theorem flatten_words (f : Field) : (memberWords f.name (f.words c ofLogger)).flatten = f.text c ofLogger := by
  rw [flatten_memberWords]
  cases f <;> simp [name, words, text, flatten_arrayWords, LoggerConfig.flatten_words, Function.comp_def]

end Field

/-- `s` with the settings of `c` that are listed; of the logger those in the second list. -/
def onto (c : Config) (fields : List Field) (ofLogger : List LoggerConfig.Field) (s : Config) : Config where
  dryRun := if .flag .dryRun ∈ fields then c.dryRun else s.dryRun
  skipHooks := if .flag .skipHooks ∈ fields then c.skipHooks else s.skipHooks
  skipDefaultSteps := if .flag .skipDefaultSteps ∈ fields then c.skipDefaultSteps else s.skipDefaultSteps
  allowGlobalUpdate := if .flag .allowGlobalUpdate ∈ fields then c.allowGlobalUpdate else s.allowGlobalUpdate
  lastInsertIdReversed :=
    if .flag .lastInsertIdReversed ∈ fields then c.lastInsertIdReversed else s.lastInsertIdReversed
  createClauses := if .createClauses ∈ fields then c.createClauses else s.createClauses
  queryClauses := if .queryClauses ∈ fields then c.queryClauses else s.queryClauses
  updateClauses := if .updateClauses ∈ fields then c.updateClauses else s.updateClauses
  deleteClauses := if .deleteClauses ∈ fields then c.deleteClauses else s.deleteClauses
  logger := if .logger ∈ fields then c.logger.only ofLogger else s.logger

/-- The settings of `c` that are listed; every other one is the default. -/
def only (c : Config) (fields : List Field) (ofLogger : List LoggerConfig.Field) : Config := c.onto fields ofLogger {}

def words (c : Config) (fields : List Field) (ofLogger : List LoggerConfig.Field) : List (List Char) :=
  objectWords (fields.map fun f => memberWords f.name (f.words c ofLogger))

/-- The stored text with the settings that are listed, in this order. -/
def jsonOf (c : Config) (fields : List Field) (ofLogger : List LoggerConfig.Field) : String :=
  String.ofList (objectText (fields.map fun f => f.text c ofLogger))

theorem jsonOf_all (c : Config) : c.jsonOf Field.all LoggerConfig.Field.all = c.json := rfl

theorem only_all (c : Config) : c.only Field.all LoggerConfig.Field.all = c := rfl

theorem foldl_put (c : Config) (fields : List Field) (ofLogger : List LoggerConfig.Field) (s : Config) :
    fields.foldl (fun s f => f.put c ofLogger s) s = c.onto fields ofLogger s := by
  induction fields generalizing s with
  | nil => simp [onto]
  | cons f fields ih =>
    rw [List.foldl_cons, ih]
    rcases f with f | _ | _ | _ | _ | _
    · cases f <;> simp [onto, Field.put, Flag.set, Flag.get]
    all_goals simp [onto, Field.put]

theorem flatten_words (c : Config) (fields : List Field) (ofLogger : List LoggerConfig.Field) :
    (c.words fields ofLogger).flatten = objectText (fields.map fun f => f.text c ofLogger) := by
  rw [words, flatten_objectWords, List.map_map]
  exact congrArg objectText (List.map_congr_left fun f _ => f.flatten_words c ofLogger)

theorem Field.known {c : Config} (hc : c.logger.slowThresholdMs < UInt64.size) {ofLogger : List LoggerConfig.Field}
    (hlogger : ofLogger.Nodup) (f : Field) : Knows configMembers f.name (f.words c ofLogger) (f.put c ofLogger) := by
  cases f with
  | flag f => cases f <;> exact ⟨_, rfl, fun s => (reads_bool _).member _ _ s⟩
  | createClauses => exact ⟨_, rfl, fun s => (reads_strings c.createClauses).member _ _ s⟩
  | queryClauses => exact ⟨_, rfl, fun s => (reads_strings c.queryClauses).member _ _ s⟩
  | updateClauses => exact ⟨_, rfl, fun s => (reads_strings c.updateClauses).member _ _ s⟩
  | deleteClauses => exact ⟨_, rfl, fun s => (reads_strings c.deleteClauses).member _ _ s⟩
  | logger => exact ⟨_, rfl, fun s => (reads_logger hc hlogger).member _ _ s⟩

theorem reads_config {c : Config} (hc : c.logger.slowThresholdMs < UInt64.size) {fields : List Field}
    (hfields : fields.Nodup) {ofLogger : List LoggerConfig.Field} (hlogger : ofLogger.Nodup) :
    Reads (readRecord configMembers {}) (c.words fields ofLogger) (c.only fields ofLogger) := by
  have hread := reads_record (fun f _ => Field.known hc hlogger f) (hfields.map Field.name_injective) {}
  rw [c.foldl_put] at hread
  exact hread

theorem ofJson_spaced {c : Config} (hc : c.logger.slowThresholdMs < UInt64.size) {fields : List Field}
    (hfields : fields.Nodup) {ofLogger : List LoggerConfig.Field} (hlogger : ofLogger.Nodup) {text behind : List Char}
    (h : Spaced (c.words fields ofLogger) text) (hbehind : ∀ b ∈ behind, isBlank b = true) :
    ofJson (String.ofList (text ++ behind)) = .ok (c.only fields ofLogger) := by
  have hends : Ends behind := fun b hb => .inl (hbehind b (List.mem_of_mem_head? hb))
  have hend : skipBlanks behind = [] := by
    rw [skipBlanks, List.dropWhile_eq_nil_iff]
    exact hbehind
  rw [ofJson, String.toList_ofList, reads_config hc hfields hlogger text h behind hends]
  dsimp only
  rw [hend]
  rfl

/-- A text with some of the settings, in any order and with any blanks, gives these settings and
    the default of every other one; the full text gives the configuration back. -/
theorem ofJson_restores (c : Config) (hc : c.logger.slowThresholdMs < UInt64.size) (fields : List Field)
    (hfields : fields.Nodup) (ofLogger : List LoggerConfig.Field) (hlogger : ofLogger.Nodup) :
    ofJson (c.jsonOf fields ofLogger) = .ok (c.only fields ofLogger) ∧
      (∀ text behind : List Char, Spaced (c.words fields ofLogger) text → (∀ b ∈ behind, isBlank b = true) →
        ofJson (String.ofList (text ++ behind)) = .ok (c.only fields ofLogger)) ∧
      ofJson c.json = .ok c := by
  have hcompact (fields : List Field) (hfields : fields.Nodup) (ofLogger : List LoggerConfig.Field)
      (hlogger : ofLogger.Nodup) : ofJson (c.jsonOf fields ofLogger) = .ok (c.only fields ofLogger) := by
    have h := ofJson_spaced hc hfields hlogger (spaced_flatten _) (List.forall_mem_nil _)
    rw [List.append_nil, c.flatten_words] at h
    exact h
  refine ⟨hcompact fields hfields ofLogger hlogger, fun text behind h hbehind => ?_, ?_⟩
  · exact ofJson_spaced hc hfields hlogger h hbehind
  · have h := hcompact Field.all (by decide) LoggerConfig.Field.all (by decide)
    rw [jsonOf_all, only_all] at h
    exact h

theorem ofJson_restores_logger_first :
    ofJson ("\x7b\"logger\":\x7b\"slow_threshold_ms\":18446744073709551615,\"level\":\"info\"\x7d," ++
        "\"query_clauses\":[\"say \\\"no\\\"\",\"\\\\ä\\n\\u0001\"]\x7d") =
      .ok { queryClauses := ["say \"no\"", "\\ä\n\x01"],
            logger := { level := .info, slowThresholdMs := 18446744073709551615 } } := by
  have h := ofJson_restores
    { dryRun := true, queryClauses := ["say \"no\"", "\\ä\n\x01"],
      logger := { level := .info, slowThresholdMs := 18446744073709551615, parameterizedQueries := true } }
    (by decide) [.logger, .queryClauses] (by decide) [.slowThresholdMs, .level] (by decide)
  exact Eq.trans (congrArg ofJson (by decide +kernel)) h.1

end Config

end SqlPipeline
