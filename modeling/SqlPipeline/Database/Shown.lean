/-
  SqlPipeline.Database.Shown — a handle or a stage as it is shown to developers.

  Every part is shown by name: settings, dialect, and for each stage its clauses, all its
  entries and its order. Two dots stand for what is not shown.
-/

import SqlPipeline.Database.Basic
import SqlPipeline.Text.Quoted

namespace SqlPipeline

namespace Shown

/-- A name and its fields in braces. -/
def fields (name : String) (parts : List String) : String :=
  name ++ " \x7b " ++ ", ".intercalate parts ++ " \x7d"

def part (name text : String) : String := name ++ ": " ++ text

def list (texts : List String) : String := "[" ++ ", ".intercalate texts ++ "]"

def texts (xs : List String) : String := list (xs.map Text.quoted)

def bool (b : Bool) : String := if b then "true" else "false"

def option {α : Type} (f : α → String) : Option α → String
  | none => "None"
  | some x => "Some(" ++ f x ++ ")"

def level : LogLevel → String
  | .silent => "Silent"
  | .error => "Error"
  | .warn => "Warn"
  | .info => "Info"

def loggerConfig (c : LoggerConfig) : String :=
  fields "LoggerConfig"
    [part "level" (level c.level), part "slow_threshold_ms" c.slowThresholdMs.repr,
      part "ignore_record_not_found" (bool c.ignoreRecordNotFound),
      part "parameterized_queries" (bool c.parameterizedQueries)]

def config (c : Config) : String :=
  fields "Config"
    ((Flag.all.map fun f => part f.name (bool (f.get c))) ++
      [part "create_clauses" (texts c.createClauses), part "query_clauses" (texts c.queryClauses),
        part "update_clauses" (texts c.updateClauses), part "delete_clauses" (texts c.deleteClauses),
        part "logger" (loggerConfig c.logger)])

def kind : StageKind → String
  | .create => "Create"
  | .query => "Query"
  | .update => "Update"
  | .delete => "Delete"
  | .row => "Row"
  | .raw => "Raw"

def anchor : Anchor → String
  | .all => "All"
  | .step name => "Step(" ++ Text.quoted name ++ ")"

def step {α : Type} (s : Step α) : String :=
  fields "Step"
    [part "name" (Text.quoted s.name), part "before" (option anchor s.before), part "after" (option anchor s.after),
      part "conditional" (bool s.condition.isSome), part "tombstoned" (bool s.isRemoval),
      part "replacing" (bool s.isReplacement), part "location" s.site.label]

end Shown

open Shown in
def Stage.shown {α : Type} (st : Stage α) : String :=
  fields "Stage"
    [part "kind" (Shown.kind st.kind), part "clauses" (texts st.clauses),
      part "steps" (list (st.entries.map Shown.step)), part "order" (option texts st.order?), ".."]

open Shown in
def Database.shown (db : Database) : String :=
  fields "Database"
    [part "config" (Shown.config db.env.config), part "dialect" (Text.quoted db.env.dialect.name),
      part "callbacks" (fields "Callbacks" (StageKind.all.map fun k => part k.name (db.stages k).shown)),
      ".."]

end SqlPipeline
