/-
  SqlPipeline.Settings.Stored — the configuration as it is stored: JSON text.

  What is written has every setting, in a fixed order. What is read may leave settings out
  and give them in any order.
-/

import SqlPipeline.JsonText.Record
import SqlPipeline.JsonText.Writer
import SqlPipeline.Settings.Basic

namespace SqlPipeline

/-! ## Writing -/

open JsonText in
def LoggerConfig.members (c : LoggerConfig) : List (List Char) :=
  [memberText "level" (stringText c.level.name), memberText "slow_threshold_ms" (naturalText c.slowThresholdMs),
    memberText "ignore_record_not_found" (boolText c.ignoreRecordNotFound),
    memberText "parameterized_queries" (boolText c.parameterizedQueries)]

open JsonText in
def Config.members (c : Config) : List (List Char) :=
  (Flag.all.map fun f => memberText f.name (boolText (f.get c))) ++
    [memberText "create_clauses" (arrayText (c.createClauses.map stringText)),
      memberText "query_clauses" (arrayText (c.queryClauses.map stringText)),
      memberText "update_clauses" (arrayText (c.updateClauses.map stringText)),
      memberText "delete_clauses" (arrayText (c.deleteClauses.map stringText)),
      memberText "logger" (objectText c.logger.members)]

def Config.json (c : Config) : String := String.ofList (JsonText.objectText c.members)

/-! ## Reading -/

namespace JsonText

/-- A level by its name; an unknown name is a mismatch. -/
def level (name : String) : Except Fault LogLevel :=
  match LogLevel.ofName? name with
  | some l => .ok l
  | none => .error .mismatch

/-- A level is its name, or an object with the name as its only member and null in it. -/
def readLevel (cs : List Char) : Reading LogLevel :=
  match skipBlanks cs with
  | [] => .error .truncated
  | '"' :: rest =>
    match string rest with
    | .ok (name, rest) => (level name).map (·, rest)
    | .error f => .error f
  | '\x7b' :: rest =>
    match (nameQuote rest).bind string with
    | .error f => .error f
    | .ok (name, rest) =>
      match level name with
      | .error f => .error f
      | .ok l => (((colon rest).bind readNull).bind closingBrace).map (l, ·)
  | _ => .error .malformed

def loggerMembers : List (Member LoggerConfig) :=
  [.of "level" readLevel fun c level => { c with level },
    .of "slow_threshold_ms" readNatural fun c slowThresholdMs => { c with slowThresholdMs },
    .of "ignore_record_not_found" readBool fun c ignoreRecordNotFound => { c with ignoreRecordNotFound },
    .of "parameterized_queries" readBool fun c parameterizedQueries => { c with parameterizedQueries }]

def configMembers : List (Member Config) :=
  (Flag.all.map fun f => Member.of f.name readBool fun c on => f.set c on) ++
    [.of "create_clauses" readStringArray fun c createClauses => { c with createClauses },
      .of "query_clauses" readStringArray fun c queryClauses => { c with queryClauses },
      .of "update_clauses" readStringArray fun c updateClauses => { c with updateClauses },
      .of "delete_clauses" readStringArray fun c deleteClauses => { c with deleteClauses },
      .of "logger" (readRecord loggerMembers {}) fun c logger => { c with logger }]

end JsonText

open JsonText in
/-- The configuration that a text describes. Nothing but blanks may follow it. -/
def Config.ofJson (text : String) : Except Fault Config :=
  match readRecord configMembers {} text.toList with
  | .error f => .error f
  | .ok (c, rest) => if (skipBlanks rest).isEmpty then .ok c else .error .malformed

end SqlPipeline
