/-
  SqlPipeline.Outcome.Error — what goes wrong while a pipeline is compiled or a statement runs.

  A statement keeps every error it meets, the oldest first. Joining flattens the outermost
  level only, so the tree of an error depends on how it was gathered; its leaves do not.
-/

import SqlPipeline.Pipeline.StageKind
import SqlPipeline.Pipeline.Step

namespace SqlPipeline

inductive Error where
  | conflict (c : Conflict)
  /-- The stage did not compile and has nothing to run. -/
  | stale (stage : StageKind)
  /-- The destination is of no usable kind. -/
  | unusableDestination
  | invalidData (what : String)
  /-- The value does not describe a table. -/
  | untabled (what : String)
  /-- The value does not describe a table and none was named. -/
  | tableNotSet (what : String)
  | emptyBatch
  /-- An update or delete would touch every row. -/
  | missingConditions
  | recordNotFound
  | database (what : String)
  | validation (what : String)
  | several (errors : List Error)
  deriving Repr

namespace Error

mutual

/-- The text shown to people. -/
def message : Error → String
  | .conflict c => c.message
  | .stale stage => stage.name ++ " pipeline is stale: its last compilation failed"
  | .unusableDestination =>
    "invalid value: destination must resolve to a record, a list of records or a map"
  | .invalidData what => "invalid data: " ++ what
  | .untabled what => "unsupported data type: " ++ what
  | .tableNotSet what =>
    "unsupported data type: " ++ what ++ ": table not set, use `.model(..)` or `.table(..)`"
  | .emptyBatch => "empty slice found"
  | .missingConditions => "WHERE conditions required"
  | .recordNotFound => "record not found"
  | .database what => "database error: " ++ what
  | .validation what => "validation error: " ++ what
  | .several errors => "; ".intercalate (messages errors)

def messages : List Error → List String
  | [] => []
  | e :: es => message e :: messages es

end

mutual

/-- Whether `p` holds of some single error in the tree. -/
def any (p : Error → Bool) : Error → Bool
  | .several errors => anyOf p errors
  | e => p e

def anyOf (p : Error → Bool) : List Error → Bool
  | [] => false
  | e :: es => any p e || anyOf p es

end

/-- This error and then the other. -/
def join : Error → Error → Error
  | .several errors, .several more => .several (errors ++ more)
  | .several errors, e => .several (errors ++ [e])
  | e, e' => .several [e, e']

/-- An error added to those met before. -/
def added (e : Error) : Option Error → Error
  | none => e
  | some before => before.join e

def isRecordNotFound : Error → Bool
  | .recordNotFound => true
  | _ => false

end Error

end SqlPipeline
