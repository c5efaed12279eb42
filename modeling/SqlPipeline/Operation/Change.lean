/-
  SqlPipeline.Operation.Change — updates, deletes and statements given as text.

  An update sets what was assigned and stamps the update times; without assignments a
  single record saves its non-zero columns. What is set is written to the destination
  too. Neither an update nor a delete is sent without a condition, unless the
  configuration allows it.
-/

import SqlPipeline.Operation.Keys
import SqlPipeline.Statement.Run

namespace SqlPipeline

namespace Operation

variable {ρ : Type} [Record ρ]

/-! ## Assignments -/

/-- The non-zero values of a record's fields, update times stamped. Keys and creation times
    are left alone. -/
def savedColumns (now : Value) : List Field → ρ → ρ × Except Error (List Assignment)
  | [], dest => (dest, .ok [])
  | f :: fields, dest =>
    if f.primaryKey || f.autoCreateTime then savedColumns now fields dest
    else
      let written := if f.autoUpdateTime then Record.setValue dest 0 f.name now else ⟨dest, none⟩
      match written.error with
      | some e => (written.state, .error e)
      | none =>
        let saved := if f.autoUpdateTime then some now else Record.value written.state 0 f.name
        let (dest, rest) := savedColumns now fields written.state
        (dest, rest.map (((saved.filter (!·.isZero)).map fun value => { column := f.name, value }).toList ++ ·))

/-- Assignments with the update times added that are not assigned. -/
def stamped (now : Value) (assignments : List Assignment) (fields : List Field) : List Assignment :=
  (fields.filter (·.autoUpdateTime)).foldl
    (fun set f => if set.any (·.column == f.name) then set else set ++ [{ column := f.name, value := now }])
    assignments

/-- Writes the assigned columns that the schema knows into one row. -/
def assignRow (schema : Schema) (row : Nat) : List Assignment → ρ → Attempt ρ
  | [], dest => ⟨dest, none⟩
  | a :: rest, dest =>
    if (schema.field? a.column).isSome then
      match Record.setValue dest row a.column a.value with
      | ⟨dest, none⟩ => assignRow schema row rest dest
      | failed => failed
    else assignRow schema row rest dest

def assignRows (schema : Schema) (assignments : List Assignment) : List Nat → ρ → Attempt ρ
  | [], dest => ⟨dest, none⟩
  | row :: rows, dest =>
    match assignRow schema row assignments dest with
    | ⟨dest, none⟩ => assignRows schema assignments rows dest
    | failed => failed

/-- The destination after an update, and what to set. -/
def collectAssignments (now : Value) (shape : Shape) (schema : Schema) (queued : List Assignment) (dest : ρ) :
    ρ × Except Error (List Assignment) :=
  if queued.isEmpty then
    if shape = .record then savedColumns now schema.fields dest
    else (dest, .error (.invalidData "saving every column needs a single record"))
  else
    let set := stamped now queued schema.fields
    match assignRows schema set (List.range (Record.size dest)) dest with
    | ⟨dest, none⟩ => (dest, .ok set)
    | ⟨dest, some e⟩ => (dest, .error e)

/-- The statement after an update, and what to set. Without schema or destination it is
    what was assigned. -/
def assignmentsOf (env : Env) (s : Statement ρ) : Statement ρ × Except Error (List Assignment) :=
  match s.schema, s.destination? with
  | some schema, some dest =>
    let (dest, set) := collectAssignments (.timestamp env.now) s.shape schema s.assignments dest
    (s.setDestination dest, set)
  | _, _ => (s, .ok s.assignments)

/-! ## The statements -/

/-- Writes the statement if it has a condition or needs none. -/
def buildGuarded (env : Env) (s : Statement ρ) : Statement ρ :=
  if s.hasConditions || env.config.allowGlobalUpdate then s.buildDefault env.dialect
  else s.addError .missingConditions

/-- Writes the update, or records why it cannot; also whether there is anything to set. -/
def prepareUpdate (env : Env) (s : Statement ρ) : Statement ρ × Bool :=
  match s.tableName? with
  | none => (s.addError (.invalidData "update needs a model or a table"), true)
  | some table =>
    match assignmentsOf env (s.addClauseIfAbsent (.update table)) with
    | (s, .error e) => (s.addError e, true)
    | (s, .ok []) => (s, false)
    | (s, .ok set) => (buildGuarded env (addKeyCondition (s.addClause (.set set))), true)

def prepareDelete (env : Env) (s : Statement ρ) : Statement ρ :=
  match s.tableName? with
  | none => s.addError (.invalidData "delete needs a model or a table")
  | some table =>
    buildGuarded env (addKeyCondition ((s.addClauseIfAbsent .delete).addClauseIfAbsent (.from [table])))

/-- Sends a statement without rows and takes the number affected. -/
def send (r : Run ρ) : Run ρ :=
  if r.statement.dryRun || r.failed then r
  else
    match r.exec with
    | (r, .ok (affected, _)) => r.modify fun s => { s with rowsAffected := affected }
    | (r, .error e) => r.addError e

def update (env : Env) (r : Run ρ) : Run ρ :=
  if r.failed then r
  else if r.statement.hasText then send r
  else
    let (s, sets) := prepareUpdate env r.statement
    let r := { r with statement := s }
    if sets then send r else r

def delete (env : Env) (r : Run ρ) : Run ρ :=
  if r.failed then r
  else if r.statement.hasText then send r
  else send (r.modify (prepareDelete env))

/-- Sends the text as it is. -/
def raw (r : Run ρ) : Run ρ := if r.failed then r else send r

end Operation

end SqlPipeline
