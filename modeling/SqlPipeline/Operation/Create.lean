/-
  SqlPipeline.Operation.Create — inserting a destination's rows.

  An insert is written from the destination's values and the clauses that are there. A
  clause for colliding rows that asks to update everything is spelled out first. What the
  dialect can return comes back as rows; otherwise the database reports a count and
  perhaps an id.
-/

import SqlPipeline.Operation.Create.KeyReturn
import SqlPipeline.Operation.Create.Values
import SqlPipeline.Statement.Run

namespace SqlPipeline

namespace Operation

variable {ρ : Type} [Record ρ]

/-! ## Collisions -/

/-- What an update of a colliding row does with one inserted column: keys, columns the
    database fills and creation times keep their value, update times are stamped, all else
    is taken from the proposed row. -/
def overwrite (schema : Schema) (now : Instant) (c : OnConflict) (column : String) : OnConflict :=
  match schema.field? column with
  | none => c
  | some f =>
    if f.primaryKey || f.hasDefault || f.autoCreateTime then c
    else if f.autoUpdateTime then { c with updates := c.updates ++ [{ column, value := .timestamp now }] }
    else { c with updateColumns := c.updateColumns ++ [column] }

/-- A clause that updates everything, spelled out. -/
def expanded (schema : Schema) (now : Instant) (columns : List String) (c : OnConflict) : OnConflict :=
  let c := columns.foldl (overwrite schema now) c
  { c with
    doNothing := c.ignores
    target := if c.target.isEmpty then (schema.fields.filter (·.primaryKey)).map (·.name) else c.target
    updateAll := false }

/-- Spells out the statement's collision clause, if it asks for that. -/
def expandOnConflict (env : Env) (columns : List String) (s : Statement ρ) : Except Error (Statement ρ) :=
  match s.clause? "ON CONFLICT" with
  | some (.onConflict c) =>
    if env.dialect.upsert then
      match s.schema with
      | some schema =>
        if c.updateAll && !columns.isEmpty then
          .ok (s.addClause (.onConflict (expanded schema env.now columns c)))
        else .ok s
      | none => .ok s
    else .error (.invalidData (env.dialect.name ++ " dialect does not support ON CONFLICT"))
  | _ => .ok s

/-- The columns to be returned: those the database fills, where dialect and statement
    allow it. -/
def returnedColumns (env : Env) (s : Statement ρ) : List String :=
  if env.dialect.returning && s.writes "RETURNING" then
    ((s.schema.map (·.fields)).getD []).filterMap fun f => if f.hasDefault then some f.name else none
  else []

/-- Writes the insert, or records why it cannot. -/
def prepareInsert (env : Env) (s : Statement ρ) : Statement ρ :=
  match s.tableName? with
  | none => s.addError (.invalidData "create needs a model or a table")
  | some table =>
    let s := s.addClauseIfAbsent (.insert table none)
    match s.destination? with
    | none => s.addError .unusableDestination
    | some dest =>
      let (dest, values) := collectValues env.now s.shape s.schema dest
      let s := s.setDestination dest
      match values with
      | .error e => s.addError e
      | .ok values =>
        match expandOnConflict env values.columns s with
        | .error e => (s.addClause (.values values.columns values.rows)).addError e
        | .ok s =>
          let s := s.addClause (.values values.columns values.rows)
          let returned := returnedColumns env s
          let s := if returned.isEmpty then s else s.addClauseIfAbsent (.returning returned)
          s.buildDefault env.dialect

/-! ## Writing keys back -/

/-- The key by which rows are passed over: only when colliding rows return nothing. -/
def skippingKey? (s : Statement ρ) : Option String :=
  match s.clause? "ON CONFLICT" with
  | some (.onConflict c) => if c.doNothing then (s.schema.bind Schema.primary?).map (·.name) else none
  | _ => none

/-- Writes into the destination, if there is one, and records a failure. -/
def writeBack (f : ρ → Attempt ρ) (s : Statement ρ) : Statement ρ :=
  match s.destination? with
  | none => s
  | some dest =>
    let done := f dest
    (s.setDestination done.state).note done.error

def takeReturned (rows : Rows) (s : Statement ρ) : Statement ρ :=
  let key := skippingKey? s
  writeBack (fun dest => writeReturned rows.columns key (Record.size dest) rows.values 0 dest)
    { s with rowsAffected := rows.size }

def takeInserted (env : Env) (affected : Nat) (id : Option Int) (s : Statement ρ) : Statement ρ :=
  let s := { s with rowsAffected := affected }
  match id with
  | none => s
  | some id =>
    if affected = 0 ∨ id ≤ 0 then s
    else
      let key := ((s.schema.bind Schema.primary?).filter Field.hasDefault).map (·.name)
      writeBack (writeInsertId env.config.lastInsertIdReversed s.shape key id) s

/-- Sends the insert and takes its keys. -/
def sendInsert (env : Env) (r : Run ρ) : Run ρ :=
  if (r.statement.clause? "RETURNING").isSome && r.statement.writes "RETURNING" then
    match r.query with
    | (r, .ok rows) => r.modify (takeReturned rows)
    | (r, .error e) => r.addError e
  else
    match r.exec with
    | (r, .ok (affected, id)) => r.modify (takeInserted env affected id)
    | (r, .error e) => r.addError e

def create (env : Env) (r : Run ρ) : Run ρ :=
  if r.failed then r
  else
    let r := if r.statement.hasText then r else r.modify (prepareInsert env)
    if r.statement.dryRun || r.failed then r else sendInsert env r

end Operation

end SqlPipeline
