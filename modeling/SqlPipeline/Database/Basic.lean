/-
  SqlPipeline.Database.Basic — a database handle and what can be asked of it.

  A handle owns its settings and a stage per operation. Stages are changed by registering
  entries; statements run against the stages as they are. Statements borrow records from
  the handle's table and give them back, changed, when the run is over.

  Each answer reports the effects of its own kind that no answer has reported before: a
  registration log entries and events, a look-up events, a run everything.
-/

import SqlPipeline.Database.Chain
import SqlPipeline.Record.Description
import SqlPipeline.Record.Destination

namespace SqlPipeline

/-- A record borrowed from a table. -/
structure Borrowed where
  index : Nat
  record : Destination Row

namespace Borrowed

def withRecord (b : Borrowed) (a : Attempt (Destination Row)) : Attempt Borrowed :=
  a.map fun record => { b with record }

instance : Record Borrowed where
  schema b := Record.schema b.record
  resolve b := let (record, shape) := Record.resolve b.record; ({ b with record }, shape)
  size b := Record.size b.record
  value b := Record.value b.record
  setValue b row column v := b.withRecord (Record.setValue b.record row column v)
  columns b := Record.columns b.record
  scan b rows := b.withRecord (Record.scan b.record rows)
  callHook h b :=
    let run := Record.callHook h b.record
    { record := { b with record := run.record }, visited := run.visited, error := run.error }
  modifier b := (Record.modifier b.record).map fun modify v => (modify v).map (fun record => { b with record }) id

end Borrowed

structure Database where
  env : Env
  stages : StageKind → Stage Action
  pool : Pool := {}
  records : List (Destination Row) := []
  /-- Effects that are still to be reported. -/
  pending : List Effect := []

namespace Effect

def isLog : Effect → Bool
  | .logged _ => true
  | _ => false

def isCall : Effect → Bool
  | .called _ => true
  | _ => false

def isEvent (e : Effect) : Bool := !e.isLog && !e.isCall

end Effect

inductive Command where
  | register (stage : StageKind) (s : Step Action)
  /-- Runs the action of a step on a fresh statement. -/
  | lookup (stage : StageKind) (name : String)
  | state (stage : StageKind)
  | setPool (f : Pool → Pool)
  /-- The first phase starts with a fresh statement, each other goes on with the last one. -/
  | run (phases : List (Phase Nat))

/-- A statement at the end of a phase, and what happened in it. -/
structure Report where
  statement : Statement Borrowed
  effects : List Effect

inductive Answer where
  | registered (stage : Stage Action) (result : Except Conflict Unit) (effects : List Effect)
  | notFound
  | found (error : Option Error) (effects : List Effect)
  | state (stage : Stage Action)
  | done
  | ran (reports : List Report) (result : Except Error Nat) (records : List (Destination Row))

namespace Database

/-! ## Registration -/

def register (db : Database) (kind : StageKind) (s : Step Action) : Database × Except Conflict Unit :=
  let done := (db.stages kind).register db.env.config s
  ({ db with
      stages := fun k => if k = kind then done.stage else db.stages k
      pending := db.pending ++ done.asked.map .asked ++
        (done.notices.flatMap fun n => db.env.logger.log n.1 n.2).map .logged },
    done.result)

/-- A handle with the built-in steps, unless the configuration leaves them out. -/
def openWith (env : Env) (records : List (Destination Row)) : Database :=
  let bare : Database := { env, stages := Stage.new env.config, records }
  if env.config.skipDefaultSteps then bare
  else
    StageKind.all.foldl
      (fun db kind => (BuiltIn.ofStage kind).foldl (fun db b => (db.register kind b.step).1) db) bare

/-- The pending effects of a kind, which then are pending no more. -/
def report (db : Database) (p : Effect → Bool) : Database × List Effect :=
  ({ db with pending := db.pending.filter (!p ·) }, db.pending.filter p)

/-! ## Running -/

def putBack (records : List (Destination Row)) : Option (Slot Borrowed) → List (Destination Row)
  | some (.value b) => records.set b.index b.record
  | _ => records

/-- The table with the records a statement holds. -/
def giveBack (db : Database) (s : Statement Borrowed) : Database :=
  { db with records := putBack (putBack db.records s.model) s.dest }

def borrow (db : Database) (index : Nat) : Borrowed := ⟨index, db.records[index]?.getD (.map {})⟩

/-- Does one thing to a statement. What the statement held before is given back first, for
    it may be exchanged. -/
def advance (db : Database) (s : Statement Borrowed) (f : Run Borrowed → Run Borrowed) :
    Database × Statement Borrowed :=
  let db := db.giveBack s
  let r := f { statement := s, pool := db.pool }
  ({ db with pool := r.pool, pending := db.pending ++ r.effects }, r.statement)

def runPhase (db : Database) (s : Statement Borrowed) (p : Phase Nat) : Database × Statement Borrowed :=
  let (db, s) := p.links.foldl
    (fun (db, s) link => db.advance s fun r => (link.map db.borrow).apply db.env r) (db, s)
  db.advance s fun r => (p.finisher.map db.borrow).apply db.env db.stages r

def runPhases (db : Database) (s : Statement Borrowed) :
    List (Phase Nat) → Database × Statement Borrowed × List Report
  | [] => (db.giveBack s, s, [])
  | p :: phases =>
    let (db, s) := db.runPhase s p
    let report : Report := ⟨s, db.pending⟩
    let (db, last, reports) := { db with pending := [] }.runPhases s phases
    (db, last, report :: reports)

/-- Runs an action on a fresh statement, which is then dropped. -/
def tryOut (db : Database) (action : Action) : Database × Option Error :=
  let (db, s) := db.advance (Statement.fresh db.env.config) fun r => action.run db.env r
  (db, s.error)

def step (db : Database) : Command → Database × Answer
  | .register kind s =>
    let (db, result) := db.register kind s
    let (db, effects) := db.report fun e => !e.isCall
    (db, .registered (db.stages kind) result effects)
  | .lookup kind name =>
    match (db.stages kind).lookup name with
    | none => (db, .notFound)
    | some action =>
      let (db, error) := db.tryOut action
      let (db, effects) := db.report Effect.isEvent
      (db, .found error effects)
  | .state kind => (db, .state (db.stages kind))
  | .setPool f => ({ db with pool := f db.pool }, .done)
  | .run phases =>
    let (db, s, reports) := db.runPhases (Statement.fresh db.env.config) phases
    (db, .ran reports s.result db.records)

end Database

end SqlPipeline
