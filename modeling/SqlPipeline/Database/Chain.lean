/-
  SqlPipeline.Database.Chain — building a statement link by link and finishing it.

  A finisher runs the stage of its operation. `first` is a find limited to one row, ordered
  by the primary key of its destination, for which no row is an error.
-/

import SqlPipeline.Operation.Execution

namespace SqlPipeline

inductive Link (ρ : Type) where
  | table (name : String)
  | model (record : ρ)
  | suchThat (e : Expression)
  | order (column : String) (descending : Bool)
  | limit (n : Nat)
  | offset (n : Nat)
  | select (columns : List String)
  /-- Deferred until the statement executes. -/
  | scope (edits : List Edit)
  | dryRun
  | skipHooks
  | assign (a : Assignment)
  | raw (sql : String) (values : List Value)
  /-- Carried out at once. -/
  | edit (edits : List Edit)

inductive Finisher (ρ : Type) where
  | create (record : ρ)
  | find (record : ρ)
  | first (record : ρ)
  | update (a : Assignment)
  | updates (assignments : List Assignment)
  | delete
  | rows
  | exec
  /-- Runs a stage on the statement as it is. -/
  | execute (stage : StageKind)

variable {ρ σ : Type}

def Link.map (f : ρ → σ) : Link ρ → Link σ
  | .table name => .table name
  | .model record => .model (f record)
  | .suchThat e => .suchThat e
  | .order column descending => .order column descending
  | .limit n => .limit n
  | .offset n => .offset n
  | .select columns => .select columns
  | .scope edits => .scope edits
  | .dryRun => .dryRun
  | .skipHooks => .skipHooks
  | .assign a => .assign a
  | .raw sql values => .raw sql values
  | .edit edits => .edit edits

def Finisher.map (f : ρ → σ) : Finisher ρ → Finisher σ
  | .create record => .create (f record)
  | .find record => .find (f record)
  | .first record => .first (f record)
  | .update a => .update a
  | .updates assignments => .updates assignments
  | .delete => .delete
  | .rows => .rows
  | .exec => .exec
  | .execute stage => .execute stage

variable [Record ρ]

def Link.apply (env : Env) (r : Run ρ) : Link ρ → Run ρ
  | .table name => r.modify fun s => { s with table := some name }
  | .model record => r.modify fun s => { s with model := some (.value record) }
  | .suchThat e => r.modify (·.suchThat e)
  | .order column descending => r.modify (·.order column descending)
  | .limit n => r.modify (·.limit n)
  | .offset n => r.modify (·.offset n)
  | .select columns => r.modify (·.select columns)
  | .scope edits => r.modify (·.defer edits)
  | .dryRun => r.modify fun s => { s with dryRun := true }
  | .skipHooks => r.modify fun s => { s with skipHooks := true }
  | .assign a => r.modify (·.assign a)
  | .raw sql values => r.modify (·.raw env.dialect sql values)
  | .edit edits => r.edits env edits

namespace Finisher

def withDestination (record : ρ) (r : Run ρ) : Run ρ := r.modify fun s => { s with dest := some (.value record) }

/-- One row, the one with the least key. -/
def narrowToFirst (record : ρ) (s : Statement ρ) : Statement ρ :=
  let s := { s with raiseNotFound := true }
  let key := (Record.schema record).toOption.bind Schema.primary?
  (key.elim s fun f => s.order f.name false).limit 1

def apply (env : Env) (stages : StageKind → Stage Action) (r : Run ρ) : Finisher ρ → Run ρ
  | .create record => (stages .create).execute env (withDestination record r)
  | .find record => (stages .query).execute env (withDestination record r)
  | .first record => (stages .query).execute env (withDestination record (r.modify (narrowToFirst record)))
  | .update a => (stages .update).execute env (r.modify (·.assign a))
  | .updates assignments =>
    (stages .update).execute env (r.modify fun s => { s with assignments := s.assignments ++ assignments })
  | .delete => (stages .delete).execute env r
  | .rows => (stages .row).execute env r
  | .exec => (stages .raw).execute env r
  | .execute stage => (stages stage).execute env r

end Finisher

/-- Links and the finisher that ends them. -/
structure Phase (ρ : Type) where
  links : List (Link ρ) := []
  finisher : Finisher ρ

def Phase.map (f : ρ → σ) (p : Phase ρ) : Phase σ := { links := p.links.map (·.map f), finisher := p.finisher.map f }

end SqlPipeline
