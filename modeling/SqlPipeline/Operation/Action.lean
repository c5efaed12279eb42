/-
  SqlPipeline.Operation.Action — what steps do.

  A step is either built in or a script: a list of edits under the step's name. The
  built-in steps are registered on every stage when a database opens, in this order:
  - create: before_create, create, after_create
  - query: query, after_query
  - update: before_update, update, after_update
  - delete: before_delete, delete, after_delete
  - row: row
  - raw: raw
-/

import SqlPipeline.Operation.Change
import SqlPipeline.Operation.Create
import SqlPipeline.Operation.Find
import SqlPipeline.Operation.Hooks
import SqlPipeline.Pipeline.Stage

namespace SqlPipeline

inductive BuiltIn where
  | beforeCreate | create | afterCreate
  | query | afterQuery
  | beforeUpdate | update | afterUpdate
  | beforeDelete | delete | afterDelete
  | row | raw
  deriving DecidableEq, Repr

namespace BuiltIn

def name : BuiltIn → String
  | .beforeCreate => "oxide:before_create"
  | .create => "oxide:create"
  | .afterCreate => "oxide:after_create"
  | .query => "oxide:query"
  | .afterQuery => "oxide:after_query"
  | .beforeUpdate => "oxide:before_update"
  | .update => "oxide:update"
  | .afterUpdate => "oxide:after_update"
  | .beforeDelete => "oxide:before_delete"
  | .delete => "oxide:delete"
  | .afterDelete => "oxide:after_delete"
  | .row => "oxide:row"
  | .raw => "oxide:raw"

/-- The steps of a stage, in the order they are registered. -/
def ofStage : StageKind → List BuiltIn
  | .create => [.beforeCreate, .create, .afterCreate]
  | .query => [.query, .afterQuery]
  | .update => [.beforeUpdate, .update, .afterUpdate]
  | .delete => [.beforeDelete, .delete, .afterDelete]
  | .row => [.row]
  | .raw => [.raw]

variable {ρ : Type} [Record ρ]

def run (env : Env) (r : Run ρ) : BuiltIn → Run ρ
  | .beforeCreate => Operation.beforeCreate r
  | .create => Operation.create env r
  | .afterCreate => Operation.afterCreate r
  | .query => Operation.query env r
  | .afterQuery => Operation.afterQuery r
  | .beforeUpdate => Operation.beforeUpdate r
  | .update => Operation.update env r
  | .afterUpdate => Operation.afterUpdate r
  | .beforeDelete => Operation.beforeDelete r
  | .delete => Operation.delete env r
  | .afterDelete => Operation.afterDelete r
  | .row => Operation.row env r
  | .raw => Operation.raw r

end BuiltIn

inductive Action where
  | builtIn (b : BuiltIn)
  | script (name : String) (edits : List Edit)

/-- A script reports that it ran. -/
def Action.run {ρ : Type} [Record ρ] (env : Env) (r : Run ρ) : Action → Run ρ
  | .builtIn b => b.run env r
  | .script name edits => (r.emit [.ran name]).edits env edits

/-- The entry of a built-in step. -/
def BuiltIn.step (b : BuiltIn) : Step Action :=
  { name := b.name, role := .adds (.builtIn b), site := ⟨"<builtin>"⟩ }

end SqlPipeline
