/-
  SqlPipeline.Record.Hook — the points of a record's life at which it is called.
-/

namespace SqlPipeline

inductive Hook where
  | beforeSave | beforeCreate | afterCreate | afterSave | beforeUpdate | afterUpdate | beforeDelete
  | afterDelete | afterFind
  deriving DecidableEq, Repr

namespace Hook

def name : Hook → String
  | .beforeSave => "before_save"
  | .beforeCreate => "before_create"
  | .afterCreate => "after_create"
  | .afterSave => "after_save"
  | .beforeUpdate => "before_update"
  | .afterUpdate => "after_update"
  | .beforeDelete => "before_delete"
  | .afterDelete => "after_delete"
  | .afterFind => "after_find"

def all : List Hook :=
  [.beforeSave, .beforeCreate, .afterCreate, .afterSave, .beforeUpdate, .afterUpdate, .beforeDelete,
    .afterDelete, .afterFind]

def ofName? (s : String) : Option Hook := all.find? (·.name == s)

end Hook

end SqlPipeline
