/-
  SqlPipeline.Table.Schema — the columns of a table and who fills them.
-/

namespace SqlPipeline

structure Field where
  name : String
  primaryKey : Bool := false
  autoIncrement : Bool := false
  /-- The database fills the column when an insert leaves it out. -/
  databaseDefault : Bool := false
  /-- Stamped with the time of the insert. -/
  autoCreateTime : Bool := false
  /-- Stamped with the time of the insert and of every update. -/
  autoUpdateTime : Bool := false
  deriving DecidableEq, Repr

namespace Field

/-- Whether an insert may leave the column out. -/
def hasDefault (f : Field) : Bool := f.databaseDefault || f.autoIncrement

def isStamped (f : Field) : Bool := f.autoCreateTime || f.autoUpdateTime

end Field

structure Schema where
  table : String
  fields : List Field := []
  deriving DecidableEq, Repr

namespace Schema

def field? (s : Schema) (name : String) : Option Field := s.fields.find? (·.name == name)

/-- The first column of the primary key. -/
def primary? (s : Schema) : Option Field := s.fields.find? (·.primaryKey)

def columns (s : Schema) : List String := s.fields.map (·.name)

end Schema

end SqlPipeline
