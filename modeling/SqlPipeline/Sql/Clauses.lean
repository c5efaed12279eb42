/-
  SqlPipeline.Sql.Clauses — the clauses of a statement, at most one of each name.
-/

import SqlPipeline.Sql.Clause

namespace SqlPipeline

/-- At most one clause of each name. -/
structure Clauses where
  entries : List Clause := []
  deriving Repr

namespace Clauses

def get? (cs : Clauses) (name : String) : Option Clause := cs.entries.find? (·.name == name)

/-- Adds a clause, merged with the one of its name. -/
def add (cs : Clauses) (c : Clause) : Clauses :=
  ⟨c.merge (cs.get? c.name) :: cs.entries.filter (·.name != c.name)⟩

def addIfAbsent (cs : Clauses) (c : Clause) : Clauses :=
  if (cs.get? c.name).isSome then cs else ⟨c :: cs.entries⟩

/-- The clauses of a list of names that are there and ask for something. -/
def present (cs : Clauses) (names : List String) : List Clause :=
  (names.filterMap cs.get?).filter (!·.isEmpty)

/-- Their text, with a space between neighbours. -/
def pieces (cs : Clauses) (names : List String) : List Piece :=
  ([Piece.text " "] : List Piece).intercalate ((cs.present names).map Clause.pieces)

end Clauses

end SqlPipeline
