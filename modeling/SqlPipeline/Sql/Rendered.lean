/-
  SqlPipeline.Sql.Rendered — statement text under construction.

  Everything a statement is made of is a sequence of pieces: text, identifiers and
  parameters. The pieces know nothing of the dialect or of what stands before them;
  writing them quotes the identifiers and numbers the parameters after those already
  bound.
-/

import SqlPipeline.Sql.Dialect

namespace SqlPipeline

inductive Piece where
  | text (s : String)
  | name (identifier : String)
  | param (v : Value)
  deriving DecidableEq, Repr

def Piece.param? : Piece → Option Value
  | .param v => some v
  | _ => none

@[simp] theorem Piece.param?_text (s : String) : (Piece.text s).param? = none := rfl
@[simp] theorem Piece.param?_name (identifier : String) : (Piece.name identifier).param? = none := rfl
@[simp] theorem Piece.param?_param (v : Value) : (Piece.param v).param? = some v := rfl

/-- Statement text and the parameters bound in it. -/
structure Rendered where
  text : String := ""
  params : List Value := []
  deriving DecidableEq, Repr

namespace Rendered

def write (d : Dialect) (r : Rendered) : Piece → Rendered
  | .text s => { r with text := r.text ++ s }
  | .name identifier => { r with text := r.text ++ d.quoteIdentifier identifier }
  | .param v => { text := r.text ++ d.bind (r.params.length + 1), params := r.params ++ [v] }

def writeAll (d : Dialect) (r : Rendered) (pieces : List Piece) : Rendered := pieces.foldl (write d) r

@[simp] theorem writeAll_nil (d : Dialect) (r : Rendered) : r.writeAll d [] = r := rfl

@[simp] theorem writeAll_cons (d : Dialect) (r : Rendered) (p : Piece) (ps : List Piece) :
    r.writeAll d (p :: ps) = (r.write d p).writeAll d ps := rfl

theorem writeAll_append (d : Dialect) (r : Rendered) (ps qs : List Piece) :
    r.writeAll d (ps ++ qs) = (r.writeAll d ps).writeAll d qs := List.foldl_append

end Rendered

/-- Lists of pieces with a comma between neighbours. -/
def Piece.commaSeparated : List (List Piece) → List Piece
  | [] => []
  | [ps] => ps
  | ps :: rest => ps ++ .text "," :: commaSeparated rest

namespace Piece

theorem commaSeparated_cons_cons (ps qs : List Piece) (rest : List (List Piece)) :
    commaSeparated (ps :: qs :: rest) = ps ++ .text "," :: commaSeparated (qs :: rest) := rfl

theorem mem_commaSeparated {p : Piece} {pss : List (List Piece)} (h : p ∈ commaSeparated pss) :
    p = .text "," ∨ ∃ ps ∈ pss, p ∈ ps := by
  induction pss with
  | nil => cases h
  | cons ps pss ih =>
    cases pss with
    | nil => exact Or.inr ⟨ps, List.mem_singleton_self ps, h⟩
    | cons qs rest =>
      rw [commaSeparated_cons_cons, List.mem_append, List.mem_cons] at h
      rcases h with h | h | h
      · exact Or.inr ⟨ps, List.mem_cons_self, h⟩
      · exact Or.inl h
      · rcases ih h with h | ⟨rs, hrs, h⟩
        · exact Or.inl h
        · exact Or.inr ⟨rs, List.mem_cons_of_mem _ hrs, h⟩

theorem params_commaSeparated (pss : List (List Piece)) :
    (commaSeparated pss).filterMap param? = pss.flatMap (·.filterMap param?) := by
  induction pss with
  | nil => rfl
  | cons ps pss ih =>
    cases pss with
    | nil => simp [commaSeparated]
    | cons qs rest =>
      rw [commaSeparated_cons_cons, List.filterMap_append, List.filterMap_cons_none (param?_text ","), ih]
      rfl

end Piece

end SqlPipeline
