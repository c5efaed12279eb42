/-
  SqlPipeline.Proofs.Rendered.Layout — text whose parameters are numbered from one.

  A layout is what is written, apart from where it is written: items in order, of which those
  that are parameters count from one, and a value for each of them. Written behind a text that
  has some parameters bound already, every identifier is quoted as the dialect does it, and
  every position moves up by as many.

  - `Layout.ofPieces`: the layout of a sequence of pieces.
  - `writeAll_eq_write`: writing pieces is writing their layout, whatever was there before.
-/

import SqlPipeline.Sql.Rendered

namespace SqlPipeline

inductive Item where
  | text (s : String)
  | name (identifier : String)
  /-- The parameter at a position of the layout. -/
  | param (position : Nat)
  deriving DecidableEq, Repr

def Item.position? : Item → Option Nat
  | .param position => some position
  | _ => none

/-- The item in a dialect, so many parameters having been bound before. -/
def Item.spelled (d : Dialect) (bound : Nat) : Item → String
  | .text s => s
  | .name identifier => d.quoteIdentifier identifier
  | .param position => d.bind (bound + position)

structure Layout where
  items : List Item
  values : List Value
  /-- Each value has its place, once and in order. -/
  numbered : items.filterMap Item.position? = List.range' 1 values.length

namespace Layout

/-- What is in a text and its parameters once the layout is written behind them. -/
def write (d : Dialect) (l : Layout) (r : Rendered) : Rendered where
  text := r.text ++ String.join (l.items.map (Item.spelled d r.params.length))
  params := r.params ++ l.values

/-- Pieces as items, the parameters counted from `position`. -/
def itemsFrom (position : Nat) : List Piece → List Item
  | [] => []
  | .text s :: ps => .text s :: itemsFrom position ps
  | .name identifier :: ps => .name identifier :: itemsFrom position ps
  | .param _ :: ps => .param position :: itemsFrom (position + 1) ps

theorem positions_itemsFrom (position : Nat) (ps : List Piece) :
    (itemsFrom position ps).filterMap Item.position? = List.range' position (ps.filterMap Piece.param?).length := by
  induction ps generalizing position with
  | nil => rfl
  | cons p ps ih =>
    cases p with
    | text s => exact ih position
    | name identifier => exact ih position
    | param v =>
      show position :: (itemsFrom (position + 1) ps).filterMap Item.position? = _
      rw [ih, List.filterMap_cons_some (Piece.param?_param v), List.length_cons, List.range'_succ]

def ofPieces (ps : List Piece) : Layout where
  items := itemsFrom 1 ps
  values := ps.filterMap Piece.param?
  numbered := positions_itemsFrom 1 ps

theorem text_mem_itemsFrom {s : String} {position : Nat} {ps : List Piece} (h : .text s ∈ itemsFrom position ps) :
    .text s ∈ ps := by
  induction ps generalizing position with
  | nil => cases h
  | cons p ps ih =>
    cases p with
    | text s' =>
      rcases List.mem_cons.mp h with heq | h
      · cases heq
        exact List.mem_cons_self
      · exact List.mem_cons_of_mem _ (ih h)
    | name identifier =>
      rcases List.mem_cons.mp h with heq | h
      · cases heq
      · exact List.mem_cons_of_mem _ (ih h)
    | param v =>
      rcases List.mem_cons.mp h with heq | h
      · cases heq
      · exact List.mem_cons_of_mem _ (ih h)

end Layout

/-! ## Writing -/

namespace Rendered

/-- Behind `bound` parameters of which `before` are the layout's, the next is spelled with the
    position after both. -/
theorem writeAll_itemsFrom (d : Dialect) (bound : Nat) (ps : List Piece) (before : Nat) (r : Rendered)
    (h : r.params.length = bound + before) :
    r.writeAll d ps =
      ⟨r.text ++ String.join ((Layout.itemsFrom (before + 1) ps).map (Item.spelled d bound)),
        r.params ++ ps.filterMap Piece.param?⟩ := by
  induction ps generalizing before r with
  | nil => simp [Layout.itemsFrom, String.join_nil]
  | cons p ps ih =>
    rw [writeAll_cons]
    cases p with
    | text s =>
      rw [ih before (r.write d (.text s)) h, Layout.itemsFrom, List.map_cons, String.join_cons, ← String.append_assoc]
      rfl
    | name identifier =>
      rw [ih before (r.write d (.name identifier)) h, Layout.itemsFrom, List.map_cons, String.join_cons,
        ← String.append_assoc]
      rfl
    | param v =>
      have hnext : (r.write d (.param v)).params.length = bound + (before + 1) := by
        simp [write, h, Nat.add_assoc]
      rw [ih (before + 1) _ hnext, Layout.itemsFrom, List.map_cons, String.join_cons, ← String.append_assoc,
        List.filterMap_cons_some (Piece.param?_param v)]
      simp [write, Item.spelled, h, Nat.add_assoc]

theorem writeAll_eq_write (d : Dialect) (r : Rendered) (ps : List Piece) :
    r.writeAll d ps = (Layout.ofPieces ps).write d r :=
  writeAll_itemsFrom d r.params.length ps 0 r rfl

end Rendered

end SqlPipeline
