/-
  SqlPipeline.Proofs.Rendered.Fragments — raw fragments take their values from the left and keep their text.

  Which question marks become placeholders can be read off the fragment: those that have fewer
  question marks before them than there are values. All other characters are written where they
  stand. A fragment can also be written with its text cut up, from one placeholder to the next, at
  offsets counted in bytes. A cut comes right before a question mark that takes a value and right
  behind it, so it never goes through a character, and nothing between two cuts is written twice
  or left out.

  - `writeAll_rawPieces`: a fragment behind any text and its parameters.
  - `writeAll_cutPieces`: the same, cut up by bytes.
  - `fragment_filled`: both, also in a statement, and what question marks as placeholders make of it.
-/

import Mathlib
import SqlPipeline.Proofs.Explained.Placeholders
import SqlPipeline.Proofs.Rendered.Bound

namespace SqlPipeline

/-- A raw text with its first `limit` question marks as placeholders, numbered on from `bound`. -/
def filled (d : Dialect) (bound limit : Nat) (sql : List Char) : List Char :=
  sql.zipIdx.flatMap fun p =>
    let earlier := (sql.take p.2).count '?'
    if p.1 = '?' ∧ earlier < limit then (d.bind (bound + (earlier + 1))).toList else [p.1]

namespace Leaf

/-! ## Character by character -/

theorem spelled_rawPieces (d : Dialect) (bound : Nat) (values : List Value) (before cs : List Char) :
    spelled d (bound + min (before.count '?') values.length) (rawPieces (values.drop (before.count '?')) cs) =
      (cs.zipIdx before.length).flatMap fun p =>
        let earlier := ((before ++ cs).take p.2).count '?'
        if p.1 = '?' ∧ earlier < values.length then (d.bind (bound + (earlier + 1))).toList else [p.1] := by
  induction cs generalizing before with
  | nil => simp [rawPieces, spelled]
  | cons c cs ih =>
    have hrest := ih (before ++ [c])
    rw [List.length_append, List.length_singleton, List.append_assoc, List.singleton_append] at hrest
    have hhere : ((before ++ c :: cs).take before.length) = before := List.take_left
    rw [List.zipIdx_cons, List.flatMap_cons, ← hrest, hhere]
    by_cases hc : c = '?'
    · subst hc
      have hcount : (before ++ ['?']).count '?' = before.count '?' + 1 := by simp
      rw [hcount]
      rcases Nat.lt_or_ge (before.count '?') values.length with hlt | hge
      · rw [List.drop_eq_getElem_cons hlt, rawPieces, if_pos rfl, spelled, if_pos ⟨rfl, hlt⟩,
          Nat.min_eq_left hlt.le, Nat.min_eq_left hlt, Nat.add_assoc]
      · -- Every value is taken already, so this question mark stays one.
        have hnone : values.drop (before.count '?') = [] := List.drop_eq_nil_of_le hge
        have hnext : values.drop (before.count '?' + 1) = [] := List.drop_eq_nil_of_le (Nat.le_succ_of_le hge)
        rw [hnone, hnext, rawPieces, spelled, if_neg (fun h => absurd h.2 (Nat.not_lt.mpr hge)),
          Nat.min_eq_right hge, Nat.min_eq_right (Nat.le_succ_of_le hge)]
        simp
    · have hcount : (before ++ [c]).count '?' = before.count '?' := by simp [hc]
      rw [hcount, rawPieces_plain hc, spelled, if_neg (fun h => hc h.1)]
      simp

/-- There are fewer question marks before one than in the whole text. -/
theorem filled_min (d : Dialect) (bound n : Nat) (sql : List Char) :
    filled d bound (min (sql.count '?') n) sql = filled d bound n sql := by
  refine List.flatMap_congr fun p hp => ?_
  have hhere : sql[p.2]? = some p.1 := List.mem_zipIdx_iff_getElem?.mp hp
  obtain ⟨hlt, hget⟩ := List.getElem?_eq_some_iff.mp hhere
  by_cases hc : p.1 = '?'
  · have hearlier : (sql.take p.2).count '?' < sql.count '?' := by
      have hsplit : sql.count '?' = (sql.take p.2).count '?' + (sql.drop p.2).count '?' := by
        rw [← List.count_append, List.take_append_drop]
      rw [List.drop_eq_getElem_cons hlt, hget, hc, List.count_cons_self] at hsplit
      omega
    simp only [lt_min_iff, hearlier, true_and]
  · simp only [hc, false_and]

theorem writeAll_rawPieces (d : Dialect) (r : Rendered) (sql : List Char) (values : List Value) :
    r.writeAll d (rawPieces values sql) =
      ⟨r.text ++ String.ofList (filled d r.params.length values.length sql),
        r.params ++ values.take (sql.count '?')⟩ := by
  obtain ⟨htext, hparams⟩ := writeAll_spelled d r (rawPieces values sql)
  have hspelled := spelled_rawPieces d r.params.length values [] sql
  rw [List.count_nil, Nat.zero_min, Nat.add_zero, List.drop_zero] at hspelled
  rw [hspelled] at htext
  rw [params_rawPieces] at hparams
  have htext : (r.writeAll d (rawPieces values sql)).text =
      r.text ++ String.ofList (filled d r.params.length values.length sql) := by
    refine String.toList_injective ?_
    rw [htext, String.toList_append, String.toList_ofList]
    rfl
  rw [← htext, ← hparams]

/-! ## Cut up by bytes -/

/-- The text from one byte offset to another. -/
def between (sql : String) (start stop : Nat) : String := String.Pos.Raw.extract sql ⟨start⟩ ⟨stop⟩

/-- As `rawPieces`, but what is kept is cut out as a whole. It begins at the byte `start`, and the
    characters still to be looked at begin at `here`. -/
def cutPieces (sql : String) (start here : Nat) : List Value → List Char → List Piece
  | _, [] => [.text (between sql start sql.utf8ByteSize)]
  | [], c :: cs => cutPieces sql start (here + c.utf8Size) [] cs
  | v :: vs, c :: cs =>
    if c = '?' then .text (between sql start here) :: .param v :: cutPieces sql (here + 1) (here + 1) vs cs
    else cutPieces sql start (here + c.utf8Size) (v :: vs) cs

theorem cutPieces_plain {c : Char} (h : c ≠ '?') (sql : String) (start here : Nat) (values : List Value)
    (cs : List Char) :
    cutPieces sql start here values (c :: cs) = cutPieces sql start (here + c.utf8Size) values cs := by
  cases values <;> simp [cutPieces, h]

theorem between_utf8Len {sql : String} {before kept after : List Char} (h : sql.toList = before ++ kept ++ after) :
    between sql (String.utf8Len before) (String.utf8Len before + String.utf8Len kept) = String.ofList kept := by
  rw [between, ← String.ofList_toList (s := sql), h, String.extract_of_valid]

end Leaf

namespace Rendered

theorem writeAll_text_text (d : Dialect) (r : Rendered) (s t : String) (ps : List Piece) :
    r.writeAll d (.text s :: .text t :: ps) = r.writeAll d (.text (s ++ t) :: ps) := by
  simp only [writeAll_cons, write, String.append_assoc]

theorem writeAll_nothing (d : Dialect) (r : Rendered) (ps : List Piece) :
    r.writeAll d (.text "" :: ps) = r.writeAll d ps := by
  simp only [writeAll_cons, write, String.append_empty]

end Rendered

namespace Leaf

/-- What was passed since the last cut is still to be written, and the offsets say where it stands. -/
theorem writeAll_cutFrom (d : Dialect) {sql : String} {before kept cs : List Char}
    (h : sql.toList = before ++ kept ++ cs) (values : List Value) (r : Rendered) :
    r.writeAll d (cutPieces sql (String.utf8Len before) (String.utf8Len before + String.utf8Len kept) values cs) =
      r.writeAll d (.text (String.ofList kept) :: rawPieces values cs) := by
  induction cs generalizing before kept values r with
  | nil =>
    have hend : sql.utf8ByteSize = String.utf8Len before + String.utf8Len kept := by
      rw [← String.utf8Len_toList, h, List.append_nil, String.utf8Len_append]
    rw [cutPieces, hend, between_utf8Len h, rawPieces]
  | cons c cs ih =>
    have hkept : sql.toList = before ++ (kept ++ [c]) ++ cs := by simp [h]
    have hlen : String.utf8Len before + String.utf8Len kept + c.utf8Size =
        String.utf8Len before + String.utf8Len (kept ++ [c]) := by
      simp [String.utf8Len_append, Nat.add_assoc]
    have hsame : r.writeAll d (.text (String.ofList kept) :: .text (String.singleton c) :: rawPieces values cs) =
        r.writeAll d (.text (String.ofList (kept ++ [c])) :: rawPieces values cs) := by
      rw [Rendered.writeAll_text_text, String.ofList_append, String.singleton_eq_ofList]
    by_cases hc : c = '?'
    · subst hc
      cases values with
      | nil => rw [cutPieces, hlen, ih hkept, rawPieces, hsame]
      | cons v values =>
        have hcut : sql.toList = (before ++ (kept ++ ['?'])) ++ [] ++ cs := by simp [h]
        have hstart : String.utf8Len before + String.utf8Len kept + 1 = String.utf8Len (before ++ (kept ++ ['?'])) := by
          rw [String.utf8Len_append, ← hlen]
          rfl
        have hrest := ih hcut values
        rw [String.utf8Len_nil, Nat.add_zero, ← hstart] at hrest
        rw [cutPieces, if_pos rfl, between_utf8Len h, rawPieces, if_pos rfl]
        simp only [Rendered.writeAll_cons]
        rw [hrest, String.ofList_nil, Rendered.writeAll_nothing]
    · rw [cutPieces_plain hc, hlen, ih hkept, rawPieces_plain hc, hsame]

theorem writeAll_cutPieces (d : Dialect) (r : Rendered) (sql : String) (values : List Value) :
    r.writeAll d (cutPieces sql 0 0 values sql.toList) = r.writeAll d (rawPieces values sql.toList) := by
  have hcut := writeAll_cutFrom d (show sql.toList = [] ++ [] ++ sql.toList from rfl) values r
  rwa [String.ofList_nil, Rendered.writeAll_nothing] at hcut

end Leaf

/-! ## Fragments -/

theorem pieces_raw (sql : String) (values : List Value) :
    (Expression.raw sql values).pieces = Leaf.rawPieces values sql.toList := by
  simp [Expression.pieces, Expression.tokens, Token.pieces, Leaf.pieces]

theorem filled_question {d : Dialect} (h : d.placeholder = .question) (bound limit : Nat) (sql : List Char) :
    filled d bound limit sql = sql := by
  have hbind (position : Nat) : (d.bind position).toList = ['?'] := by simp [Dialect.bind, h]
  have hplace : filled d bound limit sql = sql.zipIdx.flatMap fun p => [p.1] := by
    refine List.flatMap_congr fun p _ => ?_
    dsimp only
    split
    · next hmark => rw [hbind, hmark.1]
    · rfl
  rw [hplace, ← List.map_eq_flatMap, List.zipIdx_map_fst]

/-- Of the question marks of a raw fragment as many take a value as there are values, from the left.
    They become placeholders, numbered on from the parameters there are, and nothing else of the
    text changes. That is so however the text is cut up, in statements as elsewhere, and with
    question marks as placeholders the text that is written is the fragment's own. -/
theorem fragment_filled (sql : String) (values : List Value) :
    let limit := min (sql.toList.count '?') values.length
    let pieces := (Expression.raw sql values).pieces
    let behind (d : Dialect) (r : Rendered) : Rendered :=
      ⟨r.text ++ String.ofList (filled d r.params.length limit sql.toList), r.params ++ values.take limit⟩
    (∀ (d : Dialect) (r : Rendered), r.writeAll d pieces = behind d r ∧
        r.writeAll d (Leaf.cutPieces sql 0 0 values sql.toList) = behind d r) ∧
      (∀ {ρ : Type} (d : Dialect) (s : Statement ρ), s.write d pieces = { s with sql := behind d s.sql } ∧
        s.raw d sql values = { s with sql := behind d {} }) ∧
      ∀ (d : Dialect) (bound : Nat), d.placeholder = .question →
        String.ofList (filled d bound limit sql.toList) = sql := by
  intro limit pieces behind
  have hwritten (d : Dialect) (r : Rendered) : r.writeAll d pieces = behind d r := by
    have htake : values.take (sql.toList.count '?') = values.take limit := by
      rw [List.take_eq_take_iff, Nat.min_assoc, Nat.min_self]
    rw [show pieces = _ from pieces_raw sql values, Leaf.writeAll_rawPieces, ← Leaf.filled_min, htake]
  refine ⟨fun d r => ⟨hwritten d r, ?_⟩, fun d s => ⟨?_, ?_⟩, fun d bound hd => ?_⟩
  · rw [Leaf.writeAll_cutPieces, ← pieces_raw]
    exact hwritten d r
  · rw [Statement.write, hwritten]
  · exact congrArg (fun r => { s with sql := r }) (hwritten d {})
  · rw [filled_question hd, String.ofList_toList]

/-- The placeholders go on behind the parameter there is; a question mark within a literal takes a
    value like any other, and the last one goes without. -/
example :
    let fragment := Expression.raw "ä = ? OR 'é?' = ?" [.int 1, .int 2]
    Rendered.writeAll (.generic .numbered) ⟨"a = $1 AND ", [.int 0]⟩ fragment.pieces =
      ⟨"a = $1 AND ä = $2 OR 'é$3' = ?", [.int 0, .int 1, .int 2]⟩ := by
  decide +kernel

end SqlPipeline
