/-
  SqlPipeline.Proofs.Rendered.Bound — what clauses and conditions bind, and where.

  Which values a clause binds can be told without writing it: a comparison binds its value,
  unless it becomes a NULL test; a membership test all it has; a raw fragment as many as it has
  both values and question marks; a group what its members bind; and a clause what it sets,
  inserts or asks for. Nothing in the text looks like a placeholder but the placeholders and
  what the caller wrote.

  - `Expression.bound_eq_binds`, `Clause.params_pieces`: the values bound, in order.
  - `Part.supplied_of_text`: where the rest of the text comes from.
  - `rendering_laid_out`: any clauses and conditions, alone or in a row, have one layout, in
    every dialect and behind whatever is there.
-/

import SqlPipeline.Proofs.Condition.Shelter
import SqlPipeline.Proofs.Explained.Inlined
import SqlPipeline.Proofs.Keys.Stored
import SqlPipeline.Proofs.Rendered.Layout
import SqlPipeline.Statement.Basic

namespace SqlPipeline

/-! ## The values of a condition -/

/-- The values a leaf binds. -/
def Leaf.binds : Leaf → List Value
  | .raw sql values => values.take (sql.toList.count '?')
  | .compare _ op v => if v.isNull ∧ (op = .eq ∨ op = .ne) then [] else [v]
  | .member _ values _ => values
  | .isNull _ _ => []

namespace Expression

mutual

/-- The values a tree binds, from left to right. -/
def binds : Expression → List Value
  | .raw sql values => values.take (sql.toList.count '?')
  | .compare _ op v => if v.isNull ∧ (op = .eq ∨ op = .ne) then [] else [v]
  | .member _ values => values
  | .isNull _ => []
  | .and members | .or members | .not members => bindsOf members

def bindsOf : List Expression → List Value
  | [] => []
  | e :: es => binds e ++ bindsOf es

end

theorem bindsOf_eq (es : List Expression) : bindsOf es = es.flatMap binds := by
  induction es with
  | nil => rfl
  | cons e es ih => rw [bindsOf, ih, List.flatMap_cons]

end Expression

namespace Leaf

theorem params_rawPieces (values : List Value) (cs : List Char) :
    (rawPieces values cs).filterMap Piece.param? = values.take (cs.count '?') := by
  induction cs generalizing values with
  | nil => simp [rawPieces]
  | cons c cs ih =>
    by_cases hc : c = '?'
    · subst hc
      cases values with
      | nil => simpa [rawPieces] using ih []
      | cons v values => simp [rawPieces, ih]
    · rw [rawPieces_plain hc, List.filterMap_cons_none rfl, ih, List.count_cons_of_ne (by simpa using hc)]

theorem params_pieces (l : Leaf) : l.pieces.filterMap Piece.param? = l.binds := by
  cases l with
  | raw sql values => exact params_rawPieces values sql.toList
  | compare column op v => cases op <;> cases v <;> simp [pieces, binds, List.filterMap_cons, Value.isNull]
  | member column values negated =>
    have hvalues : (if values.isEmpty then [.text "NULL"]
        else Piece.commaSeparated (values.map fun v => [.param v])).filterMap Piece.param? = values := by
      cases values with
      | nil => rfl
      | cons v vs => exact Operation.commaSeparated_params (v :: vs)
    rw [pieces, List.cons_append, List.cons_append, List.filterMap_cons_none rfl, List.filterMap_cons_none rfl,
      List.filterMap_append, hvalues]
    exact List.append_nil values
  | isNull column negated => simp [pieces, binds, List.filterMap_cons]

end Leaf

namespace Expression

theorem gathers_binds : Gathers (fun t => t.pieces.filterMap Piece.param?) binds where
  word t ht := by
    cases t with
    | leaf l => exact absurd rfl (ht l)
    | _ => rfl
  raw sql values := by rw [Token.pieces, Leaf.params_pieces, Leaf.binds, binds]
  leaf e l h := by
    rw [Token.pieces, Leaf.params_pieces]
    cases e <;> cases h <;> simp [Leaf.binds, binds]
  -- a comparison with NULL is a NULL test in either sense, so turning it around binds as much
  turned e l h := by
    rw [Token.pieces, Leaf.params_pieces]
    cases e <;> cases h
    · next op v => cases op <;> simp [Leaf.binds, binds, Comparison.negate]
    · rw [Leaf.binds, binds]
    · rw [Leaf.binds, binds]
  and members := by rw [binds, bindsOf_eq]
  or members := by rw [binds, bindsOf_eq]
  not members := by rw [binds, bindsOf_eq]

theorem bound_eq_binds (e : Expression) : e.bound = e.binds := by
  unfold bound pieces
  rw [List.filterMap_flatMap]
  exact gathers_binds.tokens e

theorem params_conditionTokens (conditions : List Expression) :
    ((conditionTokens conditions).flatMap Token.pieces).filterMap Piece.param? =
      (written conditions).flatMap binds := by
  rw [List.filterMap_flatMap]
  exact gathers_binds.conditionTokens conditions

end Expression

/-! ## The values of a clause -/

namespace Clause

/-- The values a clause binds, in order. Conditions are bound in the order they are written in. -/
def binds : Clause → List Value
  | .values columns rows => if columns.isEmpty then [] else rows.flatten
  | .where conditions => (Expression.written conditions).flatMap Expression.binds
  | .set assignments => assignments.map (·.value)
  | .onConflict c => if c.ignores then [] else c.updates.map (·.value)
  | _ => []

theorem params_columns (columns : List String) : (columnPieces columns).filterMap Piece.param? = [] := by
  unfold columnPieces
  rw [Piece.params_commaSeparated, List.flatMap_map]
  simp

theorem params_columnsOrAll (columns : List String) : (columnsOrAll columns).filterMap Piece.param? = [] := by
  unfold columnsOrAll
  split
  · rfl
  · exact params_columns columns

theorem params_assignments (assignments : List Assignment) :
    (assignments.map assignmentPieces).flatMap (·.filterMap Piece.param?) = assignments.map (·.value) := by
  rw [List.flatMap_map, List.map_eq_flatMap]
  exact List.flatMap_congr fun a _ => rfl

theorem params_row (row : List Value) : (rowPieces row).filterMap Piece.param? = row := by
  unfold rowPieces
  rw [List.cons_append, List.filterMap_cons_none rfl, List.filterMap_append, Operation.commaSeparated_params]
  exact List.append_nil row

theorem params_conflict (c : OnConflict) :
    (conflictPieces c).filterMap Piece.param? = if c.ignores then [] else c.updates.map (·.value) := by
  have hexcluded : (c.updateColumns.map excludedPieces).flatMap (·.filterMap Piece.param?) = [] := by
    rw [List.flatMap_map]
    simp [excludedPieces, List.filterMap_cons]
  have htarget : (if c.target.isEmpty then [] else Piece.text "(" :: columnPieces c.target ++ [.text ") "]).filterMap
      Piece.param? = [] := by
    split
    · rfl
    · rw [List.cons_append, List.filterMap_cons_none rfl, List.filterMap_append, params_columns]
      rfl
  unfold conflictPieces
  rw [List.cons_append, List.filterMap_cons_none rfl, List.filterMap_append, htarget, List.nil_append]
  split
  · rfl
  · rw [List.filterMap_cons_none rfl, Piece.params_commaSeparated, List.flatMap_append, params_assignments, hexcluded,
      List.append_nil]

theorem params_pieces (c : Clause) : c.pieces.filterMap Piece.param? = c.binds := by
  cases c with
  | insert table modifier => cases modifier <;> rfl
  | values columns rows =>
    rw [pieces, binds]
    split
    · rfl
    · rw [List.cons_append, List.filterMap_cons_none rfl, List.filterMap_append, params_columns, List.nil_append,
        List.filterMap_cons_none rfl, Piece.params_commaSeparated, List.flatMap_map, List.flatten_eq_flatMap]
      exact List.flatMap_congr fun row _ => params_row row
  | select columns distinct =>
    rw [pieces, List.cons_append, List.filterMap_cons_none rfl, List.filterMap_append, params_columnsOrAll]
    cases distinct <;> rfl
  | «from» tables => exact params_columns tables
  | «where» conditions => exact Expression.params_conditionTokens conditions
  | update table => rfl
  | set assignments =>
    rw [pieces, List.filterMap_cons_none rfl, Piece.params_commaSeparated, params_assignments, binds]
  | delete => rfl
  | orderBy terms =>
    rw [pieces, List.filterMap_cons_none rfl, Piece.params_commaSeparated, List.flatMap_map]
    refine List.flatMap_eq_nil_iff.mpr fun t _ => ?_
    unfold termPieces
    cases t.descending <;> rfl
  | limit rows offset => cases rows <;> cases offset <;> rfl
  | returning columns => exact params_columnsOrAll columns
  | onConflict c => exact params_conflict c

end Clause

/-! ## The rest of the text -/

/-- A single character of a raw fragment. -/
def FromFragments (fragments : List (String × List Value)) (s : String) : Prop :=
  ∃ f ∈ fragments, ∃ c ∈ f.1.toList, s = String.singleton c

theorem Leaf.text_mem_rawPieces {s : String} {values : List Value} {cs : List Char}
    (h : .text s ∈ rawPieces values cs) : ∃ c ∈ cs, s = String.singleton c := by
  induction cs generalizing values with
  | nil => simp [rawPieces] at h
  | cons c cs ih =>
    have hrest {values : List Value} (h : .text s ∈ rawPieces values cs) : ∃ c' ∈ c :: cs, s = String.singleton c' := by
      obtain ⟨c', hc', hs⟩ := ih h
      exact ⟨c', List.mem_cons_of_mem _ hc', hs⟩
    by_cases hc : c = '?'
    · subst hc
      cases values with
      | nil =>
        rcases List.mem_cons.mp h with heq | h
        · exact ⟨'?', List.mem_cons_self, Piece.text.inj heq⟩
        · exact hrest h
      | cons v values =>
        rw [rawPieces, if_pos rfl] at h
        rcases List.mem_cons.mp h with heq | h
        · cases heq
        · exact hrest h
    · rw [rawPieces_plain hc] at h
      rcases List.mem_cons.mp h with heq | h
      · exact ⟨c, List.mem_cons_self, Piece.text.inj heq⟩
      · exact hrest h

theorem Leaf.quiet_of_text {l : Leaf} {s : String} (h : .text s ∈ l.pieces) (hraw : ∀ sql values, l ≠ .raw sql values) :
    Quiet s.toList :=
  (discernible_pieces fun sql values hl => absurd hl (hraw sql values)).texts s h

theorem Clause.quiet_of_text {c : Clause} {s : String} (h : .text s ∈ c.pieces) (hmodifier : c.modifier? = none)
    (hfragments : c.fragments = []) : Quiet s.toList :=
  (discernible_clause (by simp [hmodifier]) (by simp [hfragments])).texts s h

/-- Words are quiet, and so are leaves, but for raw fragments. -/
theorem text_mem_tokens {s : String} {ts : List Token} (h : .text s ∈ ts.flatMap Token.pieces) :
    Quiet s.toList ∨ FromFragments (ts.filterMap Token.fragment?) s := by
  obtain ⟨t, ht, hs⟩ := List.mem_flatMap.mp h
  cases t with
  | leaf l =>
    have hs : .text s ∈ l.pieces := hs
    cases l with
    | raw sql values =>
      exact Or.inr ⟨(sql, values), List.mem_filterMap.mpr ⟨_, ht, rfl⟩, Leaf.text_mem_rawPieces hs⟩
    | compare | member | isNull => exact Or.inl (Leaf.quiet_of_text hs nofun)
  | and | or | not | «open» | close =>
    cases List.mem_singleton.mp hs
    exact Or.inl (by decide)

namespace Part

/-- The values a part binds, in order. -/
def binds : Part → List Value
  | .clause c => c.binds
  | .condition e => e.binds

theorem params_pieces (p : Part) : p.pieces.filterMap Piece.param? = p.binds := by
  cases p with
  | clause c => exact c.params_pieces
  | condition e => exact e.bound_eq_binds

/-- The caller wrote this: it is the modifier of an insert, or a character of a raw fragment. -/
def Supplied (p : Part) (s : String) : Prop := p.modifier? = some s ∨ FromFragments p.fragments s

theorem supplied_of_text {p : Part} {s : String} (h : .text s ∈ p.pieces) : Quiet s.toList ∨ p.Supplied s := by
  cases p with
  | condition e =>
    have hfragments : e.tokens.filterMap Token.fragment? = e.fragments := by
      rw [List.filterMap_eq_flatMap_toList]
      exact Expression.gathers_fragments.tokens e
    rcases text_mem_tokens h with hquiet | hfrom
    · exact Or.inl hquiet
    · rw [hfragments] at hfrom
      exact Or.inr (Or.inr hfrom)
  | clause c =>
    have h : .text s ∈ c.pieces := h
    cases c with
    | «where» conditions =>
      rcases List.mem_cons.mp h with heq | h
      · cases heq
        exact Or.inl (by decide)
      · rcases text_mem_tokens h with hquiet | ⟨f, hf, hfrom⟩
        · exact Or.inl hquiet
        · exact Or.inr (Or.inr ⟨f, (Expression.fragments_conditionTokens conditions).mem_iff.mp hf, hfrom⟩)
    | insert table modifier =>
      cases modifier with
      | none => exact Or.inl (Clause.quiet_of_text h rfl rfl)
      | some m =>
        have hcases : s = "INSERT " ∨ s = m ∨ s = " " ∨ s = "INTO " := by simpa [Clause.pieces] using h
        rcases hcases with rfl | rfl | rfl | rfl
        · exact Or.inl (by decide)
        · exact Or.inr (Or.inl rfl)
        · exact Or.inl (by decide)
        · exact Or.inl (by decide)
    | _ => exact Or.inl (Clause.quiet_of_text h rfl rfl)

end Part

/-! ## Layouts -/

/-- Clauses and conditions, written one behind the other, have this layout: with the values they
    bind, and with nothing that looks like a placeholder but the placeholders and what the caller
    wrote; in any dialect, and behind any text and its parameters, in a statement as elsewhere. -/
structure LaidOut (parts : List Part) (l : Layout) : Prop where
  values : l.values = parts.flatMap Part.binds
  texts : ∀ s, .text s ∈ l.items → Quiet s.toList ∨ ∃ p ∈ parts, p.Supplied s
  rendered : ∀ (d : Dialect) (r : Rendered), parts.foldl (fun r p => r.writeAll d p.pieces) r = l.write d r
  statement : ∀ {ρ : Type} (d : Dialect) (s : Statement ρ),
    parts.foldl (fun s p => s.write d p.pieces) s = { s with sql := l.write d s.sql }

theorem foldl_writeAll (d : Dialect) (parts : List Part) (r : Rendered) :
    parts.foldl (fun r p => r.writeAll d p.pieces) r = r.writeAll d (parts.flatMap Part.pieces) := by
  induction parts generalizing r with
  | nil => rfl
  | cons p parts ih => rw [List.foldl_cons, ih, List.flatMap_cons, Rendered.writeAll_append]

theorem foldl_write {ρ : Type} (d : Dialect) (parts : List Part) (s : Statement ρ) :
    parts.foldl (fun s p => s.write d p.pieces) s =
      { s with sql := parts.foldl (fun r p => r.writeAll d p.pieces) s.sql } := by
  induction parts generalizing s with
  | nil => rfl
  | cons p parts ih => exact ih (s.write d p.pieces)

theorem laidOut_ofPieces (parts : List Part) : LaidOut parts (.ofPieces (parts.flatMap Part.pieces)) where
  values := by
    show (parts.flatMap Part.pieces).filterMap Piece.param? = _
    rw [List.filterMap_flatMap]
    exact List.flatMap_congr fun p _ => p.params_pieces
  texts s hs := by
    obtain ⟨p, hp, hs⟩ := List.mem_flatMap.mp (Layout.text_mem_itemsFrom hs)
    exact (Part.supplied_of_text hs).imp_right fun h => ⟨p, hp, h⟩
  rendered d r := by rw [foldl_writeAll, Rendered.writeAll_eq_write]
  statement d s := by rw [foldl_write, foldl_writeAll, Rendered.writeAll_eq_write]

theorem params_intercalate (cs : List Clause) :
    (([Piece.text " "] : List Piece).intercalate (cs.map Clause.pieces)).filterMap Piece.param? =
      cs.flatMap Clause.binds := by
  induction cs with
  | nil => rfl
  | cons c cs ih =>
    cases cs with
    | nil => simpa using c.params_pieces
    | cons c' cs =>
      rw [List.map_cons, List.map_cons, List.intercalate_cons_cons, List.filterMap_append, List.filterMap_append,
        c.params_pieces, ← List.map_cons, ih, List.filterMap_cons_none (Piece.param?_text " "), List.filterMap_nil,
        List.append_nil]
      rfl

/-- Whatever clauses and trees of conditions are written, alone or one behind the other, there is
    one layout for all dialects and all texts they are written behind: their parameters are
    numbered consecutively from the first that is free. So are those of the clauses a statement
    names. -/
theorem rendering_laid_out :
    (∀ parts : List Part, ∃ l : Layout, LaidOut parts l) ∧
      ∀ {ρ : Type} (s : Statement ρ) (names : List String), ∃ l : Layout,
        l.values = (s.clauses.present names).flatMap Clause.binds ∧
          ∀ d : Dialect, s.build d names = { s with sql := l.write d s.sql } := by
  refine ⟨fun parts => ⟨_, laidOut_ofPieces parts⟩, fun s names => ?_⟩
  refine ⟨.ofPieces (s.clauses.pieces names), params_intercalate _, fun d => ?_⟩
  unfold Statement.build Statement.write
  rw [Rendered.writeAll_eq_write]

/-- Behind one parameter: a comparison with NULL and a membership in nothing bind none, and a
    fragment binds as many values as it has. -/
example :
    let e : Expression :=
      .or [.raw "b > ? OR c = ?" [.int 1], .not [.compare "d" .eq .null, .member "e" []], .compare "f" .lt (.int 2)]
    Rendered.writeAll (.generic .numbered) ⟨"a = $1 AND ", [.int 0]⟩ e.pieces =
        ⟨"a = $1 AND ((b > $2 OR c = ?) OR (\"d\" IS NOT NULL AND \"e\" NOT IN (NULL)) OR \"f\" < $3)",
          [.int 0, .int 1, .int 2]⟩ ∧
      e.binds = [.int 1, .int 2] := by
  decide +kernel

end SqlPipeline
