/-
  SqlPipeline.Proofs.Explained.Inlined — a trace shows every parameter in its own place.

  What clauses and conditions write of their own is fixed words, numbers, commas and blanks: none
  of it looks like a placeholder, and a comma, blank or parenthesis comes behind every placeholder.
  The rest is the caller's: identifiers, the modifier of an insert and raw fragments. A raw
  fragment has question marks where its values go; with a value for each of them and no digit
  right behind one, they become placeholders that can be told apart. That is so however trees of
  conditions are nested, for a group is written as a sentence.

  - `discernible_tokens`: by members, for every tree of conditions.
  - `discernible_clause`: for every kind of clause.
  - `Part.explain_eq_inlineAll`: explaining what was written is writing with the values in place.
-/

import SqlPipeline.Proofs.Condition.Members
import SqlPipeline.Proofs.Explained.Placeholders
import SqlPipeline.Sql.Clause

namespace SqlPipeline

/-! ## Pieces side by side -/

section Pieces

variable {ps qs : List Piece}

theorem discernible_nil : Discernible [] := ⟨nofun, .nil⟩

theorem discernible_text {s : String} : Discernible (.text s :: ps) ↔ Quiet s.toList ∧ Discernible ps := by
  refine ⟨fun h => ⟨h.texts s List.mem_cons_self, h.tail⟩, fun ⟨hs, h⟩ => ⟨?_, ?_⟩⟩
  · rintro s' hs'
    rcases List.mem_cons.mp hs' with heq | hs'
    · cases heq
      exact hs
    · exact h.texts s' hs'
  · exact List.isChain_cons.mpr ⟨nofun, h.apart⟩

theorem discernible_name {identifier : String} : Discernible (.name identifier :: ps) ↔ Discernible ps := by
  refine ⟨Discernible.tail, fun h => ⟨fun s hs => ?_, List.isChain_cons.mpr ⟨nofun, h.apart⟩⟩⟩
  rcases List.mem_cons.mp hs with hs | hs
  · cases hs
  · exact h.texts s hs

theorem discernible_param {v : Value} :
    Discernible (.param v :: ps) ↔ (∀ q ∈ ps.head?, q.endsNumber = true) ∧ Discernible ps := by
  refine ⟨fun h => ⟨h.behind_param, h.tail⟩, fun ⟨hbehind, h⟩ => ⟨fun s hs => ?_, ?_⟩⟩
  · rcases List.mem_cons.mp hs with hs | hs
    · cases hs
    · exact h.texts s hs
  · exact List.isChain_cons.mpr ⟨fun q hq _ => hbehind q hq, h.apart⟩

theorem discernible_word {s : String} (hs : Quiet s.toList) : Discernible [.text s] :=
  discernible_text.mpr ⟨hs, discernible_nil⟩

theorem discernible_value (v : Value) : Discernible [.param v] := discernible_param.mpr ⟨nofun, discernible_nil⟩

theorem Discernible.append (hps : Discernible ps) (hqs : Discernible qs)
    (hbetween : ∀ q ∈ qs.head?, q.endsNumber = true) : Discernible (ps ++ qs) where
  texts s hs := (List.mem_append.mp hs).elim (hps.texts s) (hqs.texts s)
  apart := hps.apart.append hqs.apart fun _ _ q hq _ => hbetween q hq

/-- Text that begins with no digit may follow anything. -/
theorem Discernible.append_text {s : String} (hps : Discernible ps) (hs : (Piece.text s).endsNumber = true)
    (hqs : Discernible (.text s :: qs)) : Discernible (ps ++ .text s :: qs) :=
  hps.append hqs fun _ hq => by cases hq; exact hs

theorem Discernible.closed (h : Discernible ps) : Discernible (ps ++ [.text ")"]) :=
  h.append_text (by decide) (discernible_word (by decide))

theorem discernible_intercalate {s : String} (hquiet : Quiet s.toList) (hs : (Piece.text s).endsNumber = true)
    {pss : List (List Piece)} (h : ∀ ps ∈ pss, Discernible ps) :
    Discernible ([Piece.text s].intercalate pss) := by
  induction pss with
  | nil => exact discernible_nil
  | cons ps pss ih =>
    obtain ⟨hps, hpss⟩ := List.forall_mem_cons.mp h
    cases pss with
    | nil => simpa using hps
    | cons ps' pss =>
      rw [List.intercalate_cons_cons, List.append_assoc]
      exact hps.append_text hs (discernible_text.mpr ⟨hquiet, ih hpss⟩)

theorem Piece.commaSeparated_eq (pss : List (List Piece)) :
    Piece.commaSeparated pss = [Piece.text ","].intercalate pss := by
  induction pss with
  | nil => rfl
  | cons ps pss ih =>
    cases pss with
    | nil => simp [commaSeparated]
    | cons ps' pss =>
      rw [commaSeparated, ih, List.intercalate_cons_cons, List.append_assoc]
      · rfl
      · simp

theorem discernible_commaSeparated {pss : List (List Piece)} (h : ∀ ps ∈ pss, Discernible ps) :
    Discernible (Piece.commaSeparated pss) := by
  rw [Piece.commaSeparated_eq]
  exact discernible_intercalate (by decide) (by decide) h

/-- A comma-separated list with one of the pieces for each member. -/
theorem discernible_commas {α : Type} {f : α → List Piece} (h : ∀ a, Discernible (f a)) (as : List α) :
    Discernible (Piece.commaSeparated (as.map f)) :=
  discernible_commaSeparated (List.forall_mem_map.mpr fun a _ => h a)

end Pieces

/-! ## Leaves -/

/-- A raw fragment in which values can be put for the question marks: no quote and no dollar sign, a
    value for every question mark, and no digit right behind one. -/
def Substitutable (f : String × List Value) : Prop :=
  (∀ c ∈ f.1.toList, c ≠ '\'' ∧ c ≠ '$') ∧ f.1.toList.count '?' ≤ f.2.length ∧
    f.1.toList.IsChain fun c c' => c = '?' → Text.isDecimalDigit c' = false

instance (f : String × List Value) : Decidable (Substitutable f) :=
  @instDecidableAnd _ _ (List.decidableBAll _ f.1.toList) inferInstance

namespace Leaf

theorem rawPieces_plain {c : Char} (h : c ≠ '?') (values : List Value) (cs : List Char) :
    rawPieces values (c :: cs) = .text (String.singleton c) :: rawPieces values cs := by
  cases values <;> simp [rawPieces, h]

theorem head_rawPieces {cs : List Char} (h : ∀ c ∈ cs.head?, Text.isDecimalDigit c = false) (values : List Value) :
    ∀ q ∈ (rawPieces values cs).head?, q.endsNumber = true := by
  have htext {c : Char} (hc : Text.isDecimalDigit c = false) : (Piece.text (String.singleton c)).endsNumber = true := by
    simp [Piece.endsNumber, hc]
  cases cs with
  | nil => simp [rawPieces]
  | cons c cs =>
    have hc := htext (h c rfl)
    cases values with
    | nil => simpa [rawPieces] using hc
    | cons v values =>
      rw [rawPieces]
      split
      · simp [Piece.endsNumber]
      · simpa using hc

theorem discernible_rawPieces {values : List Value} {cs : List Char} (hclean : ∀ c ∈ cs, c ≠ '\'' ∧ c ≠ '$')
    (hvalues : cs.count '?' ≤ values.length)
    (hdigit : cs.IsChain fun c c' => c = '?' → Text.isDecimalDigit c' = false) :
    Discernible (rawPieces values cs) := by
  induction cs generalizing values with
  | nil => simpa [rawPieces] using discernible_nil
  | cons c cs ih =>
    obtain ⟨⟨hquote, hdollar⟩, hcs⟩ := List.forall_mem_cons.mp hclean
    obtain ⟨hbehind, hapart⟩ := List.isChain_cons.mp hdigit
    by_cases hc : c = '?'
    · subst hc
      cases values with
      | nil => simp at hvalues
      | cons v values =>
        rw [rawPieces, if_pos rfl]
        have hrest : cs.count '?' ≤ values.length := by simpa using hvalues
        exact discernible_param.mpr
          ⟨head_rawPieces (fun c' hc' => hbehind c' hc' rfl) values, ih hcs hrest hapart⟩
    · rw [rawPieces_plain hc]
      have hrest : cs.count '?' ≤ values.length := by rwa [List.count_cons_of_ne (by simpa using hc)] at hvalues
      refine discernible_text.mpr ⟨?_, ih hcs hrest hapart⟩
      simp [Quiet, hquote, hdollar, hc]

theorem discernible_pieces {l : Leaf} (h : ∀ sql values, l = .raw sql values → Substitutable (sql, values)) :
    Discernible l.pieces := by
  cases l with
  | raw sql values =>
    obtain ⟨hclean, hvalues, hdigit⟩ := h sql values rfl
    exact discernible_rawPieces hclean hvalues hdigit
  | compare column op v =>
    unfold pieces
    split
    · contradiction
    · exact discernible_name.mpr (discernible_word (by decide))
    · exact discernible_name.mpr (discernible_word (by decide))
    · next heq =>
      cases heq
      have hsign : Quiet (" " ++ op.sign ++ " ").toList := by cases op <;> decide
      exact discernible_name.mpr (discernible_text.mpr ⟨hsign, discernible_value _⟩)
    · contradiction
    · contradiction
  | member column values negated =>
    have hvalues : Discernible (if values.isEmpty then [.text "NULL"]
        else Piece.commaSeparated (values.map fun v => [.param v])) := by
      split
      · exact discernible_word (by decide)
      · exact discernible_commas discernible_value values
    exact discernible_name.mpr (discernible_text.mpr ⟨by cases negated <;> decide, hvalues.closed⟩)
  | isNull column negated =>
    exact discernible_name.mpr (discernible_word (by cases negated <;> decide))

end Leaf

/-! ## Trees of conditions -/

namespace Expression

theorem discernible_enclosed {wanted : Bool} {ts : List Token} (h : Discernible (ts.flatMap Token.pieces)) :
    Discernible ((enclosed wanted ts).flatMap Token.pieces) := by
  cases wanted with
  | false => exact h
  | true =>
    have hpieces : (enclosed true ts).flatMap Token.pieces =
        .text "(" :: (ts.flatMap Token.pieces ++ [.text ")"]) := by simp [enclosed, Token.pieces]
    rw [hpieces]
    exact discernible_text.mpr ⟨by decide, h.closed⟩

theorem discernible_denied {ts : List Token} (h : Discernible (ts.flatMap Token.pieces)) :
    Discernible ((Token.not :: ts).flatMap Token.pieces) :=
  discernible_text.mpr ⟨by decide, h⟩

section Sentence

variable {orBefore : Expression → Bool} {body : Expression → List Token} {es : List Expression}

/-- A connective is text, so what follows a member ends the number of its last placeholder. -/
theorem discernible_continued (h : ∀ e ∈ es, Discernible ((body e).flatMap Token.pieces)) :
    Discernible ((continued orBefore body es).flatMap Token.pieces) ∧
      ∀ q ∈ ((continued orBefore body es).flatMap Token.pieces).head?, q.endsNumber = true := by
  induction es with
  | nil => exact ⟨discernible_nil, nofun⟩
  | cons e es ih =>
    obtain ⟨he, hes⟩ := List.forall_mem_cons.mp h
    obtain ⟨hrest, hhead⟩ := ih hes
    have hbody := he.append hrest hhead
    rw [← List.flatMap_append] at hbody
    rw [continued_cons]
    cases orBefore e
    · exact ⟨discernible_text.mpr ⟨by decide, hbody⟩, by rintro q ⟨rfl⟩; decide⟩
    · exact ⟨discernible_text.mpr ⟨by decide, hbody⟩, by rintro q ⟨rfl⟩; decide⟩

theorem discernible_sentence (h : ∀ e ∈ es, Discernible ((body e).flatMap Token.pieces)) :
    Discernible ((sentence orBefore body es).flatMap Token.pieces) := by
  cases es with
  | nil => exact discernible_nil
  | cons e es =>
    obtain ⟨he, hes⟩ := List.forall_mem_cons.mp h
    obtain ⟨hrest, hhead⟩ := discernible_continued hes
    rw [sentence, List.flatMap_append]
    exact he.append hrest hhead

end Sentence

theorem discernible_leaf {l : Leaf} (h : ∀ sql values, l = .raw sql values → Substitutable (sql, values)) :
    Discernible ([Token.leaf l].flatMap Token.pieces) := by
  simpa [Token.pieces] using Leaf.discernible_pieces h

theorem discernible_turned {e : Expression} (h : Discernible (e.tokens.flatMap Token.pieces)) :
    Discernible (e.turned.flatMap Token.pieces) := by
  unfold turned
  cases ho : e.opposite? with
  | none => exact discernible_denied (discernible_enclosed h)
  | some l =>
    refine discernible_leaf fun sql values hl => ?_
    cases e <;> simp [opposite?, hl] at ho

theorem discernible_tokens (e : Expression) :
    (∀ f ∈ e.fragments, Substitutable f) → Discernible (e.tokens.flatMap Token.pieces) := by
  induction e using byMembers with
  | raw sql values =>
    intro h
    rw [tokens]
    refine discernible_leaf fun sql' values' heq => ?_
    cases heq
    exact h _ (List.mem_singleton_self _)
  | compare | member | isNull =>
    intro _
    rw [tokens]
    exact discernible_leaf nofun
  | and members ih =>
    intro h
    rw [tokens_and]
    exact discernible_enclosed (discernible_sentence fun e he =>
      discernible_enclosed (ih e he (forall_fragmentsOf.mp h e he)))
  | or members ih =>
    intro h
    rw [tokens_or]
    exact discernible_enclosed (discernible_sentence fun e he =>
      discernible_enclosed (ih e he (forall_fragmentsOf.mp h e he)))
  | not members ih =>
    intro h
    have hmembers := fun e he => ih e he (forall_fragmentsOf.mp h e he)
    rw [tokens_not]
    split
    · exact discernible_enclosed (discernible_sentence fun e he => discernible_turned (hmembers e he))
    · exact discernible_denied (discernible_enclosed (discernible_sentence fun e he =>
        discernible_enclosed (hmembers e he)))

theorem discernible_conditionTokens {conditions : List Expression} (h : ∀ f ∈ fragmentsOf conditions, Substitutable f) :
    Discernible ((conditionTokens conditions).flatMap Token.pieces) := by
  have hwritten : ∀ f ∈ fragmentsOf (written conditions), Substitutable f :=
    fun f hf => h f ((fragmentsOf_written conditions).mem_iff.mp hf)
  rw [conditionTokens_eq]
  exact discernible_sentence fun e he =>
    discernible_enclosed (discernible_tokens e (forall_fragmentsOf.mp hwritten e he))

end Expression

/-! ## Clauses -/

namespace Clause

/-- The raw fragments of a clause's conditions. -/
def fragments : Clause → List (String × List Value)
  | .where conditions => Expression.fragmentsOf conditions
  | _ => []

def modifier? : Clause → Option String
  | .insert _ modifier => modifier
  | _ => none

theorem discernible_columns (columns : List String) : Discernible (columnPieces columns) :=
  discernible_commas (fun _ => discernible_name.mpr discernible_nil) columns

theorem discernible_columnsOrAll (columns : List String) : Discernible (columnsOrAll columns) := by
  unfold columnsOrAll
  split
  · exact discernible_word (by decide)
  · exact discernible_columns columns

theorem discernible_assignment (a : Assignment) : Discernible (assignmentPieces a) :=
  discernible_name.mpr (discernible_text.mpr ⟨by decide, discernible_value _⟩)

theorem discernible_excluded (column : String) : Discernible (excludedPieces column) :=
  discernible_name.mpr (discernible_text.mpr ⟨by decide, discernible_name.mpr discernible_nil⟩)

theorem discernible_row (row : List Value) : Discernible (rowPieces row) :=
  discernible_text.mpr ⟨by decide, (discernible_commas discernible_value row).closed⟩

theorem discernible_term (t : OrderTerm) : Discernible (termPieces t) := by
  refine discernible_name.mpr ?_
  split
  · exact discernible_word (by decide)
  · exact discernible_nil

theorem discernible_conflict (c : OnConflict) : Discernible (conflictPieces c) := by
  have htarget : Discernible (if c.target.isEmpty then [] else .text "(" :: columnPieces c.target ++ [.text ") "]) := by
    split
    · exact discernible_nil
    · exact discernible_text.mpr ⟨by decide,
        (discernible_columns c.target).append_text (by decide) (discernible_word (by decide))⟩
  have hupdates : ∀ ps ∈ c.updates.map assignmentPieces ++ c.updateColumns.map excludedPieces, Discernible ps :=
    List.forall_mem_append.mpr ⟨List.forall_mem_map.mpr fun a _ => discernible_assignment a,
      List.forall_mem_map.mpr fun column _ => discernible_excluded column⟩
  have haction {ps : List Piece} (h : Discernible ps) : Discernible (ps ++
      if c.ignores then [.text "DO NOTHING"]
      else .text "DO UPDATE SET " ::
        Piece.commaSeparated (c.updates.map assignmentPieces ++ c.updateColumns.map excludedPieces)) := by
    split
    · exact h.append_text (by decide) (discernible_word (by decide))
    · exact h.append_text (by decide)
        (discernible_text.mpr ⟨by decide, discernible_commaSeparated hupdates⟩)
  exact discernible_text.mpr ⟨by decide, haction htarget⟩

theorem quiet_repr (n : Nat) : Quiet n.repr.toList := by
  intro c hc
  rw [Nat.toList_repr] at hc
  have hdigit : c.isDigit = true := Nat.isDigit_of_mem_toDigits (by decide) (by decide) hc
  refine ⟨?_, ?_, ?_⟩ <;> rintro rfl <;> exact absurd hdigit (by decide)

theorem discernible_limit (rows offset : Option Nat) : Discernible (limitPieces rows offset) := by
  have hcount {word : String} (hword : Quiet word.toList) (n : Nat) : Quiet (word ++ n.repr).toList := by
    rw [String.toList_append]
    exact quiet_append.mpr ⟨hword, quiet_repr n⟩
  cases rows with
  | none =>
    cases offset with
    | none => exact discernible_nil
    | some m => exact discernible_word (hcount (by decide) m)
  | some n =>
    cases offset with
    | none => exact discernible_word (hcount (by decide) n)
    | some m =>
      exact discernible_text.mpr ⟨hcount (by decide) n,
        discernible_text.mpr ⟨by decide, discernible_word (hcount (by decide) m)⟩⟩

theorem discernible_clause {c : Clause} (hmodifier : ∀ m ∈ c.modifier?, Quiet m.toList)
    (hfragments : ∀ f ∈ c.fragments, Substitutable f) : Discernible c.pieces := by
  cases c with
  | insert table modifier =>
    have htable : Discernible [.text "INTO ", .name table] :=
      discernible_text.mpr ⟨by decide, discernible_name.mpr discernible_nil⟩
    refine discernible_text.mpr ⟨by decide, ?_⟩
    cases modifier with
    | none => exact htable
    | some m =>
      exact discernible_text.mpr ⟨hmodifier m rfl, discernible_text.mpr ⟨by decide, htable⟩⟩
  | values columns rows =>
    rw [pieces]
    split
    · exact discernible_word (by decide)
    · exact discernible_text.mpr ⟨by decide, (discernible_columns columns).append_text (by decide)
        (discernible_text.mpr ⟨by decide, discernible_commas discernible_row rows⟩)⟩
  | select columns distinct =>
    refine discernible_text.mpr ⟨by decide, ?_⟩
    cases distinct with
    | false => exact discernible_columnsOrAll columns
    | true => exact discernible_text.mpr ⟨by decide, discernible_columnsOrAll columns⟩
  | «from» tables => exact discernible_text.mpr ⟨by decide, discernible_columns tables⟩
  | «where» conditions =>
    exact discernible_text.mpr ⟨by decide, Expression.discernible_conditionTokens hfragments⟩
  | update table => exact discernible_text.mpr ⟨by decide, discernible_name.mpr discernible_nil⟩
  | set assignments =>
    exact discernible_text.mpr ⟨by decide, discernible_commas discernible_assignment assignments⟩
  | delete => exact discernible_word (by decide)
  | orderBy terms => exact discernible_text.mpr ⟨by decide, discernible_commas discernible_term terms⟩
  | limit rows offset => exact discernible_limit rows offset
  | returning columns => exact discernible_text.mpr ⟨by decide, discernible_columnsOrAll columns⟩
  | onConflict c => exact discernible_conflict c

end Clause

/-! ## Clauses and conditions in a row -/

/-- What a statement's text is made of. -/
inductive Part where
  | clause (c : Clause)
  | condition (e : Expression)

namespace Part

def pieces : Part → List Piece
  | .clause c => c.pieces
  | .condition e => e.pieces

def modifier? : Part → Option String
  | .clause c => c.modifier?
  | .condition _ => none

def fragments : Part → List (String × List Value)
  | .clause c => c.fragments
  | .condition e => e.fragments

/-- What the caller supplied has nothing in it that looks like a placeholder, other than the question
    marks that stand for a fragment's values. -/
structure Plain (p : Part) : Prop where
  identifiers : ∀ piece ∈ p.pieces, ∀ identifier ∈ piece.name?, Quiet identifier.toList
  modifier : ∀ m ∈ p.modifier?, Quiet m.toList
  fragments : ∀ f ∈ p.fragments, Substitutable f

instance (p : Part) : Decidable p.Plain :=
  decidable_of_iff (_ ∧ _ ∧ _) ⟨fun ⟨hi, hm, hf⟩ => ⟨hi, hm, hf⟩, fun h => ⟨h.identifiers, h.modifier, h.fragments⟩⟩

theorem Plain.discernible {p : Part} (h : p.Plain) : Discernible p.pieces := by
  cases p with
  | clause c => exact Clause.discernible_clause h.modifier h.fragments
  | condition e => exact Expression.discernible_tokens e h.fragments

/-- Parts with a space between neighbours. -/
def spaced (parts : List Part) : List Piece := [Piece.text " "].intercalate (parts.map Part.pieces)

/-- The trace of clauses and conditions is their text with every value written where it would be
    bound, in any dialect whose quotes are not what explaining looks for. Numbers are read as 64-bit
    counts, which a list of parameters in memory stays below. -/
theorem explain_eq_inlineAll (d : Dialect) (hquote : Quiet [d.quote]) (parts : List Part) (h : ∀ p ∈ parts, p.Plain)
    (hsize : d.placeholder = .numbered → ((spaced parts).filterMap Piece.param?).length < UInt64.size) :
    d.explain (Rendered.writeAll d {} (spaced parts)).text (Rendered.writeAll d {} (spaced parts)).params =
      inlineAll d (spaced parts) := by
  have hpieces : ∀ ps ∈ parts.map Part.pieces, Discernible ps := List.forall_mem_map.mpr fun p hp => (h p hp).discernible
  have hnames : ∀ p ∈ spaced parts, ∀ identifier ∈ p.name?, Quiet identifier.toList :=
    forall_mem_intercalate (by simp [Piece.name?]) (List.forall_mem_map.mpr fun p hp => (h p hp).identifiers)
  exact explain_writeAll hquote hnames
    (discernible_intercalate (by decide) (by decide) hpieces) hsize

/-- Ten parameters and more, with values that look like placeholders and literals themselves. -/
theorem explain_of_lookalikes :
    let d : Dialect := .generic .numbered
    let parts : List Part :=
      [.clause (.update "users"), .clause (.set [⟨"note", .text "it's $1?"⟩, ⟨"rank", .int (-3)⟩]),
        .clause (.where [.member "id" ([1, 2, 3, 4, 5, 6, 7].map .int),
          .or [.raw "age BETWEEN ? AND ?" [.int 18, .int 65], .compare "name" .eq (.text "$2")]])]
    let r := Rendered.writeAll d {} (spaced parts)
    r.text = "UPDATE \"users\" SET \"note\"=$1,\"rank\"=$2 WHERE \"id\" IN ($3,$4,$5,$6,$7,$8,$9) AND " ++
        "((age BETWEEN $10 AND $11) OR \"name\" = $12)" ∧
      d.explain r.text r.params = inlineAll d (spaced parts) ∧
      inlineAll d (spaced parts) = "UPDATE \"users\" SET \"note\"='it''s $1?',\"rank\"=-3 WHERE " ++
        "\"id\" IN (1,2,3,4,5,6,7) AND ((age BETWEEN 18 AND 65) OR \"name\" = '$2')" := by
  intro d parts r
  have hplain : ∀ p ∈ parts, p.Plain := by decide +kernel
  refine ⟨by decide +kernel, ?_, by decide +kernel⟩
  exact explain_eq_inlineAll d (by decide) parts hplain fun _ => by decide +kernel

end Part

end SqlPipeline
