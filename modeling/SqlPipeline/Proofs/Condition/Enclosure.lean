/-
  SqlPipeline.Proofs.Condition.Enclosure — which conditions keep their OR to themselves.

  A condition is put into words beside others. What it has of OR is in parentheses, except for
  two kinds: an OR group of one member, which joins its neighbour with OR, and a raw fragment
  that is the only thing in several groups, for parentheses are put around fragments one group
  deep. All other conditions are contained, whatever is added to them.

  Raw fragments are words themselves when the text is read. How they are read is left open
  (`words`); a fragment fits when its parentheses match and its OR, outside of them, stands
  between blanks.

  - `matched_tokens`: the words of a condition match, and have no OR outside parentheses unless
    the condition exposes one.
  - `read_conditionTokens`: among contained conditions, one that is a single leaf is true of
    every row that meets them.
-/

import SqlPipeline.Proofs.Condition.Reading

namespace SqlPipeline

/-! ## Fragments -/

/-- Whether a raw text has an OR between blanks, in any letter case. -/
def saysOr (sql : String) : Bool := mentions [' ', 'O', 'R', ' '] (sql.toList.map Char.toUpper)

namespace Expression

mutual

/-- The raw fragments in a tree, from left to right. -/
def fragments : Expression → List (String × List Value)
  | .raw sql values => [(sql, values)]
  | .compare .. | .member .. | .isNull _ => []
  | .and members | .or members | .not members => fragmentsOf members

def fragmentsOf : List Expression → List (String × List Value)
  | [] => []
  | e :: es => fragments e ++ fragmentsOf es

end

/-- Whether an OR of the tree may come to stand outside parentheses. -/
def exposes : Expression → Bool
  | .raw sql _ => saysOr sql
  | .and [e] => exposes e
  | .or [e] => exposes e
  | .not [e] => !e.isCompound && exposes e
  | _ => false

/-- Whether the tree can stand beside others without taking part in how they are read. -/
def isContained (e : Expression) : Bool := !e.isSingleOr && (e.needsEnclosure || !e.exposes)

end Expression

section Words

variable (words : String → List Value → List Token)

/-- The words with those of raw fragments put in their places. -/
def Token.spliced : Token → List Token
  | .leaf (.raw sql values) => words sql values
  | t => [t]

def spliced (ts : List Token) : List Token := ts.flatMap (Token.spliced words)

def Fits (f : String × List Value) : Prop := matched (saysOr f.1) 0 (words f.1 f.2) = true

instance (f : String × List Value) : Decidable (Fits words f) := inferInstanceAs (Decidable (_ = true))

@[simp] theorem spliced_append (ts us : List Token) : spliced words (ts ++ us) = spliced words ts ++ spliced words us :=
  List.flatMap_append

theorem spliced_enclosed (wanted : Bool) (ts : List Token) :
    spliced words (enclosed wanted ts) = enclosed wanted (spliced words ts) := by
  cases wanted with
  | false => rfl
  | true =>
    show spliced words ([.open] ++ ts ++ [.close]) = _
    rw [spliced_append, spliced_append]
    rfl

end Words

namespace Expression

/-! ## Groups of one member -/

theorem tokens_and_one (e : Expression) : tokens (.and [e]) = tokens e := by simp [tokens, joined, enclosed]

theorem tokens_or_one (e : Expression) : tokens (.or [e]) = tokens e := by simp [tokens, joined, enclosed]

theorem tokens_not_one (e : Expression) :
    tokens (.not [e]) = match e.opposite? with
      | some l => [.leaf l]
      | none => .not :: enclosed e.isCompound (tokens e) := by
  cases h : e.opposite? <;> simp [tokens, denied, underNot, enclosed, h]

/-! ## Words that match -/

variable {words : String → List Value → List Token}

theorem spliced_raw (sql : String) (values : List Value) :
    spliced words [.leaf (.raw sql values)] = words sql values := by
  simp [spliced, Token.spliced]

/-- A leaf that was turned around is no fragment. -/
theorem opposite?_spliced {e : Expression} {l : Leaf} (h : e.opposite? = some l) :
    spliced words [.leaf l] = [.leaf l] := by
  cases e <;> cases h <;> rfl

theorem matched_within {wanted : Bool} {ts : List Token} (h : matched true 0 ts = true) :
    matched true 0 (enclosed wanted ts) = true := matched_enclosed h fun _ => h

theorem fits_cons {e : Expression} {es : List Expression} (h : ∀ f ∈ fragmentsOf (e :: es), Fits words f) :
    (∀ f ∈ e.fragments, Fits words f) ∧ ∀ f ∈ fragmentsOf es, Fits words f :=
  ⟨fun f hf => h f (List.mem_append_left _ hf), fun f hf => h f (List.mem_append_right _ hf)⟩

mutual

theorem matched_tokens : ∀ e : Expression, (∀ f ∈ e.fragments, Fits words f) →
    matched e.exposes 0 (spliced words (tokens e)) = true
  | .raw sql values, h => by
    rw [tokens, spliced_raw]
    exact h (sql, values) (List.mem_singleton_self _)
  | .compare .., _ => by simp [tokens, spliced, Token.spliced, matched]
  | .member .., _ => by simp [tokens, spliced, Token.spliced, matched]
  | .isNull _, _ => by simp [tokens, spliced, Token.spliced, matched]
  | .and [], _ => rfl
  | .and [e], h => by
    rw [tokens_and_one, exposes]
    exact matched_tokens e (by simpa [fragments, fragmentsOf] using h)
  | .and (e :: e' :: es), h => by
    rw [tokens, spliced_enclosed]
    exact matched_enclosed (matched_joined (Or.inl rfl) (e :: e' :: es) h) (by simp)
  | .or [], _ => rfl
  | .or [e], h => by
    rw [tokens_or_one, exposes]
    exact matched_tokens e (by simpa [fragments, fragmentsOf] using h)
  | .or (e :: e' :: es), h => by
    rw [tokens, spliced_enclosed]
    exact matched_enclosed (matched_joined (Or.inr rfl) (e :: e' :: es) h) (by simp)
  | .not [], _ => rfl
  | .not [e], h => by
    rw [tokens_not_one, exposes]
    have hinner := matched_tokens e (by simpa [fragments, fragmentsOf] using h)
    cases ho : e.opposite? with
    | some l => rw [opposite?_spliced ho]; rfl
    | none =>
      show matched _ 0 (spliced words ([.not] ++ enclosed e.isCompound (tokens e))) = true
      rw [spliced_append, spliced_enclosed]
      refine matched_beside rfl (matched_enclosed (matched_mono hinner) fun hplain => ?_)
      rw [hplain]
      exact hinner
  | .not (e :: e' :: es), h => by
    rw [tokens]
    split
    · rw [spliced_enclosed]
      exact matched_enclosed (matched_denied (e :: e' :: es) h) (by simp)
    · show matched _ 0 (spliced words ([.not] ++ enclosed _ (underNot true (e :: e' :: es)))) = true
      rw [spliced_append, spliced_enclosed]
      exact matched_beside rfl (matched_enclosed (matched_underNot (e :: e' :: es) h) (by simp))

theorem matched_joined {several : Bool} {connective : Token} (hc : connective = .and ∨ connective = .or) :
    ∀ {first : Bool} (es : List Expression), (∀ f ∈ fragmentsOf es, Fits words f) →
      matched true 0 (spliced words (joined several connective first es)) = true
  | _, [], _ => rfl
  | first, e :: es, h => by
    obtain ⟨he, hes⟩ := fits_cons h
    rw [joined, spliced_append, spliced_append, spliced_enclosed]
    refine matched_beside (matched_beside ?_ ?_) (matched_joined hc es hes)
    · rcases hc with rfl | rfl <;> cases first <;> cases e.isSingleOr <;> rfl
    · exact matched_within (matched_mono (matched_tokens e he))

theorem matched_denied : ∀ {first : Bool} (es : List Expression), (∀ f ∈ fragmentsOf es, Fits words f) →
      matched true 0 (spliced words (denied first es)) = true
  | _, [], _ => rfl
  | first, e :: es, h => by
    obtain ⟨he, hes⟩ := fits_cons h
    rw [denied, spliced_append, spliced_append]
    refine matched_beside (matched_beside ?_ ?_) (matched_denied es hes)
    · cases first <;> rfl
    · cases ho : e.opposite? with
      | some l => dsimp only; rw [opposite?_spliced ho]; rfl
      | none =>
        show matched _ 0 (spliced words ([.not] ++ enclosed e.isCompound (tokens e))) = true
        rw [spliced_append, spliced_enclosed]
        exact matched_beside rfl (matched_within (matched_mono (matched_tokens e he)))

theorem matched_underNot : ∀ {first : Bool} (es : List Expression), (∀ f ∈ fragmentsOf es, Fits words f) →
      matched true 0 (spliced words (underNot first es)) = true
  | _, [], _ => rfl
  | first, e :: es, h => by
    obtain ⟨he, hes⟩ := fits_cons h
    rw [underNot, spliced_append, spliced_append, spliced_enclosed]
    refine matched_beside (matched_beside ?_ ?_) (matched_underNot es hes)
    · cases first <;> cases e.isGroupOfOr <;> rfl
    · exact matched_within (matched_mono (matched_tokens e he))

end

/-! ## Contained conditions side by side -/

theorem joined_append (several : Bool) (connective : Token) (first : Bool) (es es' : List Expression) :
    joined several connective first (es ++ es') =
      joined several connective first es ++ joined several connective (first && es.isEmpty) es' := by
  induction es generalizing first with
  | nil => simp [joined]
  | cons e es ih =>
    rw [List.cons_append, joined, joined, ih]
    simp

/-- A contained condition with its connective, beside others. -/
theorem matched_contained {first : Bool} {e : Expression} (he : e.isContained = true)
    (hfits : ∀ f ∈ e.fragments, Fits words f) :
    matched false 0 (spliced words (joined true .and first [e])) = true := by
  obtain ⟨hsingle, hclosed⟩ := Bool.and_eq_true_iff.mp he
  have htokens := matched_tokens e hfits
  rw [joined, joined, List.append_nil, spliced_append, spliced_enclosed, Bool.true_and]
  refine matched_beside ?_ (matched_enclosed (matched_mono htokens) fun hopen => ?_)
  · rw [Bool.not_eq_true'] at hsingle
    rw [hsingle]
    cases first <;> rfl
  · rw [hopen, Bool.false_or, Bool.not_eq_true'] at hclosed
    rwa [hclosed] at htokens

theorem matched_joined_contained {first : Bool} {es : List Expression} (hes : ∀ e ∈ es, e.isContained = true)
    (hfits : ∀ e ∈ es, ∀ f ∈ e.fragments, Fits words f) :
    matched false 0 (spliced words (joined true .and first es)) = true := by
  induction es generalizing first with
  | nil => rfl
  | cons e es ih =>
    obtain ⟨he, hrest⟩ := List.forall_mem_cons.mp hes
    obtain ⟨hf, hfrest⟩ := List.forall_mem_cons.mp hfits
    rw [show e :: es = [e] ++ es from rfl, joined_append, spliced_append]
    exact matched_beside (matched_contained he hf) (ih hrest hfrest)

open List in
theorem leadWithPlain_perm (members : List Expression) : (leadWithPlain members).Perm members := by
  unfold leadWithPlain
  have hm := List.takeWhile_append_dropWhile (p := dangles) (l := members)
  split
  · next first before plain after hb ha =>
    rw [hb, ha] at hm
    calc plain :: (before ++ first :: after)
      _ ~ plain :: first :: (before ++ after) := List.perm_middle.cons plain
      _ ~ first :: plain :: (before ++ after) := .swap first plain _
      _ ~ first :: (before ++ plain :: after) := List.perm_middle.symm.cons first
      _ = members := hm
  · exact List.Perm.refl _

/-- The leaf of a comparison or a test. -/
def leaf? : Expression → Option Leaf
  | .compare column op v => some (.compare column op v)
  | .member column values => some (.member column values false)
  | .isNull column => some (.isNull column false)
  | _ => none

variable (words) in
theorem leaf?_plain {e : Expression} {l : Leaf} (h : e.leaf? = some l) :
    (∀ several first, joined several .and first [e] = (if first then [] else [.and]) ++ [.leaf l]) ∧
      spliced words [.leaf l] = [.leaf l] ∧ e.isContained = true ∧ e.fragments = [] ∧
      ∀ conditions, conjuncts (conditions ++ [e]) = conditions ++ [e] := by
  have hconjuncts : (∀ members, e ≠ .and members) →
      ∀ conditions, conjuncts (conditions ++ [e]) = conditions ++ [e] := by
    intro hne conditions
    unfold conjuncts
    split
    · next members hsingle =>
      have hlast := congrArg List.getLast? hsingle
      rw [List.getLast?_concat] at hlast
      exact absurd (Option.some.inj hlast) (hne members)
    · rfl
  cases e <;> cases h <;>
    exact ⟨by simp [joined, tokens, isSingleOr, needsEnclosure, isCompound, enclosed], rfl,
      by simp [isContained, isSingleOr, exposes], by simp [fragments], hconjuncts (by simp)⟩

/-- A leaf added to contained conditions is true of every row that meets them all. -/
theorem read_conditionTokens {truth : Leaf → Truth} {conditions : List Expression}
    (hcontained : ∀ e ∈ conditions, e.isContained = true)
    (hfits : ∀ e ∈ conditions, ∀ f ∈ e.fragments, Fits words f)
    {e : Expression} {l : Leaf} (hl : e.leaf? = some l)
    (h : read truth (spliced words (conditionTokens (conditions ++ [e]))) = some .yes) : truth l = .yes := by
  obtain ⟨hjoined, hleaf, hcontainedLeaf, hfragments, hconjuncts⟩ := leaf?_plain words hl
  have hperm := leadWithPlain_perm (conditions ++ [e])
  have hall : ∀ c ∈ leadWithPlain (conditions ++ [e]),
      c.isContained = true ∧ ∀ f ∈ c.fragments, Fits words f := by
    intro c hc
    rcases List.mem_append.mp (hperm.mem_iff.mp hc) with hc | hc
    · exact ⟨hcontained c hc, hfits c hc⟩
    · rw [List.mem_singleton.mp hc, hfragments]
      exact ⟨hcontainedLeaf, by simp⟩
  obtain ⟨before, after, hsplit⟩ := List.append_of_mem (hperm.mem_iff.mpr (by simp : e ∈ conditions ++ [e]))
  unfold conditionTokens at h
  rw [hconjuncts, hsplit] at h
  rw [hsplit] at hall
  by_cases halone : before.length + after.length = 0
  · obtain rfl : before = [] := List.eq_nil_of_length_eq_zero (by omega)
    obtain rfl : after = [] := List.eq_nil_of_length_eq_zero (by omega)
    dsimp only [List.nil_append] at h
    rw [hjoined, if_pos rfl, List.nil_append, hleaf] at h
    have halone' : read truth ([] ++ .leaf l :: []) = some .yes := h
    exact read_conjunct rfl (Or.inl rfl) rfl halone'
  · have hseveral : decide (1 < (before ++ e :: after).length) = true := by
      simp only [List.length_append, List.length_cons, decide_eq_true_eq]
      omega
    dsimp only at h
    rw [hseveral, joined_append, show e :: after = [e] ++ after from rfl, joined_append, hjoined] at h
    simp only [spliced_append, hleaf, List.append_assoc] at h
    rw [← List.append_assoc] at h
    have hbefore : ∀ c ∈ before, c.isContained = true ∧ ∀ f ∈ c.fragments, Fits words f :=
      fun c hc => hall c (List.mem_append_left _ hc)
    have hafter : ∀ c ∈ after, c.isContained = true ∧ ∀ f ∈ c.fragments, Fits words f :=
      fun c hc => hall c (List.mem_append_right _ (List.mem_cons_of_mem e hc))
    refine read_conjunct ?_ ?_ ?_ h
    · refine matched_beside (matched_joined_contained (fun c hc => (hbefore c hc).1) fun c hc => (hbefore c hc).2) ?_
      split <;> rfl
    · cases before with
      | nil => exact Or.inl rfl
      | cons c before => exact Or.inr ⟨_, rfl⟩
    · exact matched_joined_contained (fun c hc => (hafter c hc).1) fun c hc => (hafter c hc).2

/-- Alone in two groups a fragment gets no parentheses, alone in one it does. -/
example :
    let fragment : Expression := .raw "a = 1 OR b = 2" []
    let key : Expression := .compare "id" .eq (.int 7)
    (conditionTokens [.and [.or [fragment]], key]).contains .open = false ∧
      (conditionTokens [.and [fragment], key]).contains .open = true := by
  decide +kernel

end Expression

end SqlPipeline
