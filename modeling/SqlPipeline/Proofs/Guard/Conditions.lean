/-
  SqlPipeline.Proofs.Guard.Conditions — when a rendered condition asks for anything.

  A tree of conditions may be there and ask for nothing: a group without members, a raw
  fragment without text, or groups of such. Putting a tree into words neither drops a leaf
  nor makes one up, whatever is enclosed, turned around, taken apart or moved to the front.

  - `any_conditionTokens`: the words of a condition hold a leaf exactly when one of its
    members does.
  - `conditional_iff`: so clauses that are written hold a condition exactly when WHERE is
    among their names and what is stored under it has a leaf.
-/

import SqlPipeline.Sql.Clauses

namespace SqlPipeline

/-- A leaf that asks for something. -/
def Token.isCondition : Token → Bool
  | .leaf (.raw sql _) => !sql.isEmpty
  | .leaf _ => true
  | _ => false

namespace Expression

mutual

/-- Whether the tree has a leaf that asks for something. -/
def hasCondition : Expression → Bool
  | .raw sql _ => !sql.isEmpty
  | .compare .. | .member .. | .isNull _ => true
  | .and members | .or members | .not members => anyHasCondition members

def anyHasCondition : List Expression → Bool
  | [] => false
  | e :: es => hasCondition e || anyHasCondition es

end

theorem anyHasCondition_eq (es : List Expression) : anyHasCondition es = es.any hasCondition := by
  induction es with
  | nil => rfl
  | cons e es ih => rw [anyHasCondition, ih, List.any_cons]

/-! ## Words -/

theorem any_enclosed (wanted : Bool) (ts : List Token) :
    (enclosed wanted ts).any Token.isCondition = ts.any Token.isCondition := by
  cases wanted <;> simp [enclosed, Token.isCondition]

/-- An expression that can be turned around is a condition, and so is its opposite. -/
theorem opposite?_isCondition {e : Expression} {l : Leaf} (h : e.opposite? = some l) :
    (Token.leaf l).isCondition = true ∧ e.hasCondition = true := by
  cases e <;> simp only [opposite?, Option.some.injEq, reduceCtorEq] at h <;> subst h <;>
    simp [Token.isCondition, hasCondition]

mutual

theorem any_tokens : ∀ e : Expression, e.tokens.any Token.isCondition = e.hasCondition
  | .raw sql values => by simp [tokens, hasCondition, Token.isCondition]
  | .compare column op v => by simp [tokens, hasCondition, Token.isCondition]
  | .member column values => by simp [tokens, hasCondition, Token.isCondition]
  | .isNull column => by simp [tokens, hasCondition, Token.isCondition]
  | .and members => by rw [tokens, any_enclosed, any_joined rfl, hasCondition]
  | .or members => by rw [tokens, any_enclosed, any_joined rfl, hasCondition]
  | .not members => by
    rw [tokens, hasCondition]
    split
    · rw [any_enclosed, any_denied]
    · rw [List.any_cons, any_enclosed, any_underNot]
      rfl

theorem any_joined {several : Bool} {connective : Token} (hc : connective.isCondition = false) :
    ∀ {first : Bool} (es : List Expression),
      (joined several connective first es).any Token.isCondition = anyHasCondition es
  | _, [] => by simp [joined, anyHasCondition]
  | first, e :: es => by
    have hw : ((if first then [] else if e.isSingleOr then [.or] else [connective]) : List Token).any
        Token.isCondition = false := by
      split
      · rfl
      · split
        · rfl
        · simp [hc]
    rw [joined, List.any_append, List.any_append, hw, any_enclosed, any_tokens e, any_joined hc es, anyHasCondition,
      Bool.false_or]

theorem any_denied : ∀ {first : Bool} (es : List Expression),
    (denied first es).any Token.isCondition = anyHasCondition es
  | _, [] => by simp [denied, anyHasCondition]
  | first, e :: es => by
    have hw : ((if first then [] else [.and]) : List Token).any Token.isCondition = false := by
      split <;> rfl
    rw [denied, List.any_append, List.any_append, hw, any_denied es, anyHasCondition, Bool.false_or]
    congr 1
    cases h : e.opposite? with
    | some l =>
      obtain ⟨hl, he⟩ := opposite?_isCondition h
      simp [hl, he]
    | none =>
      show (Token.not :: enclosed e.isCompound (tokens e)).any Token.isCondition = _
      rw [List.any_cons, any_enclosed, any_tokens e]
      rfl

theorem any_underNot : ∀ {first : Bool} (es : List Expression),
    (underNot first es).any Token.isCondition = anyHasCondition es
  | _, [] => by simp [underNot, anyHasCondition]
  | first, e :: es => by
    have hw : ((if first then [] else if e.isGroupOfOr then [.or] else [.and]) : List Token).any
        Token.isCondition = false := by
      split
      · rfl
      · split <;> rfl
    rw [underNot, List.any_append, List.any_append, hw, any_enclosed, any_tokens e, any_underNot es, anyHasCondition,
      Bool.false_or]

end

theorem any_leadWithPlain (members : List Expression) :
    (leadWithPlain members).any hasCondition = members.any hasCondition := by
  unfold leadWithPlain
  have hm := List.takeWhile_append_dropWhile (p := dangles) (l := members)
  cases hb : members.takeWhile dangles with
  | nil => rfl
  | cons e before =>
    cases ha : members.dropWhile dangles with
    | nil => rfl
    | cons plain after =>
      rw [hb, ha] at hm
      rw [← hm]
      simp only [List.any_cons, List.any_append]
      cases e.hasCondition <;> cases plain.hasCondition <;> simp

theorem any_conjuncts (conditions : List Expression) :
    (conjuncts conditions).any hasCondition = conditions.any hasCondition := by
  unfold conjuncts
  split
  · next members => simp [hasCondition, anyHasCondition_eq]
  · rfl

theorem any_conditionTokens (conditions : List Expression) :
    (conditionTokens conditions).any Token.isCondition = conditions.any hasCondition := by
  unfold conditionTokens
  rw [any_joined rfl, anyHasCondition_eq, any_leadWithPlain, any_conjuncts]

end Expression

/-! ## Clauses -/

/-- Clauses hold a WHERE with a condition to it, once in words. -/
def Conditional (cs : List Clause) : Prop :=
  ∃ conditions, Clause.where conditions ∈ cs ∧ (Expression.conditionTokens conditions).any Token.isCondition = true

namespace Clauses

theorem name_of_get? {cs : Clauses} {name : String} {c : Clause} (h : cs.get? name = some c) : c.name = name := by
  have := List.find?_some h
  simpa using this

theorem mem_present {cs : Clauses} {names : List String} {c : Clause} :
    c ∈ cs.present names ↔ (∃ name ∈ names, cs.get? name = some c) ∧ c.isEmpty = false := by
  unfold present
  simp [List.mem_filter, List.mem_filterMap]

theorem conditional_iff {cs : Clauses} {conditions : List Expression}
    (h : cs.get? "WHERE" = some (.where conditions)) (hne : conditions ≠ []) (names : List String) :
    Conditional (cs.present names) ↔ "WHERE" ∈ names ∧ ∃ e ∈ conditions, e.hasCondition = true := by
  unfold Conditional
  constructor
  · rintro ⟨found, hmem, hcond⟩
    obtain ⟨⟨name, hname, hget⟩, -⟩ := mem_present.mp hmem
    have hw : "WHERE" = name := name_of_get? hget
    subst hw
    rw [h] at hget
    cases hget
    rw [Expression.any_conditionTokens] at hcond
    exact ⟨hname, List.any_eq_true.mp hcond⟩
  · rintro ⟨hname, hcond⟩
    refine ⟨conditions, mem_present.mpr ⟨⟨"WHERE", hname, h⟩, ?_⟩, ?_⟩
    · cases conditions with
      | nil => exact absurd rfl hne
      | cons e es => rfl
    · rw [Expression.any_conditionTokens]
      exact List.any_eq_true.mpr hcond

end Clauses

end SqlPipeline
