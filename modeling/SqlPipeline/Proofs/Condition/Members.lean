/-
  SqlPipeline.Proofs.Condition.Members — a tree of conditions by its members.

  However a group is put into words, its words are those of its members, each in parentheses
  or not, with a connective before every member but the first. That is a sentence. What decides
  is only which members come behind an OR, and what is written for each.

  - `byMembers`: what holds of a group when it holds of its members holds of every tree.
  - `tokens_and`, `tokens_or`, `tokens_not`, `conditionTokens_eq`: the sentence of each group.
  - `Gathers.tokens`: what a tree holds, member by member, its words hold.
  - `fragmentsOf_written`: the raw fragments of a condition are those of the trees it is made of.
-/

import Mathlib.Data.List.Basic
import SqlPipeline.Proofs.Condition.Enclosure

namespace SqlPipeline

namespace Expression

/-! ## Trees in a tree -/

mutual

/-- The trees in a tree, itself included. -/
def parts : Expression → List Expression
  | .and members => .and members :: partsOf members
  | .or members => .or members :: partsOf members
  | .not members => .not members :: partsOf members
  | e => [e]

def partsOf : List Expression → List Expression
  | [] => []
  | e :: es => parts e ++ partsOf es

end

theorem mem_partsOf {g : Expression} {es : List Expression} : g ∈ partsOf es ↔ ∃ e ∈ es, g ∈ e.parts := by
  induction es with
  | nil => simp [partsOf]
  | cons e es ih => simp [partsOf, ih]

theorem self_mem_parts (e : Expression) : e ∈ e.parts := by
  cases e <;> simp [parts]

/-- What is asked of every tree in some trees is asked of each of them. -/
theorem forall_partsOf {p : Expression → Prop} {es : List Expression} (h : ∀ g ∈ partsOf es, p g) {e : Expression}
    (he : e ∈ es) : ∀ g ∈ e.parts, p g :=
  fun g hg => h g (mem_partsOf.mpr ⟨e, he, hg⟩)

theorem byMembers {p : Expression → Prop} (raw : ∀ sql values, p (.raw sql values))
    (compare : ∀ column op v, p (.compare column op v)) (member : ∀ column values, p (.member column values))
    (isNull : ∀ column, p (.isNull column)) (and : ∀ members, (∀ e ∈ members, p e) → p (.and members))
    (or : ∀ members, (∀ e ∈ members, p e) → p (.or members))
    (not : ∀ members, (∀ e ∈ members, p e) → p (.not members)) : ∀ e, p e
  | .raw sql values => raw sql values
  | .compare column op v => compare column op v
  | .member column values => member column values
  | .isNull column => isNull column
  | .and members => and members fun e _ => byMembers raw compare member isNull and or not e
  | .or members => or members fun e _ => byMembers raw compare member isNull and or not e
  | .not members => not members fun e _ => byMembers raw compare member isNull and or not e

/-! ## Sentences -/

section Sentence

variable (orBefore : Expression → Bool) (body : Expression → List Token)

/-- Members with the connective before each. -/
def continued (es : List Expression) : List Token :=
  es.flatMap fun e => (if orBefore e then .or else .and) :: body e

/-- Members with a connective between neighbours. -/
def sentence : List Expression → List Token
  | [] => []
  | e :: es => body e ++ continued orBefore body es

@[simp] theorem continued_nil : continued orBefore body [] = [] := rfl

@[simp] theorem continued_cons (e : Expression) (es : List Expression) :
    continued orBefore body (e :: es) =
      (if orBefore e then .or else .and) :: (body e ++ continued orBefore body es) := rfl

end Sentence

/-- A member beside its siblings. -/
def beside (several : Bool) (e : Expression) : List Token := enclosed (several && e.needsEnclosure) e.tokens

/-- A member right behind NOT. -/
def behindNot (e : Expression) : List Token := enclosed e.isCompound e.tokens

/-- A member denied by itself. -/
def turned (e : Expression) : List Token :=
  match e.opposite? with
  | some l => [.leaf l]
  | none => .not :: e.behindNot

theorem joined_and (several : Bool) (es : List Expression) :
    joined several .and true es = sentence isSingleOr (beside several) es ∧
      joined several .and false es = continued isSingleOr (beside several) es := by
  induction es with
  | nil => simp [joined, sentence]
  | cons e es ih => cases h : e.isSingleOr <;> simp [joined, sentence, ih.2, h, beside]

theorem joined_or (several : Bool) (es : List Expression) :
    joined several .or true es = sentence (fun _ => true) (beside several) es ∧
      joined several .or false es = continued (fun _ => true) (beside several) es := by
  induction es with
  | nil => simp [joined, sentence]
  | cons e es ih => simp [joined, sentence, ih.2, beside]

theorem denied_eq (es : List Expression) :
    denied true es = sentence (fun _ => false) turned es ∧
      denied false es = continued (fun _ => false) turned es := by
  induction es with
  | nil => simp [denied, sentence]
  | cons e es ih => exact ⟨by rw [denied, ih.2]; rfl, by rw [denied, ih.2]; rfl⟩

theorem underNot_eq (es : List Expression) :
    underNot true es = sentence isGroupOfOr behindNot es ∧
      underNot false es = continued isGroupOfOr behindNot es := by
  induction es with
  | nil => simp [underNot, sentence]
  | cons e es ih => cases h : e.isGroupOfOr <;> simp [underNot, sentence, ih.2, h, behindNot]

theorem tokens_and (members : List Expression) :
    tokens (.and members) =
      enclosed (1 < members.length) (sentence isSingleOr (beside (1 < members.length)) members) := by
  rw [tokens, (joined_and _ _).1]

theorem tokens_or (members : List Expression) :
    tokens (.or members) =
      enclosed (1 < members.length) (sentence (fun _ => true) (beside (1 < members.length)) members) := by
  rw [tokens, (joined_or _ _).1]

theorem tokens_not (members : List Expression) :
    tokens (.not members) =
      if members.any (·.opposite?.isSome) then
        enclosed (1 < members.length) (sentence (fun _ => false) turned members)
      else .not :: enclosed (1 < members.length) (sentence isGroupOfOr behindNot members) := by
  rw [tokens, (denied_eq _).1, (underNot_eq _).1]

/-- The members of a condition, in the order in which they are written. -/
def written (conditions : List Expression) : List Expression := leadWithPlain (conjuncts conditions)

theorem conditionTokens_eq (conditions : List Expression) :
    conditionTokens conditions =
      sentence isSingleOr (beside (1 < (written conditions).length)) (written conditions) := by
  unfold conditionTokens
  exact (joined_and _ _).1

/-! ## Gathering from words -/

/-- What `g` gathers from a tree member by member is what `f` gathers from its words: nothing from
    connectives and parentheses, and from a leaf the same whether or not it was turned around. -/
structure Gathers {α : Type} (f : Token → List α) (g : Expression → List α) : Prop where
  word : ∀ t, (∀ l, t ≠ .leaf l) → f t = []
  raw : ∀ sql values, f (.leaf (.raw sql values)) = g (.raw sql values)
  leaf : ∀ e l, e.leaf? = some l → f (.leaf l) = g e
  turned : ∀ e l, e.opposite? = some l → f (.leaf l) = g e
  and : ∀ members, g (.and members) = members.flatMap g
  or : ∀ members, g (.or members) = members.flatMap g
  not : ∀ members, g (.not members) = members.flatMap g

namespace Gathers

variable {α : Type} {f : Token → List α} {g : Expression → List α}

theorem enclosed (h : Gathers f g) (wanted : Bool) (ts : List Token) :
    (enclosed wanted ts).flatMap f = ts.flatMap f := by
  cases wanted with
  | false => rfl
  | true =>
    show f .open ++ (ts ++ [Token.close]).flatMap f = _
    rw [h.word .open nofun, List.nil_append, List.flatMap_append, List.flatMap_singleton, h.word .close nofun,
      List.append_nil]

theorem continued (h : Gathers f g) (orBefore : Expression → Bool) (body : Expression → List Token)
    (es : List Expression) : (continued orBefore body es).flatMap f = es.flatMap fun e => (body e).flatMap f := by
  induction es with
  | nil => rfl
  | cons e es ih =>
    have hword : f (if orBefore e then .or else .and) = [] := h.word _ (by cases orBefore e <;> exact nofun)
    rw [continued_cons, List.flatMap_cons, hword, List.nil_append, List.flatMap_append, ih, List.flatMap_cons]

theorem sentence (h : Gathers f g) (orBefore : Expression → Bool) (body : Expression → List Token)
    (es : List Expression) : (sentence orBefore body es).flatMap f = es.flatMap fun e => (body e).flatMap f := by
  cases es with
  | nil => rfl
  | cons e es => rw [Expression.sentence, List.flatMap_append, h.continued, List.flatMap_cons]

/-- NOT and parentheses around the words of a tree add nothing to it. -/
theorem behindNot (h : Gathers f g) {e : Expression} (he : e.tokens.flatMap f = g e) : e.behindNot.flatMap f = g e :=
  (h.enclosed _ _).trans he

theorem turnedWords (h : Gathers f g) {e : Expression} (he : e.tokens.flatMap f = g e) : e.turned.flatMap f = g e := by
  unfold Expression.turned
  cases ho : e.opposite? with
  | none => rw [List.flatMap_cons, h.word .not nofun, List.nil_append, h.behindNot he]
  | some l => rw [List.flatMap_singleton, h.turned e l ho]

theorem tokens (h : Gathers f g) (e : Expression) : e.tokens.flatMap f = g e := by
  induction e using byMembers with
  | raw sql values => rw [Expression.tokens, List.flatMap_singleton, h.raw]
  | compare column op v => rw [Expression.tokens, List.flatMap_singleton, h.leaf (.compare column op v) _ rfl]
  | member column values => rw [Expression.tokens, List.flatMap_singleton, h.leaf (.member column values) _ rfl]
  | isNull column => rw [Expression.tokens, List.flatMap_singleton, h.leaf (.isNull column) _ rfl]
  | and members ih =>
    rw [tokens_and, h.enclosed, h.sentence, h.and]
    exact List.flatMap_congr fun e he => (h.enclosed _ _).trans (ih e he)
  | or members ih =>
    rw [tokens_or, h.enclosed, h.sentence, h.or]
    exact List.flatMap_congr fun e he => (h.enclosed _ _).trans (ih e he)
  | not members ih =>
    rw [tokens_not, h.not]
    split
    · rw [h.enclosed, h.sentence]
      exact List.flatMap_congr fun e he => h.turnedWords (ih e he)
    · rw [List.flatMap_cons, h.word .not nofun, List.nil_append, h.enclosed, h.sentence]
      exact List.flatMap_congr fun e he => h.behindNot (ih e he)

theorem conditionTokens (h : Gathers f g) (conditions : List Expression) :
    (conditionTokens conditions).flatMap f = (written conditions).flatMap g := by
  rw [conditionTokens_eq, h.sentence]
  exact List.flatMap_congr fun e _ => (h.enclosed _ _).trans (h.tokens e)

end Gathers

/-! ## Fragments -/

theorem fragmentsOf_eq (es : List Expression) : fragmentsOf es = es.flatMap fragments := by
  induction es with
  | nil => rfl
  | cons e es ih => rw [fragmentsOf, ih, List.flatMap_cons]

theorem fragmentsOf_conjuncts (conditions : List Expression) :
    fragmentsOf (conjuncts conditions) = fragmentsOf conditions := by
  unfold conjuncts
  split
  · simp [fragmentsOf, fragments]
  · rfl

/-- What is written has the fragments of the conditions. -/
theorem fragmentsOf_written (conditions : List Expression) :
    (fragmentsOf (written conditions)).Perm (fragmentsOf conditions) := by
  rw [← fragmentsOf_conjuncts conditions, fragmentsOf_eq, fragmentsOf_eq]
  exact (leadWithPlain_perm (conjuncts conditions)).flatMap_right fragments

theorem forall_fragmentsOf {p : String × List Value → Prop} {es : List Expression} :
    (∀ f ∈ fragmentsOf es, p f) ↔ ∀ e ∈ es, ∀ f ∈ e.fragments, p f := by
  rw [fragmentsOf_eq]
  exact List.forall_mem_flatMap

end Expression

end SqlPipeline
