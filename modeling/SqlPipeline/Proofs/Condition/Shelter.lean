/-
  SqlPipeline.Proofs.Condition.Shelter — which fragments get parentheses.

  A raw fragment with an AND or OR of its own is compound. It is sheltered when it stands
  directly between parentheses, and bare when its neighbours are something else, whatever the
  words around. Parentheses are given to a compound fragment among siblings and to one that is
  all there is in a group among siblings, and to a compound fragment behind NOT. One level
  deeper there are none: the fragment leaks.

  - `fragments_conditionTokens`: every fragment is written, and written once.
  - `compound_sheltered_iff`: each is alone or between parentheses exactly if none leaks.
-/

import Mathlib.Data.List.Basic
import SqlPipeline.Proofs.Condition.Members
import SqlPipeline.Sql.Clause

namespace SqlPipeline

/-! ## Neighbours -/

/-- A raw fragment with a connective of its own. -/
def Leaf.isCompound : Leaf → Bool
  | .raw sql values => (Expression.raw sql values).isCompound
  | _ => false

/-- The raw fragment that a word is. -/
def Token.fragment? : Token → Option (String × List Value)
  | .leaf (.raw sql values) => some (sql, values)
  | _ => none

/-- Every compound fragment stands directly between parentheses. -/
def Sheltered (ts : List Token) : Prop :=
  ∀ before l after, ts = before ++ .leaf l :: after → l.isCompound = true →
    ∃ b a, before = b ++ [.open] ∧ after = .close :: a

/-- Every compound fragment is all there is, or stands directly between parentheses. -/
def AloneOrSheltered (ts : List Token) : Prop :=
  ∀ before l after, ts = before ++ .leaf l :: after → l.isCompound = true →
    before = [] ∧ after = [] ∨ ∃ b a, before = b ++ [.open] ∧ after = .close :: a

/-- Some compound fragment does not stand so, whatever stands around the words. -/
def Bare (ts : List Token) : Prop :=
  ∃ before l after, ts = before ++ .leaf l :: after ∧ l.isCompound = true ∧
    ((∃ b t, before = b ++ [t] ∧ t ≠ .open) ∨ ∃ t a, after = t :: a ∧ t ≠ .close)

theorem Sheltered.append {ts us : List Token} (h : Sheltered ts) (h' : Sheltered us) : Sheltered (ts ++ us) := by
  intro before l after heq hl
  rcases List.append_eq_append_iff.mp heq with ⟨cs, rfl, hus⟩ | ⟨cs, rfl, hcs⟩
  · -- the fragment is in the second part
    obtain ⟨b, a, rfl, rfl⟩ := h' cs l after hus hl
    exact ⟨ts ++ b, a, (List.append_assoc ..).symm, rfl⟩
  · cases cs with
    | nil =>
      obtain ⟨b, a, hb, ha⟩ := h' [] l after hcs.symm hl
      exact absurd hb (by simp)
    | cons c cs =>
      obtain ⟨rfl, rfl⟩ := List.cons.inj hcs
      obtain ⟨b, a, rfl, rfl⟩ := h before l cs rfl hl
      exact ⟨b, a ++ us, rfl, rfl⟩

theorem sheltered_nil : Sheltered [] := by
  intro before l after heq
  simp at heq

/-- One word that is no compound fragment. -/
theorem sheltered_one {t : Token} (h : ∀ l, t = .leaf l → l.isCompound = false) : Sheltered [t] := by
  intro before l after heq hl
  rcases before with _ | ⟨b, before⟩
  · obtain ⟨rfl, -⟩ := List.cons.inj heq
    rw [h l rfl] at hl
    cases hl
  · simp at heq

theorem sheltered_between (l : Leaf) : Sheltered [.open, .leaf l, .close] := by
  intro before l' after heq _
  rcases before with _ | ⟨b, _ | ⟨b', _ | ⟨b'', before⟩⟩⟩ <;> simp at heq
  obtain ⟨rfl, -, rfl⟩ := heq
  exact ⟨[], [], rfl, rfl⟩

theorem Bare.around {ts : List Token} (h : Bare ts) (pre post : List Token) : Bare (pre ++ ts ++ post) := by
  obtain ⟨before, l, after, rfl, hl, hbare⟩ := h
  refine ⟨pre ++ before, l, after ++ post, by simp, hl, ?_⟩
  rcases hbare with ⟨b, t, rfl, ht⟩ | ⟨t, a, rfl, ht⟩
  · exact Or.inl ⟨pre ++ b, t, (List.append_assoc ..).symm, ht⟩
  · exact Or.inr ⟨t, a ++ post, rfl, ht⟩

theorem Sheltered.enclosed {ts : List Token} (h : Sheltered ts) (wanted : Bool) : Sheltered (enclosed wanted ts) := by
  cases wanted with
  | false => exact h
  | true =>
    exact ((sheltered_one (t := .open) nofun).append h).append (sheltered_one nofun)

theorem Bare.enclosed {ts : List Token} (h : Bare ts) (wanted : Bool) : Bare (enclosed wanted ts) := by
  cases wanted with
  | false => exact h
  | true => exact h.around [.open] [.close]

namespace Expression

/-! ## Sentences -/

section Sentence

variable {orBefore : Expression → Bool} {body : Expression → List Token} {es : List Expression}

theorem sheltered_continued (h : ∀ e ∈ es, Sheltered (body e)) : Sheltered (continued orBefore body es) := by
  induction es with
  | nil => exact sheltered_nil
  | cons e es ih =>
    obtain ⟨he, hes⟩ := List.forall_mem_cons.mp h
    have hword : Sheltered [if orBefore e then .or else .and] := by
      cases orBefore e <;> exact sheltered_one nofun
    exact hword.append (he.append (ih hes))

theorem sheltered_sentence (h : ∀ e ∈ es, Sheltered (body e)) : Sheltered (sentence orBefore body es) := by
  cases es with
  | nil => exact sheltered_nil
  | cons e es =>
    obtain ⟨he, hes⟩ := List.forall_mem_cons.mp h
    exact he.append (sheltered_continued hes)

variable (orBefore body) in
/-- Where a member stands in a sentence. Among several, it has a connective on one side. -/
theorem sentence_split {e : Expression} (he : e ∈ es) :
    ∃ pre post, sentence orBefore body es = pre ++ body e ++ post ∧
      (1 < es.length → (∃ b c, pre = b ++ [c] ∧ c ≠ .open) ∨ ∃ c a, post = c :: a ∧ c ≠ .close) := by
  obtain ⟨before, after, rfl⟩ := List.append_of_mem he
  cases before with
  | nil =>
    refine ⟨[], continued orBefore body after, by simp [sentence], fun hseveral => Or.inr ?_⟩
    cases after with
    | nil => exact absurd hseveral (by simp)
    | cons e' after => exact ⟨_, _, rfl, by cases orBefore e' <;> simp⟩
  | cons e' before =>
    refine ⟨body e' ++ continued orBefore body before ++ [if orBefore e then .or else .and],
      continued orBefore body after, by simp [sentence, continued], fun _ => Or.inl ⟨_, _, rfl, ?_⟩⟩
    cases orBefore e <;> simp

theorem bare_sentence {e : Expression} (he : e ∈ es) (h : Bare (body e)) : Bare (sentence orBefore body es) := by
  obtain ⟨pre, post, hsplit, -⟩ := sentence_split orBefore body he
  rw [hsplit]
  exact h.around pre post

theorem bare_sentence_leaf {e : Expression} {l : Leaf} (he : e ∈ es) (hbody : body e = [.leaf l])
    (hl : l.isCompound = true) (hseveral : 1 < es.length) : Bare (sentence orBefore body es) := by
  obtain ⟨pre, post, hsplit, hbeside⟩ := sentence_split orBefore body he
  exact ⟨pre, l, post, by rw [hsplit, hbody]; simp, hl, hbeside hseveral⟩

end Sentence

/-! ## Fragments that leak -/

/-- Whether the tree is a compound fragment and no more, but for groups of AND or OR around it. -/
def isLone : Expression → Bool
  | .and [e] => isLone e
  | .or [e] => isLone e
  | e => e.isCompound

mutual

/-- Whether a compound fragment in the tree gets no parentheses, though it is not all of it. -/
def leaks : Expression → Bool
  | .and members => leaksAmong (fun e => decide (1 < members.length) && e.isLone && !e.needsEnclosure) members
  | .or members => leaksAmong (fun e => decide (1 < members.length) && e.isLone && !e.needsEnclosure) members
  | .not members => leaksAmong (fun e => e.isLone && !e.isCompound) members
  | _ => false

/-- `unguarded` tells which members are written without parentheses though they are compound. -/
def leaksAmong (unguarded : Expression → Bool) : List Expression → Bool
  | [] => false
  | e :: es => unguarded e || leaks e || leaksAmong unguarded es

end

theorem leaksAmong_eq (unguarded : Expression → Bool) (es : List Expression) :
    leaksAmong unguarded es = es.any fun e => unguarded e || e.leaks := by
  induction es with
  | nil => rfl
  | cons e es ih => rw [leaksAmong, ih, List.any_cons]

/-- Words that are a compound fragment (`lone`), or else shelter theirs unless one leaks. -/
structure Wording (lone leak : Bool) (ts : List Token) : Prop where
  leaf : lone = true → ∃ l, ts = [.leaf l] ∧ l.isCompound = true
  sheltered : lone = false → leak = false → Sheltered ts
  bare : leak = true → Bare ts

theorem Wording.of_sheltered {ts : List Token} (h : Sheltered ts) : Wording false false ts where
  leaf := nofun
  sheltered _ _ := h
  bare := nofun

theorem Wording.enclosed {lone leak wanted : Bool} {ts : List Token} (h : Wording lone leak ts) :
    Wording (lone && !wanted) leak (enclosed wanted ts) := by
  cases wanted with
  | false => simpa [SqlPipeline.enclosed] using h
  | true =>
    refine ⟨by simp, fun _ hleak => ?_, fun hleak => (h.bare hleak).enclosed true⟩
    cases hlone : lone with
    | false => exact (h.sheltered hlone hleak).enclosed true
    | true =>
      obtain ⟨l, rfl, -⟩ := h.leaf hlone
      exact sheltered_between l

/-- Behind NOT a fragment without parentheses is bare. -/
theorem Wording.denied {lone leak : Bool} {ts : List Token} (h : Wording lone leak ts) :
    Wording false (lone || leak) (.not :: ts) := by
  refine ⟨nofun, fun _ hleak => ?_, fun hleak => ?_⟩
  · obtain ⟨hlone, hleak⟩ := Bool.or_eq_false_iff.mp hleak
    exact (sheltered_one (t := .not) nofun).append (h.sheltered hlone hleak)
  · rcases Bool.or_eq_true_iff.mp hleak with hlone | hleak
    · obtain ⟨l, rfl, hl⟩ := h.leaf hlone
      exact ⟨[.not], l, [], rfl, hl, Or.inl ⟨[], .not, rfl, nofun⟩⟩
    · simpa using (h.bare hleak).around [.not] []

theorem Wording.sentence {orBefore : Expression → Bool} {body : Expression → List Token} {es : List Expression}
    {lone leak : Expression → Bool} (h : ∀ e ∈ es, Wording (lone e) (leak e) (body e))
    (hlone : 1 < es.length ∨ ∀ e ∈ es, lone e = false) :
    Wording false (es.any fun e => lone e || leak e) (sentence orBefore body es) := by
  refine ⟨nofun, fun _ hleak => ?_, fun hleak => ?_⟩
  · refine sheltered_sentence fun e he => ?_
    obtain ⟨hl, hk⟩ := Bool.or_eq_false_iff.mp (by simpa using List.any_eq_false.mp hleak e he)
    exact (h e he).sheltered hl hk
  · obtain ⟨e, he, hleak⟩ := List.any_eq_true.mp hleak
    rcases Bool.or_eq_true_iff.mp hleak with hl | hk
    · obtain ⟨l, hbody, hcompound⟩ := (h e he).leaf hl
      rcases hlone with hseveral | hnone
      · exact bare_sentence_leaf he hbody hcompound hseveral
      · rw [hnone e he] at hl
        cases hl
    · exact bare_sentence he ((h e he).bare hk)

theorem wording_beside {e : Expression} (h : Wording e.isLone e.leaks e.tokens) :
    Wording (e.isLone && !e.needsEnclosure) e.leaks (beside true e) := by
  unfold beside
  rw [Bool.true_and]
  exact h.enclosed

theorem wording_behindNot {e : Expression} (h : Wording e.isLone e.leaks e.tokens) :
    Wording (e.isLone && !e.isCompound) e.leaks (behindNot e) := h.enclosed

theorem wording_turned {e : Expression} (h : Wording e.isLone e.leaks e.tokens) :
    Wording false ((e.isLone && !e.isCompound) || e.leaks) (turned e) := by
  unfold turned
  cases ho : e.opposite? with
  | none => exact (wording_behindNot h).denied
  | some l =>
    have hl : l.isCompound = false ∧ ((e.isLone && !e.isCompound) || e.leaks) = false := by
      cases e <;> cases ho <;> simp [Leaf.isCompound, isLone, isCompound, leaks]
    rw [hl.2]
    exact .of_sheltered (sheltered_one fun l' heq => by cases heq; exact hl.1)

/-- A group of AND or OR: nothing, its only member, or a sentence in parentheses. -/
theorem wording_group {orBefore : Expression → Bool} {members : List Expression}
    (ih : ∀ e ∈ members, Wording e.isLone e.leaks e.tokens) {lone : Bool}
    (hlone : lone = match members with | [e] => e.isLone | _ => false) :
    Wording lone (leaksAmong (fun e => decide (1 < members.length) && e.isLone && !e.needsEnclosure) members)
      (enclosed (1 < members.length) (sentence orBefore (beside (1 < members.length)) members)) := by
  subst hlone
  rw [leaksAmong_eq]
  match members with
  | [] => exact .of_sheltered sheltered_nil
  | [e] => simpa [enclosed, sentence, beside] using ih e (List.mem_singleton_self e)
  | e :: e' :: es =>
    rw [show decide (1 < (e :: e' :: es).length) = true by simp]
    simp only [Bool.true_and]
    exact (Wording.sentence (fun e he => wording_beside (ih e he)) (Or.inl (by simp))).enclosed

theorem wording_tokens (e : Expression) : Wording e.isLone e.leaks e.tokens := by
  induction e using byMembers with
  | raw sql values =>
    rw [tokens]
    refine ⟨fun h => ⟨_, rfl, h⟩, fun h _ => sheltered_one ?_, nofun⟩
    rintro _ ⟨rfl⟩
    exact h
  | compare | member | isNull =>
    rw [tokens]
    exact .of_sheltered (sheltered_one fun l heq => by cases heq; rfl)
  | and members ih =>
    rw [tokens_and, leaks]
    exact wording_group ih (by cases members with | nil => rfl | cons e es => cases es <;> rfl)
  | or members ih =>
    rw [tokens_or, leaks]
    exact wording_group ih (by cases members with | nil => rfl | cons e es => cases es <;> rfl)
  | not members ih =>
    rw [tokens_not, leaks, leaksAmong_eq]
    show Wording false _ _
    split
    · have hturned : Wording false _ (sentence (fun _ => false) turned members) :=
        .sentence (fun e he => wording_turned (ih e he)) (Or.inr fun _ _ => rfl)
      simpa using hturned.enclosed
    · match members with
      | [] => exact .of_sheltered (sheltered_one nofun)
      | [e] =>
        simpa [enclosed, sentence] using (wording_behindNot (ih e (List.mem_singleton_self e))).denied
      | e :: e' :: es =>
        have hsentence : Wording false _ (sentence isGroupOfOr behindNot (e :: e' :: es)) :=
          .sentence (fun e he => wording_behindNot (ih e he)) (Or.inl (by simp))
        simpa using hsentence.enclosed.denied

/-! ## No fragment is lost -/

theorem gathers_fragments : Gathers (fun t => t.fragment?.toList) fragments where
  word t ht := by
    cases t with
    | leaf l => exact absurd rfl (ht l)
    | _ => rfl
  raw _ _ := by simp [Token.fragment?, fragments]
  leaf e l h := by cases e <;> cases h <;> simp [Token.fragment?, fragments]
  turned e l h := by cases e <;> cases h <;> simp [Token.fragment?, fragments]
  and members := by rw [fragments, fragmentsOf_eq]
  or members := by rw [fragments, fragmentsOf_eq]
  not members := by rw [fragments, fragmentsOf_eq]

/-- The fragments of the conditions are written, each as often as it is there. -/
theorem fragments_conditionTokens (conditions : List Expression) :
    ((conditionTokens conditions).filterMap Token.fragment?).Perm (fragmentsOf conditions) := by
  rw [List.filterMap_eq_flatMap_toList, gathers_fragments.conditionTokens, ← fragmentsOf_eq]
  exact fragmentsOf_written conditions

/-! ## The condition of a statement -/

theorem leaks_conjuncts (conditions : List Expression) :
    (Expression.and (conjuncts conditions)).leaks = (Expression.and conditions).leaks := by
  unfold conjuncts
  split
  · next members => simp [leaks, leaksAmong]
  · rfl

theorem leaks_written (conditions : List Expression) :
    (Expression.and (written conditions)).leaks = (Expression.and conditions).leaks := by
  have hperm : (written conditions).Perm (conjuncts conditions) := leadWithPlain_perm _
  rw [← leaks_conjuncts conditions, leaks, leaks, leaksAmong_eq, leaksAmong_eq, hperm.any_eq, hperm.length_eq]

theorem Wording.aloneOrSheltered_iff {lone leak : Bool} {ts : List Token} (h : Wording lone leak ts) :
    AloneOrSheltered ts ↔ leak = false := by
  constructor
  · intro hall
    refine Bool.eq_false_iff.mpr fun hleak => ?_
    obtain ⟨before, l, after, heq, hl, hbare⟩ := h.bare hleak
    rcases hall before l after heq hl with ⟨rfl, rfl⟩ | ⟨b, a, rfl, rfl⟩
    · rcases hbare with ⟨b, t, heq, -⟩ | ⟨t, a, heq, -⟩
      · simp at heq
      · simp at heq
    · rcases hbare with ⟨b', t, heq, ht⟩ | ⟨t, a', heq, ht⟩
      · exact ht (by simpa using (List.append_inj' heq rfl).2.symm)
      · exact ht (List.cons.inj heq).1.symm
  · intro hleak before l after heq hl
    cases hcase : lone with
    | false => exact Or.inr (h.sheltered hcase hleak before l after heq hl)
    | true =>
      obtain ⟨l', rfl, -⟩ := h.leaf hcase
      rcases before with _ | ⟨b, before⟩
      · exact Or.inl ⟨rfl, (List.cons.inj heq).2.symm⟩
      · simp at heq

/-- All fragments of the conditions are written, and each one with a connective of its own is the
    whole condition or directly between parentheses, exactly if none of them leaks. -/
theorem compound_sheltered_iff (conditions : List Expression) :
    ((conditionTokens conditions).filterMap Token.fragment?).Perm (fragmentsOf conditions) ∧
      (AloneOrSheltered (conditionTokens conditions) ↔ (Expression.and conditions).leaks = false) := by
  refine ⟨fragments_conditionTokens conditions, ?_⟩
  rw [conditionTokens_eq, ← leaks_written]
  match written conditions with
  | [] => exact (Wording.of_sheltered sheltered_nil).aloneOrSheltered_iff
  | [e] =>
    have hone := (wording_tokens e).aloneOrSheltered_iff
    simpa [sentence, beside, enclosed, leaks, leaksAmong] using hone
  | e :: e' :: es =>
    have hseveral : Wording false (Expression.and (e :: e' :: es)).leaks
        (sentence isSingleOr (beside true) (e :: e' :: es)) := by
      have hsentence : Wording false _ (sentence isSingleOr (beside true) (e :: e' :: es)) :=
        .sentence (fun e _ => wording_beside (wording_tokens e)) (Or.inl (by simp))
      simpa [leaks, leaksAmong_eq] using hsentence
    simpa using hseveral.aloneOrSheltered_iff

/-- A fragment that is alone in two groups leaks beside a sibling, and so does one in a group
    behind NOT. The groups are those the combinators make. -/
theorem compound_leaked :
    let fragment : Expression := .raw "a = 1 OR b = 2" []
    let beside : List Expression := [conjunction [disjunction [fragment]], .compare "c" .eq (.int 3)]
    let denied : List Expression := [negation [disjunction [fragment]]]
    fragment.isCompound = true ∧
      (Rendered.writeAll (.generic .question) {} (Clause.where beside).pieces).text =
        "WHERE a = 1 OR b = 2 AND \"c\" = ?" ∧
      ¬AloneOrSheltered (conditionTokens beside) ∧
      (Rendered.writeAll (.generic .question) {} (Clause.where denied).pieces).text =
        "WHERE NOT a = 1 OR b = 2" ∧
      ¬AloneOrSheltered (conditionTokens denied) := by
  intro fragment beside denied
  have hbeside : conditionTokens beside =
      [] ++ .leaf (.raw "a = 1 OR b = 2" []) :: [.and, .leaf (.compare "c" .eq (.int 3))] := by decide +kernel
  have hdenied : conditionTokens denied = [.not] ++ .leaf (.raw "a = 1 OR b = 2" []) :: [] := by decide +kernel
  have hcompound : fragment.isCompound = true := by decide +kernel
  refine ⟨hcompound, by decide +kernel, fun h => ?_, by decide +kernel, fun h => ?_⟩
  · simpa using h _ _ _ hbeside hcompound
  · simpa using h _ _ _ hdenied hcompound

end Expression

end SqlPipeline
