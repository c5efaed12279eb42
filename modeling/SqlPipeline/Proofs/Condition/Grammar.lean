/-
  SqlPipeline.Proofs.Condition.Grammar — the words that make a condition.

      condition := term ((AND | OR) term)*
      term      := leaf | NOT term | ( condition )

  Words that follow the grammar begin with no connective and end with none, and their
  parentheses match. The reader takes them and no others, whatever is true of the leaves.

  - `IsCondition.ends`, `IsCondition.matched`: the two ends, and the parentheses between them.
  - `read_iff`: what is read is what follows the grammar.
-/

import SqlPipeline.Proofs.Condition.Reading

namespace SqlPipeline

/-! ## The grammar -/

/-- A word between two terms. -/
def Token.isConnective : Token → Bool
  | .and | .or => true
  | _ => false

mutual

inductive IsTerm : List Token → Prop
  | leaf (l : Leaf) : IsTerm [.leaf l]
  | not {ts : List Token} : IsTerm ts → IsTerm (.not :: ts)
  | group {ts : List Token} : IsCondition ts → IsTerm (.open :: ts ++ [.close])

inductive IsCondition : List Token → Prop
  | term {ts : List Token} : IsTerm ts → IsCondition ts
  | joined {ts us : List Token} {c : Token} :
    IsTerm ts → c.isConnective = true → IsCondition us → IsCondition (ts ++ c :: us)

end

/-! ## Ends -/

/-- There are words, and neither the first nor the last of them is a connective. -/
structure Ends (ts : List Token) : Prop where
  first : ∃ t us, ts = t :: us ∧ t.isConnective = false
  last : ∃ us t, ts = us ++ [t] ∧ t.isConnective = false

mutual

theorem IsTerm.ends {ts : List Token} : IsTerm ts → Ends ts
  | .leaf l => ⟨⟨.leaf l, [], rfl, rfl⟩, ⟨[], .leaf l, rfl, rfl⟩⟩
  | .not h => by
    obtain ⟨us, t, rfl, ht⟩ := h.ends.last
    exact ⟨⟨.not, us ++ [t], rfl, rfl⟩, ⟨.not :: us, t, rfl, ht⟩⟩
  | @IsTerm.group ts _ => ⟨⟨.open, ts ++ [.close], rfl, rfl⟩, ⟨.open :: ts, .close, rfl, rfl⟩⟩

theorem IsCondition.ends {ts : List Token} : IsCondition ts → Ends ts
  | .term h => h.ends
  | .joined (c := c) h _ h' => by
    obtain ⟨t, us, rfl, ht⟩ := h.ends.first
    obtain ⟨us', t', rfl, ht'⟩ := h'.ends.last
    exact ⟨⟨t, us ++ c :: (us' ++ [t']), rfl, ht⟩, ⟨t :: us ++ c :: us', t', by simp, ht'⟩⟩

end

/-! ## Parentheses -/

theorem matched_connective {c : Token} (hc : c.isConnective = true) {ts : List Token} (h : matched true 0 ts = true) :
    matched true 0 (c :: ts) = true := by
  cases c with
  | and | or => exact h
  | _ => cases hc

mutual

theorem IsTerm.matched {ts : List Token} : IsTerm ts → matched true 0 ts = true
  | .leaf _ => rfl
  | .not h => h.matched
  | .group h => matched_append 0 1 h.matched (fun _ => Or.inl rfl) rfl

theorem IsCondition.matched {ts : List Token} : IsCondition ts → matched true 0 ts = true
  | .term h => h.matched
  | .joined h hc h' => matched_beside h.matched (matched_connective hc h'.matched)

end

/-! ## Terms as they are read -/

theorem Truth.not_not (v : Truth) : v.not.not = v := by cases v <;> rfl

/-- The level once a connective is read. -/
def Level.resume (l : Level) : Token → Level
  | .or => { alternatives := l.value }
  | _ => { l with denied := false }

section Reads

variable (truth : Leaf → Truth)

/-- Wherever a member is expected, the words are one, worth `v`. -/
def ReadsAs (ts : List Token) (v : Truth) : Prop :=
  ∀ level outer, Reader.run truth ⟨level, outer, true⟩ ts = some ⟨level.take v, outer, false⟩

/-- From the start of a level the words lead to its end, and it is worth `v`. -/
def FillsAs (ts : List Token) (v : Truth) : Prop :=
  ∃ level : Level, level.value = v ∧
    ∀ outer, Reader.run truth ⟨{}, outer, true⟩ ts = some ⟨level, outer, false⟩

variable {truth}

theorem step_connective {c : Token} (hc : c.isConnective = true) (level : Level) (outer : List Level) :
    Reader.step truth ⟨level, outer, false⟩ c = some ⟨level.resume c, outer, true⟩ := by
  cases c with
  | and | or => rfl
  | _ => cases hc

theorem readsAs_leaf (l : Leaf) : ReadsAs truth [.leaf l] (truth l) := fun _ _ => rfl

theorem ReadsAs.not {ts : List Token} {v : Truth} (h : ReadsAs truth ts v) : ReadsAs truth (.not :: ts) v.not := by
  intro level outer
  show Reader.run truth ⟨{ level with denied := !level.denied }, outer, true⟩ ts = _
  rw [h]
  cases hd : level.denied <;> simp [Level.take, hd, Truth.not_not]

theorem ReadsAs.fills {ts : List Token} {v : Truth} (h : ReadsAs truth ts v) : FillsAs truth ts v :=
  ⟨({} : Level).take v, by cases v <;> rfl, h {}⟩

theorem FillsAs.group {ts : List Token} {v : Truth} (h : FillsAs truth ts v) :
    ReadsAs truth (.open :: ts ++ [.close]) v := by
  intro level outer
  obtain ⟨inner, rfl, hrun⟩ := h
  show Reader.run truth ⟨{}, level :: outer, true⟩ (ts ++ [.close]) = _
  rw [Reader.run_append, hrun]
  rfl

theorem FillsAs.read {ts : List Token} {v : Truth} (h : FillsAs truth ts v) : read truth ts = some v := by
  obtain ⟨level, rfl, hrun⟩ := h
  unfold SqlPipeline.read
  rw [hrun]

mutual

theorem IsTerm.reads {ts : List Token} : IsTerm ts → ∃ v, ReadsAs truth ts v
  | .leaf l => ⟨truth l, readsAs_leaf l⟩
  | .not h => h.reads.elim fun v hv => ⟨v.not, hv.not⟩
  | .group h =>
    let ⟨level, hrun⟩ := h.reads {}
    ⟨level.value, FillsAs.group ⟨level, rfl, hrun⟩⟩

theorem IsCondition.reads {ts : List Token} : IsCondition ts → ∀ level, ∃ level', ∀ outer,
    Reader.run truth ⟨level, outer, true⟩ ts = some ⟨level', outer, false⟩
  | .term h => fun level => h.reads.elim fun v hv => ⟨level.take v, hv level⟩
  | .joined (c := c) h hc h' => by
    intro level
    obtain ⟨v, hv⟩ := h.reads
    obtain ⟨level', hlevel'⟩ := h'.reads ((level.take v).resume c)
    refine ⟨level', fun outer => ?_⟩
    rw [Reader.run_append, hv, Option.bind_some, Reader.run, step_connective hc, Option.bind_some, hlevel']

end

end Reads

/-! ## What the reader takes -/

/-- What may still come where a term is over. -/
def IsRest (ts : List Token) : Prop := ts = [] ∨ ∃ c us, ts = c :: us ∧ c.isConnective = true ∧ IsCondition us

theorem IsTerm.before_rest {ts us : List Token} (h : IsTerm ts) (hrest : IsRest us) : IsCondition (ts ++ us) := by
  rcases hrest with rfl | ⟨c, us, rfl, hc, hus⟩
  · rw [List.append_nil]
    exact .term h
  · exact .joined h hc hus

theorem IsCondition.denied {ts : List Token} (h : IsCondition ts) : IsCondition (.not :: ts) := by
  cases h with
  | term h => exact .term h.not
  | joined h hc h' => exact .joined h.not hc h'

/-- The words end the level, which expects a member or not. -/
def EndsLevel : Bool → List Token → Prop
  | true, ts => IsCondition ts
  | false, ts => IsRest ts

/-- The words end the innermost of `depth` levels, and then those around it. -/
def EndsLevels : Nat → Bool → List Token → Prop
  | 0, expects, ts => EndsLevel expects ts
  | depth + 1, expects, ts =>
    ∃ us vs, ts = us ++ .close :: vs ∧ EndsLevel expects us ∧ EndsLevels depth false vs

theorem EndsLevels.behind {depth : Nat} {e e' : Bool} {pre ts : List Token} (h : EndsLevels depth e ts)
    (hpre : ∀ us, EndsLevel e us → EndsLevel e' (pre ++ us)) : EndsLevels depth e' (pre ++ ts) := by
  cases depth with
  | zero => exact hpre ts h
  | succ depth =>
    obtain ⟨us, vs, rfl, hus, hvs⟩ := h
    exact ⟨pre ++ us, vs, (List.append_assoc ..).symm, hpre us hus, hvs⟩

theorem endsLevels_of_run {truth : Leaf → Truth} {r : Reader} {ts : List Token} {level : Level}
    (h : r.run truth ts = some ⟨level, [], false⟩) : EndsLevels r.outer.length r.expects ts := by
  induction ts generalizing r with
  | nil =>
    cases h
    exact Or.inl rfl
  | cons t ts ih =>
    obtain ⟨r', hstep, hrun⟩ := Option.bind_eq_some_iff.mp h
    have hrest := ih hrun
    obtain ⟨l, outer, expects⟩ := r
    cases t with
    | leaf l =>
      cases expects <;> cases hstep
      show EndsLevels _ true ([.leaf l] ++ ts)
      exact hrest.behind fun us hus => (IsTerm.leaf l).before_rest hus
    | not =>
      cases expects <;> cases hstep
      show EndsLevels _ true ([.not] ++ ts)
      exact hrest.behind fun us hus => hus.denied
    | «open» =>
      cases expects <;> cases hstep
      obtain ⟨us, vs, rfl, hus, hvs⟩ := hrest
      have hgroup : IsTerm (.open :: us ++ [.close]) := .group hus
      have hbehind : EndsLevels _ true (.open :: us ++ [.close] ++ vs) :=
        hvs.behind fun ws hws => hgroup.before_rest hws
      simpa using hbehind
    | close =>
      cases expects with
      | true => cases hstep
      | false =>
        cases outer with
        | nil => cases hstep
        | cons l outer =>
          cases hstep
          exact ⟨[], ts, rfl, Or.inl rfl, hrest⟩
    | and =>
      cases expects <;> cases hstep
      show EndsLevels _ false ([.and] ++ ts)
      exact hrest.behind fun us hus => Or.inr ⟨.and, us, rfl, rfl, hus⟩
    | or =>
      cases expects <;> cases hstep
      show EndsLevels _ false ([.or] ++ ts)
      exact hrest.behind fun us hus => Or.inr ⟨.or, us, rfl, rfl, hus⟩

theorem IsCondition.of_read {truth : Leaf → Truth} {ts : List Token} {v : Truth} (h : read truth ts = some v) :
    IsCondition ts := by
  unfold read at h
  split at h
  · next level hrun => exact endsLevels_of_run hrun
  · cases h

theorem read_iff (truth : Leaf → Truth) (ts : List Token) : (∃ v, read truth ts = some v) ↔ IsCondition ts := by
  constructor
  · rintro ⟨v, hv⟩
    exact .of_read hv
  · intro h
    obtain ⟨level, hrun⟩ : ∃ level, ∀ outer, Reader.run truth ⟨{}, outer, true⟩ ts = some ⟨level, outer, false⟩ :=
      h.reads {}
    exact ⟨level.value, FillsAs.read ⟨level, rfl, hrun⟩⟩

end SqlPipeline
