/-
  SqlPipeline.Proofs.Condition.Meaning — what a tree of conditions means, and what its words say.

  A tree means what its groups mean: AND and OR the conjunction and the disjunction of their
  members, NOT the denial of the conjunction. The truth of the leaves is given, and a leaf that
  is turned around is true when the plain one is false.

  The words say what the reader makes of them. For trees without empty groups this is known
  exactly (`said`): a sentence is an OR of ANDs, split wherever a member comes behind an OR, a
  NOT group with a member to be turned around denies every member, any other NOT group denies
  its sentence. Tree and words agree unless an OR group of one member or a NOT group of several
  gets in the way.

  - `read_tokens`, `read_conditionTokens_said`: the words are read, and say what `said` tells.
  - `said_eq_meaning`: where nothing gets in the way they say what the tree means.
  - `conditionTokens_meaning`: the condition of a statement.
-/

import SqlPipeline.Proofs.Condition.Enclosure
import SqlPipeline.Proofs.Condition.Grammar
import SqlPipeline.Proofs.Condition.Members

namespace SqlPipeline

/-! ## Several truths -/

namespace Truth

theorem and_assoc (a b c : Truth) : (a.and b).and c = a.and (b.and c) := by
  cases a <;> cases b <;> cases c <;> rfl

theorem or_assoc (a b c : Truth) : (a.or b).or c = a.or (b.or c) := by
  cases a <;> cases b <;> cases c <;> rfl

@[simp] theorem and_yes (a : Truth) : a.and yes = a := by cases a <;> rfl

@[simp] theorem or_no (a : Truth) : a.or no = a := by cases a <;> rfl

def all (vs : List Truth) : Truth := vs.foldr and yes

def any (vs : List Truth) : Truth := vs.foldr or no

@[simp] theorem all_cons (v : Truth) (vs : List Truth) : all (v :: vs) = v.and (all vs) := rfl

@[simp] theorem any_cons (v : Truth) (vs : List Truth) : any (v :: vs) = v.or (any vs) := rfl

/-- A member and those that follow it, each with whether OR stands before it. OR begins
    another alternative. -/
def chained (v : Truth) : List (Bool × Truth) → Truth
  | [] => v
  | (false, w) :: ms => chained (v.and w) ms
  | (true, w) :: ms => v.or (chained w ms)

/-- A sentence. What stands before the first member is not asked. -/
def spoken : List (Bool × Truth) → Truth
  | [] => yes
  | (_, v) :: ms => chained v ms

theorem chained_all {ms : List (Bool × Truth)} (h : ∀ m ∈ ms, m.1 = false) (v : Truth) :
    chained v ms = v.and (all (ms.map Prod.snd)) := by
  induction ms generalizing v with
  | nil => simp [chained, all]
  | cons m ms ih =>
    obtain ⟨hm, hms⟩ := List.forall_mem_cons.mp h
    obtain ⟨orBefore, w⟩ := m
    obtain rfl : orBefore = false := hm
    rw [chained, ih hms, and_assoc]
    rfl

theorem chained_any {ms : List (Bool × Truth)} (h : ∀ m ∈ ms, m.1 = true) (v : Truth) :
    chained v ms = v.or (any (ms.map Prod.snd)) := by
  induction ms generalizing v with
  | nil => simp [chained, any]
  | cons m ms ih =>
    obtain ⟨hm, hms⟩ := List.forall_mem_cons.mp h
    obtain ⟨orBefore, w⟩ := m
    obtain rfl : orBefore = true := hm
    rw [chained, ih hms]
    rfl

theorem spoken_all {ms : List (Bool × Truth)} (h : ∀ m ∈ ms.tail, m.1 = false) :
    spoken ms = all (ms.map Prod.snd) := by
  cases ms with
  | nil => rfl
  | cons m ms => exact chained_all h m.2

theorem spoken_any {ms : List (Bool × Truth)} (hne : ms ≠ []) (h : ∀ m ∈ ms.tail, m.1 = true) :
    spoken ms = any (ms.map Prod.snd) := by
  cases ms with
  | nil => exact absurd rfl hne
  | cons m ms => exact chained_any h m.2

end Truth

/-- A leaf turned around is true when the plain one is false. -/
structure Complementary (truth : Leaf → Truth) : Prop where
  compare : ∀ column op v, truth (.compare column op.negate v) = (truth (.compare column op v)).not
  member : ∀ column vs, truth (.member column vs true) = (truth (.member column vs false)).not
  isNull : ∀ column, truth (.isNull column true) = (truth (.isNull column false)).not

/-! Leaves that go by their column: true or false throughout. -/

def Truth.ofBool (b : Bool) : Truth := if b then .yes else .no

/-- One of each comparison and its opposite. -/
def Comparison.isPositive : Comparison → Bool
  | .eq | .gt | .gte => true
  | .ne | .lt | .lte => false

/-- The interpretation in which the plain tests hold of some columns, and the opposite tests of
    the others. -/
def Leaf.byColumn (holds : String → Bool) : Leaf → Truth
  | .raw sql _ => .ofBool (holds sql)
  | .compare column op _ => .ofBool (op.isPositive == holds column)
  | .member column _ negated => .ofBool (negated != holds column)
  | .isNull column negated => .ofBool (negated != holds column)

theorem complementary_byColumn (holds : String → Bool) : Complementary (Leaf.byColumn holds) where
  compare column op v := by
    simp only [Leaf.byColumn]
    cases op <;> cases holds column <;> rfl
  member column vs := by
    simp only [Leaf.byColumn]
    cases holds column <;> rfl
  isNull column := by
    simp only [Leaf.byColumn]
    cases holds column <;> rfl

namespace Expression

/-! ## Two readings of a tree -/

section Readings

variable (truth : Leaf → Truth)

mutual

/-- What a tree means. -/
def meaning : Expression → Truth
  | .raw sql values => truth (.raw sql values)
  | .compare column op v => truth (.compare column op v)
  | .member column values => truth (.member column values false)
  | .isNull column => truth (.isNull column false)
  | .and members => .all (meanings members)
  | .or members => .any (meanings members)
  | .not members => (Truth.all (meanings members)).not

def meanings : List Expression → List Truth
  | [] => []
  | e :: es => meaning e :: meanings es

end

mutual

/-- What the words of a tree say. -/
def said : Expression → Truth
  | .raw sql values => truth (.raw sql values)
  | .compare column op v => truth (.compare column op v)
  | .member column values => truth (.member column values false)
  | .isNull column => truth (.isNull column false)
  | .and members => .spoken ((members.map isSingleOr).zip (saidOf members))
  | .or members => .spoken ((members.map fun _ => true).zip (saidOf members))
  | .not members =>
    if members.any (·.opposite?.isSome) then
      .spoken ((members.map fun _ => false).zip ((saidOf members).map Truth.not))
    else (Truth.spoken ((members.map isGroupOfOr).zip (saidOf members))).not

def saidOf : List Expression → List Truth
  | [] => []
  | e :: es => said e :: saidOf es

end

/-- What a sentence tells, once it is known what each member is worth. -/
def sentenceSaid (orBefore : Expression → Bool) (worth : Expression → Truth) (es : List Expression) : Truth :=
  .spoken (es.map fun e => (orBefore e, worth e))

theorem meanings_eq (es : List Expression) : meanings truth es = es.map (meaning truth) := by
  induction es with
  | nil => rfl
  | cons e es ih => rw [meanings, ih, List.map_cons]

theorem saidOf_eq (es : List Expression) : saidOf truth es = es.map (said truth) := by
  induction es with
  | nil => rfl
  | cons e es ih => rw [saidOf, ih, List.map_cons]

theorem said_and (members : List Expression) :
    said truth (.and members) = sentenceSaid isSingleOr (said truth) members := by
  rw [said, saidOf_eq, List.zip_map']
  rfl

theorem said_or (members : List Expression) :
    said truth (.or members) = sentenceSaid (fun _ => true) (said truth) members := by
  rw [said, saidOf_eq, List.zip_map']
  rfl

theorem said_not (members : List Expression) :
    said truth (.not members) =
      if members.any (·.opposite?.isSome) then sentenceSaid (fun _ => false) (fun e => (said truth e).not) members
      else (sentenceSaid isGroupOfOr (said truth) members).not := by
  rw [said, saidOf_eq, List.map_map, List.zip_map', List.zip_map']
  rfl

end Readings

/-! ## Trees that say what they mean -/

/-- A group has members. -/
def isFilled : Expression → Bool
  | .and members | .or members | .not members => !members.isEmpty
  | _ => true

/-- A NOT group denies the conjunction of its members when there is one only, or when none is
    turned around and no OR group comes behind the first. -/
def deniesTogether : Expression → Bool
  | .not members =>
    members.length == 1 || members.all (·.opposite?.isNone) && members.tail.all (!·.isGroupOfOr)
  | _ => true

/-- No raw fragment, no OR group of fewer than two members, no NOT group of more than one. -/
def isStrict : Expression → Bool
  | .raw .. => false
  | .or members => 1 < members.length
  | .not members => members.length == 1
  | _ => true

/-- Nothing gets in the way of what the group means. -/
def isPlain (g : Expression) : Bool := g.isFilled && !g.isSingleOr && g.deniesTogether

section Agree

variable {truth : Leaf → Truth}

theorem sentenceSaid_all {orBefore : Expression → Bool} {worth : Expression → Truth} {es : List Expression}
    (h : ∀ e ∈ es.tail, orBefore e = false) : sentenceSaid orBefore worth es = .all (es.map worth) := by
  unfold sentenceSaid
  rw [Truth.spoken_all, List.map_map]
  · rfl
  · intro m hm
    rw [← List.map_tail] at hm
    obtain ⟨e, he, rfl⟩ := List.mem_map.mp hm
    exact h e he

theorem sentenceSaid_any {worth : Expression → Truth} {es : List Expression} (hne : es ≠ []) :
    sentenceSaid (fun _ => true) worth es = .any (es.map worth) := by
  unfold sentenceSaid
  rw [Truth.spoken_any (by simpa using hne), List.map_map]
  · rfl
  · intro m hm
    rw [← List.map_tail] at hm
    obtain ⟨e, -, rfl⟩ := List.mem_map.mp hm
    rfl

theorem isFilled_of_plain {g : Expression} (h : g.isPlain = true) : g.isFilled = true := by
  simp only [isPlain, Bool.and_eq_true] at h
  exact h.1.1

theorem isSingleOr_of_plain {g : Expression} (h : g.isPlain = true) : g.isSingleOr = false := by
  simp only [isPlain, Bool.and_eq_true, Bool.not_eq_true'] at h
  exact h.1.2

theorem deniesTogether_of_plain {members : List Expression} (h : (Expression.not members).isPlain = true) :
    (∃ e, members = [e]) ∨
      (∀ e ∈ members, e.opposite? = none) ∧ ∀ e ∈ members.tail, e.isGroupOfOr = false := by
  simp only [isPlain, deniesTogether, Bool.and_eq_true, Bool.or_eq_true, beq_iff_eq, List.all_eq_true,
    Option.isNone_iff_eq_none, Bool.not_eq_true'] at h
  rcases h.2 with hone | hall
  · exact Or.inl (List.length_eq_one_iff.mp hone)
  · exact Or.inr hall

/-- Where nothing gets in the way the words of a tree say what it means. -/
theorem said_eq_meaning (e : Expression) (h : ∀ g ∈ e.parts, g.isPlain = true) : said truth e = meaning truth e := by
  induction e using byMembers with
  | raw | compare | member | isNull => rfl
  | and members ih =>
    have hmembers : ∀ g ∈ partsOf members, g.isPlain = true := fun g hg => h g (List.mem_cons_of_mem _ hg)
    have hsaid : members.map (said truth) = members.map (meaning truth) :=
      List.map_congr_left fun e he => ih e he (forall_partsOf hmembers he)
    rw [said_and, meaning, meanings_eq, sentenceSaid_all, hsaid]
    exact fun e he => isSingleOr_of_plain (forall_partsOf hmembers (List.mem_of_mem_tail he) e (self_mem_parts e))
  | or members ih =>
    have hmembers : ∀ g ∈ partsOf members, g.isPlain = true := fun g hg => h g (List.mem_cons_of_mem _ hg)
    have hsaid : members.map (said truth) = members.map (meaning truth) :=
      List.map_congr_left fun e he => ih e he (forall_partsOf hmembers he)
    have hne : members ≠ [] := by
      rintro rfl
      exact absurd (h (.or []) (self_mem_parts _)) (by decide)
    rw [said_or, meaning, meanings_eq, sentenceSaid_any hne, hsaid]
  | not members ih =>
    have hmembers : ∀ g ∈ partsOf members, g.isPlain = true := fun g hg => h g (List.mem_cons_of_mem _ hg)
    have hsaid : members.map (said truth) = members.map (meaning truth) :=
      List.map_congr_left fun e he => ih e he (forall_partsOf hmembers he)
    rw [said_not, meaning, meanings_eq, ← hsaid]
    rcases deniesTogether_of_plain (h _ (self_mem_parts _)) with ⟨e, rfl⟩ | ⟨hopposite, hor⟩
    · simp [sentenceSaid, Truth.spoken, Truth.chained, Truth.all]
    · rw [if_neg (by simpa using hopposite), sentenceSaid_all hor]

end Agree

/-! ## What is read -/

section Read

variable {truth : Leaf → Truth}

theorem readsAs_enclosed {ts : List Token} {v : Truth} (h : ReadsAs truth ts v) (wanted : Bool) :
    ReadsAs truth (enclosed wanted ts) v := by
  cases wanted with
  | false => exact h
  | true => exact h.fills.group

variable {orBefore : Expression → Bool} {body : Expression → List Token} {worth : Expression → Truth}

variable (orBefore) in
/-- Members that follow: the alternatives so far, or what is said from the last of them on. -/
theorem run_continued {es : List Expression} (h : ∀ e ∈ es, ReadsAs truth (body e) (worth e)) (level : Level)
    (hplain : level.denied = false) :
    ∃ level' : Level,
      level'.value = level.alternatives.or (.chained level.conjunction (es.map fun e => (orBefore e, worth e))) ∧
      ∀ outer, Reader.run truth ⟨level, outer, false⟩ (continued orBefore body es) = some ⟨level', outer, false⟩ := by
  induction es generalizing level with
  | nil => exact ⟨level, rfl, fun _ => rfl⟩
  | cons e es ih =>
    obtain ⟨he, hes⟩ := List.forall_mem_cons.mp h
    cases ho : orBefore e with
    | false =>
      obtain ⟨level', hvalue, hrun⟩ := ih hes ((level.resume .and).take (worth e)) rfl
      refine ⟨level', ?_, fun outer => ?_⟩
      · rw [hvalue, List.map_cons, ho]
        rfl
      · rw [continued_cons, ho, if_neg Bool.false_ne_true, Reader.run, step_connective rfl, Option.bind_some,
          Reader.run_append, he, Option.bind_some, hrun]
    | true =>
      obtain ⟨level', hvalue, hrun⟩ := ih hes ((level.resume .or).take (worth e)) rfl
      refine ⟨level', ?_, fun outer => ?_⟩
      · rw [hvalue, List.map_cons, ho]
        exact Truth.or_assoc ..
      · rw [continued_cons, ho, if_pos rfl, Reader.run, step_connective rfl, Option.bind_some,
          Reader.run_append, he, Option.bind_some, hrun]

theorem fills_sentence {es : List Expression} (hne : es ≠ []) (h : ∀ e ∈ es, ReadsAs truth (body e) (worth e)) :
    FillsAs truth (sentence orBefore body es) (sentenceSaid orBefore worth es) := by
  cases es with
  | nil => exact absurd rfl hne
  | cons e es =>
    obtain ⟨he, hes⟩ := List.forall_mem_cons.mp h
    obtain ⟨level, hvalue, hrun⟩ := run_continued orBefore hes (({} : Level).take (worth e)) rfl
    refine ⟨level, hvalue, fun outer => ?_⟩
    rw [sentence, Reader.run_append, he, Option.bind_some, hrun]

/-- A sentence in parentheses, which one member does without. -/
theorem readsAs_sentence {es : List Expression} (hne : es ≠ []) (h : ∀ e ∈ es, ReadsAs truth (body e) (worth e)) :
    ReadsAs truth (enclosed (1 < es.length) (sentence orBefore body es)) (sentenceSaid orBefore worth es) := by
  match es, hne with
  | [e], _ =>
    have he := h e (List.mem_singleton_self e)
    simpa [enclosed, sentence, sentenceSaid, Truth.spoken, Truth.chained] using he
  | e :: e' :: es, hne =>
    rw [show decide (1 < (e :: e' :: es).length) = true by simp]
    exact (fills_sentence hne h).group

theorem readsAs_turned (hc : Complementary truth) {e : Expression} (h : ReadsAs truth e.tokens (said truth e)) :
    ReadsAs truth e.turned (said truth e).not := by
  unfold turned
  cases ho : e.opposite? with
  | none => exact (readsAs_enclosed h _).not
  | some l =>
    have hopposite : truth l = (said truth e).not := by
      cases e <;> cases ho
      · exact hc.compare ..
      · exact hc.member ..
      · exact hc.isNull ..
    rw [← hopposite]
    exact readsAs_leaf l

theorem ne_nil_of_filled {members : List Expression} {g : Expression} (h : g.isFilled = true)
    (hg : g = .and members ∨ g = .or members ∨ g = .not members) : members ≠ [] := by
  rintro rfl
  rcases hg with rfl | rfl | rfl <;> cases h

theorem read_tokens (hc : Complementary truth) (e : Expression) (h : ∀ g ∈ e.parts, g.isFilled = true) :
    ReadsAs truth e.tokens (said truth e) := by
  induction e using byMembers with
  | raw | compare | member | isNull => rw [tokens]; exact readsAs_leaf _
  | and members ih =>
    have hne := ne_nil_of_filled (h _ (self_mem_parts _)) (Or.inl rfl)
    rw [tokens_and, said_and]
    exact readsAs_sentence hne fun e he =>
      readsAs_enclosed (ih e he (forall_partsOf (fun g hg => h g (List.mem_cons_of_mem _ hg)) he)) _
  | or members ih =>
    have hne := ne_nil_of_filled (h _ (self_mem_parts _)) (Or.inr (Or.inl rfl))
    rw [tokens_or, said_or]
    exact readsAs_sentence hne fun e he =>
      readsAs_enclosed (ih e he (forall_partsOf (fun g hg => h g (List.mem_cons_of_mem _ hg)) he)) _
  | not members ih =>
    have hne := ne_nil_of_filled (h _ (self_mem_parts _)) (Or.inr (Or.inr rfl))
    have hmembers : ∀ e ∈ members, ReadsAs truth e.tokens (said truth e) := fun e he =>
      ih e he (forall_partsOf (fun g hg => h g (List.mem_cons_of_mem _ hg)) he)
    rw [tokens_not, said_not]
    split
    · exact readsAs_sentence hne fun e he => readsAs_turned hc (hmembers e he)
    · exact (readsAs_sentence hne fun e he => readsAs_enclosed (hmembers e he) _).not

end Read

/-! ## The condition of a statement -/

section Statement

/-- What is asked of all trees in some conditions is asked of those of a group taken apart. -/
theorem forall_conjuncts {p : Expression → Prop} {conditions : List Expression} (h : ∀ g ∈ partsOf conditions, p g) :
    ∀ g ∈ partsOf (conjuncts conditions), p g := by
  intro g hg
  unfold conjuncts at hg
  split at hg
  · exact h g (by simp [partsOf, parts, hg])
  · exact h g hg

theorem forall_written {p : Expression → Prop} {conditions : List Expression} (h : ∀ g ∈ partsOf conditions, p g) :
    ∀ e ∈ written conditions, ∀ g ∈ e.parts, p g :=
  fun _ he => forall_partsOf (forall_conjuncts h) ((leadWithPlain_perm _).mem_iff.mp he)

theorem conjuncts_ne_nil {conditions : List Expression} (hne : conditions ≠ [])
    (hfilled : ∀ g ∈ partsOf conditions, g.isFilled = true) : conjuncts conditions ≠ [] := by
  intro hnil
  unfold conjuncts at hnil
  split at hnil
  · next members =>
    have hand : Expression.and members ∈ partsOf [.and members] := by simp [partsOf, parts]
    exact ne_nil_of_filled (hfilled _ hand) (Or.inl rfl) hnil
  · exact hne hnil

theorem written_ne_nil {conditions : List Expression} (hne : conditions ≠ [])
    (hfilled : ∀ g ∈ partsOf conditions, g.isFilled = true) : written conditions ≠ [] := fun hnil =>
  conjuncts_ne_nil hne hfilled (List.Perm.eq_nil (hnil ▸ (leadWithPlain_perm _).symm))

theorem read_conditionTokens_said {truth : Leaf → Truth} (hc : Complementary truth) {conditions : List Expression}
    (hne : conditions ≠ []) (hfilled : ∀ g ∈ partsOf conditions, g.isFilled = true) :
    read truth (conditionTokens conditions) =
      some (sentenceSaid isSingleOr (said truth) (written conditions)) := by
  rw [conditionTokens_eq]
  exact FillsAs.read (fills_sentence (written_ne_nil hne hfilled) fun e he =>
    readsAs_enclosed (read_tokens hc e (forall_written hfilled e he)) _)

theorem leadWithPlain_eq {members : List Expression} (h : ∀ e ∈ members, e.dangles = false) :
    leadWithPlain members = members := by
  unfold leadWithPlain
  cases members with
  | nil => rfl
  | cons e es => rw [List.takeWhile_cons_of_neg (by simp [h e])]

theorem not_dangles_of_plain {e : Expression} (h : e.isPlain = true) : e.dangles = false := by
  unfold dangles
  split
  · cases h
  · cases h
  · rfl

theorem all_conjuncts (truth : Leaf → Truth) (conditions : List Expression) :
    Truth.all ((conjuncts conditions).map (meaning truth)) = .all (conditions.map (meaning truth)) := by
  unfold conjuncts
  split
  · next members => simp [meaning, meanings_eq, Truth.all]
  · rfl

theorem read_conditionTokens_meaning {truth : Leaf → Truth} (hc : Complementary truth) {conditions : List Expression}
    (hne : conditions ≠ []) (hplain : ∀ g ∈ partsOf conditions, g.isPlain = true) :
    read truth (conditionTokens conditions) = some (.all (conditions.map (meaning truth))) := by
  have hall := forall_written hplain
  have hwritten : written conditions = conjuncts conditions := leadWithPlain_eq fun e he =>
    not_dangles_of_plain (hall e ((leadWithPlain_perm _).mem_iff.mpr he) e (self_mem_parts e))
  have hsaid : (written conditions).map (said truth) = (written conditions).map (meaning truth) :=
    List.map_congr_left fun e he => said_eq_meaning e (hall e he)
  rw [read_conditionTokens_said hc hne fun g hg => isFilled_of_plain (hplain g hg), sentenceSaid_all, hsaid, hwritten,
    all_conjuncts]
  exact fun e he => isSingleOr_of_plain (hall e (List.mem_of_mem_tail he) e (self_mem_parts e))

theorem plain_of_strict {g : Expression} (hfilled : g.isFilled = true) (hstrict : g.isStrict = true) :
    g.isPlain = true := by
  cases g with
  | raw | compare | member | isNull | and => simp_all [isPlain, isStrict, isSingleOr, deniesTogether]
  | or members =>
    have hsingle : (Expression.or members).isSingleOr = false := by
      unfold isSingleOr
      split
      · next e heq =>
        cases heq
        cases hstrict
      · rfl
    simp [isPlain, hfilled, hsingle, deniesTogether]
  | not members =>
    have hone : (members.length == 1) = true := hstrict
    simp [isPlain, hfilled, isSingleOr, deniesTogether, hone]

/-- Nothing is known of any leaf: an interpretation there always is. -/
theorem complementary_unknown : Complementary fun _ => .unknown := ⟨fun _ _ _ => rfl, fun _ _ => rfl, fun _ => rfl⟩

/-- Conditions without empty groups, put into words: they follow the grammar, so they begin and
    end with no connective and their parentheses match. If besides they are strict, then whatever
    is true of the leaves they are true, false or unknown as the conjunction of the trees is. -/
theorem conditionTokens_meaning {conditions : List Expression} (hne : conditions ≠ [])
    (hfilled : ∀ g ∈ partsOf conditions, g.isFilled = true) :
    IsCondition (conditionTokens conditions) ∧ Ends (conditionTokens conditions) ∧
      matched true 0 (conditionTokens conditions) = true ∧
      ((∀ g ∈ partsOf conditions, g.isStrict = true) → ∀ truth, Complementary truth →
        read truth (conditionTokens conditions) = some (.all (conditions.map (meaning truth)))) := by
  have hcondition : IsCondition (conditionTokens conditions) :=
    .of_read (read_conditionTokens_said complementary_unknown hne hfilled)
  refine ⟨hcondition, hcondition.ends, hcondition.matched, fun hstrict truth hc => ?_⟩
  exact read_conditionTokens_meaning hc hne fun g hg => plain_of_strict (hfilled g hg) (hstrict g hg)

/-- An OR group, a denied AND group and a comparison turned around, for a row of which only the
    test on `a` holds. -/
theorem conditionTokens_of_nested :
    let a : Expression := .compare "a" .eq (.int 1)
    let c : Expression := .compare "c" .gt (.int 9)
    let conditions : List Expression := [.or [a, .isNull "b"], .not [.and [.member "a" [.int 2], c]], .not [c]]
    let truth := Leaf.byColumn (· == "a")
    conditions ≠ [] ∧ (∀ g ∈ partsOf conditions, g.isFilled = true) ∧ (∀ g ∈ partsOf conditions, g.isStrict = true) ∧
      Complementary truth ∧
      (conditionTokens conditions).flatMap Token.pieces =
        [.text "(", .name "a", .text " = ", .param (.int 1), .text " OR ", .name "b", .text " IS NULL", .text ")",
          .text " AND ", .text "NOT ", .text "(", .name "a", .text " IN (", .param (.int 2), .text ")", .text " AND ",
          .name "c", .text " > ", .param (.int 9), .text ")", .text " AND ", .name "c", .text " <= ",
          .param (.int 9)] ∧
      IsCondition (conditionTokens conditions) ∧ read truth (conditionTokens conditions) = some .yes := by
  intro a c conditions truth
  have hne : conditions ≠ [] := List.cons_ne_nil _ _
  have hfilled : ∀ g ∈ partsOf conditions, g.isFilled = true := by decide +kernel
  have hstrict : ∀ g ∈ partsOf conditions, g.isStrict = true := by decide +kernel
  have hc : Complementary truth := complementary_byColumn _
  obtain ⟨hcondition, -, -, hread⟩ := conditionTokens_meaning hne hfilled
  exact ⟨hne, hfilled, hstrict, hc, by decide +kernel, hcondition, (hread hstrict truth hc).trans (by decide +kernel)⟩

end Statement

end Expression

end SqlPipeline
