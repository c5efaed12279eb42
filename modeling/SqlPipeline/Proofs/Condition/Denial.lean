/-
  SqlPipeline.Proofs.Condition.Denial — what a NOT group of several members tells.

  NOT is to deny the conjunction of its members. Put into words it does so when it has one
  member, or when none of its members is turned around and no OR group comes behind the first.
  With a comparison or a test among several members it denies each of them instead, which is the
  same only where they are all as true as each other; and an OR group behind the first member is
  joined to those before it with OR.

  - `Truth.all_eq_any_iff`: conjunction and disjunction agree only on what is all the same.
  - `negation_said`: what a NOT group tells, and when this is the denial of the conjunction.
  - `negation_of_each`: two comparisons denied, of a row that meets one of them; and an OR group
    behind a fragment.
-/

import SqlPipeline.Proofs.Condition.Meaning

namespace SqlPipeline

/-! ## How true -/

namespace Truth

def rank : Truth → Nat
  | no => 0
  | unknown => 1
  | yes => 2

theorem rank_injective {a b : Truth} (h : a.rank = b.rank) : a = b := by
  cases a <;> cases b <;> first | rfl | cases h

theorem rank_and (a b : Truth) : (a.and b).rank = min a.rank b.rank := by cases a <;> cases b <;> rfl

theorem rank_or (a b : Truth) : (a.or b).rank = max a.rank b.rank := by cases a <;> cases b <;> rfl

theorem not_and (a b : Truth) : (a.and b).not = a.not.or b.not := by cases a <;> cases b <;> rfl

theorem not_injective {a b : Truth} (h : a.not = b.not) : a = b := by
  rw [← not_not a, h, not_not]

theorem not_all (vs : List Truth) : (all vs).not = any (vs.map Truth.not) := by
  induction vs with
  | nil => rfl
  | cons v vs ih => rw [all_cons, not_and, ih, List.map_cons, any_cons]

theorem rank_all_le {v : Truth} {vs : List Truth} (h : v ∈ vs) : (all vs).rank ≤ v.rank := by
  induction vs with
  | nil => cases h
  | cons w vs ih =>
    rw [all_cons, rank_and]
    rcases List.mem_cons.mp h with rfl | h
    · exact Nat.min_le_left ..
    · exact Nat.le_trans (Nat.min_le_right ..) (ih h)

theorem rank_le_any {v : Truth} {vs : List Truth} (h : v ∈ vs) : v.rank ≤ (any vs).rank := by
  induction vs with
  | nil => cases h
  | cons w vs ih =>
    rw [any_cons, rank_or]
    rcases List.mem_cons.mp h with rfl | h
    · exact Nat.le_max_left ..
    · exact Nat.le_trans (ih h) (Nat.le_max_right ..)

/-- What is all the same is its own conjunction and disjunction. -/
theorem all_any_same {v : Truth} {vs : List Truth} (h : ∀ w ∈ vs, w = v) :
    v.and (all vs) = v ∧ v.or (any vs) = v := by
  induction vs with
  | nil => exact ⟨and_yes v, or_no v⟩
  | cons w vs ih =>
    obtain ⟨rfl, hvs⟩ := List.forall_mem_cons.mp h
    obtain ⟨hall, hany⟩ := ih hvs
    rw [all_cons, any_cons, hall, hany]
    cases w <;> exact ⟨rfl, rfl⟩

theorem all_eq_any_iff {vs : List Truth} (hne : vs ≠ []) : all vs = any vs ↔ ∀ v ∈ vs, ∀ w ∈ vs, v = w := by
  constructor
  · intro h v hv w hw
    have hequal := congrArg rank h
    have hleast := And.intro (rank_all_le hv) (rank_all_le hw)
    have hgreatest := And.intro (rank_le_any hv) (rank_le_any hw)
    exact rank_injective (by omega)
  · intro h
    cases vs with
    | nil => exact absurd rfl hne
    | cons v vs =>
      obtain ⟨hall, hany⟩ := all_any_same fun w hw => h w (List.mem_cons_of_mem v hw) v List.mem_cons_self
      rw [all_cons, any_cons, hall, hany]

end Truth

namespace Expression

section Denial

variable {truth : Leaf → Truth} {members : List Expression}

theorem negation_eq (members : List Expression) : negation members = .not (conjuncts members) := by
  match members with
  | [] => rfl
  | [e] => cases e <;> rfl
  | e :: _ :: _ => cases e <;> rfl

/-- What is asked of members without one that is an OR group of one. -/
theorem plain_of_denies (hfilled : ∀ g ∈ partsOf members, g.isFilled = true)
    (hor : ∀ g ∈ partsOf members, g.isSingleOr = false) (hdenies : ∀ g ∈ partsOf members, g.deniesTogether = true) :
    ∀ g ∈ partsOf members, g.isPlain = true := by
  intro g hg
  simp [isPlain, hfilled g hg, hor g hg, hdenies g hg]

theorem read_not (hc : Complementary truth) (hne : members ≠ [])
    (hfilled : ∀ g ∈ partsOf members, g.isFilled = true) :
    read truth (tokens (.not members)) = some (said truth (.not members)) := by
  refine (read_tokens hc (.not members) fun g hg => ?_).fills.read
  rcases List.mem_cons.mp hg with rfl | hg
  · simpa [isFilled] using hne
  · exact hfilled g hg

theorem said_not_together (hne : members ≠ []) (hfilled : ∀ g ∈ partsOf members, g.isFilled = true)
    (hor : ∀ g ∈ partsOf members, g.isSingleOr = false)
    (hdenies : ∀ g ∈ (Expression.not members).parts, g.deniesTogether = true) :
    said truth (.not members) = (Truth.all (members.map (meaning truth))).not := by
  obtain ⟨hself, hparts⟩ := List.forall_mem_cons.mp hdenies
  have hplain := plain_of_denies hfilled hor hparts
  rw [said_eq_meaning (.not members), meaning, meanings_eq]
  intro g hg
  rcases List.mem_cons.mp hg with rfl | hg
  · have hfilled' : (Expression.not members).isFilled = true := by simpa [isFilled] using hne
    simp [isPlain, hfilled', isSingleOr, hself]
  · exact hplain g hg

/-- With a member turned around each member is denied. -/
theorem said_not_each (hplain : ∀ g ∈ partsOf members, g.isPlain = true)
    (hturned : members.any (·.opposite?.isSome) = true) :
    said truth (.not members) = .all ((members.map (meaning truth)).map Truth.not) := by
  rw [said_not, if_pos hturned, sentenceSaid_all fun _ _ => rfl, List.map_map]
  exact congrArg Truth.all (List.map_congr_left fun e he =>
    congrArg Truth.not (said_eq_meaning e (forall_partsOf hplain he)))

/-- When a NOT group tells that its members are not all true: with a member turned around, where
    they are all as true as each other; without, where its sentence is worth their conjunction. -/
theorem said_not_iff (hne : members ≠ []) (hplain : ∀ g ∈ partsOf members, g.isPlain = true) :
    said truth (.not members) = (Truth.all (members.map (meaning truth))).not ↔
      if members.any (·.opposite?.isSome) then ∀ a ∈ members, ∀ b ∈ members, meaning truth a = meaning truth b
      else sentenceSaid isGroupOfOr (meaning truth) members = .all (members.map (meaning truth)) := by
  split
  · next hturned =>
    rw [said_not_each hplain hturned, Truth.not_all, Truth.all_eq_any_iff (by simpa using hne)]
    simp only [List.forall_mem_map]
    exact ⟨fun h a ha b hb => Truth.not_injective (h a ha b hb), fun h a ha b hb => congrArg Truth.not (h a ha b hb)⟩
  · next hkept =>
    have hsaid : sentenceSaid isGroupOfOr (said truth) members = sentenceSaid isGroupOfOr (meaning truth) members := by
      unfold sentenceSaid
      refine congrArg Truth.spoken (List.map_congr_left fun e he => ?_)
      rw [said_eq_meaning e (forall_partsOf hplain he)]
    rw [said_not, if_neg hkept, hsaid]
    exact ⟨Truth.not_injective, congrArg Truth.not⟩

/-- A NOT group and the denial of some members, which may be those of an AND group taken apart.
    Their words tell that the members are not all true if every NOT group, this one included,
    denies its members together; if all but this one do, exactly where `said_not_iff` has it. -/
theorem negation_said (hc : Complementary truth) (hne : members ≠ [])
    (hfilled : ∀ g ∈ partsOf members, g.isFilled = true) (hor : ∀ g ∈ partsOf members, g.isSingleOr = false) :
    let denial := (Truth.all (members.map (meaning truth))).not
    ∀ e ∈ [Expression.not members, negation members],
      read truth e.tokens = some (said truth e) ∧
      ((∀ g ∈ e.parts, g.deniesTogether = true) → said truth e = denial) ∧
      ∀ ms, e = .not ms → (∀ g ∈ partsOf ms, g.deniesTogether = true) →
        (said truth e = denial ↔
          if ms.any (·.opposite?.isSome) then ∀ a ∈ ms, ∀ b ∈ ms, meaning truth a = meaning truth b
          else sentenceSaid isGroupOfOr (meaning truth) ms = .all (ms.map (meaning truth))) := by
  intro denial e he
  -- both are NOT groups, with members of the same conjunction
  obtain ⟨ms, rfl, hms, hparts⟩ : ∃ ms, e = .not ms ∧ ms ≠ [] ∧
      (Truth.all (ms.map (meaning truth))).not = denial ∧
      ∀ g ∈ partsOf ms, g.isFilled = true ∧ g.isSingleOr = false := by
    have hboth : ∀ g ∈ partsOf members, g.isFilled = true ∧ g.isSingleOr = false :=
      fun g hg => ⟨hfilled g hg, hor g hg⟩
    rcases List.mem_cons.mp he with rfl | he
    · exact ⟨members, rfl, hne, rfl, hboth⟩
    · obtain rfl := List.mem_singleton.mp he
      exact ⟨conjuncts members, negation_eq members, conjuncts_ne_nil hne hfilled,
        congrArg Truth.not (all_conjuncts truth members), forall_conjuncts hboth⟩
  obtain ⟨hdenial, hparts⟩ := hparts
  have hfilled' : ∀ g ∈ partsOf ms, g.isFilled = true := fun g hg => (hparts g hg).1
  have hor' : ∀ g ∈ partsOf ms, g.isSingleOr = false := fun g hg => (hparts g hg).2
  refine ⟨read_not hc hms hfilled', fun hdenies => ?_, ?_⟩
  · rw [← hdenial]
    exact said_not_together hms hfilled' hor' hdenies
  · rintro _ ⟨rfl⟩ hdenies
    rw [← hdenial]
    exact said_not_iff hms (plain_of_denies hfilled' hor' hdenies)

/-- An AND group denied whole, and taken apart: the first tells that its members are not all
    true, the second that none of them is. -/
theorem negation_of_group :
    let a : Expression := .compare "a" .eq (.int 1)
    let members : List Expression := [.and [a, .or [.isNull "b", .raw "c" []]]]
    let truth := Leaf.byColumn (· == "a")
    Complementary truth ∧ members ≠ [] ∧ (∀ g ∈ partsOf members, g.isFilled = true) ∧
      (∀ g ∈ partsOf members, g.isSingleOr = false) ∧ Truth.all (members.map (meaning truth)) = .no ∧
      read truth (tokens (.not members)) = some .yes ∧ read truth (negation members).tokens = some .no := by
  intro a members truth
  have hc : Complementary truth := complementary_byColumn _
  have hne : members ≠ [] := List.cons_ne_nil _ _
  have hfilled : ∀ g ∈ partsOf members, g.isFilled = true := by decide +kernel
  have hor : ∀ g ∈ partsOf members, g.isSingleOr = false := by decide +kernel
  have hmeaning : Truth.all (members.map (meaning truth)) = .no := by decide +kernel
  have hboth := negation_said hc hne hfilled hor
  obtain ⟨hwhole, htogether, -⟩ := hboth (.not members) (by simp)
  obtain ⟨hapart, -, -⟩ := hboth (negation members) (by simp)
  refine ⟨hc, hne, hfilled, hor, hmeaning, ?_, ?_⟩
  · rw [hwhole, htogether (by decide +kernel), hmeaning]
    rfl
  · rw [hapart]
    decide +kernel

/-- Of two comparisons a row meets the first. The conjunction is false, but so is what is written
    for its denial: that the row meets neither. Behind a fragment, an OR group is joined to it
    with OR, and a row that the fragment is true of, and no more, is left out as well. -/
theorem negation_of_each :
    let a : Expression := .compare "a" .eq (.int 1)
    let b : Expression := .compare "b" .eq (.int 2)
    let fragment : Expression := .raw "a" []
    let truth := Leaf.byColumn (· == "a")
    let denials : List Expression := [.not [a, b], negation [a, b], negation [.and [a, b]]]
    Complementary truth ∧ Truth.all ([a, b].map (meaning truth)) = .no ∧
      (∀ e ∈ denials, (∀ g ∈ e.parts, g.isFilled = true ∧ g.isSingleOr = false) ∧
        (Rendered.writeAll (.generic .question) {} e.pieces).text = "(\"a\" <> ? AND \"b\" <> ?)" ∧
        read truth e.tokens = some .no) ∧
      Truth.all ([fragment, .or [b, b]].map (meaning truth)) = .no ∧
      (Rendered.writeAll (.generic .question) {} (negation [fragment, .or [b, b]]).pieces).text =
        "NOT (a OR (\"b\" = ? OR \"b\" = ?))" ∧
      read truth (negation [fragment, .or [b, b]]).tokens = some .no := by
  refine ⟨complementary_byColumn _, ?_, ?_⟩ <;> decide +kernel

end Denial

end Expression

end SqlPipeline
