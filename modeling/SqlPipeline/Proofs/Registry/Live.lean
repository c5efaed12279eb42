/-
  SqlPipeline.Proofs.Registry.Live — how the live entries change when one entry is added.

  The live entries are worked out from the whole registry at once. Here is what one more
  entry does to them (`indexed_snoc`): a removal or a replacement takes out those of its
  name, and then the entry itself may be live, behind all others. Nothing else changes: not
  the constraints of the others, not their slots.

  `inForce_iff`: the same said of the whole registry. An entry is in force when no later one
  replaces its name and every removal of the name is followed by a replacement.
-/

import Mathlib.Data.List.Basic
import Mathlib.Data.List.Induction
import SqlPipeline.Pipeline.Live

namespace SqlPipeline

variable {α : Type}

namespace Step

/-- Whether the entry takes out the earlier ones of a name. -/
def clears (s : Step α) (name : String) : Bool := s.name == name && (s.isRemoval || s.isReplacement)

theorem isRemoval_of_adds {s : Step α} {action : α} (h : s.role = .adds action) : s.isRemoval = false := by
  simp [isRemoval, h]

theorem isRemoval_of_replaces {s : Step α} {action : α} (h : s.role = .replaces action) : s.isRemoval = false := by
  simp [isRemoval, h]

theorem isRemoval_of_removes {s : Step α} (h : s.role = .removes) : s.isRemoval = true := by simp [isRemoval, h]

theorem isReplacement_of_adds {s : Step α} {action : α} (h : s.role = .adds action) : s.isReplacement = false := by
  simp [isReplacement, h]

theorem isReplacement_of_replaces {s : Step α} {action : α} (h : s.role = .replaces action) :
    s.isReplacement = true := by
  simp [isReplacement, h]

theorem isReplacement_of_removes {s : Step α} (h : s.role = .removes) : s.isReplacement = false := by
  simp [isReplacement, h]

end Step

namespace Registry

/-- The live candidates, each with the index of its entry. -/
def indexed (entries : List (Step α)) : List (Nat × Candidate α) :=
  entries.zipIdx.filterMap fun e => (candidate? entries e.2 e.1).map (e.2, ·)

theorem live_eq_indexed (entries : List (Step α)) : live entries = (indexed entries).map (·.2) := by
  unfold live indexed
  rw [List.map_filterMap]
  congr 1
  funext ⟨s, i⟩
  cases h : candidate? entries i s <;> simp [h]

theorem mem_indexed {entries : List (Step α)} {i : Nat} {c : Candidate α} :
    (i, c) ∈ indexed entries ↔ ∃ s, entries[i]? = some s ∧ candidate? entries i s = some c := by
  unfold indexed
  rw [List.mem_filterMap]
  constructor
  · rintro ⟨⟨s, j⟩, hm, he⟩
    obtain ⟨d, hd, hjd⟩ := Option.map_eq_some_iff.mp he
    cases hjd
    exact ⟨s, List.mk_mem_zipIdx_iff_getElem?.mp hm, hd⟩
  · rintro ⟨s, hs, hc⟩
    exact ⟨(s, i), List.mk_mem_zipIdx_iff_getElem?.mpr hs, by simp [hc]⟩

theorem zipIdx_pairwise {β : Type} (xs : List β) : xs.zipIdx.Pairwise (·.2 < ·.2) := by
  have h : (xs.zipIdx.map (·.2)).Pairwise (· < ·) := by
    rw [List.zipIdx_map_snd]
    exact List.pairwise_lt_range'
  exact List.pairwise_map.mp h

/-- The indices go up. -/
theorem indexed_pairwise (entries : List (Step α)) : (indexed entries).Pairwise (·.1 < ·.1) := by
  refine List.Pairwise.filterMap _ (fun e e' hlt => ?_) (zipIdx_pairwise entries)
  rintro ⟨i, c⟩ hi ⟨j, d⟩ hj
  obtain ⟨_, _, h1⟩ := Option.map_eq_some_iff.mp hi
  obtain ⟨_, _, h2⟩ := Option.map_eq_some_iff.mp hj
  cases h1
  cases h2
  exact hlt

/-! ## Last indices -/

theorem lastIndex?_snoc (p : Step α → Bool) (entries : List (Step α)) (s : Step α) :
    lastIndex? p (entries ++ [s]) = if p s then some entries.length else lastIndex? p entries := by
  unfold lastIndex?
  rw [List.zipIdx_append, List.filter_append]
  by_cases h : p s <;> simp [h]

theorem lastIndex?_lt {p : Step α → Bool} {entries : List (Step α)} {i : Nat} (h : lastIndex? p entries = some i) :
    i < entries.length := by
  unfold lastIndex? at h
  obtain ⟨⟨s, j⟩, hm, rfl⟩ := Option.map_eq_some_iff.mp h
  have hz := (List.mem_filter.mp (List.mem_of_getLast? hm)).1
  exact (List.getElem?_eq_some_iff.mp (List.mk_mem_zipIdx_iff_getElem?.mp hz)).1

theorem replacedAt?_snoc (entries : List (Step α)) (s : Step α) (name : String) :
    replacedAt? (entries ++ [s]) name =
      if s.name == name && s.isReplacement then some entries.length else replacedAt? entries name :=
  lastIndex?_snoc _ _ _

theorem removedAt?_snoc (entries : List (Step α)) (s : Step α) (name : String) :
    removedAt? (entries ++ [s]) name =
      if s.name == name && s.isRemoval then some entries.length else removedAt? entries name :=
  lastIndex?_snoc _ _ _

/-! ## Suppressed and superseded -/

theorem clears_cases {s : Step α} {name : String} (h : s.clears name = true) :
    s.name = name ∧ (s.isRemoval = true ∨ s.isReplacement = true) := by
  simpa [Step.clears] using h

theorem replacedAt?_snoc_other {s : Step α} {name : String} (h : s.clears name = false) (entries : List (Step α)) :
    replacedAt? (entries ++ [s]) name = replacedAt? entries name := by
  rw [replacedAt?_snoc]
  simp only [Step.clears, Bool.and_eq_false_iff, Bool.or_eq_false_iff] at h
  rcases h with h | ⟨-, h⟩ <;> simp [h]

theorem removedAt?_snoc_other {s : Step α} {name : String} (h : s.clears name = false) (entries : List (Step α)) :
    removedAt? (entries ++ [s]) name = removedAt? entries name := by
  rw [removedAt?_snoc]
  simp only [Step.clears, Bool.and_eq_false_iff, Bool.or_eq_false_iff] at h
  rcases h with h | ⟨h, -⟩ <;> simp [h]

theorem removal_ne_replacement {s : Step α} (h : s.isRemoval = true) : s.isReplacement = false := by
  cases hr : s.role with
  | adds action => exact Step.isReplacement_of_adds hr
  | replaces action => rw [Step.isRemoval_of_replaces hr] at h; cases h
  | removes => exact Step.isReplacement_of_removes hr

theorem replacement_ne_removal {s : Step α} (h : s.isReplacement = true) : s.isRemoval = false := by
  cases hr : s.isRemoval with
  | false => rfl
  | true => rw [removal_ne_replacement hr] at h; cases h

theorem isSuppressed_snoc (entries : List (Step α)) (s : Step α) (name : String) :
    isSuppressed (entries ++ [s]) name = if s.clears name then s.isRemoval else isSuppressed entries name := by
  cases hc : s.clears name with
  | false =>
    unfold isSuppressed
    rw [removedAt?_snoc_other hc, replacedAt?_snoc_other hc]
    rfl
  | true =>
    obtain ⟨hn, hk⟩ := clears_cases hc
    unfold isSuppressed
    rw [removedAt?_snoc, replacedAt?_snoc, if_pos rfl]
    rcases hk with hr | hp
    · simp only [hn, beq_self_eq_true, hr, removal_ne_replacement hr, Bool.and_true, Bool.and_false, if_true,
        Bool.false_eq_true, if_false]
      cases h : replacedAt? entries name with
      | none => rfl
      | some i => exact decide_eq_true (lastIndex?_lt h)
    · have hr : s.isRemoval = false := replacement_ne_removal hp
      simp only [hn, beq_self_eq_true, hr, hp, Bool.and_true, Bool.and_false, if_true, Bool.false_eq_true, if_false]
      cases h : removedAt? entries name with
      | none => rfl
      | some i => exact decide_eq_false (Nat.lt_asymm (lastIndex?_lt h))

/-- An earlier entry stays live unless the new one takes out its name. -/
theorem isLive_snoc_old {entries : List (Step α)} {i : Nat} (hi : i < entries.length) (s : Step α) (name : String) :
    isLive (entries ++ [s]) name i = (!s.clears name && isLive entries name i) := by
  unfold isLive
  rw [isSuppressed_snoc]
  cases hc : s.clears name with
  | false =>
    unfold isSuperseded
    rw [replacedAt?_snoc_other hc]
    simp
  | true =>
    obtain ⟨hn, hk⟩ := clears_cases hc
    rcases hk with hr | hp
    · simp [hr]
    · unfold isSuperseded
      rw [replacedAt?_snoc]
      simp [hn, hp, hi]

/-- The new entry itself is live unless its name is suppressed from then on. -/
theorem isLive_snoc_new (entries : List (Step α)) (s : Step α) :
    isLive (entries ++ [s]) s.name entries.length = !isSuppressed (entries ++ [s]) s.name := by
  unfold isLive isSuperseded
  rw [replacedAt?_snoc]
  by_cases hp : s.isReplacement = true
  · simp [hp]
  · rw [if_neg (by simp [hp])]
    cases h : replacedAt? entries s.name with
    | none => simp
    | some r =>
      have := lastIndex?_lt h
      simp
      omega

/-! ## Inheritance -/

theorem firstSlot?_snoc (entries : List (Step α)) (s : Step α) (name : String) :
    firstSlot? (entries ++ [s]) name =
      (firstSlot? entries name).or (if s.name == name && !s.isRemoval then some entries.length else none) := by
  unfold firstSlot?
  rw [List.findIdx?_append]
  congr 1
  rw [List.findIdx?_singleton]
  split <;> simp [*]

/-- An entry that is no removal gives its name a first slot, no later than its own. -/
theorem firstSlot?_le {entries : List (Step α)} {i : Nat} {s : Step α} (h : entries[i]? = some s)
    (hr : s.isRemoval = false) : ∃ k, firstSlot? entries s.name = some k ∧ k ≤ i := by
  have hsome : (firstSlot? entries s.name).isSome := by
    unfold firstSlot?
    rw [List.findIdx?_isSome]
    exact List.any_eq_true.mpr ⟨s, List.mem_of_getElem? h, by simp [hr]⟩
  obtain ⟨k, hk⟩ := Option.isSome_iff_exists.mp hsome
  obtain ⟨hi, rfl⟩ := List.getElem?_eq_some_iff.mp h
  obtain ⟨_, -, hfirst⟩ := List.findIdx?_eq_some_iff_getElem.mp hk
  refine ⟨k, hk, ?_⟩
  by_contra hik
  have := hfirst i (by omega)
  simp [hr] at this

theorem declared_snoc (entries : List (Step α)) (s : Step α) (name : String) :
    declared (entries ++ [s]) name =
      if s.name == name && !s.isRemoval && s.hasConstraints then (s.before, s.after) else declared entries name := by
  unfold declared
  rw [List.filter_append, List.filter_cons, List.filter_nil]
  by_cases h : (s.name == name && !s.isRemoval && s.hasConstraints) = true
  · rw [if_pos h, if_pos h]
    simp
  · rw [if_neg h, if_neg h]
    simp

/-! ## One more entry -/

/-- The candidate that a new entry becomes, if it is live. -/
def arrival? (entries : List (Step α)) (s : Step α) : Option (Candidate α) :=
  match s.role with
  | .removes => none
  | .adds action =>
    if isSuppressed entries s.name then none
    else some { s with slot := entries.length, action, replacing := false }
  | .replaces action =>
    let inEffect := if s.hasConstraints then (s.before, s.after) else declared entries s.name
    some { s with
      before := inEffect.1, after := inEffect.2
      slot := (firstSlot? entries s.name).getD entries.length, action, replacing := true }

theorem candidate?_snoc_new (entries : List (Step α)) (s : Step α) :
    candidate? (entries ++ [s]) entries.length s = arrival? entries s := by
  unfold candidate? arrival?
  rw [isLive_snoc_new, isSuppressed_snoc]
  cases hr : s.role with
  | removes => simp
  | adds action =>
    have hc : s.clears s.name = false := by
      simp [Step.clears, Step.isRemoval_of_adds hr, Step.isReplacement_of_adds hr]
    rw [hc]
    cases isSuppressed entries s.name <;> simp
  | replaces action =>
    have hc : s.clears s.name = true := by simp [Step.clears, Step.isReplacement_of_replaces hr]
    rw [hc, Step.isRemoval_of_replaces hr, firstSlot?_snoc, Step.isRemoval_of_replaces hr]
    simp

/-- What an earlier entry is as a candidate does not change while it is live. -/
theorem candidate?_snoc_old {entries : List (Step α)} {i : Nat} {x : Step α} (hx : entries[i]? = some x)
    (s : Step α) :
    candidate? (entries ++ [s]) i x = if s.clears x.name then none else candidate? entries i x := by
  have hi : i < entries.length := (List.getElem?_eq_some_iff.mp hx).1
  unfold candidate?
  rw [isLive_snoc_old hi]
  cases hc : s.clears x.name with
  | true => simp
  | false =>
    cases hr : x.role with
    | removes => simp
    | adds action => simp
    | replaces action =>
      obtain ⟨k, hk, -⟩ := firstSlot?_le hx (Step.isRemoval_of_replaces hr)
      rw [firstSlot?_snoc, hk, List.take_append_of_le_length (Nat.le_of_lt hi)]
      simp

/-- A candidate keeps the name and the condition of its entry. -/
theorem candidate?_same {entries : List (Step α)} {i : Nat} {s : Step α} {c : Candidate α}
    (h : candidate? entries i s = some c) : c.name = s.name ∧ c.condition = s.condition := by
  unfold candidate? at h
  split at h
  · cases hr : s.role with
    | removes => simp [hr] at h
    | adds action => simp only [hr, Option.some.injEq] at h; subst h; exact ⟨rfl, rfl⟩
    | replaces action => simp only [hr, Option.some.injEq] at h; subst h; exact ⟨rfl, rfl⟩
  · cases h

/-- A step that was added stands in its own slot, and a replacement in the first of its name. -/
theorem candidate?_slot {entries : List (Step α)} {i : Nat} {s : Step α} {c : Candidate α}
    (he : entries[i]? = some s) (h : candidate? entries i s = some c) :
    s.isRemoval = false ∧
      (s.isReplacement = false ∧ c.replacing = false ∧ c.slot = i ∨
        s.isReplacement = true ∧ c.replacing = true ∧ firstSlot? entries s.name = some c.slot) := by
  unfold candidate? at h
  split at h
  · cases hr : s.role with
    | removes => simp [hr] at h
    | adds action =>
      simp only [hr, Option.some.injEq] at h
      subst h
      exact ⟨Step.isRemoval_of_adds hr, Or.inl ⟨Step.isReplacement_of_adds hr, rfl, rfl⟩⟩
    | replaces action =>
      simp only [hr, Option.some.injEq] at h
      subst h
      obtain ⟨k, hk, -⟩ := firstSlot?_le he (Step.isRemoval_of_replaces hr)
      refine ⟨Step.isRemoval_of_replaces hr, Or.inr ⟨Step.isReplacement_of_replaces hr, rfl, ?_⟩⟩
      rw [hk]
      rfl
  · cases h

/-- One more entry: those it takes out are gone, and it may be live itself. -/
theorem indexed_snoc (entries : List (Step α)) (s : Step α) :
    indexed (entries ++ [s]) =
      (indexed entries).filter (fun e => !s.clears e.2.name) ++
        ((arrival? entries s).map (entries.length, ·)).toList := by
  unfold indexed
  rw [List.zipIdx_append, List.filterMap_append]
  congr 1
  · rw [List.filter_filterMap]
    refine List.filterMap_congr fun ⟨x, i⟩ hm => ?_
    have hx : entries[i]? = some x := List.mk_mem_zipIdx_iff_getElem?.mp hm
    rw [candidate?_snoc_old hx]
    cases hk : candidate? entries i x with
    | none => simp
    | some c =>
      have hn := (candidate?_same hk).1
      cases hc : s.clears x.name <;> simp [Option.filter, hn, hc]
  · have h := candidate?_snoc_new entries s
    cases ha : arrival? entries s <;> simp [h, ha]

theorem live_snoc (entries : List (Step α)) (s : Step α) :
    live (entries ++ [s]) = (live entries).filter (fun c => !s.clears c.name) ++ (arrival? entries s).toList := by
  rw [live_eq_indexed, live_eq_indexed, indexed_snoc, List.map_append, List.filter_map]
  congr 1
  cases arrival? entries s <;> rfl

/-! ## In force -/

/-- An entry is in force: it is no removal, no later one replaces its name, and every
    removal of the name has a replacement behind it. -/
structure InForce (entries : List (Step α)) (i : Nat) (s : Step α) : Prop where
  entry : entries[i]? = some s
  present : s.isRemoval = false
  newest : ∀ (j : Nat) (r : Step α), i < j → entries[j]? = some r → r.name = s.name → r.isReplacement = false
  revived : ∀ (j : Nat) (r : Step α), entries[j]? = some r → r.name = s.name → r.isRemoval = true →
    ∃ (k : Nat) (q : Step α), j < k ∧ entries[k]? = some q ∧ q.name = s.name ∧ q.isReplacement = true

/-- The constraints in effect for an entry: its own, or for a replacement without any those
    last declared for its name before it. -/
def effective (entries : List (Step α)) (i : Nat) (s : Step α) : Option Anchor × Option Anchor :=
  if s.isReplacement && !s.hasConstraints then declared (entries.take i) s.name else (s.before, s.after)

/-- A candidate is the entry at an index: its name, its condition, its own action, and the
    constraints in effect for it. -/
structure StandsFor (entries : List (Step α)) (i : Nat) (c : Candidate α) : Prop where
  entry : ∃ s, entries[i]? = some s ∧ c.name = s.name ∧ c.condition = s.condition ∧
    (s.role = .adds c.action ∨ s.role = .replaces c.action) ∧ (c.before, c.after) = effective entries i s

theorem lastIndex?_none {p : Step α → Bool} {entries : List (Step α)} (h : lastIndex? p entries = none) :
    ∀ (j : Nat) s, entries[j]? = some s → p s = false := by
  induction entries using List.reverseRecOn with
  | nil => intro j s hs; simp at hs
  | append_singleton entries x ih =>
    intro j s hs
    rw [lastIndex?_snoc] at h
    split at h
    · cases h
    · next hx =>
      rw [List.getElem?_append] at hs
      split at hs
      · exact ih h j s hs
      · obtain ⟨-, rfl⟩ := List.getElem?_eq_some_iff.mp hs
        simpa using hx

theorem lastIndex?_some {p : Step α → Bool} {entries : List (Step α)} {i : Nat} (h : lastIndex? p entries = some i) :
    (∃ s, entries[i]? = some s ∧ p s = true) ∧ ∀ (j : Nat) s, i < j → entries[j]? = some s → p s = false := by
  induction entries using List.reverseRecOn with
  | nil => cases h
  | append_singleton entries x ih =>
    rw [lastIndex?_snoc] at h
    split at h
    · next hx =>
      cases h
      refine ⟨⟨x, by simp, hx⟩, fun j s hj hs => ?_⟩
      rw [List.getElem?_eq_none (by simp; omega)] at hs
      cases hs
    · next hx =>
      obtain ⟨⟨s, hs, hp⟩, hlast⟩ := ih h
      have hi : i < entries.length := lastIndex?_lt h
      refine ⟨⟨s, by rw [List.getElem?_append_left hi]; exact hs, hp⟩, fun j s hj hs => ?_⟩
      rw [List.getElem?_append] at hs
      split at hs
      · exact hlast j s hj hs
      · obtain ⟨-, rfl⟩ := List.getElem?_eq_some_iff.mp hs
        simpa using hx

theorem le_lastIndex? {p : Step α → Bool} {entries : List (Step α)} {i j : Nat} {s : Step α}
    (h : lastIndex? p entries = some i) (hs : entries[j]? = some s) (hp : p s = true) : j ≤ i := by
  by_contra hij
  have := (lastIndex?_some h).2 j s (by omega) hs
  rw [hp] at this
  cases this

theorem isSuperseded_iff {entries : List (Step α)} {name : String} {i : Nat} :
    isSuperseded entries name i = false ↔
      ∀ (j : Nat) (r : Step α), i < j → entries[j]? = some r → r.name = name → r.isReplacement = false := by
  unfold isSuperseded replacedAt?
  cases h : lastIndex? (fun s => s.name == name && s.isReplacement) entries with
  | none =>
    have hn := lastIndex?_none h
    simp only [Option.any_none, true_iff]
    intro j r _ hr hname
    simpa [hname] using hn j r hr
  | some k =>
    obtain ⟨⟨s, hs, hp⟩, hlast⟩ := lastIndex?_some h
    simp only [Option.any_some, decide_eq_false_iff_not]
    constructor
    · intro hk j r hj hr hname
      simpa [hname] using hlast j r (by omega) hr
    · intro hall hik
      have := hall k s hik hs
      simp at hp
      rw [this hp.1] at hp
      cases hp.2

theorem isSuppressed_iff {entries : List (Step α)} {name : String} :
    isSuppressed entries name = false ↔
      ∀ (j : Nat) (r : Step α), entries[j]? = some r → r.name = name → r.isRemoval = true →
        ∃ (k : Nat) (q : Step α), j < k ∧ entries[k]? = some q ∧ q.name = name ∧ q.isReplacement = true := by
  unfold isSuppressed removedAt?
  cases h : lastIndex? (fun s => s.name == name && s.isRemoval) entries with
  | none =>
    have hn := lastIndex?_none h
    simp only [true_iff]
    intro j r hr hname hrem
    have := hn j r hr
    simp [hname, hrem] at this
  | some d =>
    obtain ⟨⟨s, hs, hp⟩, -⟩ := lastIndex?_some h
    simp only [Bool.and_eq_true, beq_iff_eq] at hp
    cases h' : replacedAt? entries name with
    | none =>
      have hn := lastIndex?_none h'
      simp only [Bool.true_eq_false, false_iff]
      intro hall
      obtain ⟨k, q, -, hq, hqn, hqr⟩ := hall d s hs hp.1 hp.2
      have := hn k q hq
      simp [hqn, hqr] at this
    | some k =>
      obtain ⟨⟨q, hq, hqp⟩, -⟩ := lastIndex?_some h'
      simp only [Bool.and_eq_true, beq_iff_eq] at hqp
      simp only [decide_eq_false_iff_not, Nat.not_lt]
      constructor
      · intro hdk j r hr hname hrem
        have hj : j ≤ d := le_lastIndex? h hr (by simp [hname, hrem])
        have hne : j ≠ k := by
          rintro rfl
          rw [hq] at hr
          cases hr
          rw [removal_ne_replacement hrem] at hqp
          cases hqp.2
        exact ⟨k, q, by omega, hq, hqp.1, hqp.2⟩
      · intro hall
        obtain ⟨k', q', hk', hq', hqn, hqr⟩ := hall d s hs hp.1 hp.2
        have hle : k' ≤ k := le_lastIndex? h' hq' (by simp [hqn, hqr])
        omega

/-- The live candidates are the entries in force. -/
theorem inForce_iff {entries : List (Step α)} {i : Nat} {s : Step α} :
    InForce entries i s ↔ entries[i]? = some s ∧ ∃ c, candidate? entries i s = some c := by
  have hlive : isLive entries s.name i = true ↔
      isSuperseded entries s.name i = false ∧ isSuppressed entries s.name = false := by simp [isLive]
  constructor
  · intro h
    refine ⟨h.entry, ?_⟩
    have hl := hlive.mpr ⟨isSuperseded_iff.mpr h.newest, isSuppressed_iff.mpr h.revived⟩
    have hp := h.present
    unfold candidate?
    rw [if_pos hl]
    cases hr : s.role with
    | removes => rw [Step.isRemoval_of_removes hr] at hp; cases hp
    | adds action => exact ⟨_, rfl⟩
    | replaces action => exact ⟨_, rfl⟩
  · rintro ⟨he, c, hc⟩
    unfold candidate? at hc
    split at hc
    · next hl =>
      obtain ⟨h1, h2⟩ := hlive.mp hl
      refine ⟨he, ?_, isSuperseded_iff.mp h1, isSuppressed_iff.mp h2⟩
      cases hr : s.role with
      | removes => simp [hr] at hc
      | adds action => exact Step.isRemoval_of_adds hr
      | replaces action => exact Step.isRemoval_of_replaces hr
    · cases hc

theorem standsFor_of_candidate? {entries : List (Step α)} {i : Nat} {s : Step α} {c : Candidate α}
    (he : entries[i]? = some s) (hc : candidate? entries i s = some c) : StandsFor entries i c := by
  unfold candidate? at hc
  split at hc
  · cases hr : s.role with
    | removes => simp [hr] at hc
    | adds action =>
      simp only [hr, Option.some.injEq] at hc
      subst hc
      exact ⟨s, he, rfl, rfl, Or.inl hr, by simp [effective, Step.isReplacement_of_adds hr]⟩
    | replaces action =>
      simp only [hr, Option.some.injEq] at hc
      subst hc
      refine ⟨s, he, rfl, rfl, Or.inr hr, ?_⟩
      unfold effective
      cases s.hasConstraints <;> simp [Step.isReplacement_of_replaces hr]
  · cases hc

end Registry

end SqlPipeline
