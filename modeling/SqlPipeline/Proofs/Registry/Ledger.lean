/-
  SqlPipeline.Proofs.Registry.Ledger — the registry, kept up entry by entry.

  A ledger keeps for one name the steps now live, whether the name is suppressed, the
  constraints last declared and the first slot. Each entry changes the ledger of its own
  name only (`Ledger.add`), and never looks back at earlier entries.

  `ledgers_agree`: after any entries the ledgers say what the registry works out at once.
  `live_eq_ledgers`: the live entries are those of the ledgers, in the order of
  registration; their slots differ; and looking a name up gives the last one of its ledger.
-/

import SqlPipeline.Proofs.Registry.Live

namespace SqlPipeline

variable {α : Type}

/-- What is kept of one name. Live candidates stand with the index of their entry. -/
structure Ledger (α : Type) where
  live : List (Nat × Candidate α) := []
  suppressed : Bool := false
  latest : Option (Option Anchor × Option Anchor) := none
  firstSlot : Option Nat := none

/-- The constraints an entry declares, if any. -/
def Step.declares? (s : Step α) : Option (Option Anchor × Option Anchor) :=
  if s.hasConstraints then some (s.before, s.after) else none

namespace Ledger

/-- Takes an entry of the name down. -/
def add (l : Ledger α) (i : Nat) (s : Step α) : Ledger α :=
  match s.role with
  | .adds action =>
    { l with
      live := if l.suppressed then l.live else l.live ++ [(i, { s with slot := i, action, replacing := false })]
      latest := s.declares?.or l.latest
      firstSlot := l.firstSlot.or (some i) }
  | .replaces action =>
    let slot := l.firstSlot.getD i
    let inEffect := (s.declares?.or l.latest).getD (none, none)
    { live := [(i, { s with before := inEffect.1, after := inEffect.2, slot, action, replacing := true })]
      suppressed := false
      latest := s.declares?.or l.latest
      firstSlot := some slot }
  | .removes => { l with live := [], suppressed := true }

/-- Takes an entry down in the ledger of its name. -/
def enter (ledgers : String → Ledger α) (e : Step α × Nat) : String → Ledger α := fun name =>
  if e.1.name = name then (ledgers name).add e.2 e.1 else ledgers name

end Ledger

/-- The ledgers after a list of entries, taken down one by one. -/
def ledgers (entries : List (Step α)) : String → Ledger α := entries.zipIdx.foldl Ledger.enter fun _ => {}

theorem ledgers_snoc (entries : List (Step α)) (s : Step α) :
    ledgers (entries ++ [s]) = Ledger.enter (ledgers entries) (s, entries.length) := by
  unfold ledgers
  rw [List.zipIdx_append, List.foldl_append]
  simp

namespace Registry

/-- A ledger says of its name what the registry says. -/
structure Agrees (entries : List (Step α)) (name : String) (l : Ledger α) : Prop where
  live : l.live = (indexed entries).filter (·.2.name == name)
  suppressed : l.suppressed = isSuppressed entries name
  latest : l.latest.getD (none, none) = declared entries name
  firstSlot : l.firstSlot = firstSlot? entries name

/-! ## One entry -/

theorem clears_eq_false {s : Step α} {name : String} (h : s.name ≠ name) : s.clears name = false := by
  simp [Step.clears, h]

theorem arrival?_name {entries : List (Step α)} {s : Step α} {c : Candidate α} (h : arrival? entries s = some c) :
    c.name = s.name := by
  rw [← candidate?_snoc_new] at h
  exact (candidate?_same h).1

/-- The candidates of another name stay as they are. -/
theorem indexed_snoc_other {entries : List (Step α)} {s : Step α} {name : String} (h : s.name ≠ name) :
    (indexed (entries ++ [s])).filter (·.2.name == name) = (indexed entries).filter (·.2.name == name) := by
  rw [indexed_snoc, List.filter_append, List.filter_filter]
  have hnew : (((arrival? entries s).map (entries.length, ·)).toList.filter fun e => e.2.name == name) = [] := by
    cases ha : arrival? entries s with
    | none => rfl
    | some c => simp [arrival?_name ha, h]
  rw [hnew, List.append_nil]
  refine List.filter_congr fun e _ => ?_
  by_cases he : e.2.name = name
  · simp [he, clears_eq_false h]
  · simp [he]

/-- Of its own name a clearing entry leaves nothing but itself. -/
theorem indexed_snoc_clearing {entries : List (Step α)} {s : Step α} (h : s.clears s.name = true) :
    (indexed (entries ++ [s])).filter (·.2.name == s.name) =
      ((arrival? entries s).map (entries.length, ·)).toList := by
  rw [indexed_snoc, List.filter_append, List.filter_filter]
  have hold : ((indexed entries).filter fun e => e.2.name == s.name && !s.clears e.2.name) = [] := by
    rw [List.filter_eq_nil_iff]
    intro e _ he
    simp only [Bool.and_eq_true, beq_iff_eq] at he
    rw [he.1, h] at he
    cases he.2
  rw [hold, List.nil_append]
  cases ha : arrival? entries s with
  | none => rfl
  | some c => simp [arrival?_name ha]

/-- An added step joins those of its name. -/
theorem indexed_snoc_adding {entries : List (Step α)} {s : Step α} (h : s.clears s.name = false) :
    (indexed (entries ++ [s])).filter (·.2.name == s.name) =
      (indexed entries).filter (·.2.name == s.name) ++
        ((arrival? entries s).map (entries.length, ·)).toList := by
  rw [indexed_snoc, List.filter_append, List.filter_filter]
  congr 1
  · refine List.filter_congr fun e _ => ?_
    by_cases he : e.2.name = s.name
    · simp [he, h]
    · simp [he]
  · cases ha : arrival? entries s with
    | none => rfl
    | some c => simp [arrival?_name ha]

theorem declares?_getD (s : Step α) (latest : Option (Option Anchor × Option Anchor)) :
    (s.declares?.or latest).getD (none, none) =
      if s.hasConstraints then (s.before, s.after) else latest.getD (none, none) := by
  unfold Step.declares?
  split <;> simp

/-! The three kinds of entries, each in the ledger of its own name. -/

theorem agrees_adding {entries : List (Step α)} {s : Step α} {action : α} (hr : s.role = .adds action)
    {l : Ledger α} (h : Agrees entries s.name l) : Agrees (entries ++ [s]) s.name (l.add entries.length s) := by
  have hrem := Step.isRemoval_of_adds hr
  have hc : s.clears s.name = false := by simp [Step.clears, hrem, Step.isReplacement_of_adds hr]
  unfold Ledger.add
  simp only [hr]
  refine ⟨?_, ?_, ?_, ?_⟩
  · rw [indexed_snoc_adding hc, h.live, h.suppressed]
    unfold arrival?
    cases isSuppressed entries s.name <;> simp [hr]
  · rw [isSuppressed_snoc, hc, h.suppressed]
    rfl
  · rw [declares?_getD, declared_snoc, h.latest]
    simp [hrem]
  · rw [firstSlot?_snoc, h.firstSlot]
    simp [hrem]

theorem agrees_replacing {entries : List (Step α)} {s : Step α} {action : α} (hr : s.role = .replaces action)
    {l : Ledger α} (h : Agrees entries s.name l) : Agrees (entries ++ [s]) s.name (l.add entries.length s) := by
  have hrem := Step.isRemoval_of_replaces hr
  have hc : s.clears s.name = true := by simp [Step.clears, Step.isReplacement_of_replaces hr]
  unfold Ledger.add
  simp only [hr]
  refine ⟨?_, ?_, ?_, ?_⟩
  · rw [indexed_snoc_clearing hc, declares?_getD, h.latest, h.firstSlot]
    unfold arrival?
    simp [hr]
  · rw [isSuppressed_snoc, hc, hrem]
    rfl
  · rw [declares?_getD, declared_snoc, h.latest]
    simp [hrem]
  · rw [firstSlot?_snoc, h.firstSlot]
    cases firstSlot? entries s.name <;> simp [hrem]

theorem agrees_removing {entries : List (Step α)} {s : Step α} (hr : s.role = .removes) {l : Ledger α}
    (h : Agrees entries s.name l) : Agrees (entries ++ [s]) s.name (l.add entries.length s) := by
  have hrem := Step.isRemoval_of_removes hr
  have hc : s.clears s.name = true := by simp [Step.clears, hrem]
  unfold Ledger.add
  simp only [hr]
  refine ⟨?_, ?_, ?_, ?_⟩
  · rw [indexed_snoc_clearing hc]
    unfold arrival?
    simp [hr]
  · rw [isSuppressed_snoc, hc, hrem]
    rfl
  · rw [declared_snoc, ← h.latest]
    simp [hrem]
  · rw [firstSlot?_snoc, ← h.firstSlot]
    simp [hrem]

theorem agrees_add {entries : List (Step α)} {s : Step α} {l : Ledger α} (h : Agrees entries s.name l) :
    Agrees (entries ++ [s]) s.name (l.add entries.length s) := by
  cases hr : s.role with
  | adds action => exact agrees_adding hr h
  | replaces action => exact agrees_replacing hr h
  | removes => exact agrees_removing hr h

theorem agrees_other {entries : List (Step α)} {s : Step α} {name : String} {l : Ledger α} (hn : s.name ≠ name)
    (h : Agrees entries name l) : Agrees (entries ++ [s]) name l := by
  refine ⟨?_, ?_, ?_, ?_⟩
  · rw [indexed_snoc_other hn, h.live]
  · rw [isSuppressed_snoc, clears_eq_false hn, h.suppressed]
    rfl
  · rw [declared_snoc, h.latest]
    simp [hn]
  · rw [firstSlot?_snoc, h.firstSlot]
    simp [hn]

/-! ## Every entry -/

theorem ledgers_agree (entries : List (Step α)) (name : String) : Agrees entries name (ledgers entries name) := by
  induction entries using List.reverseRecOn with
  | nil => exact ⟨rfl, rfl, rfl, rfl⟩
  | append_singleton entries s ih =>
    rw [ledgers_snoc]
    unfold Ledger.enter
    by_cases hn : s.name = name
    · subst hn
      rw [if_pos rfl]
      exact agrees_add ih
    · rw [if_neg hn]
      exact agrees_other hn ih

/-! ## A ledger on its own -/

/-- A name with one live step has the constraints and the slot of that step, and one with none
    was taken out or never had any. -/
structure Sound (l : Ledger α) : Prop where
  sole : ∀ i c, l.live = [(i, c)] → l.latest.getD (none, none) = (c.before, c.after) ∧ l.firstSlot = some c.slot
  unused : l.live = [] → l.suppressed = false → l.latest = none ∧ l.firstSlot = none
  gone : l.suppressed = true → l.live = []

theorem sound_add {l : Ledger α} (h : Sound l) (i : Nat) (s : Step α) : Sound (l.add i s) := by
  unfold Ledger.add
  cases hr : s.role with
  | adds action =>
    cases hs : l.suppressed with
    | true =>
      refine ⟨fun j c hc => ?_, fun _ hno => by simp at hno, fun _ => h.gone hs⟩
      simp [h.gone hs] at hc
    | false =>
      refine ⟨fun j c hc => ?_, fun hno => by simp at hno, fun hyes => by simp at hyes⟩
      -- the one that is live now is the new one, and there was none before
      obtain ⟨hnone, hc⟩ := List.append_eq_singleton_iff.mp hc |>.resolve_right (by simp)
      obtain ⟨hlatest, hslot⟩ := h.unused hnone hs
      cases hc
      refine ⟨?_, by simp [hslot]⟩
      rw [declares?_getD, hlatest]
      cases hc : s.hasConstraints with
      | true => rfl
      | false =>
        obtain ⟨hb, ha⟩ : s.before = none ∧ s.after = none := by simpa [Step.hasConstraints] using hc
        simp [hb, ha]
  | replaces action =>
    refine ⟨fun j c hc => ?_, fun hno => by simp at hno, fun hyes => by simp at hyes⟩
    cases hc
    exact ⟨rfl, rfl⟩
  | removes => exact ⟨fun j c hc => by simp at hc, fun _ hno => by simp at hno, fun _ => rfl⟩

theorem sound_ledgers (entries : List (Step α)) (name : String) : Sound (ledgers entries name) := by
  induction entries using List.reverseRecOn with
  | nil => exact ⟨nofun, fun _ _ => ⟨rfl, rfl⟩, nofun⟩
  | append_singleton entries s ih =>
    rw [ledgers_snoc]
    unfold Ledger.enter
    split
    · exact sound_add ih _ _
    · exact ih

/-! ## Slots -/

/-- A live candidate stands in the slot of an entry of its name, no later than its own; one
    that is no replacement in its own. -/
theorem slot_of_candidate? {entries : List (Step α)} {i : Nat} {s : Step α} {c : Candidate α}
    (he : entries[i]? = some s) (hc : candidate? entries i s = some c) :
    c.slot ≤ i ∧ (s.isReplacement = false → c.slot = i) ∧ ∃ q, entries[c.slot]? = some q ∧ q.name = s.name := by
  obtain ⟨hrem, ⟨-, -, rfl⟩ | ⟨hrep, -, hk⟩⟩ := candidate?_slot he hc
  · exact ⟨Nat.le_refl _, fun _ => rfl, s, he, rfl⟩
  · obtain ⟨k, hk', hle⟩ := firstSlot?_le he hrem
    rw [hk] at hk'
    cases hk'
    obtain ⟨hlt, hname, -⟩ := List.findIdx?_eq_some_iff_getElem.mp hk
    simp only [Bool.and_eq_true, beq_iff_eq] at hname
    refine ⟨hle, fun hno => ?_, _, List.getElem?_eq_getElem hlt, hname.1⟩
    rw [hrep] at hno
    cases hno

/-- Of two live candidates the later one is in a slot of its own: either the names differ, or
    the later one is no replacement, for the earlier one would not be live. -/
theorem slots_differ {entries : List (Step α)} {e e' : Nat × Candidate α} (he : e ∈ indexed entries)
    (he' : e' ∈ indexed entries) (hlt : e.1 < e'.1) : e.2.slot ≠ e'.2.slot := by
  obtain ⟨s, hs, hc⟩ := mem_indexed.mp he
  obtain ⟨s', hs', hc'⟩ := mem_indexed.mp he'
  obtain ⟨hle, -, q, hq, hqn⟩ := slot_of_candidate? hs hc
  obtain ⟨-, hown, q', hq', hqn'⟩ := slot_of_candidate? hs' hc'
  intro hslot
  rw [hslot, hq'] at hq
  cases hq
  have hname : s'.name = s.name := hqn'.symm.trans hqn
  have hno := (inForce_iff.mpr ⟨hs, _, hc⟩).newest e'.1 s' hlt hs' hname
  have := hown hno
  omega

theorem slots_pairwise (entries : List (Step α)) : (live entries).Pairwise (·.slot ≠ ·.slot) := by
  rw [live_eq_indexed, List.pairwise_map]
  exact (indexed_pairwise entries).imp_of_mem fun he he' hlt => slots_differ he he' hlt

theorem candidates_slots (config : Config) (entries : List (Step α)) :
    (candidates config entries).Pairwise (·.slot ≠ ·.slot) := (slots_pairwise entries).filter _

theorem lookup_eq_ledger (entries : List (Step α)) (name : String) :
    lookup entries name = (ledgers entries name).live.getLast?.map (·.2.action) := by
  unfold lookup
  rw [(ledgers_agree entries name).live, live_eq_indexed, List.filter_map, List.getLast?_map, Option.map_map]
  rfl

/-- The live entries are those the ledgers keep, merged by the index of registration. No two
    stand in one slot, and the newest action of a name is the last of its ledger. -/
theorem live_eq_ledgers (entries : List (Step α)) :
    (∃ merged : List (Nat × Candidate α), live entries = merged.map (·.2) ∧ merged.Pairwise (·.1 < ·.1) ∧
      ∀ name, merged.filter (·.2.name == name) = (ledgers entries name).live) ∧
    (live entries).Pairwise (·.slot ≠ ·.slot) ∧
    ∀ name, lookup entries name = (ledgers entries name).live.getLast?.map (·.2.action) := by
  refine ⟨⟨indexed entries, live_eq_indexed entries, indexed_pairwise entries, fun name => ?_⟩,
    slots_pairwise entries, lookup_eq_ledger entries⟩
  exact (ledgers_agree entries name).live.symm

end Registry

end SqlPipeline
