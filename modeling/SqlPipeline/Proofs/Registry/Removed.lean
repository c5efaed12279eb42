/-
  SqlPipeline.Proofs.Registry.Removed — taking a name out stands in nobody's way.

  A removal asks for nothing, and what the others ask of one another it leaves as it is: fewer
  candidates have an order if more had one. It is not always the old order, for a step that was
  kept behind another only by one of those removed may go first now.

  - `live_removed`: the other steps stay as they are.
  - `lookup_removed`: the name stays out whatever is registered, unless it is replaced.
  - `remove_only_helps`: the stage stays fresh, the others run as before, and the name is out.
-/

import Mathlib
import SqlPipeline.Proofs.Registry.Calls
import SqlPipeline.Proofs.Registry.Ledger

namespace SqlPipeline

variable {α : Type}

/-- One of the later entries replaces the name, and none behind it takes it out again. -/
def Revives (name : String) (later : List (Step α)) : Prop :=
  ∃ before r after, later = before ++ r :: after ∧ r.name = name ∧ r.isReplacement = true ∧
    ∀ e ∈ after, e.name = name → e.isRemoval = false

theorem revives_snoc {name : String} {later : List (Step α)} {e : Step α} :
    Revives name (later ++ [e]) ↔
      e.name = name ∧ e.isReplacement = true ∨ Revives name later ∧ (e.name = name → e.isRemoval = false) := by
  constructor
  · rintro ⟨before, r, after, hsplit, hname, hr, hafter⟩
    rcases List.eq_nil_or_concat after with rfl | ⟨after, x, rfl⟩
    · obtain ⟨-, rfl⟩ := List.append_singleton_inj.mp hsplit
      exact Or.inl ⟨hname, hr⟩
    · rw [List.concat_eq_append] at hsplit hafter
      rw [← List.cons_append, ← List.append_assoc] at hsplit
      obtain ⟨rfl, rfl⟩ := List.append_singleton_inj.mp hsplit
      obtain ⟨hafter, hx⟩ := List.forall_mem_append.mp hafter
      exact Or.inr ⟨⟨before, r, after, rfl, hname, hr, hafter⟩, hx e (List.mem_singleton_self e)⟩
  · rintro (⟨hname, hr⟩ | ⟨⟨before, r, after, rfl, hname, hr, hafter⟩, he⟩)
    · exact ⟨later, e, [], rfl, hname, hr, nofun⟩
    · refine ⟨before, r, after ++ [e], by simp, hname, hr, List.forall_mem_append.mpr ⟨hafter, fun x hx => ?_⟩⟩
      rw [List.mem_singleton.mp hx]
      exact he

namespace Registry

/-! ## Out, and how long -/

theorem isSuppressed_append {entries : List (Step α)} {name : String} (h : isSuppressed entries name = true)
    (later : List (Step α)) : isSuppressed (entries ++ later) name = true ↔ ¬ Revives name later := by
  induction later using List.reverseRecOn with
  | nil => simp [h, Revives]
  | append_singleton later e ih =>
    rw [← List.append_assoc, isSuppressed_snoc, revives_snoc]
    by_cases hn : e.name = name
    · cases hr : e.role with
      | adds action =>
        have hrem := Step.isRemoval_of_adds hr
        have hrep := Step.isReplacement_of_adds hr
        simp [Step.clears, hn, hrem, hrep, ih]
      | replaces action =>
        have hrem := Step.isRemoval_of_replaces hr
        have hrep := Step.isReplacement_of_replaces hr
        simp [Step.clears, hn, hrem, hrep]
      | removes =>
        have hrem := Step.isRemoval_of_removes hr
        have hrep := Step.isReplacement_of_removes hr
        simp [Step.clears, hn, hrem, hrep]
    · simp [clears_eq_false hn, hn, ih]

theorem lookup_eq_none_iff {entries : List (Step α)} {name : String} :
    lookup entries name = none ↔ ∀ c ∈ live entries, c.name ≠ name := by
  unfold lookup
  rw [Option.map_eq_none_iff, List.getLast?_eq_none_iff, List.filter_eq_nil_iff]
  simp

theorem not_live_iff_ledger {entries : List (Step α)} {name : String} :
    (∀ c ∈ live entries, c.name ≠ name) ↔ (ledgers entries name).live = [] := by
  rw [(ledgers_agree entries name).live, live_eq_indexed, List.filter_eq_nil_iff, List.forall_mem_map]
  simp

theorem not_live_of_suppressed {entries : List (Step α)} {name : String} (h : isSuppressed entries name = true) :
    ∀ c ∈ live entries, c.name ≠ name := by
  rw [← (ledgers_agree entries name).suppressed] at h
  exact not_live_iff_ledger.mpr ((sound_ledgers entries name).gone h)

/-- A name that has steps and is not taken out has a live one. -/
theorem suppressed_of_not_live {entries : List (Step α)} {i : Nat} {e : Step α} (he : entries[i]? = some e)
    (hrem : e.isRemoval = false) (h : ∀ c ∈ live entries, c.name ≠ e.name) : isSuppressed entries e.name = true := by
  have hagree := ledgers_agree entries e.name
  obtain ⟨k, hk, -⟩ := firstSlot?_le he hrem
  by_contra hs
  rw [← hagree.suppressed, Bool.not_eq_true] at hs
  rw [← hagree.firstSlot] at hk
  have hnone := ((sound_ledgers entries e.name).unused (not_live_iff_ledger.mp h) hs).2
  rw [hk] at hnone
  cases hnone

/-- What a removal leaves: every other live step, as it was. -/
theorem live_removed {entries : List (Step α)} {s : Step α} (hrole : s.role = .removes) :
    live (entries ++ [s]) = (live entries).filter (·.name ≠ s.name) := by
  have harrival : arrival? entries s = none := by
    unfold arrival?
    rw [hrole]
  rw [live_snoc, harrival, Option.toList_none, List.append_nil]
  refine List.filter_congr fun c _ => ?_
  simp [Step.clears, Step.isRemoval_of_removes hrole, beq_eq_decide, eq_comm]

/-- Once removed a name is looked up again when it was replaced since, and not before. -/
theorem lookup_removed {entries : List (Step α)} {s : Step α} (hrole : s.role = .removes) (later : List (Step α)) :
    lookup (entries ++ s :: later) s.name = none ↔ ¬ Revives s.name later := by
  have hout : isSuppressed (entries ++ [s]) s.name = true := by
    rw [isSuppressed_snoc]
    simp [Step.clears, Step.isRemoval_of_removes hrole]
  have happend : entries ++ s :: later = (entries ++ [s]) ++ later := by simp
  rw [lookup_eq_none_iff, happend, ← isSuppressed_append hout]
  refine ⟨fun h => ?_, not_live_of_suppressed⟩
  by_contra hs
  obtain ⟨before, r, after, hlater, hname, hr, -⟩ := not_not.mp (mt (isSuppressed_append hout later).mpr hs)
  have hentry : ((entries ++ [s]) ++ later)[(entries ++ [s] ++ before).length]? = some r := by
    rw [hlater, ← List.append_assoc]
    simp
  rw [← hname] at h hs
  exact hs (suppressed_of_not_live hentry (replacement_ne_removal hr) h)

end Registry

/-! ## In a stage -/

namespace Stage

open Registry

/-- What a removal does to a stage after calls, and what is known of the stage from then on. -/
structure TakenOut (config : Config) (kind : StageKind) (calls : List (Step α)) (s : Step α) : Prop where
  result : ((called config kind calls).register config s).result = .ok ()
  fresh : ((called config kind calls).register config s).stage.isStale = false
  /-- The steps that ran, but for those of the name, perhaps in another order. -/
  steps : ∃ old new, (called config kind calls).compiled = some old ∧
    ((called config kind calls).register config s).stage.compiled = some new ∧
    new.steps.Perm (old.steps.filter (·.name ≠ s.name))
  /-- The others keep their actions, constraints and slots, whether their conditions hold or not. -/
  others : live ((called config kind calls).register config s).stage.entries =
    (live (called config kind calls).entries).filter (·.name ≠ s.name)
  /-- Whatever is called later, the name is looked up again only once it was replaced. -/
  lookup : ∀ later, (called config kind (calls ++ s :: later)).lookup s.name = none ↔ ¬ Revives s.name later
  out : ∀ later, ¬ Revives s.name later → ∀ c, (called config kind (calls ++ s :: later)).compiled = some c →
    ∀ x ∈ c.steps, x.name ≠ s.name

/-- On a stage that is not stale a removal succeeds. The others run as they did, and the name is
    out until it is replaced. -/
theorem remove_only_helps {config : Config} {kind : StageKind} {calls : List (Step α)} {s : Step α}
    (hrole : s.role = .removes) (hfresh : (called config kind calls).isStale = false) :
    TakenOut config kind calls s := by
  obtain ⟨old, hold⟩ : ∃ old, (called config kind calls).compiled = some old := by
    rw [← Option.isSome_iff_exists]
    simpa [isStale] using hfresh
  have hcandidates : candidates config (calls ++ [s]) = (candidates config calls).filter (·.name ≠ s.name) := by
    unfold candidates
    rw [live_removed hrole, List.filter_comm]
  obtain ⟨new, hnew, hsteps⟩ := compile_filter (compile_of_called hold) (·.name ≠ s.name)
  rw [← hcandidates, ← called_entries config kind calls] at hnew
  obtain ⟨hresult, hdone⟩ := register_ok hnew
  have hlookup : ∀ later, (called config kind (calls ++ s :: later)).lookup s.name = none ↔ ¬ Revives s.name later := by
    intro later
    unfold Stage.lookup
    rw [called_entries]
    exact lookup_removed hrole later
  refine ⟨hresult, by rw [isStale, hdone]; rfl, ⟨old, new, hold, hdone, hsteps⟩, ?_, hlookup, ?_⟩
  · rw [register_entries, live_removed hrole]
  · intro later hno c hc x hx
    have hmem : x ∈ candidates config (calls ++ s :: later) :=
      (compile_ok (compile_of_called hc)).1.mem_iff.mp hx
    exact lookup_eq_none_iff.mp ((lookup_removed hrole later).mpr hno) x (List.mem_of_mem_filter hmem)

/-- The audit ran last, for it follows the stamp, and that follows the beginning. Without the
    stamp it goes first, where it was registered. -/
theorem remove_stamp :
    let step (name : String) (after : Option Anchor) (role : Role Unit) : Step Unit :=
      { name, after, role, site := ⟨"setup"⟩ }
    let calls := [step "audit" (some (.step "stamp")) (.adds ()), step "stamp" (some (.step "begin")) (.adds ()),
      step "begin" none (.adds ())]
    let s := step "stamp" none .removes
    (called {} .create calls).order? = some ["begin", "stamp", "audit"] ∧
      ((called {} .create calls).register {} s).stage.order? = some ["audit", "begin"] ∧
      s.role = .removes ∧ (called {} .create calls).isStale = false ∧ TakenOut {} .create calls s := by
  intro step calls s
  have hbefore : (called {} .create calls).order? = some ["begin", "stamp", "audit"] := by cbv
  have hafter : ((called {} .create calls).register {} s).stage.order? = some ["audit", "begin"] := by cbv
  have hfresh : (called {} .create calls).isStale = false := by cbv
  exact ⟨hbefore, hafter, rfl, hfresh, remove_only_helps rfl hfresh⟩

end Stage

end SqlPipeline
