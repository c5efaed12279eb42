/-
  SqlPipeline.Proofs.Registry.Warned — which duplicates a stage reports, and how often it warns.

  A replacement stands in the first slot of its name and supersedes what was registered before
  it, so no slot is earlier. The steps reported are then just those whose name an earlier slot
  has. The report is made anew with every compilation, but what was warned about is kept, whatever
  fails in between.

  - `duplicates_eq`: the duplicates of candidates that stand by slot.
  - `register_warned`: what one call adds to the warnings, and `called_warned` a run of them.
  - `duplicates_exact_warned_once`: after each call of a run, and over the whole of it.
-/

import SqlPipeline.Proofs.Placement.Alike
import SqlPipeline.Proofs.Registry.Calls
import SqlPipeline.Proofs.Registry.Ledger

namespace SqlPipeline

open Placement

variable {α : Type}

namespace Candidate

/-- Another of the candidates has the name, in an earlier slot. -/
def Repeats (cs : List (Candidate α)) (c : Candidate α) : Prop := ∃ d ∈ cs, d.name = c.name ∧ d.slot < c.slot

instance (cs : List (Candidate α)) (c : Candidate α) : Decidable (c.Repeats cs) := List.decidableBEx _ cs

def duplicate (c : Candidate α) : Duplicate := ⟨c.name, c.site⟩

theorem Repeats.perm {cs ds : List (Candidate α)} (h : cs.Perm ds) {c : Candidate α} : c.Repeats cs ↔ c.Repeats ds := by
  unfold Repeats
  simp only [h.mem_iff]

end Candidate

open Candidate

/-! ## What is reported -/

/-- Of candidates in strict order of their slots, those before one are those with its name seen. -/
theorem duplicates_behind (earlier : List (Candidate α)) {cs : List (Candidate α)}
    (hslots : (earlier ++ cs).Pairwise (·.slot < ·.slot))
    (hreplacing : ∀ c ∈ cs, c.replacing = true → ¬ c.Repeats (earlier ++ cs)) {seen : List String}
    (hseen : ∀ name, name ∈ seen ↔ ∃ d ∈ earlier, d.name = name) :
    duplicates seen cs = (cs.filter (·.Repeats (earlier ++ cs))).map duplicate := by
  induction cs generalizing earlier seen with
  | nil => rfl
  | cons c cs ih =>
    have hmoved : earlier ++ c :: cs = (earlier ++ [c]) ++ cs := by simp
    obtain ⟨-, hcons, hcross⟩ := List.pairwise_append.mp hslots
    have hrepeats : c.Repeats (earlier ++ c :: cs) ↔ c.name ∈ seen := by
      rw [hseen]
      constructor
      · rintro ⟨d, hd, hname, hlt⟩
        rcases List.mem_append.mp hd with hd | hd
        · exact ⟨d, hd, hname⟩
        · rcases List.mem_cons.mp hd with rfl | hd
          · exact absurd hlt (Nat.lt_irrefl _)
          · exact absurd hlt (Nat.lt_asymm (List.rel_of_pairwise_cons hcons hd))
      · rintro ⟨d, hd, hname⟩
        exact ⟨d, List.mem_append_left _ hd, hname, hcross d hd c List.mem_cons_self⟩
    have hseen' : ∀ name, name ∈ c.name :: seen ↔ ∃ d ∈ earlier ++ [c], d.name = name := by
      intro name
      simp [hseen, or_and_right, exists_or, or_comm, eq_comm]
    have hrest := ih (earlier ++ [c]) (hmoved ▸ hslots) (hmoved ▸ fun x hx => hreplacing x (List.mem_cons_of_mem c hx)) hseen'
    rw [← hmoved] at hrest
    rw [duplicates, hrest]
    by_cases hc : c.name ∈ seen
    · have hadded : c.replacing = false := by
        simpa using mt (hreplacing c List.mem_cons_self) (not_not.mpr (hrepeats.mpr hc))
      rw [if_pos ⟨hc, hadded⟩, List.filter_cons_of_pos (by simpa using hrepeats.mpr hc)]
      rfl
    · rw [if_neg fun h => hc h.1, List.filter_cons_of_neg (by simpa using mt hrepeats.mp hc)]
      rfl

theorem duplicates_eq {cs : List (Candidate α)} (hslots : cs.Pairwise (·.slot < ·.slot))
    (hreplacing : ∀ c ∈ cs, c.replacing = true → ¬ c.Repeats cs) :
    duplicates [] cs = (cs.filter (·.Repeats cs)).map duplicate :=
  duplicates_behind [] hslots hreplacing (by simp)

namespace Registry

/-- The slot of a live step is the first of its name or comes after it, and for a replacement it
    is the first. -/
theorem firstSlot_le_slot {entries : List (Step α)} {c : Candidate α} (h : c ∈ live entries) :
    ∃ k, firstSlot? entries c.name = some k ∧ k ≤ c.slot ∧ (c.replacing = true → c.slot = k) := by
  rw [live_eq_indexed] at h
  obtain ⟨⟨i, c⟩, hmem, rfl⟩ := List.mem_map.mp h
  obtain ⟨s, he, hc⟩ := mem_indexed.mp hmem
  rw [(candidate?_same hc).1]
  obtain ⟨hrem, ⟨-, hadded, hown⟩ | ⟨-, -, hk⟩⟩ := candidate?_slot he hc
  · obtain ⟨k, hk, hle⟩ := firstSlot?_le he hrem
    exact ⟨k, hk, hown ▸ hle, fun h => by rw [hadded] at h; cases h⟩
  · exact ⟨_, hk, Nat.le_refl _, fun _ => rfl⟩

theorem not_repeats_of_replacing {config : Config} {entries : List (Step α)} {c : Candidate α}
    (hc : c ∈ candidates config entries) (h : c.replacing = true) : ¬ c.Repeats (candidates config entries) := by
  rintro ⟨d, hd, hname, hlt⟩
  obtain ⟨k, hk, -, hslot⟩ := firstSlot_le_slot (List.mem_of_mem_filter hc)
  obtain ⟨k', hk', hle, -⟩ := firstSlot_le_slot (List.mem_of_mem_filter hd)
  rw [hname, hk] at hk'
  cases hk'
  have := hslot h
  omega

end Registry

/-- A stage with a pipeline reports, slot by slot, the steps whose name an earlier slot has. No
    replacement is among them. -/
structure Stage.Reports (st : Stage α) (c : Compiled α) (slotted : List (Candidate α)) : Prop where
  compiled : st.compiled = some c
  steps : slotted.Perm c.steps
  slots : slotted.Pairwise (·.slot < ·.slot)
  duplicates : st.duplicates = (slotted.filter (·.Repeats c.steps)).map duplicate
  replacements : ∀ x ∈ c.steps, x.replacing = true → ¬ x.Repeats c.steps

theorem Stage.reports_of_called {config : Config} {kind : StageKind} {calls : List (Step α)} {c : Compiled α}
    (h : (called config kind calls).compiled = some c) :
    (called config kind calls).Reports c (bySlot (Registry.candidates config calls)) := by
  obtain ⟨hp, -, hdup, -⟩ := compile_ok (compile_of_called h)
  have hslotted := bySlot_perm (Registry.candidates config calls)
  have hslots := bySlot_strict (Registry.candidates_slots config calls)
  refine ⟨h, hslotted.trans hp.symm, hslots, ?_, fun x hx hr => ?_⟩
  · have heq := duplicates_eq hslots fun x hx hr =>
      mt (Repeats.perm hslotted).mp (Registry.not_repeats_of_replacing (mem_bySlot.mp hx) hr)
    rw [Stage.duplicates, h]
    show c.duplicates = _
    rw [hdup, heq]
    exact congrArg _ (List.filter_congr fun x _ => decide_eq_decide.mpr (Repeats.perm (hslotted.trans hp.symm)))
  · exact mt (Repeats.perm hp).mp (Registry.not_repeats_of_replacing (hp.mem_iff.mp hx) hr)

/-! ## What is warned about -/

namespace StageKind

/-- The notice that warns of a duplicate. -/
def warning (kind : StageKind) (d : Duplicate) : Severity × String :=
  (.warn, kind.name ++ " callbacks: " ++ d.message)

/-- Whether a notice is a warning about the stage: those that announce a removal do not begin so. -/
def warns (kind : StageKind) (n : Severity × String) : Bool :=
  n.1 = .warn && (kind.name ++ " callbacks: ").toList.isPrefixOf n.2.toList

theorem warns_warning (kind : StageKind) (d : Duplicate) : kind.warns (kind.warning d) = true := by
  unfold warns warning
  rw [Bool.and_eq_true, List.isPrefixOf_iff_prefix]
  exact ⟨decide_eq_true rfl, d.message.toList, String.toList_append.symm⟩

theorem warns_announcement (kind : StageKind) (s : Step α) : (Stage.announcement s).filter kind.warns = [] := by
  unfold Stage.announcement
  cases s.role with
  | adds action => rfl
  | replaces action => rfl
  | removes => cases kind <;> simp [warns, name]

theorem warns_error (kind : StageKind) (text : String) : kind.warns (.error, text) = false := rfl

end StageKind

namespace Stage

/-- Warning about what was not warned about yet leaves nothing out and says nothing twice. -/
theorem unwarned_spec {warned : List Duplicate} (h : warned.Nodup) (ds : List Duplicate) :
    (warned ++ unwarned warned ds).Nodup ∧ ∀ d, d ∈ warned ++ unwarned warned ds ↔ d ∈ warned ∨ d ∈ ds := by
  induction ds generalizing warned with
  | nil => simpa [unwarned] using h
  | cons d ds ih =>
    rw [unwarned]
    split
    · next hd =>
      obtain ⟨hnodup, hmem⟩ := ih h
      refine ⟨hnodup, fun x => ?_⟩
      rw [hmem, List.mem_cons]
      constructor
      · exact Or.imp_right Or.inr
      · rintro (hx | rfl | hx)
        · exact Or.inl hx
        · exact Or.inl hd
        · exact Or.inr hx
    · next hd =>
      have hnodup : (warned ++ [d]).Nodup := by
        rw [← List.concat_eq_append, List.nodup_concat]
        exact ⟨hd, h⟩
      obtain ⟨hnodup', hmem⟩ := ih hnodup
      rw [List.append_cons]
      refine ⟨hnodup', fun x => ?_⟩
      rw [hmem]
      simp [or_assoc]

/-- What each of the calls led to, in order. -/
def registrations (config : Config) (st : Stage α) : List (Step α) → List (Registration α)
  | [] => []
  | s :: rest => st.register config s :: registrations config (st.register config s).stage rest

theorem registrations_snoc (config : Config) (st : Stage α) (calls : List (Step α)) (s : Step α) :
    st.registrations config (calls ++ [s]) =
      st.registrations config calls ++
        [(calls.foldl (fun st s => (st.register config s).stage) st).register config s] := by
  induction calls generalizing st with
  | nil => rfl
  | cons x calls ih => rw [List.cons_append, registrations, ih]; rfl

theorem register_notices_ok {config : Config} {st : Stage α} {s : Step α} {c : Compiled α}
    (h : compile (Registry.candidates config (st.entries ++ [s])) = .ok c) :
    let fresh := unwarned st.warned c.duplicates
    (st.register config s).stage.warned = st.warned ++ fresh ∧
      (st.register config s).notices = announcement s ++ fresh.map st.kind.warning := by
  refine ⟨by simp only [register, h], ?_⟩
  simp only [register, h]
  rfl

theorem register_notices_error {config : Config} {st : Stage α} {s : Step α} {conflict : Conflict}
    (h : compile (Registry.candidates config (st.entries ++ [s])) = .error conflict) :
    (st.register config s).stage.warned = st.warned ∧
      (st.register config s).notices =
        announcement s ++ [(.error, st.kind.name ++ " callbacks: " ++ conflict.message)] := by
  constructor <;> simp only [register, h]

/-- One call: the warnings it gives are new, and the memory of them takes up what is reported. -/
theorem register_warned (config : Config) {st : Stage α} (h : st.warned.Nodup) (s : Step α) :
    let done := st.register config s
    done.stage.warned.Nodup ∧
      (∀ d, d ∈ done.stage.warned ↔ d ∈ st.warned ∨ done.result = .ok () ∧ d ∈ done.stage.duplicates) ∧
      st.warned.map st.kind.warning ++ done.notices.filter st.kind.warns = done.stage.warned.map st.kind.warning := by
  intro done
  cases hc : compile (Registry.candidates config (st.entries ++ [s])) with
  | error conflict =>
    obtain ⟨hwarned, hnotices⟩ := register_notices_error hc
    have hfailed : done.result ≠ .ok () := by simp [done, (register_error hc).1]
    rw [hwarned, hnotices, List.filter_append, StageKind.warns_announcement]
    exact ⟨h, fun d => by simp [hfailed], by simp [StageKind.warns_error]⟩
  | ok c =>
    obtain ⟨hwarned, hnotices⟩ := register_notices_ok hc
    obtain ⟨hresult, hcompiled⟩ := register_ok hc
    have hreported : done.stage.duplicates = c.duplicates := by rw [duplicates, hcompiled]; rfl
    obtain ⟨hnodup, hmem⟩ := unwarned_spec h c.duplicates
    have hkept : ((unwarned st.warned c.duplicates).map st.kind.warning).filter st.kind.warns =
        (unwarned st.warned c.duplicates).map st.kind.warning :=
      List.filter_eq_self.mpr (List.forall_mem_map.mpr fun d _ => st.kind.warns_warning d)
    rw [hwarned, hnotices, List.filter_append, StageKind.warns_announcement, hkept, hreported]
    refine ⟨hnodup, fun d => ?_, by simp⟩
    rw [hmem d]
    simp [done, hresult]

/-- A run of calls: what is remembered is what was warned about, and all that was ever reported. -/
theorem called_warned (config : Config) (kind : StageKind) (calls : List (Step α)) :
    let run := (new config kind).registrations config calls
    let warned := (called config kind calls).warned
    warned.Nodup ∧ (∀ d, d ∈ warned ↔ ∃ done ∈ run, done.result = .ok () ∧ d ∈ done.stage.duplicates) ∧
      (run.flatMap (·.notices)).filter kind.warns = warned.map kind.warning := by
  induction calls using List.reverseRecOn with
  | nil => exact ⟨.nil, fun d => by simp [called, new, registrations], rfl⟩
  | append_singleton calls s ih =>
    intro run warned
    obtain ⟨hnodup, hmem, hnotices⟩ := ih
    obtain ⟨hnodup', hmem', hnotices'⟩ := register_warned config hnodup s
    have hrun : run = (new config kind).registrations config calls ++ [(called config kind calls).register config s] :=
      registrations_snoc config (new config kind) calls s
    have hwarned : warned = ((called config kind calls).register config s).stage.warned := by
      rw [← called_snoc]
    rw [called_kind] at hnotices'
    refine ⟨hwarned ▸ hnodup', fun d => ?_, ?_⟩
    · rw [hwarned, hmem' d, hmem d, hrun]
      simp [or_and_right, exists_or]
    · rw [hrun, hwarned, List.flatMap_append, List.filter_append, hnotices, ← hnotices']
      simp

/-- Each call of a run is made on the stage that the calls before it left. -/
theorem called_of_mem_registrations {config : Config} {kind : StageKind} {calls : List (Step α)}
    {done : Registration α} (h : done ∈ (new config kind).registrations config calls) :
    ∃ before s, done = (called config kind before).register config s := by
  induction calls using List.reverseRecOn with
  | nil => cases h
  | append_singleton calls s ih =>
    rw [registrations_snoc] at h
    rcases List.mem_append.mp h with h | h
    · exact ih h
    · exact ⟨calls, s, List.mem_singleton.mp h⟩

theorem reports_of_ok {config : Config} {kind : StageKind} {before : List (Step α)} {s : Step α}
    (h : ((called config kind before).register config s).result = .ok ()) :
    ∃ c slotted, ((called config kind before).register config s).stage.Reports c slotted := by
  cases hc : compile (Registry.candidates config ((called config kind before).entries ++ [s])) with
  | error conflict =>
    rw [(register_error hc).1] at h
    cases h
  | ok c =>
    have hcompiled := (register_ok hc).2
    rw [← called_snoc] at hcompiled ⊢
    exact ⟨c, _, reports_of_called hcompiled⟩

/-- After each call that succeeded, whatever else was called before, the stage reports the steps
    whose name an earlier slot has. And over the whole run the warnings about the stage are one
    for each name and site that was ever reported. -/
theorem duplicates_exact_warned_once (config : Config) (kind : StageKind) (calls : List (Step α)) :
    let run := (new config kind).registrations config calls
    (∀ done ∈ run, done.result = .ok () → ∃ c slotted, done.stage.Reports c slotted) ∧
      ∃ warned : List Duplicate, warned.Nodup ∧
        (∀ d, d ∈ warned ↔ ∃ done ∈ run, done.result = .ok () ∧ d ∈ done.stage.duplicates) ∧
        (run.flatMap (·.notices)).filter kind.warns = warned.map kind.warning := by
  intro run
  refine ⟨fun done hdone hok => ?_, _, called_warned config kind calls⟩
  obtain ⟨before, s, rfl⟩ := called_of_mem_registrations hdone
  exact reports_of_ok hok

end Stage

end SqlPipeline
