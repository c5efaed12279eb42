/-
  SqlPipeline.Proofs.Registry.Newcomer — one more step, under a name of its own.

  Nothing names the new step and it comes last, so nothing waits for it but what it names
  itself. If it names one side at most, it can stand in nobody's way: it only has to be let
  in where its own constraint wants it. So it is refused for reasons of its own alone
  (`RuledOut`), and otherwise the others run as they did.

  - `compile_newcomer`: one more candidate leaves the order of the others as it was.
  - `candidates_newcomer`: what the registry makes of an entry under a new name.
  - `register_newcomer`: the two together, for a stage after any calls.
-/

import SqlPipeline.Proofs.Placement.Displaced
import SqlPipeline.Proofs.Placement.Inserted
import SqlPipeline.Proofs.Registry.Calls
import SqlPipeline.Proofs.Registry.Ledger

namespace SqlPipeline

open Placement

variable {α : Type}

/-- Why a candidate can have no place among others, whatever those want. -/
inductive RuledOut (cs : List (Candidate α)) (v : Candidate α) : Prop
  | torn : v.before = some .all → v.after = some .all → RuledOut cs v
  | itself : v.before = some (.step v.name) ∨ v.after = some (.step v.name) → RuledOut cs v
  /-- It is to run before one of an earlier group. -/
  | before {c : Candidate α} : c ∈ cs → v.before = some (.step c.name) → c.group.rank < v.group.rank → RuledOut cs v
  /-- It is to run after one of a later group. -/
  | after {c : Candidate α} : c ∈ cs → v.after = some (.step c.name) → v.group.rank < c.group.rank → RuledOut cs v

/-- A candidate that comes last, that no other names, and that names one side at most. -/
structure Newcomer (cs : List (Candidate α)) (v : Candidate α) : Prop where
  last : ∀ c ∈ cs, c.slot ≤ v.slot
  unnamed : ∀ c ∈ cs, c.before ≠ some (.step v.name) ∧ c.after ≠ some (.step v.name)
  oneSide : ∀ t u, v.before = some (.step t) → v.after ≠ some (.step u)

/-! ## Among candidates -/

section

variable {cs : List (Candidate α)} {v : Candidate α}

theorem Newcomer.after_of_precedes (h : Newcomer cs v) {c : Candidate α} (hc : c ∈ cs) (hp : c.Precedes v) :
    v.after = some (.step c.name) := hp.resolve_left (h.unnamed c hc).1

theorem Newcomer.before_of_precedes (h : Newcomer cs v) {c : Candidate α} (hc : c ∈ cs) (hp : v.Precedes c) :
    v.before = some (.step c.name) := hp.resolve_right (h.unnamed c hc).2

/-- All that a newcomer follows has its turn no later. -/
theorem Newcomer.follows (h : Newcomer cs v) (hr : ¬ RuledOut cs v) {c : Candidate α} (hc : c ∈ cs)
    (hp : c.Precedes v) : c.group.rank ≤ v.group.rank ∧ c.turn ≤ v.turn := by
  have hrank : c.group.rank ≤ v.group.rank := by
    by_contra hlt
    exact hr (.after hc (h.after_of_precedes hc hp) (by omega))
  refine ⟨hrank, ?_⟩
  rw [Candidate.turn_le_iff]
  rcases Nat.lt_or_eq_of_le hrank with hlt | heq
  · exact Or.inl hlt
  · exact Or.inr ⟨heq, h.last c hc⟩

theorem Newcomer.leads (h : Newcomer cs v) (hr : ¬ RuledOut cs v) {c : Candidate α} (hc : c ∈ cs)
    (hp : v.Precedes c) : v.group.rank ≤ c.group.rank := by
  by_contra hlt
  exact hr (.before hc (h.before_of_precedes hc hp) (by omega))

/-- It neither leads nor follows itself, so what it leads or follows is one of the others. -/
theorem other_of_precedes (hr : ¬ RuledOut cs v) {a b : List (Candidate α)} {p : Fin (a ++ v :: b).length}
    (hp : ((a ++ v :: b).get p).Precedes v ∨ v.Precedes ((a ++ v :: b).get p)) :
    ∃ i, shifted a b v i = p ∧ (a ++ v :: b).get p = (a ++ b).get i := by
  have hne : p ≠ between a b v := by
    rintro rfl
    rw [get_between, or_self] at hp
    exact hr (.itself hp)
  obtain ⟨i, rfl⟩ := ((widens_insert a b v).others p).mp hne
  exact ⟨i, rfl, (widens_insert a b v).get i⟩

/-- Between the candidates whose turn it lets pass and those whose turn is later, a newcomer
    that is not ruled out is in nobody's way. -/
theorem Newcomer.loose (h : Newcomer cs v) (hr : ¬ RuledOut cs v) {a b : List (Candidate α)}
    (hmem : ∀ c ∈ a ++ b, c ∈ cs) (hb : ∀ c ∈ b, v.turn < c.turn) : Loose (a ++ v :: b) (between a b v) := by
  have hin : ∀ i, (a ++ b).get i ∈ cs := fun i => hmem _ (List.getElem_mem i.isLt)
  refine ⟨fun p hl => ?_, fun p hl => ?_, fun p q hp hq => ?_⟩
  · rw [Leads, get_between] at hl
    obtain ⟨i, rfl, hget⟩ := other_of_precedes hr (Or.inl hl)
    rw [hget] at hl
    rw [get_between, hget]
    obtain ⟨hrank, hturn⟩ := h.follows hr (hin i) hl
    exact ⟨shifted_lt_between fun hib => absurd (hb _ hib) (not_lt_of_ge hturn), hrank⟩
  · rw [Leads, get_between] at hl
    obtain ⟨i, -, hget⟩ := other_of_precedes hr (Or.inr hl)
    rw [hget] at hl
    rw [get_between, hget]
    exact h.leads hr (hin i) hl
  · rw [Leads, get_between] at hp hq
    obtain ⟨i, -, hi⟩ := other_of_precedes hr (Or.inl hp)
    obtain ⟨j, -, hj⟩ := other_of_precedes hr (Or.inr hq)
    rw [hi] at hp
    rw [hj] at hq
    exact h.oneSide _ _ (h.before_of_precedes (hin j) hq) (h.after_of_precedes (hin i) hp)

/-! ## Compiling -/

theorem compile_ruledOut (hr : RuledOut cs v) : ∃ e, compile (cs ++ [v]) = .error e := by
  cases hc : compile (cs ++ [v]) with
  | error e => exact ⟨e, rfl⟩
  | ok c =>
    obtain ⟨hp, ho, -, hf⟩ := compile_ok hc
    have hv : v ∈ cs ++ [v] := List.mem_append_right _ (List.mem_singleton_self v)
    obtain ⟨hself, htorn⟩ := (flaw?_eq_none_iff v).mp (hf v hv)
    have hrank : ∀ {x y : Candidate α}, x ∈ cs ++ [v] → y ∈ cs ++ [v] → x.Precedes y → x.group.rank ≤ y.group.rank :=
      fun hx hy hxy => ho.rank_le ⟨hp.mem_iff.mpr hx, hp.mem_iff.mpr hy, hxy⟩
    cases hr with
    | torn hb ha => exact absurd ⟨hb, ha⟩ htorn
    | itself hs => exact absurd hs hself
    | before hc hb hlt => exact absurd hlt (Nat.not_lt.mpr (hrank hv (List.mem_append_left _ hc) (Or.inl hb)))
    | after hc ha hlt => exact absurd hlt (Nat.not_lt.mpr (hrank (List.mem_append_left _ hc) hv (Or.inr ha)))

theorem flaw?_of_not_ruledOut (hr : ¬ RuledOut cs v) : v.flaw? = none :=
  (flaw?_eq_none_iff v).mpr ⟨fun hs => hr (.itself hs), fun ht => hr (.torn ht.1 ht.2)⟩

/-- A newcomer that is not ruled out is let in somewhere, and the others run as they did. -/
theorem compile_newcomer (h : Newcomer cs v) (hr : ¬ RuledOut cs v) {old : Compiled α} (hold : compile cs = .ok old) :
    ∃ new earlier later, compile (cs ++ [v]) = .ok new ∧ old.steps = earlier ++ later ∧
      new.steps = earlier ++ v :: later := by
  obtain ⟨a, b, hab, havb, -, hb⟩ := mergeSort_snoc Candidate.turn cs v
  have hcs : byGroup (bySlot cs) = a ++ b := (laidOut_eq cs).symm.trans hab
  have hds : byGroup (bySlot (cs ++ [v])) = a ++ v :: b := (laidOut_eq _).symm.trans havb
  have hmem : ∀ c ∈ a ++ b, c ∈ cs := fun c hc => (grouped_perm cs).mem_iff.mp (hcs ▸ hc)
  have hsorted := byGroup_sorted (bySlot (cs ++ [v]))
  rw [hds] at hsorted
  have horder := compile_order hold
  rw [hcs] at horder
  obtain ⟨positions, horder, -, hsteps⟩ := horder
  obtain ⟨positions', earlier, later, horder', hearlier, hlater⟩ :=
    order_insert hsorted (h.loose hr hmem hb) horder
  have hflawless : ∀ x ∈ cs ++ [v], x.flaw? = none := by
    intro x hx
    rcases List.mem_append.mp hx with hx | hx
    · exact (compile_ok hold).2.2.2 x hx
    · rw [List.mem_singleton.mp hx]
      exact flaw?_of_not_ruledOut hr
  have hnew := compile_flawless hflawless
  rw [hds, horder'] at hnew
  exact ⟨_, earlier, later, hnew, hsteps.trans hearlier, hlater⟩

end

/-! ## In a registry -/

/-- What an entry that is no removal becomes under a name of its own. -/
def Step.candidate (s : Step α) (index : Nat) (action : α) : Candidate α :=
  { s with slot := index, action, replacing := s.isReplacement }

namespace Registry

variable {entries : List (Step α)} {s : Step α} {action : α}

/-- A new name inherits nothing, neither a removal nor constraints nor a slot. -/
theorem arrival?_newcomer (hrole : s.role = .adds action ∨ s.role = .replaces action)
    (hname : ∀ e ∈ entries, e.name ≠ s.name) :
    arrival? entries s = some (s.candidate entries.length action) := by
  unfold arrival? Step.candidate
  rcases hrole with hr | hr
  · have hsuppressed : isSuppressed entries s.name = false :=
      isSuppressed_iff.mpr fun _ e he hn => absurd hn (hname e (List.mem_of_getElem? he))
    simp [hr, hsuppressed, Step.isReplacement_of_adds hr]
  · have hslot : firstSlot? entries s.name = none := by
      unfold firstSlot?
      rw [List.findIdx?_eq_none_iff]
      intro e he
      simp [hname e he]
    have hdeclared : declared entries s.name = (none, none) := by
      unfold declared
      rw [List.filter_eq_nil_iff.mpr fun e he => by simp [hname e he]]
      rfl
    have heffect : (if s.hasConstraints then (s.before, s.after) else declared entries s.name) =
        (s.before, s.after) := by
      cases hc : s.hasConstraints with
      | true => rfl
      | false =>
        obtain ⟨hb, ha⟩ : s.before = none ∧ s.after = none := by simpa [Step.hasConstraints] using hc
        rw [hdeclared, hb, ha]
        rfl
    simp only [hr, heffect, hslot, Step.isReplacement_of_replaces hr]
    rfl

theorem mem_indexed_name {i : Nat} {c : Candidate α} (h : (i, c) ∈ indexed entries) :
    ∃ e ∈ entries, e.name = c.name := by
  obtain ⟨e, he, hc⟩ := mem_indexed.mp h
  exact ⟨e, List.mem_of_getElem? he, (candidate?_same hc).1.symm⟩

theorem candidates_newcomer {config : Config} (hrole : s.role = .adds action ∨ s.role = .replaces action)
    (hcond : s.condition.all (· config) = true) (hname : ∀ e ∈ entries, e.name ≠ s.name) :
    candidates config (entries ++ [s]) = candidates config entries ++ [s.candidate entries.length action] := by
  have hkept : ((indexed entries).filter fun e => !s.clears e.2.name) = indexed entries := by
    rw [List.filter_eq_self]
    rintro ⟨i, c⟩ hc
    obtain ⟨e, he, hn⟩ := mem_indexed_name hc
    have hne : s.name ≠ c.name := fun h => hname e he (hn.trans h.symm)
    simp [clears_eq_false hne]
  rw [candidates_eq, candidates_eq, indexed_snoc, hkept, arrival?_newcomer hrole hname, List.filter_append,
    List.map_append]
  congr 1
  simp [Step.candidate, hcond]

theorem slot_lt {config : Config} {c : Candidate α} (h : c ∈ candidates config entries) :
    c.slot < entries.length := by
  rw [candidates_eq] at h
  obtain ⟨⟨i, c⟩, hc, rfl⟩ := List.mem_map.mp h
  obtain ⟨e, he, hec⟩ := mem_indexed.mp (List.mem_filter.mp hc).1
  have hi : i < entries.length := (List.getElem?_eq_some_iff.mp he).1
  exact Nat.lt_of_le_of_lt (slot_of_candidate? he hec).1 hi

end Registry

/-! ## In a stage -/

namespace Stage

open Registry

/-- A stage that is not stale, and a step under a new name that none of its candidates names,
    and that names one side at most: the step is refused exactly when it is ruled out, and
    otherwise runs somewhere among the others, which run as they did. -/
theorem register_newcomer {config : Config} {kind : StageKind} {calls : List (Step α)} {s : Step α} {action : α}
    {old : Compiled α} (hold : (called config kind calls).compiled = some old)
    (hrole : s.role = .adds action ∨ s.role = .replaces action) (hcond : s.condition.all (· config) = true)
    (hname : ∀ e ∈ calls, e.name ≠ s.name)
    (hunnamed : ∀ c ∈ candidates config calls, c.before ≠ some (.step s.name) ∧ c.after ≠ some (.step s.name))
    (honeSide : ∀ t u, s.before = some (.step t) → s.after ≠ some (.step u)) :
    let done := (called config kind calls).register config s
    let v := s.candidate calls.length action
    ((∃ conflict, done.result = .error conflict) ↔ RuledOut (candidates config calls) v) ∧
      (¬ RuledOut (candidates config calls) v → done.result = .ok () ∧
        ∃ new earlier later, done.stage.compiled = some new ∧ old.steps = earlier ++ later ∧
          new.steps = earlier ++ v :: later) := by
  intro done v
  have hentries : candidates config ((called config kind calls).entries ++ [s]) = candidates config calls ++ [v] := by
    rw [called_entries]
    exact candidates_newcomer hrole hcond hname
  have hnew : Newcomer (candidates config calls) v := ⟨fun c hc => Nat.le_of_lt (slot_lt hc), hunnamed, honeSide⟩
  have hok : compile (candidates config calls) = .ok old := by
    rw [called_compiled] at hold
    cases hc : compile (candidates config calls) with
    | error e => rw [hc] at hold; cases hold
    | ok c => rw [hc] at hold; cases hold; rfl
  have hlet : ¬ RuledOut (candidates config calls) v → done.result = .ok () ∧
      ∃ new earlier later, done.stage.compiled = some new ∧ old.steps = earlier ++ later ∧
        new.steps = earlier ++ v :: later := by
    intro hr
    obtain ⟨new, earlier, later, hc, hearlier, hlater⟩ := compile_newcomer hnew hr hok
    rw [← hentries] at hc
    obtain ⟨hresult, hcompiled⟩ := register_ok hc
    exact ⟨hresult, new, earlier, later, hcompiled, hearlier, hlater⟩
  refine ⟨⟨fun ⟨conflict, he⟩ => ?_, fun hr => ?_⟩, hlet⟩
  · by_contra hr
    rw [(hlet hr).1] at he
    cases he
  · obtain ⟨conflict, hc⟩ := compile_ruledOut hr
    rw [← hentries] at hc
    exact ⟨conflict, (register_error hc).1⟩

/-- The stamp wants to run before the audit, which waits for the beginning: it is let in
    between the two, in the middle of what was placed for the audit. -/
theorem stamp_let_in :
    let step (name : String) (before after : Option Anchor) : Step Unit :=
      { name, before, after, role := .adds (), site := ⟨"setup"⟩ }
    let calls := [step "audit" none (some (.step "begin")), step "check" none none, step "begin" none none]
    let stamp := step "stamp" (some (.step "audit")) none
    let v := stamp.candidate 3 ()
    let done := (called {} .create calls).register {} stamp
    (called {} .create calls).order? = some ["begin", "audit", "check"] ∧
      done.stage.order? = some ["begin", "stamp", "audit", "check"] ∧
      ∃ old, (called {} .create calls).compiled = some old ∧
        ((∃ conflict, done.result = .error conflict) ↔ RuledOut (candidates {} calls) v) ∧
        (¬ RuledOut (candidates {} calls) v → done.result = .ok () ∧
          ∃ new earlier later, done.stage.compiled = some new ∧ old.steps = earlier ++ later ∧
            new.steps = earlier ++ v :: later) := by
  intro step calls stamp v done
  have hbefore : (called {} .create calls).order? = some ["begin", "audit", "check"] := by cbv
  have hcandidates : candidates {} calls =
      [(calls[0]).candidate 0 (), (calls[1]).candidate 1 (), (calls[2]).candidate 2 ()] := by cbv
  have hafter : ((called {} .create calls).register {} stamp).stage.order? =
      some ["begin", "stamp", "audit", "check"] := by cbv
  refine ⟨hbefore, hafter, ?_⟩
  obtain ⟨old, hold, -⟩ := Option.map_eq_some_iff.mp hbefore
  refine ⟨old, hold, register_newcomer hold (Or.inl rfl) rfl (by decide) ?_ (by simp [stamp, step])⟩
  rw [hcandidates]
  simp [calls, stamp, step, Step.candidate]

end Stage

end SqlPipeline
