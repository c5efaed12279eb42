/-
  SqlPipeline.Proofs.Registry.Replaced — a replacement takes the place of what it replaces.

  The new entry stands at the end of the registry. Where it supersedes a single live step, and
  declares nothing itself, it has that step's slot and constraints, however the step came by
  them: so the candidates are those there were, with another action in one of them.

  - `arrival?_replaced`: what the entry becomes.
  - `compile_replaced`: what the candidates compile to with it, or which conflict they have.
  - `replace_keeps_place`: the two together, for a stage after any calls.
-/

import SqlPipeline.Proofs.Placement.Alike
import SqlPipeline.Proofs.Registry.Calls
import SqlPipeline.Proofs.Registry.Ledger

namespace SqlPipeline

open Placement

variable {α : Type}

namespace Candidate

/-- Another action in the place of a candidate. -/
def renewed (c : Candidate α) (action : α) (site : Site) : Candidate α := { c with action, replacing := true, site }

/-- Renews the candidates of a name. -/
def renew (name : String) (action : α) (site : Site) (c : Candidate α) : Candidate α :=
  if c.name = name then c.renewed action site else c

section

variable (name : String) (action : α) (site : Site) (c : Candidate α)

theorem renew_demand : (c.renew name action site).demand = c.demand := by
  unfold renew
  split <;> rfl

theorem renew_slot : (c.renew name action site).slot = c.slot := by
  unfold renew
  split <;> rfl

theorem renew_condition : (c.renew name action site).condition = c.condition := by
  unfold renew
  split <;> rfl

end

variable {name : String}

theorem renew_self {c : Candidate α} (h : c.name = name) (action : α) (site : Site) :
    c.renew name action site = c.renewed action site := if_pos h

theorem renew_others {cs : List (Candidate α)} (h : ∀ c ∈ cs, c.name ≠ name) (action : α) (site : Site) :
    cs.map (renew name action site) = cs :=
  (List.map_congr_left fun c hc => if_neg (h c hc)).trans (List.map_id' cs)

end Candidate

open Candidate

/-! ## One of a name -/

/-- A single candidate of a name, and what stands around it. -/
theorem split_at_sole {cs : List (Candidate α)} {name : String} {c : Candidate α}
    (h : cs.filter (·.name == name) = [c]) :
    c.name = name ∧ ∃ earlier later, cs = earlier ++ c :: later ∧ ∀ x ∈ earlier ++ later, x.name ≠ name := by
  obtain ⟨earlier, later, hcs, hearlier, hc, hlater⟩ := List.filter_eq_cons_iff.mp h
  refine ⟨by simpa using hc, earlier, later, hcs, fun x hx => ?_⟩
  rcases List.mem_append.mp hx with hx | hx
  · simpa using hearlier x hx
  · simpa using List.filter_eq_nil_iff.mp hlater x hx

theorem duplicates_swap {c d : Candidate α} (h : d.name = c.name) {earlier : List (Candidate α)}
    (hearlier : ∀ x ∈ earlier, x.name ≠ c.name) (later : List (Candidate α)) {seen : List String}
    (hseen : c.name ∉ seen) :
    duplicates seen (earlier ++ d :: later) = duplicates seen (earlier ++ c :: later) := by
  induction earlier generalizing seen with
  | nil =>
    rw [List.nil_append, List.nil_append, duplicates, duplicates, h]
    simp [hseen]
  | cons x earlier ih =>
    obtain ⟨hx, hearlier⟩ := List.forall_mem_cons.mp hearlier
    have hseen' : c.name ∉ x.name :: seen := List.not_mem_cons_of_ne_of_not_mem hx.symm hseen
    rw [List.cons_append, List.cons_append, duplicates, duplicates, ih hearlier hseen']

/-- The single one of a name is nobody's duplicate, whether it replaces or not. -/
theorem duplicates_renew {name : String} (action : α) (site : Site) {cs : List (Candidate α)} {c : Candidate α}
    (h : cs.filter (·.name == name) = [c]) :
    duplicates [] (cs.map (renew name action site)) = duplicates [] cs := by
  obtain ⟨rfl, earlier, later, rfl, hothers⟩ := split_at_sole h
  obtain ⟨hearlier, hlater⟩ := List.forall_mem_append.mp hothers
  rw [List.map_append, List.map_cons, renew_others hearlier, renew_others hlater, renew_self rfl]
  exact duplicates_swap (c := c) (d := c.renewed action site) rfl hearlier later List.not_mem_nil

/-! ## The candidates with the replacement -/

namespace Registry

variable {entries : List (Step α)} {s : Step α} {action : α} {c : Candidate α}

theorem arrival?_replaced (hsole : (live entries).filter (·.name == s.name) = [c]) (hcond : c.condition = none)
    (hrole : s.role = .replaces action) (hbefore : s.before = none) (hafter : s.after = none)
    (hplain : s.condition = none) : arrival? entries s = some (c.renewed action s.site) := by
  have hname : c.name = s.name := (split_at_sole hsole).1
  have hagree := ledgers_agree entries s.name
  obtain ⟨i, hlive⟩ : ∃ i, (ledgers entries s.name).live = [(i, c)] := by
    rw [live_eq_indexed, List.filter_map] at hsole
    obtain ⟨⟨i, c'⟩, he, rfl⟩ := List.map_eq_singleton_iff.mp hsole
    exact ⟨i, hagree.live.trans he⟩
  obtain ⟨hlatest, hslot⟩ := (sound_ledgers entries s.name).sole i c hlive
  rw [hagree.latest] at hlatest
  rw [hagree.firstSlot] at hslot
  have hfree : s.hasConstraints = false := by simp [Step.hasConstraints, hbefore, hafter]
  unfold arrival? renewed
  simp [hrole, hfree, hlatest, hslot, hname, hcond, hplain]

theorem candidates_replaced {config : Config} (hsole : (live entries).filter (·.name == s.name) = [c])
    (hcond : c.condition = none) (hrole : s.role = .replaces action) (hbefore : s.before = none)
    (hafter : s.after = none) (hplain : s.condition = none) :
    (candidates config (entries ++ [s])).Perm ((candidates config entries).map (renew s.name action s.site)) := by
  obtain ⟨hname, earlier, later, hlive, hothers⟩ := split_at_sole hsole
  obtain ⟨hearlier, hlater⟩ := List.forall_mem_append.mp hothers
  have hclears : ∀ x : Candidate α, s.clears x.name = (x.name == s.name) := by
    intro x
    simp [Step.clears, Step.isReplacement_of_replaces hrole, eq_comm]
  have hown : s.clears c.name = true := by rw [hclears, hname, beq_self_eq_true]
  have hnew : live (entries ++ [s]) = (earlier ++ later) ++ [c.renewed action s.site] := by
    have hkept : (live entries).filter (fun x => !s.clears x.name) = earlier ++ later := by
      rw [hlive, List.filter_append, List.filter_cons_of_neg (by simp [hown]), ← List.filter_append,
        List.filter_eq_self]
      intro x hx
      simp [hclears, hothers x hx]
    rw [live_snoc, hkept, arrival?_replaced hsole hcond hrole hbefore hafter hplain]
    rfl
  have hold : (live entries).map (renew s.name action s.site) = earlier ++ c.renewed action s.site :: later := by
    rw [hlive, List.map_append, List.map_cons, renew_others hearlier, renew_others hlater, renew_self hname]
  have hperm : (live (entries ++ [s])).Perm ((live entries).map (renew s.name action s.site)) := by
    rw [hnew, hold]
    exact (List.perm_append_singleton _ _).trans List.perm_middle.symm
  have hfilter : ((live entries).map (renew s.name action s.site)).filter (fun x => x.condition.all (· config)) =
      (candidates config entries).map (renew s.name action s.site) := by
    rw [List.filter_map]
    exact congrArg _ (List.filter_congr fun x _ => by simp [renew_condition])
  rw [← hfilter]
  exact hperm.filter _

theorem candidates_sole (config : Config) {name : String} (hsole : (live entries).filter (·.name == name) = [c])
    (hcond : c.condition = none) : (candidates config entries).filter (·.name == name) = [c] := by
  unfold candidates
  rw [List.filter_comm, hsole]
  simp [hcond]

/-- The same pipeline with another action in it, or the same conflict. -/
theorem compile_replaced (config : Config) (hsole : (live entries).filter (·.name == s.name) = [c])
    (hcond : c.condition = none) (hrole : s.role = .replaces action) (hbefore : s.before = none)
    (hafter : s.after = none) (hplain : s.condition = none) :
    compile (candidates config (entries ++ [s])) = (compile (candidates config entries)).map fun old =>
      { old with steps := old.steps.map (renew s.name action s.site) } := by
  rw [compile_perm (candidates_replaced hsole hcond hrole hbefore hafter hplain) (candidates_slots config _),
    compile_map (renew_demand s.name action s.site) (renew_slot s.name action s.site)]
  cases hold : compile (candidates config entries) with
  | error conflict => rfl
  | ok old =>
    have hslotted : (bySlot (candidates config entries)).filter (·.name == s.name) = [c] := by
      rw [← List.perm_singleton, ← candidates_sole config hsole hcond]
      exact (bySlot_perm _).filter _
    show Except.ok (Compiled.mk _ _) = .ok (Compiled.mk _ _)
    rw [duplicates_renew action s.site hslotted, (compile_ok hold).2.2.1]

end Registry

/-! ## In a stage -/

namespace Stage

open Registry

/-- One live step of the name, unconditional, and a replacement that declares nothing: the stage
    is as stale as it was, with the same conflict, or runs what it ran, with the new action in
    the place of the old one. -/
theorem replace_keeps_place {config : Config} {kind : StageKind} {calls : List (Step α)} {s : Step α} {action : α}
    {c : Candidate α} (hsole : (live calls).filter (·.name == s.name) = [c]) (hcond : c.condition = none)
    (hrole : s.role = .replaces action) (hbefore : s.before = none) (hafter : s.after = none)
    (hplain : s.condition = none) :
    let st := called config kind calls
    let done := st.register config s
    done.stage.isStale = st.isStale ∧ done.stage.order? = st.order? ∧ done.stage.duplicates = st.duplicates ∧
      (∀ earlier last, calls = earlier ++ [last] →
        done.result = ((called config kind earlier).register config last).result) ∧
      ∀ old, st.compiled = some old → ∃ new earlier later, done.stage.compiled = some new ∧
        old.steps = earlier ++ c :: later ∧ new.steps = earlier ++ c.renewed action s.site :: later ∧
        ∀ x ∈ earlier ++ later, x.name ≠ s.name := by
  intro st done
  have hst : st.compiled = (compile (candidates config calls)).toOption := called_compiled config kind calls
  obtain ⟨hresult, hdone⟩ := register_compile config st s
  rw [called_entries, compile_replaced config hsole hcond hrole hbefore hafter hplain] at hresult hdone
  have hlast : ∀ earlier last, calls = earlier ++ [last] →
      ((called config kind earlier).register config last).result =
        (compile (candidates config calls)).map fun _ => () := by
    rintro earlier last rfl
    rw [(register_compile config _ last).1, called_entries]
  unfold isStale order? duplicates
  cases hold : compile (candidates config calls) with
  | error conflict =>
    rw [hold] at hst hresult hdone
    rw [hst, hdone]
    refine ⟨rfl, rfl, rfl, fun earlier last h => ?_, nofun⟩
    rw [hlast earlier last h, hold]
    exact hresult
  | ok old =>
    rw [hold] at hst hresult hdone
    rw [hst, hdone]
    have hnames : (old.steps.map (renew s.name action s.site)).map (·.name) = old.steps.map (·.name) := by
      rw [List.map_map]
      exact List.map_congr_left fun x _ => congrArg Prod.fst (renew_demand s.name action s.site x)
    refine ⟨rfl, congrArg some hnames, rfl, fun earlier last h => ?_, ?_⟩
    · rw [hlast earlier last h, hold]
      exact hresult
    · rintro _ ⟨rfl⟩
      have hsteps : old.steps.filter (·.name == s.name) = [c] := by
        rw [← List.perm_singleton, ← candidates_sole config hsole hcond]
        exact (compile_ok hold).1.filter _
      obtain ⟨hname, earlier, later, hsplit, hothers⟩ := split_at_sole hsteps
      obtain ⟨hearlier, hlater⟩ := List.forall_mem_append.mp hothers
      refine ⟨_, earlier, later, rfl, hsplit, ?_, hothers⟩
      show old.steps.map (renew s.name action s.site) = _
      rw [hsplit, List.map_append, List.map_cons, renew_others hearlier, renew_others hlater, renew_self hname]

/-- The stamp was taken out and put back before, so it stands where it was first registered and
    before the audit, as it was first told. It is replaced once more. -/
theorem replace_stamp :
    let step (name : String) (before : Option Anchor) (role : Role Nat) : Step Nat :=
      { name, before, role, site := ⟨"setup"⟩ }
    let calls := [step "stamp" (some (.step "audit")) (.adds 1), step "audit" none (.adds 2),
      step "begin" (some .all) (.adds 3), step "stamp" none .removes, step "stamp" none (.replaces 4)]
    let s : Step Nat := { name := "stamp", role := .replaces 5, site := ⟨"patch"⟩ }
    let c : Candidate Nat :=
      { name := "stamp", before := some (.step "audit"), after := none, slot := 0, condition := none, action := 4,
        replacing := true, site := ⟨"setup"⟩ }
    let st := called {} .create calls
    let done := st.register {} s
    (live calls).filter (·.name == s.name) = [c] ∧ st.order? = some ["begin", "stamp", "audit"] ∧
      done.stage.isStale = st.isStale ∧ done.stage.order? = st.order? ∧ done.stage.duplicates = st.duplicates ∧
      (∀ earlier last, calls = earlier ++ [last] →
        done.result = ((called {} .create earlier).register {} last).result) ∧
      ∀ old, st.compiled = some old → ∃ new earlier later, done.stage.compiled = some new ∧
        old.steps = earlier ++ c :: later ∧ new.steps = earlier ++ c.renewed 5 s.site :: later ∧
        ∀ x ∈ earlier ++ later, x.name ≠ s.name := by
  intro step calls s c st done
  have hsole : (live calls).filter (·.name == s.name) = [c] := by cbv
  have horder : (called {} .create calls).order? = some ["begin", "stamp", "audit"] := by cbv
  exact ⟨hsole, horder, replace_keeps_place hsole rfl rfl rfl rfl rfl⟩

end Stage

end SqlPipeline
