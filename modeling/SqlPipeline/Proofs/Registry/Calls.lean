/-
  SqlPipeline.Proofs.Registry.Calls — a stage after any calls to register, replace and remove.

  Every call keeps its entry and compiles anew, so a stage is as its entries and the last
  compilation make it.

  - `arranged_of_compile`: a pipeline that compiled runs the entries in force whose
    condition holds, each once and with its own action, in an order that honours the
    constraints in effect.
  - `call_arranges_or_stales`: after each call the stage has such a pipeline, or it is stale,
    and then an execution runs no step and says so.
-/

import Mathlib.Data.List.Forall2
import Mathlib.Logic.Basic
import SqlPipeline.Proofs.Execution.Idle
import SqlPipeline.Proofs.Placement.Free
import SqlPipeline.Proofs.Registry.Live

namespace SqlPipeline

open Relation

variable {α : Type}

/-- The steps are the entries in force whose condition holds, each once and with its own
    action, and stand where the constraints in effect want them. -/
structure Arranged (config : Config) (entries : List (Step α)) (steps : List (Candidate α)) : Prop where
  live : steps.Perm (Registry.candidates config entries)
  sources : ∃ indices : List Nat, indices.Nodup ∧
    (∀ i, i ∈ indices ↔ ∃ s, Registry.InForce entries i s ∧ s.condition.all (· config) = true) ∧
    List.Forall₂ (Registry.StandsFor entries) indices steps
  first : ∀ i j : Fin steps.length, (steps.get i).before = some .all → (steps.get j).before ≠ some .all → i < j
  last : ∀ i j : Fin steps.length, (steps.get i).after = some .all → (steps.get j).after ≠ some .all → j < i
  before : ∀ (i j : Fin steps.length) t, (steps.get i).before = some (.step t) → (steps.get j).name = t → i < j
  after : ∀ (i j : Fin steps.length) t, (steps.get i).after = some (.step t) → (steps.get j).name = t → j < i

namespace Registry

/-! ## Which entries -/

theorem candidates_eq (config : Config) (entries : List (Step α)) :
    candidates config entries =
      ((indexed entries).filter fun e => e.2.condition.all (· config)).map (·.2) := by
  unfold candidates
  rw [live_eq_indexed, List.filter_map]
  rfl

theorem mem_indexed_condition {config : Config} {entries : List (Step α)} {i : Nat} :
    (∃ c, (i, c) ∈ indexed entries ∧ c.condition.all (· config) = true) ↔
      ∃ s, InForce entries i s ∧ s.condition.all (· config) = true := by
  constructor
  · rintro ⟨c, hc, hcond⟩
    obtain ⟨s, hs, hcs⟩ := mem_indexed.mp hc
    refine ⟨s, inForce_iff.mpr ⟨hs, c, hcs⟩, ?_⟩
    rw [← (candidate?_same hcs).2]
    exact hcond
  · rintro ⟨s, hs, hcond⟩
    obtain ⟨he, c, hcs⟩ := inForce_iff.mp hs
    refine ⟨c, mem_indexed.mpr ⟨s, he, hcs⟩, ?_⟩
    rw [(candidate?_same hcs).2]
    exact hcond

/-- In whatever order the candidates stand, each is an entry of its own. -/
theorem sources_of_perm {config : Config} {entries : List (Step α)} {steps : List (Candidate α)}
    (h : steps.Perm (candidates config entries)) :
    ∃ indices : List Nat, indices.Nodup ∧
      (∀ i, i ∈ indices ↔ ∃ s, InForce entries i s ∧ s.condition.all (· config) = true) ∧
      List.Forall₂ (StandsFor entries) indices steps := by
  rw [candidates_eq] at h
  -- an order of the candidates is one of the pairs, so each takes its index along
  obtain ⟨placed, rfl, hp⟩ : (Comp (fun u v => u = List.map (·.2) v) List.Perm) steps
      ((indexed entries).filter fun e => e.2.condition.all (· config)) := by
    rw [List.eq_map_comp_perm]
    exact h
  have hmem : ∀ i c, (i, c) ∈ placed ↔ (i, c) ∈ indexed entries ∧ c.condition.all (· config) = true := by
    intro i c
    rw [hp.mem_iff, List.mem_filter]
  refine ⟨placed.map (·.1), ?_, fun i => ?_, ?_⟩
  · have hlt : ((indexed entries).filter fun e => e.2.condition.all (· config)).Pairwise (·.1 ≠ ·.1) :=
      ((indexed_pairwise entries).filter _).imp Nat.ne_of_lt
    exact List.pairwise_map.mpr (hp.symm.pairwise hlt Ne.symm)
  · rw [← mem_indexed_condition, List.mem_map]
    constructor
    · rintro ⟨⟨i, c⟩, hc, rfl⟩
      exact ⟨c, (hmem i c).mp hc⟩
    · rintro ⟨c, hc⟩
      exact ⟨(i, c), (hmem i c).mpr hc, rfl⟩
  · rw [List.forall₂_map_left_iff, List.forall₂_map_right_iff, List.forall₂_same]
    rintro ⟨i, c⟩ hc
    obtain ⟨s, hs, hcs⟩ := mem_indexed.mp ((hmem i c).mp hc).1
    exact standsFor_of_candidate? hs hcs

end Registry

/-! ## In which order -/

theorem arranged_of_compile {config : Config} {entries : List (Step α)} {c : Compiled α}
    (h : compile (Registry.candidates config entries) = .ok c) : Arranged config entries c.steps := by
  obtain ⟨hp, ho, -, hf⟩ := compile_ok h
  have untorn : ∀ i : Fin c.steps.length, ¬ (c.steps.get i).Torn := fun i =>
    ((flaw?_eq_none_iff _).mp (hf _ (hp.mem_iff.mp (List.getElem_mem i.isLt)))).2
  refine ⟨hp, Registry.sources_of_perm hp, fun i j hi hj => ?_, fun i j hi hj => ?_, ho.before, ho.after⟩
  · refine ho.groups i j ?_
    rw [group_first hi]
    exact Nat.pos_of_ne_zero fun hr => hj (first_of_rank hr)
  · refine ho.groups j i ?_
    rw [group_last hi (untorn i)]
    exact Nat.lt_of_le_of_ne (rank_le_two _) fun hr => hj (last_of_rank hr)

/-! ## One call and any number -/

namespace Stage

/-- A stage after calls, one after the other. -/
def called (config : Config) (kind : StageKind) (calls : List (Step α)) : Stage α :=
  calls.foldl (fun st s => (st.register config s).stage) (Stage.new config kind)

theorem register_entries (config : Config) (st : Stage α) (s : Step α) :
    (st.register config s).stage.entries = st.entries ++ [s] := by
  unfold register
  dsimp only
  split <;> rfl

theorem register_kind (config : Config) (st : Stage α) (s : Step α) :
    (st.register config s).stage.kind = st.kind := by
  unfold register
  dsimp only
  split <;> rfl

theorem register_clauses (config : Config) (st : Stage α) (s : Step α) :
    (st.register config s).stage.clauses = st.clauses := by
  unfold register
  dsimp only
  split <;> rfl

/-- What a call answers, and what it leaves the stage with, is what the entries compile to. -/
theorem register_compile (config : Config) (st : Stage α) (s : Step α) :
    (st.register config s).result = (compile (Registry.candidates config (st.entries ++ [s]))).map (fun _ => ()) ∧
      (st.register config s).stage.compiled = (compile (Registry.candidates config (st.entries ++ [s]))).toOption := by
  unfold register
  dsimp only
  split <;> next h => rw [h]; exact ⟨rfl, rfl⟩

theorem register_ok {config : Config} {st : Stage α} {s : Step α} {c : Compiled α}
    (h : compile (Registry.candidates config (st.entries ++ [s])) = .ok c) :
    (st.register config s).result = .ok () ∧ (st.register config s).stage.compiled = some c := by
  constructor <;> simp only [register, h]

theorem register_error {config : Config} {st : Stage α} {s : Step α} {conflict : Conflict}
    (h : compile (Registry.candidates config (st.entries ++ [s])) = .error conflict) :
    (st.register config s).result = .error conflict ∧ (st.register config s).stage.compiled = none := by
  constructor <;> simp only [register, h]

theorem called_snoc (config : Config) (kind : StageKind) (calls : List (Step α)) (s : Step α) :
    called config kind (calls ++ [s]) = ((called config kind calls).register config s).stage := by
  simp [called]

theorem called_entries (config : Config) (kind : StageKind) (calls : List (Step α)) :
    (called config kind calls).entries = calls := by
  induction calls using List.reverseRecOn with
  | nil => rfl
  | append_singleton calls s ih => rw [called_snoc, register_entries, ih]

theorem called_kind (config : Config) (kind : StageKind) (calls : List (Step α)) :
    (called config kind calls).kind = kind := by
  induction calls using List.reverseRecOn with
  | nil => rfl
  | append_singleton calls s ih => rw [called_snoc, register_kind, ih]

theorem called_clauses (config : Config) (kind : StageKind) (calls : List (Step α)) :
    (called config kind calls).clauses = kind.clauses config := by
  induction calls using List.reverseRecOn with
  | nil => rfl
  | append_singleton calls s ih => rw [called_snoc, register_clauses, ih]

/-- A stage holds what its entries compile to. -/
theorem called_compiled (config : Config) (kind : StageKind) (calls : List (Step α)) :
    (called config kind calls).compiled = (compile (Registry.candidates config calls)).toOption := by
  induction calls using List.reverseRecOn with
  | nil =>
    have h : compile (Registry.candidates (α := α) config []) = .ok {} :=
      compile_free (by simp [Registry.candidates, Registry.live]) .nil
    rw [h]
    rfl
  | append_singleton calls s ih =>
    rw [called_snoc]
    unfold register
    rw [called_entries]
    dsimp only
    split <;> next h => rw [h]; rfl

theorem compile_of_called {config : Config} {kind : StageKind} {calls : List (Step α)} {c : Compiled α}
    (h : (called config kind calls).compiled = some c) : compile (Registry.candidates config calls) = .ok c := by
  rw [called_compiled] at h
  cases hc : compile (Registry.candidates config calls) with
  | error e => rw [hc] at h; cases h
  | ok c' => rw [hc] at h; cases h; rfl

/-- A call succeeded: the stage runs what it should. -/
structure Accepted (config : Config) (done : Registration Action) : Prop where
  result : done.result = .ok ()
  compiled : ∃ c, done.stage.compiled = some c ∧ done.stage.order? = some (c.steps.map (·.name)) ∧
    Arranged config done.stage.entries c.steps

/-- A call failed, because the live entries cannot all be placed: the stage has nothing to run.
    An execution adds its error between getting ready and concluding, and nothing else
    happens. -/
structure Refused (config : Config) (done : Registration Action) : Prop where
  result : ∃ conflict, done.result = .error conflict
  clash : let cs := Registry.candidates config done.stage.entries
    (∃ c ∈ cs, c.Torn) ∨ ¬ ∃ l, l.Perm cs ∧ Honours l
  stale : done.stage.isStale = true
  order : done.stage.order? = none
  duplicates : done.stage.duplicates = []
  idle : ∀ {ρ : Type} [Record ρ] (env : Env) (r : Run ρ),
    done.stage.execute env r =
        ((done.stage.ready env r).addError (.stale done.stage.kind)).conclude env (adopts env r) ∧
      Run.Idle r (done.stage.execute env r) ∧
      (done.stage.execute env r).statement.error =
        some ((Error.stale done.stage.kind).added (done.stage.ready env r).statement.error)

theorem accepted_of_compile {config : Config} {st : Stage Action} {s : Step Action} {c : Compiled Action}
    (h : compile (Registry.candidates config (st.entries ++ [s])) = .ok c) :
    Accepted config (st.register config s) := by
  obtain ⟨hr, hs⟩ := register_ok h
  refine ⟨hr, c, hs, by rw [order?, hs]; rfl, ?_⟩
  rw [register_entries]
  exact arranged_of_compile h

theorem refused_of_compile {config : Config} {st : Stage Action} {s : Step Action} {conflict : Conflict}
    (h : compile (Registry.candidates config (st.entries ++ [s])) = .error conflict) :
    Refused config (st.register config s) := by
  obtain ⟨hr, hs⟩ := register_error h
  refine ⟨⟨conflict, hr⟩, ?_, by rw [isStale, hs]; rfl, by rw [order?, hs]; rfl, by rw [duplicates, hs]; rfl,
    fun env r => execute_stale hs env r⟩
  rw [register_entries]
  exact (compile_error_iff _).mp ⟨conflict, h⟩

theorem not_accepted_and_refused {config : Config} {done : Registration Action} (ha : Accepted config done)
    (hr : Refused config done) : False := by
  obtain ⟨conflict, h⟩ := hr.result
  rw [ha.result] at h
  cases h

/-- Whatever calls came before, a call keeps its entry, and leaves the stage with the pipeline
    its entries ask for or with none. -/
theorem call_arranges_or_stales (config : Config) (kind : StageKind) (calls : List (Step Action))
    (s : Step Action) :
    let done := (called config kind calls).register config s
    done.stage.kind = kind ∧ done.stage.entries = calls ++ [s] ∧ Xor (Accepted config done) (Refused config done) := by
  intro done
  refine ⟨(register_kind _ _ _).trans (called_kind _ _ _), by rw [register_entries, called_entries], ?_⟩
  cases h : compile (Registry.candidates config ((called config kind calls).entries ++ [s])) with
  | ok c => exact Or.inl ⟨accepted_of_compile h, not_accepted_and_refused (accepted_of_compile h)⟩
  | error conflict =>
    exact Or.inr ⟨refused_of_compile h, fun ha => not_accepted_and_refused ha (refused_of_compile h)⟩

end Stage

end SqlPipeline
