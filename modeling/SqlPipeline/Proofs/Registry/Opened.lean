/-
  SqlPipeline.Proofs.Registry.Opened — the stages of a handle that was just opened.

  Opening registers the built-in steps, stage by stage, and nothing else. They declare no
  place and no condition, so each stage runs its own in the order they were registered.

  - `opened_stage`: a registration on one stage leaves the others alone.
  - `opened_execute`: an execution is the built-in steps one after the other, between getting
    ready and concluding.
-/

import SqlPipeline.Database.Basic
import SqlPipeline.Proofs.Placement.Free
import SqlPipeline.Proofs.Registry.Calls

namespace SqlPipeline

variable {α β : Type}

/-! ## Steps that declare nothing -/

/-- The entry adds an action under a name, and says nothing else. -/
structure Step.Plain (s : Step α) (action : α) : Prop where
  role : s.role = .adds action
  before : s.before = none
  after : s.after = none
  condition : s.condition = none

namespace Registry

/-- Where nothing is replaced or removed every entry is live. -/
theorem candidate?_of_adds {entries : List (Step α)} (h : ∀ s ∈ entries, ∃ a, s.role = .adds a) (i : Nat)
    {s : Step α} {action : α} (hs : s.role = .adds action) :
    candidate? entries i s = some { s with slot := i, action, replacing := false } := by
  have hrep : isSuperseded entries s.name i = false := by
    rw [isSuperseded_iff]
    intro j r _ hr _
    obtain ⟨a, ha⟩ := h r (List.mem_of_getElem? hr)
    exact Step.isReplacement_of_adds ha
  have hrem : isSuppressed entries s.name = false := by
    rw [isSuppressed_iff]
    intro j r hr _ hremoval
    obtain ⟨a, ha⟩ := h r (List.mem_of_getElem? hr)
    rw [Step.isRemoval_of_adds ha] at hremoval
    cases hremoval
  unfold candidate? isLive
  rw [hrep, hrem, hs]
  rfl

theorem candidates_plain {step : β → Step α} {action : β → α} (h : ∀ x, (step x).Plain (action x))
    (config : Config) (xs : List β) :
    candidates config (xs.map step) =
      xs.zipIdx.map fun e => { step e.1 with slot := e.2, action := action e.1, replacing := false } := by
  have hadds : ∀ s ∈ xs.map step, ∃ a, s.role = .adds a := by
    intro s hs
    obtain ⟨x, -, rfl⟩ := List.mem_map.mp hs
    exact ⟨_, (h x).role⟩
  unfold candidates live
  rw [List.zipIdx_map, List.filterMap_map, List.filter_filterMap]
  refine Eq.trans (List.filterMap_congr fun e _ => ?_) (congrFun List.filterMap_eq_map xs.zipIdx)
  simp [candidate?_of_adds hadds _ (h e.1).role, (h e.1).condition]

/-- Such steps run in the order they were registered. -/
theorem compile_plain {step : β → Step α} {action : β → α} (h : ∀ x, (step x).Plain (action x)) (config : Config)
    (xs : List β) :
    ∃ c, compile (candidates config (xs.map step)) = .ok c ∧ c.steps.map (·.action) = xs.map action := by
  rw [candidates_plain h]
  refine ⟨_, compile_free (fun c hc => ?_) ?_, ?_⟩
  · obtain ⟨e, -, rfl⟩ := List.mem_map.mp hc
    exact ⟨(h e.1).before, (h e.1).after⟩
  · exact List.pairwise_map.mpr ((zipIdx_pairwise xs).imp Nat.le_of_lt)
  · rw [List.map_map]
    conv => rhs; rw [← List.zipIdx_map_fst 0 xs, List.map_map]
    rfl

end Registry

theorem BuiltIn.step_plain (b : BuiltIn) : b.step.Plain (.builtIn b) := ⟨rfl, rfl, rfl, rfl⟩

/-! ## Opening -/

namespace Database

theorem register_env (db : Database) (kind : StageKind) (s : Step Action) : (db.register kind s).1.env = db.env := rfl

theorem register_stages (db : Database) (kind : StageKind) (s : Step Action) (k : StageKind) :
    (db.register kind s).1.stages k =
      if k = kind then ((db.stages kind).register db.env.config s).stage else db.stages k := rfl

/-- The built-in steps of one stage. -/
theorem foldl_steps (bs : List BuiltIn) (kind k : StageKind) (db : Database) :
    (bs.foldl (fun db b => (db.register kind b.step).1) db).env = db.env ∧
    (bs.foldl (fun db b => (db.register kind b.step).1) db).stages k =
      if k = kind then (bs.map BuiltIn.step).foldl (fun st s => (st.register db.env.config s).stage) (db.stages k)
      else db.stages k := by
  induction bs generalizing db with
  | nil => simp
  | cons b bs ih =>
    obtain ⟨henv, hstages⟩ := ih (db.register kind b.step).1
    refine ⟨henv, ?_⟩
    rw [List.foldl_cons, hstages, register_stages, register_env]
    by_cases hk : k = kind
    · subst hk
      simp
    · simp [hk]

/-- Those of a list of stages. -/
theorem foldl_kinds (kinds : List StageKind) (hnd : kinds.Nodup) (k : StageKind) (db : Database) :
    (kinds.foldl (fun db kind => (BuiltIn.ofStage kind).foldl (fun db b => (db.register kind b.step).1) db)
        db).stages k =
      if k ∈ kinds then
        ((BuiltIn.ofStage k).map BuiltIn.step).foldl (fun st s => (st.register db.env.config s).stage) (db.stages k)
      else db.stages k := by
  induction kinds generalizing db with
  | nil => simp
  | cons kind kinds ih =>
    obtain ⟨hnotin, hnd'⟩ := List.nodup_cons.mp hnd
    obtain ⟨henv, hstages⟩ := foldl_steps (BuiltIn.ofStage kind) kind k db
    rw [List.foldl_cons, ih hnd', henv, hstages]
    by_cases hk : k = kind
    · subst hk
      simp [hnotin]
    · simp [hk]

/-- The built-in steps a handle opens with. -/
def openSteps (config : Config) (kind : StageKind) : List BuiltIn :=
  if config.skipDefaultSteps then [] else BuiltIn.ofStage kind

/-- Each stage has its own steps registered, and no other. -/
theorem opened_stage (env : Env) (records : List (Destination Row)) (kind : StageKind) :
    (openWith env records).stages kind =
      Stage.called env.config kind ((openSteps env.config kind).map BuiltIn.step) := by
  unfold openWith openSteps
  cases h : env.config.skipDefaultSteps with
  | true => rfl
  | false =>
    dsimp only
    rw [if_neg (by simp), if_neg (by simp), foldl_kinds _ (by decide), if_pos (StageKind.mem_all kind)]
    rfl

/-- A statement with nothing deferred starts with its own clause names, or else with those the
    configuration has for the stage. -/
theorem opened_ready {ρ : Type} [Record ρ] (env : Env) (records : List (Destination Row)) (kind : StageKind)
    {r : Run ρ} (h : r.statement.scopes = []) :
    ((openWith env records).stages kind).ready env r =
      (if r.statement.buildClauses.isEmpty then r.modify fun s => { s with buildClauses := kind.clauses env.config }
        else r).prepare env := by
  unfold Stage.ready Stage.adopts
  rw [Run.applyScopes_none env h, opened_stage, Stage.called_clauses]

theorem opened_execute {ρ : Type} [Record ρ] (env : Env) (records : List (Destination Row)) (kind : StageKind)
    (r : Run ρ) :
    let st := (openWith env records).stages kind
    st.execute env r =
      ((openSteps env.config kind).foldl (BuiltIn.run env) (st.ready env r)).conclude env (Stage.adopts env r) := by
  intro st
  obtain ⟨c, hc, hactions⟩ :=
    Registry.compile_plain BuiltIn.step_plain env.config (openSteps env.config kind)
  have hs : st.compiled = some c := by
    show ((openWith env records).stages kind).compiled = _
    rw [opened_stage, Stage.called_compiled, hc]
    rfl
  rw [Stage.execute_eq]
  congr 1
  unfold Stage.work Run.runSteps
  rw [hs]
  dsimp only
  have hrun : c.steps.foldl (fun r c => c.action.run env r) (st.ready env r) =
      (c.steps.map (·.action)).foldl (Action.run env) (st.ready env r) := by rw [List.foldl_map]
  rw [hrun, hactions, List.foldl_map]
  rfl

end Database

end SqlPipeline
