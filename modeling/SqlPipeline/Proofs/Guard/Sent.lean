/-
  SqlPipeline.Proofs.Guard.Sent — what updates and deletes send.

  The guard of an update or a delete looks at the conditions the statement stores, before
  anything is written. What is written are the clauses that the statement, or else its stage,
  names. So the two can differ: conditions may be stored and not be named, or be named and ask
  for nothing.

  - `update_guarded`, `delete_guarded`: a step sends nothing, or one text with conditions
    stored.
  - `sent_conditional_iff`: over a whole execution; the text then holds a condition exactly
    when WHERE is named and one of the stored conditions has a leaf.
-/

import SqlPipeline.Proofs.Execution.Untouched
import SqlPipeline.Proofs.Guard.Conditions
import SqlPipeline.Proofs.Keys.Stored
import SqlPipeline.Proofs.Registry.Opened

namespace SqlPipeline

open Operation

variable {ρ : Type}

/-! ## The guard -/

/-- An update or delete that was prepared failed, or has conditions stored and its clauses
    written behind the text it started with. -/
def Prepared (env : Env) (s s' : Statement ρ) : Prop :=
  s'.failed = true ∨ ∃ conditions, s'.clause? "WHERE" = some (.where conditions) ∧ conditions ≠ [] ∧
    s'.sql = s.sql.writeAll env.dialect (s'.clauses.pieces s.buildClauses)

/-- A step sent nothing, or the one text that was prepared. -/
def Guarded (env : Env) (r r' : Run ρ) : Prop :=
  r'.calls = r.calls ∨ ∃ conditions sql, r'.statement.clause? "WHERE" = some (.where conditions) ∧ conditions ≠ [] ∧
    sql = r.statement.sql.writeAll env.dialect (r'.statement.clauses.pieces r.statement.buildClauses) ∧
    r'.calls = r.calls ++ [⟨.exec, sql.text, sql.params⟩]

theorem addError_failed (s : Statement ρ) (e : Error) : (s.addError e).failed = true := rfl

theorem conditions_of_hasConditions {s : Statement ρ} (h : s.hasConditions = true) :
    ∃ conditions, s.clause? "WHERE" = some (.where conditions) ∧ conditions ≠ [] := by
  unfold Statement.hasConditions at h
  cases hc : s.clause? "WHERE" with
  | none => rw [hc] at h; cases h
  | some c =>
    rw [hc] at h
    have hname : c.name = "WHERE" := Clauses.name_of_get? hc
    cases c <;> simp only [Clause.name, String.reduceEq] at hname
    next conditions => exact ⟨conditions, rfl, by rintro rfl; cases h⟩

theorem hasConditions_iff (s : Statement ρ) : s.hasConditions = true ↔ s.conditions ≠ [] := by
  refine ⟨fun h => ?_, Statement.hasConditions_of_conditions⟩
  obtain ⟨conditions, hc, hne⟩ := conditions_of_hasConditions h
  unfold Statement.conditions
  rw [hc]
  exact hne

/-- The guard writes only where conditions are stored, whatever was done to the statement
    before, as long as text and clause names were left alone. -/
theorem buildGuarded_prepared {env : Env} (hallow : env.config.allowGlobalUpdate = false) {s s' : Statement ρ}
    (hsql : s'.sql = s.sql) (hnames : s'.buildClauses = s.buildClauses) : Prepared env s (buildGuarded env s') := by
  unfold buildGuarded
  rw [hallow, Bool.or_false]
  split
  · next h =>
    obtain ⟨conditions, hc, hne⟩ := conditions_of_hasConditions h
    refine Or.inr ⟨conditions, hc, hne, ?_⟩
    show s'.sql.writeAll env.dialect (s'.clauses.pieces s'.buildClauses) = _
    rw [hsql, hnames]
    rfl
  · exact Or.inl (addError_failed _ _)

/-! ## Sending -/

theorem send_guarded {env : Env} {r r' : Run ρ} (hcalls : r'.calls = r.calls)
    (hp : Prepared env r.statement r'.statement) : Guarded env r (send r') := by
  unfold send
  split
  · exact Or.inl hcalls
  · next hgo =>
    rcases hp with hfail | ⟨conditions, hc, hne, hsql⟩
    · exact absurd (by simp [Run.failed, hfail]) hgo
    · refine Or.inr ⟨conditions, r'.statement.sql, ?_⟩
      have hsent : (r'.emit [.called ⟨.exec, r'.statement.sql.text, r'.statement.sql.params⟩]).calls =
          r.calls ++ [⟨.exec, r'.statement.sql.text, r'.statement.sql.params⟩] := by
        rw [← hcalls, Run.calls, Run.emit, List.filterMap_append]
        rfl
      unfold Run.exec
      cases r'.pool.exec <;> exact ⟨hc, hne, hsql, hsent⟩

/-- Neither what comes before without touching the text nor what comes after without touching
    the clauses makes a difference. -/
theorem Guarded.around {env : Env} {r₁ r₂ r₃ r₄ : Run ρ} (hbefore : Run.Untouched r₁ r₂) (h : Guarded env r₂ r₃)
    (hcalls : r₄.calls = r₃.calls) (hclauses : r₄.statement.clauses = r₃.statement.clauses) : Guarded env r₁ r₄ := by
  unfold Guarded Statement.clause? at h ⊢
  rw [hcalls, hclauses, ← hbefore.calls, ← hbefore.statement.sql, ← hbefore.statement.buildClauses]
  exact h

/-! ## Updates and deletes -/

variable [Record ρ]

theorem assignmentsOf_unwritten (env : Env) (s : Statement ρ) : s.Unwritten (assignmentsOf env s).1 := by
  unfold assignmentsOf
  split
  · exact Statement.setDestination_unwritten _ _
  · exact Statement.Unwritten.refl s

theorem prepareDelete_prepared {env : Env} (hallow : env.config.allowGlobalUpdate = false) (s : Statement ρ) :
    Prepared env s (prepareDelete env s) := by
  unfold prepareDelete
  split
  · exact Or.inl (addError_failed _ _)
  · obtain ⟨hsql, hnames⟩ := addKeyCondition_sql ((s.addClauseIfAbsent .delete).addClauseIfAbsent (.from [_]))
    exact buildGuarded_prepared hallow hsql hnames

theorem prepareUpdate_prepared {env : Env} (hallow : env.config.allowGlobalUpdate = false) {s : Statement ρ}
    (hset : (prepareUpdate env s).2 = true) : Prepared env s (prepareUpdate env s).1 := by
  unfold prepareUpdate at hset ⊢
  split at hset
  · exact Or.inl (addError_failed _ _)
  · next table _ =>
    have h := assignmentsOf_unwritten env (s.addClauseIfAbsent (.update table))
    split
    · exact Or.inl (addError_failed _ _)
    · next he => rw [he] at hset; cases hset
    · next s' set _ he =>
      rw [he] at h
      obtain ⟨hsql, hnames⟩ := addKeyCondition_sql (s'.addClause (.set set))
      exact buildGuarded_prepared hallow (hsql.trans h.sql) (hnames.trans h.buildClauses)

theorem delete_guarded {env : Env} (hallow : env.config.allowGlobalUpdate = false) {r : Run ρ}
    (htext : r.statement.hasText = false) : Guarded env r (delete env r) := by
  unfold delete
  rw [htext]
  split
  · exact Or.inl rfl
  · exact send_guarded rfl (prepareDelete_prepared hallow r.statement)

theorem update_guarded {env : Env} (hallow : env.config.allowGlobalUpdate = false) {r : Run ρ}
    (htext : r.statement.hasText = false) : Guarded env r (update env r) := by
  unfold update
  rw [htext]
  split
  · exact Or.inl rfl
  · dsimp only
    split
    · next h => cases h
    · split
      · next hset => exact send_guarded rfl (prepareUpdate_prepared hallow hset)
      · exact Or.inl rfl

/-! ## The execution -/

theorem openSteps_guarded {env : Env} (hallow : env.config.allowGlobalUpdate = false) {kind : StageKind}
    (hkind : kind = .update ∨ kind = .delete) {r : Run ρ} (htext : r.statement.hasText = false) :
    Guarded env r ((Database.openSteps env.config kind).foldl (BuiltIn.run env) r) := by
  -- the hooks that come first write nothing either
  have htext' : ∀ hooks, (callHooks hooks r).statement.hasText = false := by
    intro hooks
    unfold Statement.hasText at htext ⊢
    rw [(callHooks_untouched hooks r).statement.sql]
    exact htext
  unfold Database.openSteps
  split
  · exact Or.inl rfl
  · rcases hkind with rfl | rfl
    · have hafter := callHooks_untouched [.afterUpdate, .afterSave] (update env (beforeUpdate r))
      exact (update_guarded hallow (htext' _)).around (callHooks_untouched _ r) hafter.calls hafter.statement.clauses
    · have hafter := callHooks_untouched [.afterDelete] (delete env (beforeDelete r))
      exact (delete_guarded hallow (htext' _)).around (callHooks_untouched _ r) hafter.calls hafter.statement.clauses

/-- With global updates off, an update or a delete that starts without text sends nothing, or
    one text with conditions stored. That text holds a condition exactly when the clause names
    include WHERE and one of the conditions has a leaf. -/
theorem sent_conditional_iff (env : Env) (hallow : env.config.allowGlobalUpdate = false)
    (records : List (Destination Row)) {kind : StageKind} (hkind : kind = .update ∨ kind = .delete) (r : Run ρ)
    (htext : (((Database.openWith env records).stages kind).ready env r).statement.hasText = false) :
    let st := (Database.openWith env records).stages kind
    let start := (st.ready env r).statement
    let after := st.execute env r
    after.calls = r.calls ∨ ∃ conditions sql,
      after.statement.clause? "WHERE" = some (.where conditions) ∧ conditions ≠ [] ∧
      sql = start.sql.writeAll env.dialect (after.statement.clauses.pieces start.buildClauses) ∧
      after.calls = r.calls ++ [⟨.exec, sql.text, sql.params⟩] ∧
      (Conditional (after.statement.clauses.present start.buildClauses) ↔
        "WHERE" ∈ start.buildClauses ∧ ∃ e ∈ conditions, e.hasCondition = true) := by
  intro st start after
  have hexec : after = _ := Database.opened_execute env records kind r
  have hready : (st.ready env r).calls = r.calls := (Stage.ready_idle env st r).calls
  have hsteps := openSteps_guarded hallow hkind htext
  have h : Guarded env (st.ready env r) after := by
    rw [hexec]
    refine hsteps.around (Run.Untouched.refl _) (Run.conclude_idle env _ _).calls ?_
    rw [Run.conclude_statement, Run.cleared_clauses]
  unfold Guarded at h
  rw [hready] at h
  rcases h with hnone | ⟨conditions, sql, hc, hne, hsql, hsent⟩
  · exact Or.inl hnone
  · exact Or.inr ⟨conditions, sql, hc, hne, hsql, hsent, Clauses.conditional_iff hc hne _⟩

/-- A condition is stored and the clause names leave WHERE out: every row is deleted. -/
theorem delete_without_where :
    let env : Env := { config := { deleteClauses := ["DELETE", "FROM"] }, now := ⟨1715000000, 0⟩ }
    let st := (Database.openWith env []).stages .delete
    let r : Run Borrowed :=
      { statement := { table := some "users", clauses := ⟨[.where [.compare "id" .eq (.int 7)]]⟩ } }
    let start := (st.ready env r).statement
    let after := st.execute env r
    env.config.allowGlobalUpdate = false ∧ start.hasText = false ∧
      after.calls = [⟨.exec, "DELETE FROM \"users\"", []⟩] ∧
      ¬ Conditional (after.statement.clauses.present start.buildClauses) := by
  intro env st r start after
  have hready : st.ready env r = r.modify fun s => { s with buildClauses := ["DELETE", "FROM"] } := by
    show ((Database.openWith env []).stages .delete).ready env r = _
    rw [Database.opened_ready env [] .delete rfl]
    rfl
  have hafter : after = _ := Database.opened_execute env [] .delete r
  rw [hready] at hafter
  have hstart : start = _ := congrArg (·.statement) hready
  refine ⟨rfl, by rw [hstart]; rfl, ?_, ?_⟩
  · rw [hafter, (Run.conclude_idle env _ _).calls]
    rfl
  · rw [hafter, Run.conclude_statement, Run.cleared_clauses, hstart, Clauses.conditional_iff rfl (by simp)]
    rintro ⟨h, -⟩
    revert h
    decide

/-- With the names as they come, the same delete is sent with its condition. -/
theorem delete_with_where :
    let env : Env := { now := ⟨1715000000, 0⟩ }
    let st := (Database.openWith env []).stages .delete
    let r : Run Borrowed :=
      { statement := { table := some "users", clauses := ⟨[.where [.compare "id" .eq (.int 7)]]⟩ } }
    let start := (st.ready env r).statement
    let after := st.execute env r
    env.config.allowGlobalUpdate = false ∧ start.hasText = false ∧
      after.calls = [⟨.exec, "DELETE FROM \"users\" WHERE \"id\" = ?", [.int 7]⟩] ∧
      Conditional (after.statement.clauses.present start.buildClauses) := by
  intro env st r start after
  have hready : st.ready env r =
      r.modify fun s => { s with buildClauses := ["DELETE", "FROM", "WHERE", "RETURNING"] } := by
    show ((Database.openWith env []).stages .delete).ready env r = _
    rw [Database.opened_ready env [] .delete rfl]
    rfl
  have hstart : start = _ := congrArg (·.statement) hready
  have htext : start.hasText = false := by rw [hstart]; rfl
  have hafter : after = _ := Database.opened_execute env [] .delete r
  rw [hready] at hafter
  have hcalls : after.calls = [⟨.exec, "DELETE FROM \"users\" WHERE \"id\" = ?", [.int 7]⟩] := by
    rw [hafter, (Run.conclude_idle env _ _).calls]
    rfl
  refine ⟨rfl, htext, hcalls, ?_⟩
  rcases sent_conditional_iff env rfl [] (Or.inr rfl) r htext with hnone | ⟨conditions, sql, hc, -, -, -, hiff⟩
  · have : after.calls = [] := hnone
    rw [hcalls] at this
    cases this
  · refine hiff.mpr ⟨by rw [hready]; decide, ?_⟩
    have hwhere : after.statement.clause? "WHERE" = some (.where [.compare "id" .eq (.int 7)]) := by
      rw [hafter]
      unfold Statement.clause?
      rw [Run.conclude_statement, Run.cleared_clauses]
      rfl
    rw [show (st.execute env r).statement.clause? "WHERE" = _ from hwhere] at hc
    cases hc
    exact ⟨_, List.mem_singleton_self _, rfl⟩

end SqlPipeline
