/-
  SqlPipeline.Proofs.Execution.Steady — what writing a statement leaves alone.

  Whether hooks are skipped, whether the run is dry and how many rows were affected: these are
  settled before a statement is written, and neither hooks nor writing it change any of them.
  Taking the answer of the pool changes the count, but no text and no clause.

  - `written_steady`, `taken_unwritten`: what the two moves of the executing step leave alone.
  - `executing_sent`: so what it sends, and what is stored afterwards, is what it wrote.
-/

import SqlPipeline.Proofs.Execution.Sending

namespace SqlPipeline

open Operation

/-- What lets hooks be called is as it was. -/
structure Statement.Steady {ρ : Type} (s s' : Statement ρ) : Prop where
  skipHooks : s'.skipHooks = s.skipHooks
  dryRun : s'.dryRun = s.dryRun
  rowsAffected : s'.rowsAffected = s.rowsAffected

namespace Statement

variable {ρ : Type}

theorem Steady.refl (s : Statement ρ) : Steady s s := ⟨rfl, rfl, rfl⟩

theorem Steady.trans {s s' s'' : Statement ρ} (h : Steady s s') (h' : Steady s' s'') : Steady s s'' :=
  ⟨h'.skipHooks.trans h.skipHooks, h'.dryRun.trans h.dryRun, h'.rowsAffected.trans h.rowsAffected⟩

theorem addError_steady (s : Statement ρ) (e : Error) : Steady s (s.addError e) := ⟨rfl, rfl, rfl⟩

theorem addClause_steady (s : Statement ρ) (c : Clause) : Steady s (s.addClause c) := ⟨rfl, rfl, rfl⟩

theorem addClauseIfAbsent_steady (s : Statement ρ) (c : Clause) : Steady s (s.addClauseIfAbsent c) :=
  ⟨rfl, rfl, rfl⟩

theorem buildDefault_steady (s : Statement ρ) (d : Dialect) : Steady s (s.buildDefault d) := ⟨rfl, rfl, rfl⟩

theorem setDestination_steady (s : Statement ρ) (x : ρ) : Steady s (s.setDestination x) := by
  unfold setDestination
  split <;> exact ⟨rfl, rfl, rfl⟩

theorem addErrors_steady (errors : List Error) (s : Statement ρ) : Steady s (errors.foldl addError s) := by
  induction errors generalizing s with
  | nil => exact Steady.refl s
  | cons e errors ih => exact (addError_steady s e).trans (ih (s.addError e))

theorem note_steady (s : Statement ρ) (e : Option Error) : Steady s (s.note e) := by
  cases e <;> exact ⟨rfl, rfl, rfl⟩

end Statement

namespace Operation

open Statement

variable {ρ : Type} (env : Env) (s : Statement ρ)

theorem buildGuarded_steady : Steady s (buildGuarded env s) := by
  unfold buildGuarded
  split
  · exact buildDefault_steady s env.dialect
  · exact addError_steady s _

theorem expandOnConflict_steady {columns : List String} {s' : Statement ρ}
    (h : expandOnConflict env columns s = .ok s') : Steady s s' := by
  unfold expandOnConflict at h
  split at h
  · split at h
    · split at h
      · split at h <;> cases h
        · exact addClause_steady s _
        · exact Steady.refl s
      · cases h
        exact Steady.refl s
    · cases h
  · cases h
    exact Steady.refl s

variable [Record ρ]

theorem addKeyCondition_steady : Steady s (addKeyCondition s) := by
  unfold addKeyCondition
  cases keyConditionOf? s with
  | none => exact Steady.refl s
  | some e => exact addClause_steady s _

theorem prepareQuery_steady : Steady s (prepareQuery env s) := by
  unfold prepareQuery
  split
  · exact Steady.refl s
  · split
    · exact addError_steady s _
    · next table _ =>
      have hfrom := (addClauseIfAbsent_steady s (.select [] false)).trans (addClauseIfAbsent_steady _ (.from [table]))
      refine (hfrom.trans ?_).trans (buildDefault_steady _ _)
      split
      · exact addKeyCondition_steady _
      · exact Steady.refl _

theorem prepareDelete_steady : Steady s (prepareDelete env s) := by
  unfold prepareDelete
  split
  · exact addError_steady s _
  · exact (((addClauseIfAbsent_steady s _).trans (addClauseIfAbsent_steady _ _)).trans
      (addKeyCondition_steady _)).trans (buildGuarded_steady env _)

theorem assignmentsOf_steady : Steady s (assignmentsOf env s).1 := by
  unfold assignmentsOf
  split
  · exact setDestination_steady s _
  · exact Steady.refl s

theorem prepareUpdate_steady : Steady s (prepareUpdate env s).1 := by
  unfold prepareUpdate
  split
  · exact addError_steady s _
  · next table _ =>
    have hset := (addClauseIfAbsent_steady s (.update table)).trans (assignmentsOf_steady env _)
    rcases h : assignmentsOf env (s.addClauseIfAbsent (.update table)) with ⟨s', e | _ | ⟨a, set⟩⟩ <;>
      rw [h] at hset
    · exact hset.trans (addError_steady s' e)
    · exact hset
    · exact ((hset.trans (addClause_steady s' _)).trans (addKeyCondition_steady _)).trans (buildGuarded_steady env _)

theorem prepareInsert_steady : Steady s (prepareInsert env s) := by
  unfold prepareInsert
  split
  · exact addError_steady s _
  · next table _ =>
    have hinsert := addClauseIfAbsent_steady s (.insert table none)
    generalize s.addClauseIfAbsent (.insert table none) = s' at hinsert ⊢
    dsimp only
    split
    · exact hinsert.trans (addError_steady s' _)
    · next dest _ =>
      rcases collectValues env.now s'.shape s'.schema dest with ⟨dest', e | values⟩
      · exact (hinsert.trans (setDestination_steady s' dest')).trans (addError_steady _ e)
      · have hset := hinsert.trans (setDestination_steady s' dest')
        dsimp only
        split
        · exact (hset.trans (addClause_steady _ _)).trans (addError_steady _ _)
        · next s'' hexpand =>
          have hvalues := (hset.trans (expandOnConflict_steady env _ hexpand)).trans
            (addClause_steady s'' (.values values.columns values.rows))
          refine (hvalues.trans ?_).trans (buildDefault_steady _ _)
          split
          · exact Steady.refl _
          · exact addClauseIfAbsent_steady _ _

omit [Record ρ] in
theorem writeBack_steady (f : ρ → Attempt ρ) : Steady s (writeBack f s) := by
  unfold writeBack
  split
  · exact Steady.refl s
  · exact (setDestination_steady s _).trans (note_steady _ _)

omit [Record ρ] in
theorem writeBack_unwritten (f : ρ → Attempt ρ) : Unwritten s (writeBack f s) := by
  unfold writeBack
  split
  · exact Unwritten.refl s
  · next dest _ => exact (setDestination_unwritten s (f dest).state).trans (note_unwritten _ _)

/-- Loading a result set is a write to the destination and, if it is to be, an error. -/
theorem loadRows_eq (rows : Rows) :
    loadRows rows s =
      let loaded := writeBack (Record.scan · rows) { s with rowsAffected := rows.size }
      if rows.isEmpty && loaded.raiseNotFound then loaded.addError .recordNotFound else loaded := rfl

theorem loadRows_steady (rows : Rows) : Steady { s with rowsAffected := rows.size } (loadRows rows s) := by
  rw [loadRows_eq]
  dsimp only
  split
  · exact (writeBack_steady _ _).trans (addError_steady _ _)
  · exact writeBack_steady _ _

end Operation

theorem callHooks_steady {ρ : Type} [Record ρ] (hooks : List Hook) (r : Run ρ) :
    Statement.Steady r.statement (callHooks hooks r).statement := by
  unfold callHooks
  split
  · exact Statement.Steady.refl _
  · split
    · exact Statement.Steady.refl _
    · exact (Statement.setDestination_steady _ _).trans (Statement.addErrors_steady _ _)

namespace StageKind

open Statement

variable {ρ : Type} [Record ρ]

theorem written_steady (env : Env) (kind : StageKind) (s : Statement ρ) : Steady s (kind.written env s) := by
  unfold written
  split
  · exact Steady.refl s
  · cases kind with
    | create => exact prepareInsert_steady env s
    | query | row => exact prepareQuery_steady env s
    | update => exact prepareUpdate_steady env s
    | delete => exact prepareDelete_steady env s
    | raw => exact Steady.refl s

theorem taken_skipHooks (env : Env) (kind : StageKind) (s : Statement ρ) (answer : Pool.Response) :
    (kind.taken env s answer).skipHooks = s.skipHooks := by
  cases answer with
  | refused e => rfl
  | counted affected id =>
    cases kind with
    | create =>
      show (takeInserted env affected id s).skipHooks = _
      unfold takeInserted
      split
      · rfl
      · split
        · rfl
        · exact (writeBack_steady _ _).skipHooks
    | _ => rfl
  | returned rows =>
    cases kind with
    | create => exact (writeBack_steady { s with rowsAffected := rows.size } _).skipHooks
    | row => rfl
    | _ => exact (loadRows_steady s rows).skipHooks

/-- Taking the answer leaves text and clauses as they were sent. -/
theorem taken_unwritten (env : Env) (kind : StageKind) (s : Statement ρ) (answer : Pool.Response) :
    Unwritten s (kind.taken env s answer) := by
  have hcount : ∀ n : Nat, Unwritten s { s with rowsAffected := n } := fun _ => ⟨rfl, rfl, rfl⟩
  cases answer with
  | refused e => exact ⟨rfl, rfl, rfl⟩
  | counted affected id =>
    cases kind with
    | create =>
      show Unwritten s (takeInserted env affected id s)
      unfold takeInserted
      split
      · exact ⟨rfl, rfl, rfl⟩
      · split
        · exact ⟨rfl, rfl, rfl⟩
        · exact (hcount affected).trans (writeBack_unwritten _ _)
    | _ => exact ⟨rfl, rfl, rfl⟩
  | returned rows =>
    cases kind with
    | create => exact (hcount rows.size).trans (writeBack_unwritten _ _)
    | row => exact ⟨rfl, rfl, rfl⟩
    | _ =>
      show Unwritten s (loadRows rows s)
      rw [loadRows_eq]
      dsimp only
      split
      · exact ((hcount rows.size).trans (writeBack_unwritten _ _)).trans ⟨rfl, rfl, rfl⟩
      · exact (hcount rows.size).trans (writeBack_unwritten _ _)

/-- The executing step keeps the clauses it wrote, and what it sends is what it wrote. -/
theorem executing_sent (env : Env) (kind : StageKind) {r : Run ρ} (hfree : r.failed = false) :
    let written := kind.written env r.statement
    let r' := kind.executing.run env r
    r'.statement.clauses = written.clauses ∧ (written.failed = true → r'.failed = true) ∧
      r'.calls = r.calls ++
        if written.dryRun || written.failed || !kind.hasWork env r.statement then [] else [kind.call written] := by
  intro written r'
  obtain ⟨call, hwent⟩ := executing_went env kind r
  have hcalls : r'.calls = r.calls ++ call.toList := hwent.calls
  cases hwent with
  | idle failed =>
    rw [hfree] at failed
    cases failed
  | written _ why same =>
    have hstop : (written.dryRun || written.failed || !kind.hasWork env r.statement) = true := by
      simpa only [Bool.or_eq_true, Bool.not_eq_true', or_assoc] using why
    rw [if_pos hstop, show r' = _ from same]
    exact ⟨rfl, id, (List.append_nil _).symm⟩
  | sent _ live sound work same =>
    have hgo : (written.dryRun || written.failed || !kind.hasWork env r.statement) = false := by
      rw [show written.dryRun = false from live, show written.failed = false from sound, work]
      rfl
    refine ⟨?_, fun h => ?_, ?_⟩
    · rw [show r' = _ from same]
      exact (taken_unwritten env kind written _).clauses
    · rw [show written.failed = false from sound] at h
      cases h
    · rw [hcalls, hgo]
      rfl

end StageKind

end SqlPipeline
