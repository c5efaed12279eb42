/-
  SqlPipeline.Proofs.Insert.Written — what an insert is written from.

  Preparing an insert touches the destination, which gets its stamps, the clauses and the
  text, and nothing else. The text is that of the clauses named, as they are when the statement
  is prepared: the values collected from the destination, whatever was stored before, and the
  collision clause the caller stored, spelled out if it asks for that.

  - `expandOnConflict_spelled`: what becomes of the collision clause.
  - `prepareInsert_written`: an insert that does not fail, as one equation, and the clauses in it.
-/

import SqlPipeline.Proofs.Execution.Sending
import SqlPipeline.Proofs.Guard.Conditions
import SqlPipeline.Proofs.Keys.Stored

namespace SqlPipeline

open Operation

/-! ## Clauses by name -/

/-- The text of clauses, with a space between neighbours. -/
def Clause.spaced (cs : List Clause) : List Piece := ([Piece.text " "] : List Piece).intercalate (cs.map Clause.pieces)

namespace Clauses

theorem pieces_eq_spaced (cs : Clauses) (names : List String) : cs.pieces names = Clause.spaced (cs.present names) := rfl

theorem get?_addIfAbsent_self (cs : Clauses) (c : Clause) :
    (cs.addIfAbsent c).get? c.name = some ((cs.get? c.name).getD c) := by
  unfold addIfAbsent
  cases h : cs.get? c.name with
  | none =>
    show (c :: cs.entries).find? (·.name == c.name) = _
    rw [List.find?_cons, beq_self_eq_true]
    rfl
  | some present => exact h

/-- The collision clause, if one is stored. -/
def conflict? (cs : Clauses) : Option OnConflict :=
  match cs.get? "ON CONFLICT" with
  | some (.onConflict c) => some c
  | _ => none

theorem conflict?_eq_some {cs : Clauses} {c : OnConflict} :
    cs.conflict? = some c ↔ cs.get? "ON CONFLICT" = some (.onConflict c) := by
  unfold conflict?
  split
  · next c' h => rw [h]; simp
  · next h =>
    constructor
    · intro hnone
      cases hnone
    · intro hget
      exact absurd hget (h c)

theorem conflict?_of_get? {cs cs' : Clauses} (h : cs'.get? "ON CONFLICT" = cs.get? "ON CONFLICT") :
    cs'.conflict? = cs.conflict? := by
  unfold conflict?
  rw [h]

theorem conflict?_add (cs : Clauses) {c : Clause} (h : c.name ≠ "ON CONFLICT") : (cs.add c).conflict? = cs.conflict? :=
  conflict?_of_get? ((cs.get?_add c _).trans (if_neg h))

theorem conflict?_addIfAbsent (cs : Clauses) {c : Clause} (h : c.name ≠ "ON CONFLICT") :
    (cs.addIfAbsent c).conflict? = cs.conflict? :=
  conflict?_of_get? (cs.get?_addIfAbsent h)

theorem conflict?_add_onConflict (cs : Clauses) (c : OnConflict) : (cs.add (.onConflict c)).conflict? = some c :=
  conflict?_eq_some.mpr (cs.get?_add (.onConflict c) "ON CONFLICT")

theorem present_cons {cs : Clauses} {name : String} {c : Clause} (h : cs.get? name = some c)
    (hasks : c.isEmpty = false) (names : List String) : cs.present (name :: names) = c :: cs.present names := by
  unfold present
  rw [List.filterMap_cons_some h, List.filter_cons_of_pos (by simp [hasks])]

end Clauses

/-! ## Collisions -/

/-- The collision clause as an insert of these columns has it written. -/
def OnConflict.spelledOut (schema : Option Schema) (now : Instant) (columns : List String) (c : OnConflict) :
    OnConflict :=
  match schema with
  | some schema => if c.updateAll && !columns.isEmpty then expanded schema now columns c else c
  | none => c

variable {ρ : Type}

/-- Only the collision clause differs: it is the one that was there, spelled out. -/
structure Spelled (env : Env) (columns : List String) (s s' : Statement ρ) : Prop where
  statement : s' = { s with clauses := s'.clauses }
  others : ∀ name, name ≠ "ON CONFLICT" → s'.clauses.get? name = s.clauses.get? name
  conflict : s'.clauses.conflict? = s.clauses.conflict?.map (·.spelledOut s.schema env.now columns)

theorem Spelled.same {env : Env} {columns : List String} {s : Statement ρ}
    (h : ∀ c, s.clauses.conflict? = some c → c.spelledOut s.schema env.now columns = c) : Spelled env columns s s := by
  refine ⟨rfl, fun _ _ => rfl, ?_⟩
  cases hc : s.clauses.conflict? with
  | none => rfl
  | some c => rw [Option.map_some, h c hc]

theorem expandOnConflict_spelled {env : Env} {columns : List String} {s s' : Statement ρ}
    (h : expandOnConflict env columns s = .ok s') : Spelled env columns s s' := by
  unfold expandOnConflict at h
  split at h
  · next c hget =>
    have hstored : s.clauses.conflict? = some c := Clauses.conflict?_eq_some.mpr hget
    split at h
    · split at h
      · next schema hschema =>
        have hspelled : c.spelledOut s.schema env.now columns =
            if c.updateAll && !columns.isEmpty then expanded schema env.now columns c else c := by
          unfold OnConflict.spelledOut
          rw [hschema]
        split at h
        · next hall =>
          cases h
          refine ⟨rfl, fun name hname => (s.clauses.get?_add _ name).trans (if_neg (Ne.symm hname)), ?_⟩
          rw [hstored, Option.map_some, hspelled, if_pos hall]
          exact Clauses.conflict?_add_onConflict _ _
        · next hall =>
          cases h
          refine Spelled.same fun c' hc' => ?_
          rw [hstored] at hc'
          cases hc'
          rw [hspelled, if_neg hall]
      · next hschema =>
        cases h
        refine Spelled.same fun c' _ => ?_
        unfold OnConflict.spelledOut
        rw [hschema]
    · cases h
  · next hnone =>
    cases h
    exact Spelled.same fun c hc => absurd (Clauses.conflict?_eq_some.mp hc) (hnone c)

/-! ## The insert -/

/-- The clauses of an insert of these columns and rows. -/
structure InsertClauses (env : Env) (s : Statement ρ) (columns : List String) (rows : List (List Value))
    (cs : Clauses) : Prop where
  insert : ∃ table modifier, cs.get? "INSERT" = some (.insert table modifier)
  values : cs.get? "VALUES" = some (.values columns rows)
  conflict : cs.conflict? = s.clauses.conflict?.map (·.spelledOut s.schema env.now columns)

theorem get?_addInsert (cs : Clauses) (table : String) :
    ∃ table' modifier, (cs.addIfAbsent (.insert table none)).get? "INSERT" = some (.insert table' modifier) := by
  have hget : (cs.addIfAbsent (.insert table none)).get? "INSERT" =
      some ((cs.get? "INSERT").getD (.insert table none)) := cs.get?_addIfAbsent_self (.insert table none)
  cases hc : cs.get? "INSERT" with
  | none =>
    rw [hc] at hget
    exact ⟨table, none, hget⟩
  | some c =>
    rw [hc] at hget
    have hname : c.name = "INSERT" := Clauses.name_of_get? hc
    cases c <;> simp only [Clause.name, String.reduceEq] at hname
    next table' modifier => exact ⟨table', modifier, hget⟩

theorem InsertClauses.addReturning {env : Env} {s : Statement ρ} {columns : List String} {rows : List (List Value)}
    {cs : Clauses} (h : InsertClauses env s columns rows cs) (returned : List String) :
    InsertClauses env s columns rows (cs.addIfAbsent (.returning returned)) := by
  obtain ⟨⟨table, modifier, hinsert⟩, hvalues, hconflict⟩ := h
  refine ⟨⟨table, modifier, ?_⟩, ?_, ?_⟩
  · rw [cs.get?_addIfAbsent (by simp [Clause.name]), hinsert]
  · rw [cs.get?_addIfAbsent (by simp [Clause.name]), hvalues]
  · rw [cs.conflict?_addIfAbsent (by simp [Clause.name]), hconflict]

/-- An insert with these clauses: the destination has its stamps, and the text is that of the
    clauses named. -/
def writtenInsert (env : Env) (s : Statement ρ) (stamped : ρ) (cs : Clauses) : Statement ρ :=
  { s.setDestination stamped with clauses := cs, sql := s.sql.writeAll env.dialect (cs.pieces s.buildClauses) }

theorem setDestination_withClauses (s : Statement ρ) (cs : Clauses) (x : ρ) :
    { s with clauses := cs }.setDestination x = { s.setDestination x with clauses := cs } := by
  unfold Statement.setDestination
  dsimp only
  split <;> rfl

/-- Once the collision clause is spelled out only clauses are added, and then the text is written. -/
theorem Spelled.insert {env : Env} {s s' : Statement ρ} {table : String} {columns : List String} {stamped : ρ}
    (h : Spelled env columns ((s.addClauseIfAbsent (.insert table none)).setDestination stamped) s')
    (rows : List (List Value)) :
    InsertClauses env s columns rows (s'.clauses.add (.values columns rows)) ∧
      ∀ cs, { s' with clauses := cs }.buildDefault env.dialect = writtenInsert env s stamped cs := by
  have hbefore : (s.addClauseIfAbsent (.insert table none)).setDestination stamped =
      { s.setDestination stamped with clauses := s.clauses.addIfAbsent (.insert table none) } :=
    setDestination_withClauses s _ stamped
  rw [hbefore] at h
  have hs' : s' = { s.setDestination stamped with clauses := s'.clauses } := h.statement
  refine ⟨?_, fun cs => ?_⟩
  · obtain ⟨table', modifier, hinsert⟩ := get?_addInsert s.clauses table
    refine ⟨⟨table', modifier, ?_⟩, ?_, ?_⟩
    · rw [Clauses.get?_add, if_neg (by simp [Clause.name]), h.others "INSERT" (by decide), hinsert]
    · exact s'.clauses.get?_add (.values columns rows) "VALUES"
    · rw [Clauses.conflict?_add _ (by simp [Clause.name]), h.conflict,
        Clauses.conflict?_addIfAbsent _ (by simp [Clause.name]), show (s.setDestination stamped).schema = s.schema from
          (s.setDestination_same stamped).1]
  · obtain ⟨hsql, -, hnames⟩ := s.setDestination_unwritten stamped
    rw [hs']
    show ({ s.setDestination stamped with clauses := cs, sql := _ } : Statement ρ) = _
    rw [hsql, hnames]
    rfl

theorem prepareInsert_written [Record ρ] {env : Env} {s : Statement ρ} (h : (prepareInsert env s).failed = false) :
    ∃ dest values cs, s.destination? = some dest ∧
      (collectValues env.now s.shape s.schema dest).2 = .ok values ∧
      prepareInsert env s = writtenInsert env s (collectValues env.now s.shape s.schema dest).1 cs ∧
      InsertClauses env s values.columns values.rows cs := by
  generalize hs' : prepareInsert env s = s' at h ⊢
  unfold prepareInsert at hs'
  -- all branches but the last record an error
  split at hs'
  · subst hs'
    cases h
  · next table _ =>
    dsimp only at hs'
    split at hs'
    · subst hs'
      cases h
    · next dest hdest =>
      rcases hcollect : collectValues env.now s.shape s.schema dest with ⟨stamped, e | values⟩ <;>
        rw [show collectValues env.now (s.addClauseIfAbsent (.insert table none)).shape
          (s.addClauseIfAbsent (.insert table none)).schema dest = _ from hcollect] at hs' <;>
        dsimp only at hs'
      · subst hs'
        cases h
      · split at hs'
        · subst hs'
          cases h
        · next hexpand =>
          obtain ⟨hclauses, hwritten⟩ := (expandOnConflict_spelled hexpand).insert values.rows
          split at hs'
          · subst hs'
            exact ⟨dest, values, _, hdest, by rw [hcollect], by rw [hcollect]; exact hwritten _, hclauses⟩
          · subst hs'
            exact ⟨dest, values, _, hdest, by rw [hcollect], by rw [hcollect]; exact hwritten _,
              hclauses.addReturning _⟩

theorem StageKind.written_create [Record ρ] (env : Env) {s : Statement ρ} (h : s.hasText = false) :
    StageKind.create.written env s = prepareInsert env s := by
  unfold StageKind.written
  rw [if_neg (by simp [h])]

end SqlPipeline
