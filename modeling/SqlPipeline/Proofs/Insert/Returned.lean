/-
  SqlPipeline.Proofs.Insert.Returned — where the rows an insert returns are written.

  Returned rows are copied onto the destination in order, one row each. A flag of the collision
  clause, as it is stored when the insert is sent, has rows passed over whose key is set. The
  text says DO NOTHING under the flag as well, but also when the clause has nothing to update,
  and only if the clause is among those written.

  - `writeReturned_placed`: the rows that are written to, known before the first is written.
  - `mem_conflictPieces`, `doesNothing_present`: when the text says DO NOTHING.
  - `returned_rows_placed`: over a whole execution; and when flag and text agree.
  - `create_with_nothing_to_update`: they need not, and a row that has its key is overwritten.
-/

import Mathlib
import SqlPipeline.Proofs.Execution.Steady
import SqlPipeline.Proofs.Insert.Written
import SqlPipeline.Proofs.Record.Rows

namespace SqlPipeline

open Operation

variable {μ : Type}

/-! ## The rows written to -/

namespace Operation

section

variable {ρ : Type} [Record ρ]

/-- The rows of the first `size` that returned rows are for: all, or with a key to look at those
    that have it unset. -/
def openRows (key : Option String) (size : Nat) (dest : ρ) : List Nat :=
  (List.range size).filter fun row => key.all (isUnset dest · row)

/-- Each row of cells written to its row of the destination, up to the first failure. -/
def placeRows (columns : List String) : List (Nat × List Value) → ρ → Attempt ρ
  | [], dest => ⟨dest, none⟩
  | (row, cells) :: rest, dest =>
    match setCells row (columns.zip cells) dest with
    | ⟨dest, none⟩ => placeRows columns rest dest
    | failed => failed

theorem drop_range_split {n row i : Nat} {before after : List Nat}
    (h : (List.range n).drop row = before ++ i :: after) :
    i = row + before.length ∧ i < n ∧ after = (List.range n).drop (i + 1) := by
  have hat : ((List.range n).drop row)[before.length]? = some i := by rw [h]; simp
  rw [List.getElem?_drop, List.getElem?_eq_some_iff] at hat
  obtain ⟨hlt, hi⟩ := hat
  rw [List.getElem_range] at hi
  rw [List.length_range] at hlt
  refine ⟨hi.symm, hi ▸ hlt, ?_⟩
  have hdrop : ((List.range n).drop row).drop (before.length + 1) = after := by rw [h]; simp
  rw [← hdrop, List.drop_drop, ← hi]
  rfl

/-- The next returned row goes to the first row that is open. -/
theorem target_of_open {key : Option String} {size row i : Nat} {rest : List Nat} {dest : ρ}
    (h : (((List.range size).drop row).filter fun row => key.all (isUnset dest · row)) = i :: rest) :
    (key.elim row fun key => nextUnset dest key size row) = i ∧ row ≤ i ∧ i < size ∧
      rest = ((List.range size).drop (i + 1)).filter fun row => key.all (isUnset dest · row) := by
  obtain ⟨before, after, hsplit, hbefore, -, hrest⟩ := List.filter_eq_cons_iff.mp h
  obtain ⟨hi, hlt, hafter⟩ := drop_range_split hsplit
  refine ⟨?_, by omega, hlt, by rw [← hrest, hafter]⟩
  cases key with
  | none =>
    have hnone : before = [] := List.eq_nil_iff_forall_not_mem.mpr fun x hx => hbefore x hx rfl
    rw [hi, hnone]
    rfl
  | some key =>
    show (((List.range size).drop row).find? (isUnset dest key)).getD size = i
    rw [← List.head?_filter, show ((List.range size).drop row).filter (isUnset dest key) = _ from h]
    rfl

/-- It goes nowhere when none is. -/
theorem target_of_none {key : Option String} {size row : Nat} {dest : ρ}
    (h : (((List.range size).drop row).filter fun row => key.all (isUnset dest · row)) = []) :
    size ≤ key.elim row fun key => nextUnset dest key size row := by
  cases key with
  | none =>
    have hdrop : (List.range size).drop row = [] := by simpa using h
    simpa using hdrop
  | some key =>
    show size ≤ (((List.range size).drop row).find? (isUnset dest key)).getD size
    rw [← List.head?_filter, show ((List.range size).drop row).filter (isUnset dest key) = _ from h]
    exact Nat.le_refl size

end

theorem setCells_outside {d : Destination μ} {row : Nat} (hrow : row < d.size) (cells : List (String × Value)) :
    Destination.Outside [row] d (setCells row cells d).state := by
  induction cells generalizing d with
  | nil => exact .refl [row] d
  | cons cell cells ih =>
    obtain ⟨column, v⟩ := cell
    have hwrite := Destination.setValue_outside hrow column v
    unfold setCells
    rcases hv : d.setValue row column v with ⟨d', _ | e⟩ <;>
      rw [show Record.setValue d row column v = _ from hv] <;> rw [hv] at hwrite
    · exact hwrite.trans (ih (hwrite.size ▸ hrow))
    · exact hwrite

/-- Writing a row leaves it to the rows behind it whether they are open. -/
theorem filter_open_outside {d d' : Destination μ} {i : Nat} (h : Destination.Outside [i] d d') (key : Option String)
    (size : Nat) :
    (((List.range size).drop (i + 1)).filter fun row => key.all (isUnset d' · row)) =
      ((List.range size).drop (i + 1)).filter fun row => key.all (isUnset d · row) := by
  refine List.filter_congr fun row hrow => ?_
  have hbehind : row ∉ [i] := by
    obtain ⟨j, hj, rfl⟩ := List.mem_drop_iff_getElem.mp hrow
    simp
    omega
  have hvalue : ∀ column, Record.value d' row column = Record.value d row column := h.value row hbehind
  cases key <;> simp [isUnset, hvalue]

theorem writeReturned_from (columns : List String) (key : Option String) (rows : List (List Value)) (row : Nat)
    (d : Destination μ) :
    writeReturned columns key d.size rows row d =
      placeRows columns ((((List.range d.size).drop row).filter fun row => key.all (isUnset d · row)).zip rows) d := by
  generalize hsize : d.size = size
  -- by induction on the rows that came: writing one of them closes no row behind it
  induction rows generalizing row d with
  | nil => simp [writeReturned, placeRows]
  | cons cells rest ih =>
    unfold writeReturned
    rcases hopen : ((List.range size).drop row).filter fun row => key.all (isUnset d · row) with _ | ⟨i, open'⟩
    · simp only [if_pos (target_of_none hopen)]
      rfl
    · obtain ⟨htarget, -, hi, hopen'⟩ := target_of_open hopen
      simp only [htarget, if_neg (Nat.not_le_of_lt hi), List.zip_cons_cons, placeRows]
      have houtside := setCells_outside (hsize ▸ hi) (columns.zip cells)
      rcases hset : setCells i (columns.zip cells) d with ⟨d', _ | e⟩
      · rw [hset] at houtside
        dsimp only
        rw [ih (i + 1) d' (houtside.size.trans hsize), filter_open_outside houtside, hopen']
      · rfl

/-- Which rows are written to does not depend on what is written to those before. -/
theorem writeReturned_placed (columns : List String) (key : Option String) (rows : List (List Value))
    (d : Destination μ) :
    writeReturned columns key d.size rows 0 d = placeRows columns ((openRows key d.size d).zip rows) d :=
  writeReturned_from columns key rows 0 d

theorem placeRows_outside (columns : List String) {pairs : List (Nat × List Value)} {d : Destination μ}
    (h : ∀ p ∈ pairs, p.1 < d.size) : Destination.Outside (pairs.map (·.1)) d (placeRows columns pairs d).state := by
  induction pairs generalizing d with
  | nil => exact .refl _ d
  | cons p pairs ih =>
    obtain ⟨row, cells⟩ := p
    obtain ⟨hrow, hrest⟩ := List.forall_mem_cons.mp h
    have hone : Destination.Outside (row :: pairs.map (·.1)) d (setCells row (columns.zip cells) d).state :=
      (setCells_outside hrow (columns.zip cells)).mono (by simp)
    unfold placeRows
    rcases hset : setCells row (columns.zip cells) d with ⟨d', _ | e⟩ <;> rw [hset] at hone
    · exact hone.trans ((ih fun p hp => hone.size ▸ hrest p hp).mono (List.subset_cons_self _ _))
    · exact hone

/-- Rows that are not open keep all they hold. -/
theorem placeRows_keeps (columns : List String) (key : Option String) (rows : List (List Value)) (d : Destination μ) :
    Destination.Outside (openRows key d.size d) d
      (placeRows columns ((openRows key d.size d).zip rows) d).state := by
  refine (placeRows_outside columns fun p hp => ?_).mono fun row hrow => ?_
  · have hopen := (List.of_mem_zip (show (p.1, p.2) ∈ _ from hp)).1
    exact List.mem_range.mp (List.mem_of_mem_filter hopen)
  · obtain ⟨p, hp, rfl⟩ := List.mem_map.mp hrow
    exact (List.of_mem_zip (show (p.1, p.2) ∈ _ from hp)).1

end Operation

/-! ## What the text says -/

/-- The text says that colliding rows are left as they are. -/
def DoesNothing (cs : List Clause) : Prop :=
  ∃ c, Clause.onConflict c ∈ cs ∧ Piece.text "DO NOTHING" ∈ (Clause.onConflict c).pieces

/-- Neither assignments nor columns look like the keyword. -/
theorem mem_conflictPieces (c : OnConflict) : Piece.text "DO NOTHING" ∈ Clause.conflictPieces c ↔ c.ignores = true := by
  have hcolumns : Piece.text "DO NOTHING" ∉ Clause.columnPieces c.target := by
    intro h
    rcases Piece.mem_commaSeparated h with h | ⟨ps, hps, h⟩
    · revert h
      decide
    · obtain ⟨column, -, rfl⟩ := List.mem_map.mp hps
      cases List.mem_singleton.mp h
  have hupdates : Piece.text "DO NOTHING" ∉
      Piece.commaSeparated (c.updates.map Clause.assignmentPieces ++ c.updateColumns.map Clause.excludedPieces) := by
    intro h
    rcases Piece.mem_commaSeparated h with h | ⟨ps, hps, h⟩
    · revert h
      decide
    · rcases List.mem_append.mp hps with hps | hps <;> obtain ⟨x, -, rfl⟩ := List.mem_map.mp hps <;>
        simp [Clause.assignmentPieces, Clause.excludedPieces] at h
  unfold Clause.conflictPieces
  cases c.ignores <;> cases c.target.isEmpty <;> simp [hcolumns, hupdates]

theorem doesNothing_present (cs : Clauses) (names : List String) :
    DoesNothing (cs.present names) ↔ "ON CONFLICT" ∈ names ∧ ∃ c, cs.conflict? = some c ∧ c.ignores = true := by
  constructor
  · rintro ⟨c, hmem, htext⟩
    obtain ⟨⟨name, hname, hget⟩, -⟩ := Clauses.mem_present.mp hmem
    have hc : "ON CONFLICT" = name := Clauses.name_of_get? hget
    subst hc
    exact ⟨hname, c, Clauses.conflict?_eq_some.mpr hget, (mem_conflictPieces c).mp htext⟩
  · rintro ⟨hname, c, hc, hignores⟩
    exact ⟨c, Clauses.mem_present.mpr ⟨⟨_, hname, Clauses.conflict?_eq_some.mp hc⟩, rfl⟩,
      (mem_conflictPieces c).mpr hignores⟩

/-! ## The flag -/

/-- Rows are passed over whose key is set. -/
def Clauses.skips (cs : Clauses) : Bool := cs.conflict?.any (·.doNothing)

theorem skippingKey?_eq {ρ : Type} (s : Statement ρ) :
    skippingKey? s = if s.clauses.skips then (s.schema.bind Schema.primary?).map (·.name) else none := by
  unfold skippingKey? Clauses.skips
  split
  · next c hget =>
    rw [Clauses.conflict?_eq_some.mpr hget]
    rfl
  · next hno =>
    have hnone : s.clauses.conflict? = none :=
      Option.eq_none_iff_forall_ne_some.mpr fun c hc => hno c (Clauses.conflict?_eq_some.mp hc)
    rw [hnone]
    rfl

/-- A clause that was spelled out has the flag exactly when there is nothing to update. -/
theorem expanded_ignores (schema : Schema) (now : Instant) (columns : List String) (c : OnConflict) :
    (expanded schema now columns c).ignores = (expanded schema now columns c).doNothing := by
  unfold expanded OnConflict.ignores
  dsimp only
  cases (columns.foldl (overwrite schema now) c).doNothing <;>
    cases (columns.foldl (overwrite schema now) c).updates.isEmpty &&
      (columns.foldl (overwrite schema now) c).updateColumns.isEmpty <;> rfl

/-- The flag tells of this clause what its text says: where it is written it has the flag, or is
    spelled out, or has something to update; elsewhere it does not have the flag. -/
def OnConflict.Tells (schema : Schema) (now : Instant) (columns names : List String) (c : OnConflict) : Prop :=
  if "ON CONFLICT" ∈ names then
    c.doNothing = true ∨ (c.updateAll = true ∧ columns ≠ []) ∨ c.updates ≠ [] ∨ c.updateColumns ≠ []
  else (c.spelledOut (some schema) now columns).doNothing = false

theorem ignores_eq_flag_iff (schema : Schema) (now : Instant) (columns : List String) (c : OnConflict) :
    (c.spelledOut (some schema) now columns).ignores = (c.spelledOut (some schema) now columns).doNothing ↔
      c.doNothing = true ∨ (c.updateAll = true ∧ columns ≠ []) ∨ c.updates ≠ [] ∨ c.updateColumns ≠ [] := by
  have hspelled : c.spelledOut (some schema) now columns =
      if c.updateAll && !columns.isEmpty then expanded schema now columns c else c := rfl
  rw [hspelled]
  by_cases hall : (c.updateAll && !columns.isEmpty) = true
  · rw [if_pos hall]
    have hboth : c.updateAll = true ∧ columns ≠ [] := by simpa using hall
    exact ⟨fun _ => Or.inr (Or.inl hboth), fun _ => expanded_ignores schema now columns c⟩
  · rw [if_neg hall]
    have hnot : ¬ (c.updateAll = true ∧ columns ≠ []) := by simpa using hall
    unfold OnConflict.ignores
    cases c.doNothing <;> simp [hnot, imp_iff_not_or]

theorem skips_iff_doesNothing {ρ : Type} {env : Env} {s : Statement ρ} {schema : Schema}
    (hschema : s.schema = some schema) {columns : List String} {rows : List (List Value)} {cs : Clauses}
    (h : InsertClauses env s columns rows cs) (names : List String) :
    (cs.skips = true ↔ DoesNothing (cs.present names)) ↔
      ∀ c, s.clauses.conflict? = some c → c.Tells schema env.now columns names := by
  have hconflict := h.conflict
  rw [hschema] at hconflict
  rw [doesNothing_present]
  unfold Clauses.skips
  rw [hconflict]
  cases hc : s.clauses.conflict? with
  | none => simp
  | some c =>
    have hagree := ignores_eq_flag_iff schema env.now columns c
    unfold OnConflict.Tells
    by_cases hname : "ON CONFLICT" ∈ names
    · simp only [Option.map_some, Option.any_some, Option.some.injEq, exists_eq_left', forall_eq', hname, true_and,
        if_true]
      rw [← hagree]
      exact ⟨fun h => (Bool.eq_iff_iff.mpr h).symm, fun h => Bool.eq_iff_iff.mp h.symm⟩
    · simp [hname]

/-! ## The execution -/

/-- Writing back puts what was made of the destination in its place, with the failure recorded. -/
theorem writeBack_some {ρ : Type} {s : Statement ρ} {dest : ρ} (hdest : s.destination? = some dest)
    (f : ρ → Attempt ρ) :
    (writeBack f s).destination? = some (f dest).state ∧
      (writeBack f s).error = (f dest).error.elim s.error fun e => some (e.added s.error) := by
  have hset := Statement.destination?_setDestination hdest (f dest).state
  have herror : (s.setDestination (f dest).state).error = s.error := by
    unfold Statement.setDestination
    split <;> rfl
  unfold writeBack
  rw [hdest]
  dsimp only
  cases (f dest).error with
  | none => exact ⟨hset, herror⟩
  | some e => exact ⟨hset, congrArg (fun before => some (e.added before)) herror⟩

theorem takeReturned_placed (rows : Rows) {s : Statement (Destination μ)} (hfree : s.failed = false)
    {dest : Destination μ} (hdest : s.destination? = some dest) :
    let key := if s.clauses.skips then (s.schema.bind Schema.primary?).map (·.name) else none
    let placed := placeRows rows.columns ((openRows key dest.size dest).zip rows.values) dest
    (takeReturned rows s).destination? = some placed.state ∧ (takeReturned rows s).error = placed.error := by
  intro key placed
  have hwritten : writeReturned rows.columns (skippingKey? s) dest.size rows.values 0 dest = placed := by
    rw [skippingKey?_eq, writeReturned_placed]
  obtain ⟨hstate, herror⟩ := writeBack_some (s := { s with rowsAffected := rows.size }) hdest fun dest =>
    writeReturned rows.columns (skippingKey? s) (Record.size dest) rows.values 0 dest
  have hnone : s.error = none := by simpa [Statement.failed] using hfree
  refine ⟨hstate.trans (congrArg (fun a => some a.state) hwritten), herror.trans ?_⟩
  rw [show writeReturned rows.columns (skippingKey? s) (Record.size dest) rows.values 0 dest = placed from hwritten]
  rw [show ({ s with rowsAffected := rows.size } : Statement _).error = none from hnone]
  cases placed.error <;> rfl

/-- Where the text returns rows, it is sent as a query. -/
theorem verb_of_returning {ρ : Type} {s : Statement ρ} {columns : List String}
    (h : Clause.returning columns ∈ s.clauses.present s.buildClauses) : StageKind.create.verb s = .query := by
  obtain ⟨⟨name, hname, hget⟩, -⟩ := Clauses.mem_present.mp h
  have hc : "RETURNING" = name := Clauses.name_of_get? hget
  subst hc
  have hnamed : s.writes "RETURNING" = true := by simpa [Statement.writes] using hname
  have hthere : (s.clause? "RETURNING").isSome = true := Option.isSome_of_eq_some hget
  show (if _ then _ else _) = _
  rw [hthere, hnamed]
  rfl

/-- An insert that was prepared and is asked for rows, and the rows come. -/
theorem create_answered {ρ : Type} [Record ρ] (env : Env) {start : Run ρ} (hfree : start.failed = false)
    (htext : start.statement.hasText = false) :
    let sent := prepareInsert env start.statement
    sent.failed = false → sent.dryRun = false → StageKind.create.verb sent = .query →
      ∀ {pool rows}, start.pool.query = (pool, .ok rows) →
        let executed := StageKind.create.executing.run env start
        executed.statement = takeReturned rows sent ∧
          executed.calls = start.calls ++ [⟨.query, sent.sql.text, sent.sql.params⟩] := by
  intro sent hsound hlive hverb pool rows hanswer executed
  have hwritten : StageKind.create.written env start.statement = sent := StageKind.written_create env htext
  have hrun : executed = StageKind.create.deliver env { start with statement := sent } := by
    have hdelivered := StageKind.executing_delivered env .create hfree
    rw [hwritten] at hdelivered
    exact hdelivered hlive hsound rfl
  have hresponse : start.pool.respond (StageKind.create.verb sent) = (pool, .returned rows) := by
    rw [hverb, Pool.respond, hanswer]
  refine ⟨?_, ?_⟩
  · rw [hrun]
    show StageKind.create.taken env sent (start.pool.respond (StageKind.create.verb sent)).2 = _
    rw [hresponse]
    rfl
  · rw [hrun, StageKind.deliver_calls, StageKind.call, hverb]
    rfl

/-- A create with a schema and without a text of its own, whose insert returns rows. The rows
    go to the rows of the destination in order: to all of them, or, under the flag, to those
    whose key is not set. The flag says what the text says exactly if the caller's collision
    clause tells (`OnConflict.Tells`). -/
theorem returned_rows_placed (env : Env) (hsteps : env.config.skipDefaultSteps = false)
    (records : List (Destination Row)) (r : Run (Destination μ)) :
    let st := (Database.openWith env records).stages .create
    let start := StageKind.create.hooked (st.ready env r)
    let s := start.statement
    let sent := prepareInsert env s
    let written := sent.clauses.present s.buildClauses
    let executed := (StageKind.create.executing.run env start).statement
    ∀ {schema returned rows pool}, start.failed = false → s.hasText = false → s.schema = some schema →
      sent.failed = false → sent.dryRun = false → Clause.returning returned ∈ written →
      start.pool.query = (pool, .ok rows) →
      ∃ dest columns tuples,
        (st.execute env r).calls = r.calls ++ [⟨.query, sent.sql.text, sent.sql.params⟩] ∧
        sent.sql = s.sql.writeAll env.dialect (Clause.spaced written) ∧
        sent.clause? "VALUES" = some (.values columns tuples) ∧ sent.destination? = some dest ∧
        (let key := if sent.clauses.skips then schema.primary?.map (·.name) else none
          let placed := placeRows rows.columns ((openRows key dest.size dest).zip rows.values) dest
          executed.destination? = some placed.state ∧ executed.error = placed.error ∧
            Destination.Outside (openRows key dest.size dest) dest placed.state) ∧
        ((sent.clauses.skips = true ↔ DoesNothing written) ↔
          ∀ c, s.clauses.conflict? = some c → c.Tells schema env.now columns s.buildClauses) := by
  intro st start s sent written executed schema returned rows pool hfree htext hschema hsound hlive hreturning hanswer
  obtain ⟨hbefore, hcalls, -⟩ := StageKind.opened_sends hsteps records .create r
  obtain ⟨dest₀, values, cs, hdest₀, -, hprepared, hclauses⟩ := prepareInsert_written hsound
  generalize hdest' : (collectValues env.now s.shape s.schema dest₀).1 = dest at hprepared
  have hcs : sent.clauses = cs := congrArg Statement.clauses hprepared
  have hnames : sent.buildClauses = s.buildClauses :=
    (congrArg Statement.buildClauses hprepared).trans (s.setDestination_unwritten dest).buildClauses
  have hsql : sent.sql = s.sql.writeAll env.dialect (cs.pieces s.buildClauses) := congrArg Statement.sql hprepared
  have hschema' : sent.schema = some schema :=
    (congrArg Statement.schema hprepared).trans ((s.setDestination_same dest).1.trans hschema)
  have hdest : sent.destination? = some dest :=
    (congrArg Statement.destination? hprepared).trans (Statement.destination?_setDestination hdest₀ dest)
  have hverb : StageKind.create.verb sent = .query := verb_of_returning (by rw [hnames]; exact hreturning)
  obtain ⟨hexecuted, hcall⟩ := create_answered env hfree htext hsound hlive hverb hanswer
  refine ⟨dest, values.columns, values.rows, ?_, ?_, ?_, hdest, ?_, ?_⟩
  · rw [show (st.execute env r).calls = _ from hcalls, hcall, show start.calls = _ from hbefore]
  · rw [hsql, ← hcs, Clauses.pieces_eq_spaced]
  · rw [← hclauses.values, ← hcs]
    rfl
  · rw [show executed = _ from hexecuted]
    obtain ⟨hstate, herror⟩ := takeReturned_placed rows hsound hdest
    rw [hschema'] at hstate herror
    exact ⟨hstate, herror, placeRows_keeps rows.columns _ rows.values dest⟩
  · show (sent.clauses.skips = true ↔ DoesNothing (sent.clauses.present s.buildClauses)) ↔ _
    rw [hcs]
    exact skips_iff_doesNothing hschema hclauses s.buildClauses

/-! ## One row has its key -/

def usersTable : Description :=
  { table := "users"
    columns :=
      [{ name := "id", kind := .int, primaryKey := true, autoIncrement := true }, { name := "name", kind := .text }] }

/-- Ann has a key, Bob has none. -/
def annAndBob : Destination Row :=
  .list usersTable.model [⟨[("id", .int 5), ("name", .text "ann")]⟩, ⟨[("id", .int 0), ("name", .text "bob")]⟩]

/-- The two are about to be inserted, and the database returns the key 9. -/
def annAndBobAgainst (c : OnConflict) : Run (Destination Row) :=
  { statement := { dest := some (.value annAndBob), clauses := ⟨[.onConflict c]⟩ }
    pool := { queued := [⟨["id"], [[.int 9]]⟩] } }

/-- The clause has nothing to update, so the text says DO NOTHING; but the flag is off, and the
    key that was Bob's goes to Ann, who had one. -/
theorem create_with_nothing_to_update :
    let env : Env := { dialect := Dialect.generic .numbered, now := ⟨1715000000, 0⟩ }
    let done := ((Database.openWith env []).stages .create).execute env (annAndBobAgainst { target := ["name"] })
    done.calls =
        [⟨.query,
          "INSERT INTO \"users\" (\"name\") VALUES ($1),($2) ON CONFLICT (\"name\") DO NOTHING RETURNING \"id\"",
          [.text "ann", .text "bob"]⟩] ∧
      done.statement.destination?.map (fun d => (d.value 0 "id", d.value 1 "id")) =
        some (some (.int 9), some (.int 0)) := by
  intro env done
  have hready : ((Database.openWith env []).stages .create).ready env (annAndBobAgainst { target := ["name"] }) = _ :=
    Database.opened_ready env [] .create rfl
  have hdone : done = _ := Database.opened_execute env [] .create (annAndBobAgainst { target := ["name"] })
  rw [hready] at hdone
  refine ⟨?_, ?_⟩
  · rw [hdone, (Run.conclude_idle env _ _).calls]
    cbv
  · rw [hdone, Run.conclude_statement]
    cbv

/-- With the flag on, the same text is sent, Ann keeps her key and Bob gets his. -/
theorem create_doing_nothing :
    let env : Env := { dialect := Dialect.generic .numbered, now := ⟨1715000000, 0⟩ }
    let r : Run (Destination Row) := annAndBobAgainst { target := ["name"], doNothing := true }
    let start := StageKind.create.hooked (((Database.openWith env []).stages .create).ready env r)
    let sent := prepareInsert env start.statement
    let executed := (StageKind.create.executing.run env start).statement
    DoesNothing (sent.clauses.present start.statement.buildClauses) ∧ executed.error = none ∧
      ∃ placed : Destination Row, executed.destination? = some placed ∧ placed.value 0 "id" = some (.int 5) ∧
        placed.value 1 "id" = some (.int 9) := by
  intro env r start sent executed
  have hready : ((Database.openWith env []).stages .create).ready env r = _ := Database.opened_ready env [] .create rfl
  have hstart : start.statement =
      { r.statement with
        model := some .alias, schema := some usersTable.model.schema, shape := .list 2
        buildClauses := ({} : Config).createClauses } := by
    show (StageKind.create.hooked _).statement = _
    rw [hready]
    rfl
  have hpool : start.pool.query = ({}, .ok ⟨["id"], [[.int 9]]⟩) := by
    show (StageKind.create.hooked _).pool.query = _
    rw [hready]
    rfl
  have hfree : start.failed = false := by
    show start.statement.failed = false
    rw [hstart]
    rfl
  have hsent : sent = prepareInsert env _ := congrArg (prepareInsert env) hstart
  have hsound : sent.failed = false := by rw [hsent]; cbv
  have hlive : sent.dryRun = false := by rw [hsent]; cbv
  have hreturning : Clause.returning ["id"] ∈ sent.clauses.present start.statement.buildClauses :=
    Clauses.mem_present.mpr ⟨⟨"RETURNING", by rw [hstart]; decide, by rw [hsent]; cbv⟩, rfl⟩
  obtain ⟨dest, columns, tuples, -, -, -, hdest, ⟨hstate, herror, -⟩, hagree⟩ :=
    returned_rows_placed env rfl [] r hfree (by rw [hstart]; rfl) (by rw [hstart]) hsound hlive hreturning hpool
  have hskips : sent.clauses.skips = true := by rw [hsent]; cbv
  have hhere : dest = annAndBob := by
    have hsame : sent.destination? = some annAndBob := by rw [hsent]; rfl
    exact Option.some.inj ((show sent.destination? = some dest from hdest).symm.trans hsame)
  subst hhere
  rw [show (prepareInsert env _).clauses.skips = true from hskips] at hstate herror
  refine ⟨(hagree.mpr fun c hc => ?_).mp hskips, herror.trans (by cbv), _, hstate, by cbv, by cbv⟩
  rw [hstart] at hc ⊢
  cases hc
  exact (if_pos (by decide)).mpr (Or.inl rfl)

end SqlPipeline
