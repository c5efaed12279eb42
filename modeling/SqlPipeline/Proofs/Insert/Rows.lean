/-
  SqlPipeline.Proofs.Insert.Rows — how many rows an insert of a list describes.

  An insert names the columns the database does not fill, and of the others those that every
  row sets. Each row of the list becomes a tuple of values. When no column is left there are
  no tuples either: the text says DEFAULT VALUES, and that describes one row.

  - `rowsDescribed_values`: the rows a text describes, read off the text.
  - `create_describes_rows`: a create of a list sends nothing, or one insert; it describes every
    record of the list exactly when there is but one or a column is named.
  - `create_of_blank_tickets`: two records, neither with a column to name, and one row.
-/

import Mathlib
import SqlPipeline.Proofs.Execution.Steady
import SqlPipeline.Proofs.Insert.Written

namespace SqlPipeline

open Operation

/-! ## Reading the text -/

/-- The rows described by the part of an insert that holds its values: one for DEFAULT VALUES,
    otherwise one for each parenthesis that is opened after the keyword. -/
def rowsDescribed (pieces : List Piece) : Nat :=
  if pieces = [.text "DEFAULT VALUES"] then 1
  else (pieces.dropWhile (· != .text ") VALUES ")).count (.text "(")

theorem count_commaSeparated {p : Piece} (hp : p ≠ .text ",") (pss : List (List Piece)) :
    (Piece.commaSeparated pss).count p = pss.flatten.count p := by
  induction pss with
  | nil => rfl
  | cons ps pss ih =>
    cases pss with
    | nil => simp [Piece.commaSeparated]
    | cons qs rest =>
      rw [Piece.commaSeparated_cons_cons, List.count_append, List.count_cons_of_ne (Ne.symm hp), ih]
      exact List.count_append.symm

theorem count_rowPieces (row : List Value) : (Clause.rowPieces row).count (.text "(") = 1 := by
  have hcells : (row.map fun v => [Piece.param v]).flatten.count (.text "(") = 0 := by
    induction row with
    | nil => rfl
    | cons v row ih => exact (List.count_cons_of_ne (by simp)).trans ih
  unfold Clause.rowPieces
  rw [List.count_append, List.count_cons_self, count_commaSeparated (by decide), hcells]
  rfl

theorem count_rows (rows : List (List Value)) :
    (rows.map Clause.rowPieces).flatten.count (.text "(") = rows.length := by
  induction rows with
  | nil => rfl
  | cons row rows ih =>
    rw [List.map_cons, List.flatten_cons, List.count_append, count_rowPieces, ih, List.length_cons, Nat.add_comm]

theorem rowsDescribed_values (columns : List String) (rows : List (List Value)) :
    rowsDescribed (Clause.values columns rows).pieces = if columns.isEmpty then 1 else rows.length := by
  have hpieces : (Clause.values columns rows).pieces =
      if columns.isEmpty then [.text "DEFAULT VALUES"]
      else .text "(" :: Clause.columnPieces columns ++ .text ") VALUES " ::
        Piece.commaSeparated (rows.map Clause.rowPieces) := rfl
  rw [hpieces]
  unfold rowsDescribed
  cases hc : columns.isEmpty with
  | true => rfl
  | false =>
    have hnames : ∀ p ∈ Piece.text "(" :: Clause.columnPieces columns, (p != .text ") VALUES ") = true := by
      intro p hp
      rcases List.mem_cons.mp hp with rfl | hp
      · decide
      · rcases Piece.mem_commaSeparated hp with rfl | ⟨ps, hps, hp⟩
        · decide
        · obtain ⟨column, -, rfl⟩ := List.mem_map.mp hps
          rw [List.mem_singleton.mp hp]
          rfl
    rw [if_neg (by simp), if_neg (by simp), if_neg (by simp), List.dropWhile_append_of_pos hnames,
      List.dropWhile_cons_of_neg (by decide), List.count_cons_of_ne (by decide), count_commaSeparated (by decide),
      count_rows]

/-! ## Collecting the values -/

section Values

variable {ρ : Type} [Record ρ] (schema : Schema) (now : Instant)

theorem collectRow_length (row : Nat) {columns : List String} {dest : ρ} {cells : List Value}
    (h : (collectRow schema now row columns dest).2 = .ok cells) : cells.length = columns.length := by
  induction columns generalizing dest cells with
  | nil =>
    cases h
    rfl
  | cons column columns ih =>
    unfold collectRow at h
    extract_lets held stamps written at h
    split at h
    · cases h
    · dsimp only at h
      rcases hrest : (collectRow schema now row columns written.state).2 with e | rest <;> rw [hrest] at h <;> cases h
      rw [List.length_cons, List.length_cons, ih hrest]

/-- A tuple for each row, and a cell in it for each column. -/
theorem collectRows_length (columns : List String) {rows : List Nat} {dest : ρ} {tuples : List (List Value)}
    (h : (collectRows schema now columns rows dest).2 = .ok tuples) :
    tuples.length = rows.length ∧ ∀ tuple ∈ tuples, tuple.length = columns.length := by
  induction rows generalizing dest tuples with
  | nil =>
    cases h
    exact ⟨rfl, by simp⟩
  | cons row rows ih =>
    unfold collectRows at h
    split at h
    · cases h
    · next dest' cells hrow =>
      generalize hrest : collectRows schema now columns rows dest' = rest at h
      rcases rest with ⟨dest'', e | all⟩ <;> cases h
      obtain ⟨hlength, hcells⟩ := ih (by rw [hrest])
      refine ⟨by rw [List.length_cons, List.length_cons, hlength], List.forall_mem_cons.mpr ⟨?_, hcells⟩⟩
      exact collectRow_length schema now row (by rw [hrow])

/-- A column is named: one the database does not fill, or one that all rows set. -/
def NamesColumn (dest : ρ) (rows : Nat) : Prop :=
  ∃ f ∈ schema.fields, f.hasDefault = false ∨ ∀ row < rows, isUnset dest f.name row = false

theorem namesColumn_iff (dest : ρ) (rows : Nat) :
    NamesColumn schema dest rows ↔ insertColumns schema dest rows ≠ [] := by
  unfold NamesColumn insertColumns
  rw [ne_eq, List.map_eq_nil_iff, List.filter_eq_nil_iff]
  simp [or_iff_not_imp_left]

/-- The values of a list: the columns it names, and a tuple for each of its records. -/
theorem collectValues_list {n : Nat} {dest : ρ} {values : Values}
    (h : (collectValues now (.list n) (some schema) dest).2 = .ok values) :
    values.columns = insertColumns schema dest n ∧ values.rows.length = n ∧
      ∀ tuple ∈ values.rows, tuple.length = values.columns.length := by
  cases n with
  | zero => cases h
  | succ n =>
    have hcollect : collectValues now (.list (n + 1)) (some schema) dest =
        let collected := collectRows schema now (insertColumns schema dest (n + 1)) (List.range (n + 1)) dest
        (collected.1, collected.2.map fun rows => { columns := insertColumns schema dest (n + 1), rows }) := rfl
    rw [hcollect] at h
    dsimp only at h
    rcases hrows : (collectRows schema now (insertColumns schema dest (n + 1)) (List.range (n + 1)) dest).2 with
      e | tuples <;> rw [hrows] at h <;> cases h
    obtain ⟨hlength, hcells⟩ := collectRows_length schema now _ hrows
    exact ⟨rfl, hlength.trans List.length_range, hcells⟩

end Values

/-! ## The execution -/

variable {ρ : Type}

/-- The clauses an insert writes by default, when it is prepared: first the insert, then the
    values; those that may follow have no rows. -/
theorem InsertClauses.present {env : Env} {s : Statement ρ} {columns : List String} {rows : List (List Value)}
    {cs : Clauses} (h : InsertClauses env s columns rows cs) :
    ∃ insert rest, cs.present ({} : Config).createClauses = insert :: .values columns rows :: rest ∧
      insert.name = "INSERT" ∧ ∀ c ∈ rest, c.name = "ON CONFLICT" ∨ c.name = "RETURNING" := by
  obtain ⟨table, modifier, hinsert⟩ := h.insert
  refine ⟨.insert table modifier, cs.present ["ON CONFLICT", "RETURNING"], ?_, rfl, fun c hc => ?_⟩
  · show cs.present ["INSERT", "VALUES", "ON CONFLICT", "RETURNING"] = _
    rw [Clauses.present_cons hinsert rfl, Clauses.present_cons h.values rfl]
  · obtain ⟨⟨name, hname, hget⟩, -⟩ := Clauses.mem_present.mp hc
    rw [Clauses.name_of_get? hget]
    simpa using hname

variable [Record ρ]

/-- A create of a list, with the clauses as they come by default. -/
theorem create_describes_rows (env : Env) (hsteps : env.config.skipDefaultSteps = false)
    (records : List (Destination Row)) (r : Run ρ) :
    let st := (Database.openWith env records).stages .create
    let start := (StageKind.create.hooked (st.ready env r)).statement
    let done := st.execute env r
    ∀ {schema n}, start.schema = some schema → start.shape = .list n → start.hasText = false →
      start.buildClauses = ({} : Config).createClauses →
      done.calls = r.calls ∨
        ∃ call dest insert columns rows rest,
          done.calls = r.calls ++ [call] ∧ start.destination? = some dest ∧
          (⟨call.sql, call.params⟩ : Rendered) =
            start.sql.writeAll env.dialect (Clause.spaced (insert :: .values columns rows :: rest)) ∧
          insert.name = "INSERT" ∧ (∀ c ∈ rest, c.name = "ON CONFLICT" ∨ c.name = "RETURNING") ∧
          (∀ tuple ∈ rows, tuple.length = columns.length) ∧
          (rowsDescribed (Clause.values columns rows).pieces = n ↔ n = 1 ∨ NamesColumn schema dest n) ∧
          (¬ NamesColumn schema dest n → rowsDescribed (Clause.values columns rows).pieces = 1) := by
  intro st start done schema n hschema hshape htext hnames
  obtain ⟨hbefore, hcalls, -⟩ := StageKind.opened_sends hsteps records .create r
  obtain ⟨call, hwent⟩ := StageKind.executing_went env .create (StageKind.create.hooked (st.ready env r))
  rw [show done.calls = _ from hcalls, hwent.calls, show _ = r.calls from hbefore]
  cases hwent with
  | idle => exact Or.inl (List.append_nil _)
  | written => exact Or.inl (List.append_nil _)
  | sent _ _ sound =>
    rw [StageKind.written_create env htext] at sound ⊢
    obtain ⟨dest, values, cs, hdest, hcollect, hprepared, hclauses⟩ := prepareInsert_written sound
    rw [hschema, hshape] at hcollect
    obtain ⟨hcolumns, hcount, hcells⟩ := collectValues_list schema env.now hcollect
    obtain ⟨insert, rest, hpresent, hinsert, hrest⟩ := hclauses.present
    have hsql : (prepareInsert env start).sql = start.sql.writeAll env.dialect (cs.pieces start.buildClauses) := by
      rw [show prepareInsert env start = _ from hprepared]
      rfl
    have hdescribed : rowsDescribed (Clause.values values.columns values.rows).pieces =
        if values.columns.isEmpty then 1 else n := by rw [rowsDescribed_values, hcount]
    have hempty : NamesColumn schema dest n ↔ values.columns.isEmpty = false := by
      rw [namesColumn_iff, hcolumns]
      simp
    refine Or.inr ⟨_, dest, insert, values.columns, values.rows, rest, rfl, hdest, ?_, hinsert, hrest, hcells, ?_, ?_⟩
    · rw [← hpresent, ← hnames, ← Clauses.pieces_eq_spaced]
      exact hsql
    · rw [hdescribed, hempty]
      cases values.columns.isEmpty <;> simp [eq_comm]
    · intro hnone
      rw [hempty, Bool.not_eq_false] at hnone
      rw [hdescribed, if_pos hnone]

/-- Two notes with bodies are two tuples. -/
theorem create_of_two_notes :
    let env : Env := { now := ⟨1715000000, 0⟩ }
    let notes : Destination Row := .list noteModel [⟨[("body", .text "hi")]⟩, ⟨[("body", .text "ho")]⟩]
    let fresh : Statement (Destination Row) := Statement.fresh env.config
    let r : Run (Destination Row) := { statement := { fresh with dest := some (.value notes) } }
    let done := ((Database.openWith env []).stages .create).execute env r
    done.calls = [⟨.exec, "INSERT INTO \"notes\" (\"body\") VALUES (?),(?)", [.text "hi", .text "ho"]⟩] ∧
      ∃ insert columns rows rest,
        "INSERT INTO \"notes\" (\"body\") VALUES (?),(?)" =
          ((⟨"", []⟩ : Rendered).writeAll env.dialect (Clause.spaced (insert :: .values columns rows :: rest))).text ∧
        rowsDescribed (Clause.values columns rows).pieces = 2 := by
  intro env notes fresh r done
  have hready : ((Database.openWith env []).stages .create).ready env r = _ := Database.opened_ready env [] .create rfl
  have hdone : done = _ := Database.opened_execute env [] .create r
  have hcalls : done.calls =
      [⟨.exec, "INSERT INTO \"notes\" (\"body\") VALUES (?),(?)", [.text "hi", .text "ho"]⟩] := by
    rw [hdone, hready, (Run.conclude_idle env _ _).calls]
    cbv
  refine ⟨hcalls, ?_⟩
  have hstart : (StageKind.create.hooked (((Database.openWith env []).stages .create).ready env r)).statement =
      { fresh with
        model := some .alias, dest := some (.value notes), schema := some noteModel.schema, shape := .list 2
        buildClauses := ({} : Config).createClauses } := by
    rw [hready]
    rfl
  have hsent := @create_describes_rows _ _ env rfl [] r noteModel.schema 2 (by rw [hstart]) (by rw [hstart])
    (by rw [hstart]; rfl) (by rw [hstart])
  rcases hsent with hnone | ⟨call, dest, insert, columns, rows, rest, hcall, -, htext, -, -, -, hdescribed, -⟩
  · rw [show done.calls = [] from hnone] at hcalls
    cases hcalls
  · rw [show done.calls = [call] from hcall] at hcalls
    cases hcalls
    rw [hstart] at htext
    have hbody : NamesColumn noteModel.schema dest 2 := ⟨{ name := "body" }, by decide, Or.inl rfl⟩
    exact ⟨insert, columns, rows, rest, congrArg Rendered.text htext, hdescribed.mpr (Or.inr hbody)⟩

/-- Two tickets, of which nothing is known but that the database numbers them: one row. -/
theorem create_of_blank_tickets :
    let env : Env := { now := ⟨1715000000, 0⟩ }
    let tickets : Description :=
      { table := "tickets", columns := [{ name := "id", kind := .int, primaryKey := true, autoIncrement := true }] }
    let two : Destination Row := .list tickets.model [⟨[("id", .int 0)]⟩, ⟨[("id", .int 0)]⟩]
    let fresh : Statement (Destination Row) := Statement.fresh env.config
    let r : Run (Destination Row) := { statement := { fresh with dest := some (.value two) } }
    let done := ((Database.openWith env []).stages .create).execute env r
    two.size = 2 ∧ done.calls = [⟨.exec, "INSERT INTO \"tickets\" DEFAULT VALUES", []⟩] ∧
      done.statement.clause? "VALUES" = some (.values [] [[], []]) ∧
      rowsDescribed (Clause.values [] [[], []]).pieces = 1 := by
  intro env tickets two fresh r done
  have hready : ((Database.openWith env []).stages .create).ready env r = _ := Database.opened_ready env [] .create rfl
  have hdone : done = _ := Database.opened_execute env [] .create r
  rw [hready] at hdone
  refine ⟨rfl, ?_, ?_, by decide⟩
  · rw [hdone, (Run.conclude_idle env _ _).calls]
    cbv
  · rw [hdone, Statement.clause?, Run.conclude_statement, Run.cleared_clauses]
    cbv

end SqlPipeline
