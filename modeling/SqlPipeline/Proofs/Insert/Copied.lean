/-
  SqlPipeline.Proofs.Insert.Copied — returned rows on the rows they are for.

  Returned rows and open rows are paired in order, as far as both go. Each pair is a series of
  writes to one row, and no row is in two pairs; so in a destination that stores the columns
  returned, a row that is paired reads as its returned row under the names that has cells for,
  the last of a name, and all else reads as before.

  - `setCells_stored`, `placeRows_stored`: one row, and the pairs after each other.
  - `returned_rows_copied`: taking what an insert returns.
-/

import SqlPipeline.Proofs.Insert.Returned
import SqlPipeline.Proofs.Record.Stored

namespace SqlPipeline

open Operation

/-- The last cell of that name. -/
def lastCell? (column : String) (cells : List (String × Value)) : Option Value :=
  (cells.reverse.find? (·.1 == column)).map (·.2)

namespace Operation

section

variable {ρ : Type} [Record ρ]

theorem setCells_eq (row : Nat) (cells : List (String × Value)) (dest : ρ) :
    setCells row cells dest = Record.writeAll (cells.map fun c => ⟨row, c.1, c.2⟩) dest := by
  induction cells generalizing dest with
  | nil => rfl
  | cons cell cells ih =>
    rw [List.map_cons, setCells, Record.writeAll]
    dsimp only
    rcases Record.setValue dest row cell.1 cell.2 with ⟨d, _ | e⟩
    · exact ih d
    · rfl

theorem lastWritten?_cells (row row' : Nat) (column : String) (cells : List (String × Value)) :
    lastWritten? row' column (cells.map fun c => ⟨row, c.1, c.2⟩) =
      if row' = row then lastCell? column cells else none := by
  unfold lastWritten? lastCell?
  rw [← List.map_reverse, List.find?_map, Option.map_map]
  by_cases h : row' = row
  · rw [if_pos h, h]
    simp [Function.comp_def]
  · rw [if_neg h]
    simp [Ne.symm h]

variable {columns : List String} {dest after : ρ}

/-- A row that cells are written to reads as the last of each name. -/
theorem setCells_stored {row : Nat} {cells : List (String × Value)} (hstores : Record.Stores (· ∈ columns) dest)
    (hcells : ∀ c ∈ cells, c.1 ∈ columns) (h : setCells row cells dest = ⟨after, none⟩) :
    Record.Stores (· ∈ columns) after ∧ ∀ row' column, Record.value after row' column =
      if row' = row then (lastCell? column cells).or (Record.value dest row' column)
      else Record.value dest row' column := by
  rw [setCells_eq] at h
  have hws : ∀ w ∈ cells.map fun c => CellWrite.mk row c.1 c.2, w.column ∈ columns := by
    intro w hw
    obtain ⟨c, hc, rfl⟩ := List.mem_map.mp hw
    exact hcells c hc
  refine ⟨hstores.after hws h, fun row' column => ?_⟩
  rw [hstores _ after hws h, lastWritten?_cells]
  split <;> rfl

/-- Rows of cells that go to different rows. -/
theorem placeRows_stored {pairs : List (Nat × List Value)} (hrows : (pairs.map (·.1)).Nodup)
    (hstores : Record.Stores (· ∈ columns) dest) (h : placeRows columns pairs dest = ⟨after, none⟩) :
    (∀ p ∈ pairs, ∀ column, Record.value after p.1 column =
      (lastCell? column (columns.zip p.2)).or (Record.value dest p.1 column)) ∧
    ∀ row, row ∉ pairs.map (·.1) → ∀ column, Record.value after row column = Record.value dest row column := by
  induction pairs generalizing dest with
  | nil =>
    cases h
    exact ⟨by simp, fun _ _ _ => rfl⟩
  | cons p pairs ih =>
    obtain ⟨row, cells⟩ := p
    obtain ⟨hrow, hrest⟩ := List.nodup_cons.mp hrows
    unfold placeRows at h
    split at h
    · next d hset =>
      have hnamed : ∀ c ∈ columns.zip cells, c.1 ∈ columns := fun c hc => (List.of_mem_zip hc).1
      obtain ⟨hstores', hone⟩ := setCells_stored hstores hnamed hset
      obtain ⟨hplaced, hkept⟩ := ih hrest hstores' h
      have hother : ∀ row', row' ≠ row → ∀ column, Record.value d row' column = Record.value dest row' column :=
        fun row' hne column => (hone row' column).trans (if_neg hne)
      refine ⟨fun p hp column => ?_, fun row' hnot column => ?_⟩
      · rcases List.mem_cons.mp hp with rfl | hp
        · rw [hkept row hrow, hone, if_pos rfl]
        · have hne : p.1 ≠ row := fun h => hrow (List.mem_map.mpr ⟨p, hp, h⟩)
          rw [hplaced p hp, hother p.1 hne]
      · obtain ⟨hne, hnot⟩ := not_or.mp (List.mem_cons.not.mp hnot)
        rw [hkept row' hnot, hother row' hne]
    · next hfailed =>
      exact absurd h (hfailed after)

theorem map_fst_zip_eq_take {α β : Type} (xs : List α) (ys : List β) : (xs.zip ys).map (·.1) = xs.take ys.length := by
  induction xs generalizing ys with
  | nil => simp
  | cons x xs ih => cases ys <;> simp [ih]

end

end Operation

variable {μ : Type}

/-- The rows that returned rows are copied to, and what they hold then: the `i`-th returned row is
    on the `i`-th of these rows, as far as there are both. -/
structure Copied (returned : Rows) (rows : List Nat) (dest after : Destination μ) : Prop where
  size : after.size = dest.size
  copied : ∀ (i row : Nat) cells, rows[i]? = some row → returned.values[i]? = some cells → ∀ column,
    after.value row column = (lastCell? column (returned.columns.zip cells)).or (dest.value row column)
  kept : ∀ row, row ∉ rows.take returned.size → ∀ column, after.value row column = dest.value row column

theorem not_failed_of_takeReturned {returned : Rows} {s : Statement (Destination μ)} {dest : Destination μ}
    (hdest : s.destination? = some dest) (hdone : (takeReturned returned s).failed = false) : s.failed = false := by
  obtain ⟨-, herror⟩ := writeBack_some (s := { s with rowsAffected := returned.size }) hdest fun dest =>
    writeReturned returned.columns (skippingKey? s) (Record.size dest) returned.values 0 dest
  have hnone : (takeReturned returned s).error = none := by simpa [Statement.failed] using hdone
  unfold Statement.failed
  rw [show (takeReturned returned s).error = _ from herror] at hnone
  revert hnone
  cases (writeReturned returned.columns (skippingKey? s) (Record.size dest) returned.values 0 dest).error with
  | none =>
    intro hnone
    exact congrArg Option.isSome hnone
  | some e => simp

/-- What an insert returns is copied to the rows in order: to all of them or, under the flag of the
    stored collision clause, to those whose key was not set. -/
theorem returned_rows_copied (returned : Rows) {s : Statement (Destination μ)} {dest : Destination μ}
    (hdest : s.destination? = some dest) (hstores : Record.Stores (· ∈ returned.columns) dest)
    (hdone : (takeReturned returned s).failed = false) :
    let key := if s.clauses.skips then (s.schema.bind Schema.primary?).map (·.name) else none
    ∃ after, (takeReturned returned s).destination? = some after ∧
      Copied returned (openRows key dest.size dest) dest after := by
  intro key
  have hfree : s.failed = false := not_failed_of_takeReturned hdest hdone
  obtain ⟨hstate, herror⟩ := takeReturned_placed returned hfree hdest
  generalize hplaced : placeRows returned.columns ((openRows key dest.size dest).zip returned.values) dest = placed
    at hstate herror
  obtain ⟨after, error⟩ := placed
  have hnone : error = none := herror.symm.trans (by simpa [Statement.failed] using hdone)
  subst hnone
  have hnodup : (openRows key dest.size dest).Nodup := List.nodup_range.filter _
  have hpairs := map_fst_zip_eq_take (openRows key dest.size dest) returned.values
  have hpaired : (((openRows key dest.size dest).zip returned.values).map (·.1)).Nodup := by
    rw [hpairs]
    exact hnodup.sublist (List.take_sublist _ _)
  have houtside := placeRows_keeps returned.columns key returned.values dest
  rw [hplaced] at houtside
  obtain ⟨hcopied, hkept⟩ := placeRows_stored hpaired hstores hplaced
  refine ⟨after, hstate, houtside.size, fun i row cells hrow hcells column => ?_, fun row hnot column => ?_⟩
  · have hmem : (row, cells) ∈ (openRows key dest.size dest).zip returned.values :=
      List.mem_of_getElem? (List.getElem?_zip_eq_some.mpr ⟨hrow, hcells⟩)
    exact hcopied (row, cells) hmem column
  · exact hkept row (by rwa [hpairs]) column

/-- Of Ann and Bob only Bob is without a key. A row comes back for him, with the key named twice,
    and a row too many. -/
theorem returned_to_bob :
    let returned : Rows := ⟨["id", "name", "id"], [[.int 8, .text "bobby", .int 9], [.int 11]]⟩
    let fresh : Statement (Destination Row) := Statement.fresh {}
    let s : Statement (Destination Row) :=
      { fresh with
        dest := some (.value annAndBob), schema := some usersTable.model.schema
        clauses := ⟨[.onConflict { target := ["name"], doNothing := true }]⟩ }
    s.destination? = some annAndBob ∧ Record.Stores (· ∈ returned.columns) annAndBob ∧
      (takeReturned returned s).failed = false ∧
      ∃ after, (takeReturned returned s).destination? = some after ∧ Copied returned [1] annAndBob after ∧
        after.value 0 "id" = some (.int 5) ∧ after.value 1 "id" = some (.int 9) ∧
        after.value 1 "name" = some (.text "bobby") := by
  intro returned fresh s
  have hstores : Record.Stores (· ∈ returned.columns) annAndBob :=
    Destination.stores_of_model (show usersTable.model.Stores _ from Description.model_stores (by decide))
  have hdone : (takeReturned returned s).failed = false := by cbv
  obtain ⟨after, hafter, hcopied⟩ := returned_rows_copied returned (s := s) rfl hstores hdone
  refine ⟨rfl, hstores, hdone, after, hafter, hcopied, ?_, ?_, ?_⟩
  · rw [hcopied.kept 0 (by decide)]
    cbv
  · rw [hcopied.copied 0 1 _ rfl rfl]
    cbv
  · rw [hcopied.copied 0 1 _ rfl rfl]
    cbv

end SqlPipeline
