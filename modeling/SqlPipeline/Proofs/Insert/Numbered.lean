/-
  SqlPipeline.Proofs.Insert.Numbered — keys counted from the one id a database reports.

  The rows of a list that have no key are numbered: up from the first if the id reported is the
  first, or down from the last. Which rows these are is settled before the first is written, as a
  key is written to its own row. So either way the same keys are written to the same rows, in
  one order or the other, and the order of writes to different rows makes no difference.

  All rows without a key are numbered, however many the database says it inserted.

  - `writeInsertId_eq`: the keys that are written, counted either way.
  - `numbering_conventions_agree`: the two ways of reporting lead to the same statement.
  - `keys_written_back`: over a whole execution; how many rows get a key.
  - `create_ignoring_bob`: one row was inserted, and two get keys.
-/

import Mathlib
import SqlPipeline.Proofs.Insert.Returned
import SqlPipeline.Proofs.Record.Stored

namespace SqlPipeline

open Operation

variable {μ : Type}

namespace Operation

/-! ## Counting -/

/-- Keys for these rows, counted in steps. -/
def keyWrites (key : String) (step : Int) : List Nat → Int → List CellWrite
  | [], _ => []
  | row :: rows, id => ⟨row, key, .int id⟩ :: keyWrites key step rows (id + step)

variable {key : String} {step : Int}

theorem keyWrites_rows (rows : List Nat) (id : Int) : (keyWrites key step rows id).map (·.row) = rows := by
  induction rows generalizing id with
  | nil => rfl
  | cons row rows ih => simp [keyWrites, ih]

theorem keyWrites_append (rows rows' : List Nat) (id : Int) :
    keyWrites key step (rows ++ rows') id =
      keyWrites key step rows id ++ keyWrites key step rows' (id + step * rows.length) := by
  induction rows generalizing id with
  | nil => simp [keyWrites]
  | cons row rows ih =>
    have hid : id + step + step * rows.length = id + step * (rows.length + 1 : Nat) := by
      push_cast
      ring
    simp only [List.cons_append, keyWrites, ih, List.length_cons, hid]

/-- Counting down from the last gives each row what counting up from the first does. -/
theorem keyWrites_reverse (rows : List Nat) (first : Int) :
    keyWrites key (-1) rows.reverse (first + rows.length - 1) = (keyWrites key 1 rows first).reverse := by
  induction rows generalizing first with
  | nil => rfl
  | cons row rows ih =>
    have hlast : first + (row :: rows).length - 1 = first + 1 + rows.length - 1 := by
      push_cast [List.length_cons]
      ring
    have hrow : first + 1 + rows.length - 1 + -1 * rows.reverse.length = first := by
      rw [List.length_reverse]
      ring
    rw [List.reverse_cons, keyWrites_append, hlast, ih, hrow]
    simp [keyWrites]

theorem mem_keyWrites {rows : List Nat} {id : Int} {w : CellWrite} :
    w ∈ keyWrites key step rows id ↔ ∃ (i row : Nat), rows[i]? = some row ∧ w = ⟨row, key, .int (id + step * i)⟩ := by
  induction rows generalizing id with
  | nil => simp [keyWrites]
  | cons row rows ih =>
    have hnext : ∀ i : Nat, id + step + step * i = id + step * (i + 1 : Nat) := fun i => by
      push_cast
      ring
    rw [keyWrites, List.mem_cons, ih]
    simp only [hnext]
    constructor
    · rintro (rfl | ⟨i, row', hrow, rfl⟩)
      · exact ⟨0, row, rfl, by simp⟩
      · exact ⟨i + 1, row', hrow, rfl⟩
    · rintro ⟨i, row', hrow, rfl⟩
      cases i with
      | zero =>
        cases hrow
        exact Or.inl (by simp)
      | succ i => exact Or.inr ⟨i, row', hrow, rfl⟩

/-- The rows that are numbered are those without a key when the first is. -/
theorem numberRows_eq {rows : List Nat} (hnodup : rows.Nodup) {d : Destination μ} (hrows : ∀ row ∈ rows, row < d.size)
    (id : Int) :
    numberRows key step rows id d = Record.writeAll (keyWrites key step (rows.filter (isUnset d key)) id) d := by
  induction rows generalizing d id with
  | nil => rfl
  | cons row rows ih =>
    obtain ⟨hrow, hrest⟩ := List.nodup_cons.mp hnodup
    obtain ⟨hlt, hlts⟩ := List.forall_mem_cons.mp hrows
    unfold numberRows
    split
    · next hunset =>
      rw [List.filter_cons_of_pos hunset]
      have houtside := Destination.setValue_outside hlt key (.int id)
      rcases hset : Record.setValue d row key (.int id) with ⟨d', _ | e⟩
      · rw [show d.setValue row key (.int id) = _ from hset] at houtside
        have hsame : rows.filter (isUnset d' key) = rows.filter (isUnset d key) := by
          refine List.filter_congr fun row' hrow' => ?_
          have hne : row' ∉ [row] := fun h => hrow (List.mem_singleton.mp h ▸ hrow')
          unfold isUnset
          exact congrArg (Option.all Value.isZero) (houtside.value row' hne key)
        dsimp only
        rw [ih hrest (fun row' hrow' => houtside.size ▸ hlts row' hrow'), hsame]
        exact (Record.writeAll_cons (w := ⟨row, key, .int id⟩) hset _).symm
      · rw [keyWrites, Record.writeAll]
        dsimp only
        rw [hset]
    · next hset =>
      rw [List.filter_cons_of_neg hset]
      exact ih hrest hlts id

/-- The key of the first row without one, of `n`, when this id is reported. -/
def firstKey (reversed : Bool) (id : Int) (n : Nat) : Int := if reversed then id - n + 1 else id

/-- The rows take their keys, counted up from the first. -/
def TakesKeys (key : String) (first : Int) (rows : List Nat) (dest : Destination μ) : Prop :=
  ∀ (i row : Nat), rows[i]? = some row → (dest.setValue row key (.int (first + i))).error = none

theorem takesKeys_iff {first : Int} {rows : List Nat} {d : Destination μ} :
    TakesKeys key first rows d ↔
      ∀ w ∈ keyWrites key 1 rows first, (d.setValue w.row w.column w.value).error = none := by
  constructor
  · intro h w hw
    obtain ⟨i, row, hrow, rfl⟩ := mem_keyWrites.mp hw
    rw [one_mul]
    exact h i row hrow
  · intro h i row hrow
    have hwrite := h _ (mem_keyWrites.mpr ⟨i, row, hrow, rfl⟩)
    rwa [one_mul] at hwrite

/-- Counted either way, the keys written are those counted up from the first. -/
theorem writeInsertId_eq (reversed : Bool) (key : String) (id : Int) (d : Destination μ) :
    let rows := openRows (some key) d.size d
    let first := firstKey reversed id rows.length
    TakesKeys key first rows d →
      writeInsertId reversed (.list d.size) (some key) id d = Record.writeAll (keyWrites key 1 rows first) d := by
  intro rows first htakes
  have hlt : ∀ row ∈ List.range d.size, row < d.size := fun row => List.mem_range.mp
  unfold writeInsertId
  cases reversed with
  | false => exact numberRows_eq List.nodup_range hlt id
  | true =>
    have hlast : first + rows.length - 1 = id := by
      show id - rows.length + 1 + rows.length - 1 = id
      ring
    have hdown : keyWrites key (-1) rows.reverse id = (keyWrites key 1 rows first).reverse := by
      rw [← keyWrites_reverse, hlast]
    have hrows : ((keyWrites key 1 rows first).map (·.row)).Nodup := by
      rw [keyWrites_rows]
      exact List.nodup_range.filter _
    calc numberRows key (-1) (List.range d.size).reverse id d
      _ = Record.writeAll (keyWrites key (-1) ((List.range d.size).reverse.filter (isUnset d key)) id) d :=
        numberRows_eq (List.nodup_reverse.mpr List.nodup_range) (fun row hrow => hlt row (List.mem_reverse.mp hrow)) id
      _ = Record.writeAll (keyWrites key 1 rows first).reverse d := by rw [List.filter_reverse, ← hdown]; rfl
      _ = Record.writeAll (keyWrites key 1 rows first) d :=
        Destination.writeAll_perm (List.reverse_perm _).symm hrows (takesKeys_iff.mp htakes)

/-- Rows that were given keys counted up from the first, and nothing else was changed. -/
structure Numbered (key : String) (first : Int) (rows : List Nat) (before after : Destination μ) : Prop where
  counted : ∀ (i row : Nat), rows[i]? = some row → after.value row key = some (.int (first + i))
  kept : ∀ row column, row ∉ rows ∨ column ≠ key → after.value row column = before.value row column

theorem numbered_of_takes {rows : List Nat} (hnodup : rows.Nodup) {before : Destination μ} {first : Int}
    (hstores : Record.Stores (· = key) before) (htakes : TakesKeys key first rows before) :
    ∃ after, Record.writeAll (keyWrites key 1 rows first) before = ⟨after, none⟩ ∧
      Numbered key first rows before after := by
  have hrows : ((keyWrites key 1 rows first).map (·.row)).Nodup := by rwa [keyWrites_rows]
  have hcolumns : ∀ w ∈ keyWrites key 1 rows first, w.column = key := by
    intro w hw
    obtain ⟨i, row, -, rfl⟩ := mem_keyWrites.mp hw
    rfl
  have hwritten := Destination.writeAll_apart hrows (takesKeys_iff.mp htakes)
  have hread := hstores _ _ hcolumns hwritten
  refine ⟨_, hwritten, fun i row hrow => ?_, fun row column hother => ?_⟩
  · have hmem : ⟨row, key, .int (first + i)⟩ ∈ keyWrites key 1 rows first :=
      mem_keyWrites.mpr ⟨i, row, hrow, by rw [one_mul]⟩
    have hlast := lastWritten?_of_mem hrows hmem
    exact (hread row key).trans (by rw [hlast]; rfl)
  · have hnone : lastWritten? row column (keyWrites key 1 rows first) = none := by
      refine lastWritten?_eq_none fun w hw hrow hcolumn => ?_
      obtain ⟨i, row', hrow', rfl⟩ := mem_keyWrites.mp hw
      rcases hother with hother | hother
      · exact hother (hrow ▸ List.mem_of_getElem? hrow')
      · exact hother hcolumn.symm
    exact (hread row column).trans (by rw [hnone]; rfl)

/-! ## Taking the id -/

theorem writeBack_congr {ρ : Type} {s : Statement ρ} {dest : ρ} (hdest : s.destination? = some dest)
    {f g : ρ → Attempt ρ} (h : f dest = g dest) : writeBack f s = writeBack g s := by
  unfold writeBack
  rw [hdest]
  dsimp only
  rw [h]

variable {s : Statement (Destination μ)} {dest : Destination μ} {field : Field}

/-- An id that is reported for a list goes to the rows without a key. -/
theorem takeInserted_reported (env : Env) (hdest : s.destination? = some dest) (hshape : s.shape = .list dest.size)
    (hfield : s.schema.bind Schema.primary? = some field) (hgenerated : field.hasDefault = true) {affected : Nat}
    (hsome : affected ≠ 0) {id : Int} (hid : 0 < id) :
    takeInserted env affected (some id) s =
      writeBack (writeInsertId env.config.lastInsertIdReversed (.list dest.size) (some field.name) id)
        { s with rowsAffected := affected } := by
  have hkey : ((s.schema.bind Schema.primary?).filter Field.hasDefault).map (·.name) = some field.name := by
    rw [hfield]
    simp [Option.filter, hgenerated]
  have hwrites : writeInsertId env.config.lastInsertIdReversed s.shape
      (((s.schema.bind Schema.primary?).filter Field.hasDefault).map (·.name)) id dest =
        writeInsertId env.config.lastInsertIdReversed (.list dest.size) (some field.name) id dest := by
    rw [hkey, hshape]
  have hreported : ¬ (affected = 0 ∨ id ≤ 0) := by omega
  exact (if_neg hreported).trans (writeBack_congr (s := { s with rowsAffected := affected }) hdest hwrites)

end Operation

/-- A batch of which the first id is reported, and one of which the last is: the statements that
    come out are the same, and the rows without a key are numbered from the first. -/
theorem numbering_conventions_agree {up down : Env} (hup : up.config.lastInsertIdReversed = false)
    (hdown : down.config.lastInsertIdReversed = true) {s : Statement (Destination μ)} {dest : Destination μ}
    (hdest : s.destination? = some dest) (hshape : s.shape = .list dest.size) {field : Field}
    (hfield : s.schema.bind Schema.primary? = some field) (hgenerated : field.hasDefault = true)
    (hstores : Record.Stores (· = field.name) dest) {affected : Nat} (hsome : affected ≠ 0) {first : Int}
    (hfirst : 0 < first) :
    let rows := openRows (some field.name) dest.size dest
    rows ≠ [] → TakesKeys field.name first rows dest →
      takeInserted down affected (some (first + rows.length - 1)) s = takeInserted up affected (some first) s ∧
      (takeInserted up affected (some first) s).error = s.error ∧
      ∃ after, (takeInserted up affected (some first) s).destination? = some after ∧
        Numbered field.name first rows dest after := by
  intro rows hrows htakes
  have hlength : 0 < rows.length := List.length_pos_iff.mpr hrows
  have hfromFirst : firstKey up.config.lastInsertIdReversed first rows.length = first := by
    rw [hup]
    rfl
  have hfromLast : firstKey down.config.lastInsertIdReversed (first + rows.length - 1) rows.length = first := by
    rw [hdown]
    show first + rows.length - 1 - rows.length + 1 = first
    ring
  have hcounted : ∀ (env : Env) (id : Int), 0 < id → firstKey env.config.lastInsertIdReversed id rows.length = first →
      takeInserted env affected (some id) s =
        writeBack (Record.writeAll (keyWrites field.name 1 rows first)) { s with rowsAffected := affected } := by
    intro env id hid hcount
    rw [takeInserted_reported env hdest hshape hfield hgenerated hsome hid]
    have hwrites := writeInsertId_eq env.config.lastInsertIdReversed field.name id dest
    dsimp only at hwrites
    rw [show firstKey env.config.lastInsertIdReversed id (openRows (some field.name) dest.size dest).length = first from
      hcount] at hwrites
    exact writeBack_congr (s := { s with rowsAffected := affected }) hdest (hwrites htakes)
  have hnodup : rows.Nodup := List.nodup_range.filter _
  obtain ⟨after, hwritten, hnumbered⟩ := numbered_of_takes hnodup hstores htakes
  obtain ⟨hstate, herror⟩ := writeBack_some (s := { s with rowsAffected := affected }) hdest
    (Record.writeAll (keyWrites field.name 1 rows first))
  rw [hwritten] at hstate herror
  rw [hcounted up first hfirst hfromFirst, hcounted down _ (by omega) hfromLast]
  exact ⟨rfl, herror, after, hstate, hnumbered⟩

/-- Of three notes the second has its key; the others get 10 and 11, whichever is reported. -/
theorem notes_numbered :
    let up : Env := { now := ⟨1715000000, 0⟩ }
    let down : Env := { config := { lastInsertIdReversed := true }, now := ⟨1715000000, 0⟩ }
    let notes : Destination Row :=
      .list noteModel [⟨[("body", .text "hi")]⟩, ⟨[("body", .text "ho"), ("id", .int 50)]⟩, ⟨[("body", .text "hum")]⟩]
    let fresh : Statement (Destination Row) := Statement.fresh up.config
    let s := { fresh with dest := some (.value notes), schema := some noteModel.schema, shape := .list 3 }
    takeInserted down 3 (some 11) s = takeInserted up 3 (some 10) s ∧
      ∃ after, (takeInserted up 3 (some 10) s).destination? = some after ∧ Numbered "id" 10 [0, 2] notes after ∧
        after.value 0 "id" = some (.int 10) ∧ after.value 1 "id" = some (.int 50) ∧
        after.value 2 "id" = some (.int 11) := by
  intro up down notes fresh s
  have hstores : Record.Stores (· = "id") notes :=
    Destination.stores_of_model (show noteModel.Stores _ from noteModel_stores _)
  have htakes : TakesKeys "id" 10 (openRows (some "id") notes.size notes) notes := takesKeys_iff.mpr (by decide)
  have hup : up.config.lastInsertIdReversed = false := rfl
  have hdown : down.config.lastInsertIdReversed = true := rfl
  obtain ⟨hsame, -, after, hafter, hnumbered⟩ := numbering_conventions_agree hup hdown (s := s) rfl rfl rfl rfl hstores
    (show 3 ≠ 0 by decide) (show 0 < (10 : Int) by decide) (by decide) htakes
  refine ⟨hsame, after, hafter, hnumbered, hnumbered.counted 0 0 rfl, ?_, hnumbered.counted 1 2 rfl⟩
  rw [hnumbered.kept 1 "id" (Or.inl (by decide))]
  rfl

/-! ## How many rows get a key -/

namespace Operation

/-- An id that is written back: rows were inserted, the database fills the key, and it reports
    an id above zero. -/
def Reported (field : Field) (affected : Nat) (id : Option Int) : Prop :=
  affected ≠ 0 ∧ field.hasDefault = true ∧ ∃ last, id = some last ∧ 0 < last

/-- The rows that had no key and have one now. -/
def newlyKeyed (key : String) (before after : Destination μ) : List Nat :=
  (openRows (some key) before.size before).filter fun row => !isUnset after key row

theorem newlyKeyed_self (key : String) (d : Destination μ) : newlyKeyed key d d = [] := by
  unfold newlyKeyed
  rw [List.filter_eq_nil_iff]
  intro row hrow
  have hunset : isUnset d key row = true := (List.mem_filter.mp hrow).2
  simp [hunset]

/-- Keys counted from above zero are keys. -/
theorem Numbered.newlyKeyed_eq {key : String} {first : Int} {before after : Destination μ}
    (h : Numbered key first (openRows (some key) before.size before) before after) (hfirst : 0 < first) :
    newlyKeyed key before after = openRows (some key) before.size before := by
  unfold newlyKeyed
  rw [List.filter_eq_self]
  intro row hrow
  obtain ⟨i, hi⟩ := List.mem_iff_getElem?.mp hrow
  have hread : Record.value after row key = some (.int (first + i)) := h.counted i row hi
  have hkey : first + i ≠ 0 := by omega
  unfold isUnset
  rw [hread]
  simpa [Value.isZero] using hkey

theorem takeInserted_idle (env : Env) {s : Statement (Destination μ)} {dest : Destination μ} {field : Field}
    (hdest : s.destination? = some dest) (hshape : s.shape = .list dest.size)
    (hfield : s.schema.bind Schema.primary? = some field) {affected : Nat} {id : Option Int}
    (hnot : ¬ Reported field affected id) : (takeInserted env affected id s).destination? = some dest := by
  unfold takeInserted
  cases id with
  | none => exact hdest
  | some id =>
    dsimp only
    split
    · exact hdest
    · next hreported =>
      obtain ⟨hsome, hid⟩ := not_or.mp hreported
      have hgiven : field.hasDefault = false := by
        by_contra hgenerated
        exact hnot ⟨hsome, by simpa using hgenerated, id, rfl, by omega⟩
      have hkey : ((s.schema.bind Schema.primary?).filter Field.hasDefault).map (·.name) = none := by
        rw [hfield]
        simp [Option.filter, hgiven]
      obtain ⟨hstate, -⟩ := writeBack_some (s := { s with rowsAffected := affected }) hdest
        (writeInsertId env.config.lastInsertIdReversed s.shape
          (((s.schema.bind Schema.primary?).filter Field.hasDefault).map (·.name)) id)
      refine hstate.trans ?_
      rw [hkey, hshape]
      rfl

/-- What becomes of a list when the outcome of its insert is taken. -/
structure KeysWritten (reversed : Bool) (field : Field) (affected : Nat) (id : Option Int)
    (before after : Destination μ) : Prop where
  idle : ¬ Reported field affected id → after = before
  /-- No more rows get a key than were inserted if no more were without one. -/
  within : ¬ Reported field affected id ∨ (openRows (some field.name) before.size before).length ≤ affected →
    (newlyKeyed field.name before after).length ≤ affected
  /-- An id that is written back numbers all rows without a key, whatever the count. -/
  numbered : ∀ last, id = some last → Reported field affected id →
    let rows := openRows (some field.name) before.size before
    let first := firstKey reversed last rows.length
    Record.Stores (· = field.name) before → TakesKeys field.name first rows before →
      Numbered field.name first rows before after ∧
        (0 < first → ((newlyKeyed field.name before after).length ≤ affected ↔ rows.length ≤ affected))

theorem takeInserted_written (env : Env) {s : Statement (Destination μ)} {before : Destination μ} {field : Field}
    (hdest : s.destination? = some before) (hshape : s.shape = .list before.size)
    (hfield : s.schema.bind Schema.primary? = some field) (affected : Nat) (id : Option Int) :
    ∃ after, (takeInserted env affected id s).destination? = some after ∧
      KeysWritten env.config.lastInsertIdReversed field affected id before after := by
  by_cases hreported : Reported field affected id
  · have hreported' := hreported
    obtain ⟨hsome, hgenerated, last, rfl, hlast⟩ := hreported
    obtain ⟨hstate, -⟩ := writeBack_some (s := { s with rowsAffected := affected }) hdest
      (writeInsertId env.config.lastInsertIdReversed (.list before.size) (some field.name) last)
    have htaken := takeInserted_reported env hdest hshape hfield hgenerated hsome hlast
    refine ⟨_, (congrArg Statement.destination? htaken).trans hstate, fun h => absurd hreported' h, ?_, ?_⟩
    · rintro (h | hfew)
      · exact absurd hreported' h
      · exact (List.length_filter_le _ _).trans hfew
    · intro last' hid _ rows first hstores htakes
      cases hid
      have hnodup : rows.Nodup := List.nodup_range.filter _
      obtain ⟨after, hwritten, hnumbered⟩ := numbered_of_takes hnodup hstores htakes
      rw [writeInsertId_eq env.config.lastInsertIdReversed field.name last before htakes]
      have hafter : (Record.writeAll (keyWrites field.name 1 rows first) before).state = after := by rw [hwritten]
      rw [show (Record.writeAll _ before).state = after from hafter]
      exact ⟨hnumbered, fun hfirst => by rw [hnumbered.newlyKeyed_eq hfirst]⟩
  · refine ⟨before, takeInserted_idle env hdest hshape hfield hreported, fun _ => rfl, fun _ => ?_, ?_⟩
    · rw [newlyKeyed_self]
      exact Nat.zero_le _
    · exact fun _ _ h => absurd h hreported

/-- An insert that was written and is not asked for rows, and the count comes. -/
theorem create_counted (env : Env) {start : Run (Destination μ)} (hfree : start.failed = false) :
    let sent := StageKind.create.written env start.statement
    sent.failed = false → sent.dryRun = false → StageKind.create.verb sent = .exec →
      ∀ {affected id}, start.pool.exec = .ok (affected, id) →
        let executed := StageKind.create.executing.run env start
        executed.statement = takeInserted env affected id sent ∧
          executed.calls = start.calls ++ [⟨.exec, sent.sql.text, sent.sql.params⟩] := by
  intro sent hsound hlive hverb affected id hanswer executed
  have hrun : executed = StageKind.create.deliver env { start with statement := sent } :=
    StageKind.executing_delivered env .create hfree hlive hsound rfl
  have hresponse : start.pool.respond (StageKind.create.verb sent) = (start.pool, .counted affected id) := by
    rw [hverb, Pool.respond, hanswer]
  refine ⟨?_, ?_⟩
  · rw [hrun]
    show StageKind.create.taken env sent (start.pool.respond (StageKind.create.verb sent)).2 = _
    rw [hresponse]
    rfl
  · rw [hrun, StageKind.deliver_calls, StageKind.call, hverb]
    rfl

end Operation

/-- A create of a list that is not asked for rows: it is sent once, and the count and id that
    come back are taken. No more rows get a key than were inserted if the id is not written
    back, or no more were without one. -/
theorem keys_written_back (env : Env) (hsteps : env.config.skipDefaultSteps = false)
    (records : List (Destination Row)) (r : Run (Destination μ)) :
    let st := (Database.openWith env records).stages .create
    let start := StageKind.create.hooked (st.ready env r)
    let sent := StageKind.create.written env start.statement
    let executed := (StageKind.create.executing.run env start).statement
    ∀ {affected id before field}, start.failed = false → sent.failed = false → sent.dryRun = false →
      StageKind.create.verb sent = .exec → start.pool.exec = .ok (affected, id) →
      sent.destination? = some before → sent.shape = .list before.size →
      sent.schema.bind Schema.primary? = some field →
      ∃ after,
        (st.execute env r).calls = r.calls ++ [⟨.exec, sent.sql.text, sent.sql.params⟩] ∧
        executed.destination? = some after ∧
        KeysWritten env.config.lastInsertIdReversed field affected id before after := by
  intro st start sent executed affected id before field hfree hsound hlive hverb hanswer hbefore hshape hfield
  obtain ⟨hfrom, hcalls, -⟩ := StageKind.opened_sends hsteps records .create r
  obtain ⟨hexecuted, hcall⟩ := create_counted env hfree hsound hlive hverb hanswer
  obtain ⟨after, hafter, hkeys⟩ := takeInserted_written env hbefore hshape hfield affected id
  refine ⟨after, ?_, (congrArg Statement.destination? hexecuted).trans hafter, hkeys⟩
  rw [show (st.execute env r).calls = _ from hcalls, hcall, show start.calls = _ from hfrom]

/-! ## A row that was ignored -/

/-- Two users without keys; the names are known. -/
def namesOnly : Destination Row := .list usersTable.model [⟨[("name", .text "ann")]⟩, ⟨[("name", .text "bob")]⟩]

/-- They are about to be inserted, and the database counts so many of them, from the key 10. -/
def namesCounted (affected : Nat) : Run (Destination Row) :=
  { statement :=
      { dest := some (.value namesOnly), clauses := ⟨[.onConflict { target := ["name"], doNothing := true }]⟩ }
    pool := { rowsAffected := affected, lastInsertId := some 10 } }

/-- Both are inserted, and both get a key. -/
theorem create_of_new_names :
    let env : Env := { now := ⟨1715000000, 0⟩ }
    let st := (Database.openWith env []).stages .create
    let start := StageKind.create.hooked (st.ready env (namesCounted 2))
    let executed := (StageKind.create.executing.run env start).statement
    ∃ after,
      (st.execute env (namesCounted 2)).calls =
        [⟨.exec, "INSERT INTO \"users\" (\"name\") VALUES (?),(?) ON CONFLICT (\"name\") DO NOTHING",
          [.text "ann", .text "bob"]⟩] ∧
      executed.destination? = some after ∧ Numbered "id" 10 [0, 1] namesOnly after ∧
      (newlyKeyed "id" namesOnly after).length ≤ 2 := by
  intro env st start executed
  have hready : st.ready env (namesCounted 2) = _ := Database.opened_ready env [] .create rfl
  have hstart : start.statement =
      { (namesCounted 2).statement with
        model := some .alias, schema := some usersTable.model.schema, shape := .list 2
        buildClauses := ({} : Config).createClauses } := by
    show (StageKind.create.hooked _).statement = _
    rw [hready]
    rfl
  have hpool : start.pool.exec = .ok (2, some 10) := by
    show (StageKind.create.hooked _).pool.exec = _
    rw [hready]
    rfl
  have hfree : start.failed = false := by
    show start.statement.failed = false
    rw [hstart]
    rfl
  have hsent : StageKind.create.written env start.statement = StageKind.create.written env _ :=
    congrArg (StageKind.create.written env) hstart
  have hsound : (StageKind.create.written env start.statement).failed = false := by rw [hsent]; cbv
  have hlive : (StageKind.create.written env start.statement).dryRun = false := by rw [hsent]; cbv
  have hverb : StageKind.create.verb (StageKind.create.written env start.statement) = .exec := by rw [hsent]; cbv
  have hbefore : (StageKind.create.written env start.statement).destination? = some namesOnly := by rw [hsent]; cbv
  have hshape : (StageKind.create.written env start.statement).shape = .list 2 := by rw [hsent]; cbv
  have hfield : (StageKind.create.written env start.statement).schema.bind Schema.primary? =
      usersTable.model.schema.primary? := by
    rw [hsent]
    cbv
  have hstores : Record.Stores (· = "id") namesOnly :=
    Destination.stores_of_model (show usersTable.model.Stores _ from Description.model_stores (by decide))
  obtain ⟨after, hcalls, hafter, hkeys⟩ := keys_written_back env rfl [] (namesCounted 2) hfree hsound hlive hverb hpool
    hbefore hshape hfield
  have htakes : TakesKeys "id" 10 (openRows (some "id") namesOnly.size namesOnly) namesOnly :=
    takesKeys_iff.mpr (by decide)
  obtain ⟨hnumbered, -⟩ := hkeys.numbered 10 rfl ⟨by decide, rfl, 10, rfl, by decide⟩ hstores htakes
  refine ⟨after, hcalls.trans ?_, hafter, hnumbered, hkeys.within (Or.inr (by decide))⟩
  rw [hsent]
  cbv

/-- Of the two rows the database ignores Bob's and counts one; still both get a key. -/
theorem create_ignoring_bob :
    let env : Env := { now := ⟨1715000000, 0⟩ }
    let done := ((Database.openWith env []).stages .create).execute env (namesCounted 1)
    done.calls =
        [⟨.exec, "INSERT INTO \"users\" (\"name\") VALUES (?),(?) ON CONFLICT (\"name\") DO NOTHING",
          [.text "ann", .text "bob"]⟩] ∧
      done.statement.error = none ∧ done.statement.rowsAffected = 1 ∧
      ∃ after, done.statement.destination? = some after ∧ (newlyKeyed "id" namesOnly after).length = 2 := by
  intro env done
  have hready : ((Database.openWith env []).stages .create).ready env (namesCounted 1) = _ :=
    Database.opened_ready env [] .create rfl
  have hdone : done = _ := Database.opened_execute env [] .create (namesCounted 1)
  rw [hready] at hdone
  have hstate : done.statement.destination?.map (newlyKeyed "id" namesOnly ·) = some [0, 1] := by
    rw [hdone, Run.conclude_statement]
    cbv
  refine ⟨?_, ?_, ?_, ?_⟩
  · rw [hdone, (Run.conclude_idle env _ _).calls]
    cbv
  · rw [hdone, Run.conclude_statement]
    cbv
  · rw [hdone, Run.conclude_statement]
    cbv
  · obtain ⟨after, hafter, hkeyed⟩ := Option.map_eq_some_iff.mp hstate
    exact ⟨after, hafter, by rw [hkeyed]; rfl⟩

end SqlPipeline
