/-
  SqlPipeline.Proofs.Explained.Literals — what explaining does to the text of literals.

  A text is read as stretches, without looking at the parameters: single characters, and marks, which
  are the places where something looks like a placeholder. A mark is quoted when the quotes before it
  leave a literal open, so a doubled quote closes the literal and opens it again, and an unbalanced
  one leaves it open to the end. As documented, a mark outside literals gives way to its value if
  there is one, and everything else is kept; values are put in after the reading and not read again.

  - `Placeholder.spells_read`: the stretches are the whole text, with every mark where it belongs.
  - `Explain.questions_read`: question marks are explained as documented.
  - `Explain.numbered_read`: a number is replaced within a literal too.
  - `explain_documented_iff`: so the two agree exactly when no quoted number has a value.
-/

import Mathlib
import SqlPipeline.Proofs.Explained.Placeholders

namespace SqlPipeline

/-! ## Stretches -/

/-- What a text is made of. The value of a mark has the given place among the parameters. -/
inductive Stretch where
  | plain (c : Char)
  | mark (quoted : Bool) (written : List Char) (place : Nat)
  deriving DecidableEq, Repr

namespace Stretch

def written : Stretch → List Char
  | .plain c => [c]
  | .mark _ w _ => w

/-- A mark gives way to its value, wherever it stands. -/
def valued (params : List Value) : Stretch → List Char
  | .plain c => [c]
  | .mark _ w place => (params[place]?.map Value.literal).getD w

/-- A mark gives way to its value, but not within a literal. -/
def documented (params : List Value) : Stretch → List Char
  | .plain c => [c]
  | .mark true w _ => w
  | .mark false w place => (params[place]?.map Value.literal).getD w

/-- Question marks are counted where they take a value. -/
def isFree : Stretch → Bool
  | .mark false _ _ => true
  | _ => false

end Stretch

/-! ## Reading -/

namespace Explain

/-- The place a number stands for when it is a 64-bit count in ASCII digits. Places are counted from
    one in the text and from zero in a list. -/
def place? (digits : List Char) : Option Nat :=
  let n := Nat.ofDigitChars 10 digits 0
  if digits.all Char.isDigit ∧ 0 < n ∧ n < UInt64.size then some (n - 1) else none

end Explain

namespace Placeholder

/-- How a mark that begins with `c` goes on in `cs`, with the place of its value, `earlier` marks
    having been counted. -/
def mark? (style : Placeholder) (earlier : Nat) (c : Char) (cs : List Char) : Option (List Char × Nat) :=
  match style with
  | .question => if c = '?' then some ([], earlier) else none
  | .numbered =>
    let digits := cs.takeWhile Text.isDecimalDigit
    if c = '$' then (Explain.place? digits).map (digits, ·) else none

/-- Reads a text from the left, a mark as a whole. Only a character that is none can be a quote. -/
def read (style : Placeholder) (quoted : Bool) (earlier : Nat) : List Char → List Stretch
  | [] => []
  | c :: cs =>
    match style.mark? earlier c cs with
    | some (more, place) =>
      .mark quoted (c :: more) place ::
        read style quoted (earlier + (!quoted).toNat) (cs.drop more.length)
    | none => .plain c :: read style (quoted ^^ decide (c = '\'')) earlier cs
  termination_by cs => cs.length

/-- The stretches make up a text that begins within a literal or not, so many marks having been
    counted: each mark is one where it stands and knows whether it is quoted, nothing else is one. -/
structure Spells (style : Placeholder) (quoted : Bool) (earlier : Nat) (sql : List Char)
    (stretches : List Stretch) : Prop where
  whole : stretches.flatMap Stretch.written = sql
  quotes : ∀ before q w place after, stretches = before ++ .mark q w place :: after →
    (q = true ↔ Odd (quoted.toNat + (before.flatMap Stretch.written).count '\''))
  marks : ∀ before q w place after, stretches = before ++ .mark q w place :: after →
    ∃ c more, w = c :: more ∧ style.mark? (earlier + before.countP Stretch.isFree) c
      (more ++ after.flatMap Stretch.written) = some (more, place)
  others : ∀ before c after, stretches = before ++ .plain c :: after →
    style.mark? (earlier + before.countP Stretch.isFree) c (after.flatMap Stretch.written) = none

variable {style : Placeholder} {quoted : Bool} {earlier place : Nat} {c : Char} {cs more : List Char}

theorem mark?_cases (h : style.mark? earlier c cs = some (more, place)) :
    (style = .question ∧ c = '?' ∧ more = [] ∧ place = earlier) ∨
      (style = .numbered ∧ c = '$' ∧ more = cs.takeWhile Text.isDecimalDigit ∧ Explain.place? more = some place) := by
  cases style with
  | question =>
    rw [mark?, Option.ite_none_right_eq_some] at h
    obtain ⟨hc, hmore⟩ := h
    cases hmore
    exact Or.inl ⟨rfl, hc, rfl, rfl⟩
  | numbered =>
    rw [mark?, Option.ite_none_right_eq_some] at h
    obtain ⟨hc, hmore⟩ := h
    obtain ⟨_, hplace, hpair⟩ := Option.map_eq_some_iff.mp hmore
    cases hpair
    exact Or.inr ⟨rfl, hc, rfl, hplace⟩

theorem mark?_prefix (h : style.mark? earlier c cs = some (more, place)) : more ++ cs.drop more.length = cs := by
  have hprefix : more <+: cs := by
    obtain ⟨-, -, rfl, -⟩ | ⟨-, -, rfl, -⟩ := mark?_cases h
    · exact List.nil_prefix
    · exact List.takeWhile_prefix _
  exact List.prefix_iff_eq_append.mp hprefix

/-- A mark has no quote in it, so no literal begins or ends there. -/
theorem mark?_quotes (h : style.mark? earlier c cs = some (more, place)) : (c :: more).count '\'' = 0 := by
  refine List.count_eq_zero.mpr fun hquote => ?_
  obtain ⟨-, rfl, rfl, -⟩ | ⟨-, rfl, rfl, -⟩ := mark?_cases h
  · revert hquote
    decide
  · rcases List.mem_cons.mp hquote with hquote | hquote
    · revert hquote
      decide
    · exact absurd (List.all_eq_true.mp List.all_takeWhile _ hquote) (by decide)

theorem countP_isFree_mark (before : List Stretch) (w : List Char) (place : Nat) :
    earlier + (Stretch.mark quoted w place :: before).countP Stretch.isFree =
      earlier + (!quoted).toNat + before.countP Stretch.isFree := by
  rw [List.countP_cons]
  cases quoted
  · exact (Nat.add_right_comm earlier _ 1)
  · rfl

theorem Spells.nil : style.Spells quoted earlier [] [] where
  whole := rfl
  quotes := by simp
  marks := by simp
  others := by simp

/-- One more character before the stretches, a quote turning what is within a literal and what is not. -/
theorem Spells.plain {ss : List Stretch} (hmark : style.mark? earlier c cs = none)
    (h : style.Spells (quoted ^^ decide (c = '\'')) earlier cs ss) :
    style.Spells quoted earlier (c :: cs) (.plain c :: ss) where
  whole := congrArg (c :: ·) h.whole
  quotes before q w place after hsplit := by
    obtain ⟨-, hcons⟩ | ⟨before, rfl, hrest⟩ := List.cons_eq_append_iff.mp hsplit
    · cases hcons
    · rw [h.quotes before q w place after hrest, List.flatMap_cons, Stretch.written, List.count_append,
        List.count_singleton]
      by_cases hc : c = '\''
      · cases quoted with
        | false => simp [hc]
        | true => simp [hc, Nat.odd_iff]; omega
      · simp [hc]
  marks before q w place after hsplit := by
    obtain ⟨-, hcons⟩ | ⟨before, rfl, hrest⟩ := List.cons_eq_append_iff.mp hsplit
    · cases hcons
    · exact h.marks before q w place after hrest
  others before d after hsplit := by
    obtain ⟨rfl, hcons⟩ | ⟨before, rfl, hrest⟩ := List.cons_eq_append_iff.mp hsplit
    · cases hcons
      rw [h.whole]
      exact hmark
    · exact h.others before d after hrest

theorem Spells.mark {ss : List Stretch} (hmark : style.mark? earlier c cs = some (more, place))
    (h : style.Spells quoted (earlier + (!quoted).toNat) (cs.drop more.length) ss) :
    style.Spells quoted earlier (c :: cs) (.mark quoted (c :: more) place :: ss) where
  whole := by
    rw [List.flatMap_cons, h.whole, Stretch.written, List.cons_append, mark?_prefix hmark]
  quotes before q w k after hsplit := by
    obtain ⟨rfl, hcons⟩ | ⟨before, rfl, hrest⟩ := List.cons_eq_append_iff.mp hsplit
    · cases hcons
      cases quoted <;> decide
    · rw [h.quotes before q w k after hrest, List.flatMap_cons, Stretch.written, List.count_append,
        mark?_quotes hmark, Nat.zero_add]
  marks before q w k after hsplit := by
    obtain ⟨rfl, hcons⟩ | ⟨before, rfl, hrest⟩ := List.cons_eq_append_iff.mp hsplit
    · cases hcons
      refine ⟨c, more, rfl, ?_⟩
      rw [h.whole, mark?_prefix hmark]
      exact hmark
    · rw [countP_isFree_mark]
      exact h.marks before q w k after hrest
  others before d after hsplit := by
    obtain ⟨-, hcons⟩ | ⟨before, rfl, hrest⟩ := List.cons_eq_append_iff.mp hsplit
    · cases hcons
    · rw [countP_isFree_mark]
      exact h.others before d after hrest

theorem spells_read (quoted : Bool) (earlier : Nat) (sql : List Char) :
    style.Spells quoted earlier sql (style.read quoted earlier sql) := by
  fun_induction style.read quoted earlier sql with
  | case1 => exact .nil
  | case2 quoted earlier c cs more place hmark ih => exact .mark hmark ih
  | case3 quoted earlier c cs hmark ih => exact .plain hmark ih

end Placeholder

namespace Explain

/-! ## Question marks -/

/-- The parameters left to take are those whose places have not been counted yet. -/
theorem questions_read (quoted : Bool) (earlier : Nat) (params : List Value) (sql : List Char) :
    questions quoted (params.drop earlier) sql =
      (Placeholder.question.read quoted earlier sql).flatMap (Stretch.documented params) := by
  fun_induction Placeholder.read .question quoted earlier sql with
  | case1 => rfl
  | case2 quoted earlier c cs more place hmark ih =>
    obtain ⟨-, rfl, rfl, rfl⟩ | ⟨hstyle, -⟩ := Placeholder.mark?_cases hmark
    · rw [List.flatMap_cons, ← ih, questions.eq_def]
      cases quoted with
      | true => rfl
      | false =>
        rcases Nat.lt_or_ge place params.length with hlt | hge
        · rw [List.drop_eq_getElem_cons hlt]
          simp [Stretch.documented, hlt]
        · have hnext : params.drop (place + 1) = [] := List.drop_eq_nil_of_le (Nat.le_succ_of_le hge)
          rw [List.drop_eq_nil_of_le hge]
          simp [Stretch.documented, hge, hnext]
    · cases hstyle
  | case3 quoted earlier c cs hmark ih =>
    have hc : c ≠ '?' := fun hc => by simp [Placeholder.mark?, hc] at hmark
    rw [List.flatMap_cons, ← ih, questions.eq_def]
    by_cases hquote : c = '\''
    · simp [hquote, Stretch.documented]
    · simp [hc, hquote, Stretch.documented]

/-! ## Numbers -/

theorem named?_place (params : List Value) (digits : List Char) :
    named? params digits = (place? digits).bind (params[·]?) := by
  have hread : digits.foldl (fun n c => n * 10 + (c.toNat - 48)) 0 = Nat.ofDigitChars 10 digits 0 := by
    simp only [Nat.ofDigitChars_eq_foldl, Nat.mul_comm 10]
    rfl
  unfold named? position? place?
  rw [hread]
  generalize Nat.ofDigitChars 10 digits 0 = n
  cases n with
  | zero => by_cases hdigits : digits.all Char.isDigit <;> simp [hdigits, UInt64.size]
  | succ n => by_cases hdigits : digits.all Char.isDigit <;> by_cases hn : n + 1 < UInt64.size <;> simp [hdigits, hn]

theorem settled_place (params : List Value) (digits : List Char) :
    settled params digits = (((place? digits).bind (params[·]?)).map Value.literal).getD ('$' :: digits) := by
  rw [← named?_place]
  unfold settled
  cases digits with
  | nil => rfl
  | cons c cs => cases named? params (c :: cs) <;> rfl

theorem numbered_run (params : List Value) (cs : List Char) :
    numbered params none ('$' :: cs) =
      settled params (cs.takeWhile Text.isDecimalDigit) ++
        numbered params none (cs.drop (cs.takeWhile Text.isDecimalDigit).length) := by
  have hdigits : ∀ c ∈ cs.takeWhile Text.isDecimalDigit, Text.isDecimalDigit c = true :=
    List.all_eq_true.mp List.all_takeWhile
  have hrest : cs.drop (cs.takeWhile Text.isDecimalDigit).length = cs.dropWhile Text.isDecimalDigit :=
    List.append_cancel_left
      ((List.prefix_iff_eq_append.mp (List.takeWhile_prefix _)).trans List.takeWhile_append_dropWhile.symm)
  have hend : ∀ c ∈ (cs.dropWhile Text.isDecimalDigit).head?, Text.isDecimalDigit c = false := by
    intro c hc
    have := List.head?_dropWhile_not Text.isDecimalDigit cs
    rwa [hc] at this
  conv_lhs => rw [← List.takeWhile_append_dropWhile (p := Text.isDecimalDigit) (l := cs)]
  rw [numbered, if_pos rfl, numbered_digits hdigits, numbered_settled hend, List.nil_append, hrest]

theorem numbered_read (quoted : Bool) (earlier : Nat) (params : List Value) (sql : List Char) :
    numbered params none sql = (Placeholder.numbered.read quoted earlier sql).flatMap (Stretch.valued params) := by
  fun_induction Placeholder.read .numbered quoted earlier sql with
  | case1 => rfl
  | case2 quoted earlier c cs more place hmark ih =>
    obtain ⟨hstyle, -⟩ | ⟨-, rfl, rfl, hplace⟩ := Placeholder.mark?_cases hmark
    · cases hstyle
    · rw [numbered_run, settled_place, hplace, ih]
      rfl
  | case3 quoted earlier c cs hmark ih =>
    rw [List.flatMap_cons, ← ih]
    by_cases hc : c = '$'
    · -- A dollar sign that begins no mark is followed by digits that are kept with it.
      have hnone : place? (cs.takeWhile Text.isDecimalDigit) = none := by
        simpa [Placeholder.mark?, hc] using hmark
      have hdollar : ∀ d ∈ cs.takeWhile Text.isDecimalDigit, d ≠ '$' := by
        rintro _ hd rfl
        exact absurd (List.all_eq_true.mp List.all_takeWhile _ hd) (by decide)
      have hcs := numbered_plain hdollar params (cs.drop (cs.takeWhile Text.isDecimalDigit).length)
      rw [List.prefix_iff_eq_append.mp (List.takeWhile_prefix _)] at hcs
      rw [hc, numbered_run, settled_place, hnone, hcs]
      rfl
    · rw [numbered, if_neg hc]
      rfl

end Explain

/-! ## Values that were put in -/

/-- There is a first character, and it begins no number's mark. -/
def Undollared (cs : List Char) : Prop := ∃ c ∈ cs.head?, c ≠ '$'

theorem undollared_cons {c : Char} (h : c ≠ '$') (cs : List Char) : Undollared (c :: cs) := ⟨c, rfl, h⟩

theorem Undollared.append {cs : List Char} (h : Undollared cs) (ds : List Char) : Undollared (cs ++ ds) := by
  obtain ⟨c, hc, hne⟩ := h
  refine ⟨c, ?_, hne⟩
  rw [List.head?_append, Option.mem_def.mp hc]
  rfl

theorem Undollared.take {cs : List Char} (h : Undollared cs) {n : Nat} (hn : n ≠ 0) : Undollared (cs.take n) := by
  rwa [Undollared, List.head?_take, if_neg hn]

theorem undollared_digits (n : Nat) : Undollared (Nat.toDigits 10 n) := by
  cases hdigits : Nat.toDigits 10 n with
  | nil => exact absurd hdigits (by simp)
  | cons c cs =>
    have hc : c.isDigit = true :=
      Nat.isDigit_of_mem_toDigits (by decide) (by decide) (hdigits ▸ List.mem_cons_self)
    exact undollared_cons (by rintro rfl; cases hc) cs

theorem Decimal.Scaled.undollared (s : Scaled) : Undollared s.text := by
  unfold text
  cases s.power with
  | ofNat n => exact (undollared_digits s.digits).append _
  | negSucc n =>
    dsimp only
    split
    · next hlt => exact ((undollared_digits s.digits).take (Nat.sub_ne_zero_of_lt hlt)).append _
    · exact undollared_cons (by decide) _

theorem Double.undollared (x : Double) : Undollared x.text := by
  have hsigned : ∀ {cs}, Undollared cs → Undollared ((if x.negative then ['-'] else []) ++ cs) := by
    intro cs h
    split
    · exact undollared_cons (by decide) cs
    · exact h
  unfold text
  dsimp only
  split
  · split
    · exact hsigned (undollared_cons (by decide) _)
    · exact undollared_cons (by decide) _
  · split
    · exact hsigned (undollared_cons (by decide) _)
    · exact hsigned (Decimal.shortest x).undollared

theorem Value.undollared_literal (v : Value) : Undollared v.literal := by
  cases v with
  | null => exact undollared_cons (by decide) _
  | bool b => cases b <;> exact undollared_cons (by decide) _
  | int n =>
    cases n with
    | ofNat n => exact undollared_digits n
    | negSucc n => exact undollared_cons (by decide) _
  | float x => exact x.undollared
  | text s => exact undollared_cons (by decide) _
  | blob bytes => exact undollared_cons (by decide) _
  | timestamp t => exact undollared_cons (by decide) _

/-! ## What is documented -/

namespace Stretch

variable {params : List Value}

/-- A quoted mark that has a value is the one stretch that the documentation treats differently. -/
def Overwritten (params : List Value) (s : Stretch) : Prop :=
  ∃ w place, s = .mark true w place ∧ (params[place]?).isSome = true

theorem valued_eq_documented {s : Stretch} (h : ¬ s.Overwritten params) : s.valued params = s.documented params := by
  cases s with
  | plain c => rfl
  | mark q w place =>
    cases q with
    | false => rfl
    | true =>
      have hnone : params[place]? = none :=
        Option.not_isSome_iff_eq_none.mp fun hsome => h ⟨w, place, rfl, hsome⟩
      rw [valued, documented, hnone]
      rfl

/-- Where a value is put into a literal the texts part, for it does not begin as a number's mark does. -/
theorem flatMap_valued_iff {stretches : List Stretch}
    (hmarks : ∀ q w place, .mark q w place ∈ stretches → w.head? = some '$') :
    stretches.flatMap (valued params) = stretches.flatMap (documented params) ↔
      ∀ s ∈ stretches, ¬ s.Overwritten params := by
  refine ⟨fun h => ?_, fun h => List.flatMap_congr fun s hs => valued_eq_documented (h s hs)⟩
  induction stretches with
  | nil => simp
  | cons s ss ih =>
    rw [List.flatMap_cons, List.flatMap_cons] at h
    have hs : ¬ s.Overwritten params := by
      rintro ⟨w, place, rfl, hsome⟩
      obtain ⟨v, hv⟩ := Option.isSome_iff_exists.mp hsome
      obtain ⟨c, hc, hne⟩ := v.undollared_literal
      have hw : w.head? = some '$' := hmarks true w place List.mem_cons_self
      have hheads := congrArg List.head? h
      simp only [valued, documented, hv, Option.map_some, Option.getD_some, List.head?_append, hw,
        Option.mem_def.mp hc, Option.some_or, Option.some.injEq] at hheads
      exact hne hheads
    rw [valued_eq_documented hs] at h
    exact List.forall_mem_cons.mpr ⟨hs, ih (fun q w place hmark => hmarks q w place (List.mem_cons_of_mem s hmark))
      (List.append_cancel_left h)⟩

end Stretch

theorem Placeholder.Spells.dollars {quoted : Bool} {earlier : Nat} {sql : List Char} {stretches : List Stretch}
    (h : Placeholder.numbered.Spells quoted earlier sql stretches) :
    ∀ q w place, .mark q w place ∈ stretches → w.head? = some '$' := by
  intro q w place hmem
  obtain ⟨before, after, hsplit⟩ := List.append_of_mem hmem
  obtain ⟨c, more, rfl, hmark⟩ := h.marks before q w place after hsplit
  obtain ⟨hstyle, -⟩ | ⟨-, rfl, -⟩ := mark?_cases hmark
  · cases hstyle
  · rfl

/-- With question marks explaining does what is documented, whatever the text and the parameters.
    With numbers it does so exactly when no number that has a value stands within a literal, for a
    value is put in there too. -/
theorem explain_documented_iff (d : Dialect) (sql : String) (params : List Value) :
    let stretches := d.placeholder.read false 0 sql.toList
    d.placeholder.Spells false 0 sql.toList stretches ∧
      (d.placeholder = .numbered → (d.explain sql params).toList = stretches.flatMap (Stretch.valued params)) ∧
      ((d.explain sql params).toList = stretches.flatMap (Stretch.documented params) ↔
        (d.placeholder = .numbered → ∀ s ∈ stretches, ¬ s.Overwritten params)) := by
  intro stretches
  have hspells : d.placeholder.Spells false 0 sql.toList stretches := Placeholder.spells_read false 0 sql.toList
  refine ⟨hspells, ?_⟩
  unfold Dialect.explain Placeholder.explain
  rw [String.toList_ofList]
  cases hstyle : d.placeholder with
  | question =>
    have hread : Explain.questions false params sql.toList = stretches.flatMap (Stretch.documented params) := by
      simpa only [stretches, hstyle, List.drop_zero] using Explain.questions_read false 0 params sql.toList
    exact ⟨nofun, iff_of_true hread nofun⟩
  | numbered =>
    have hread : Explain.numbered params none sql.toList = stretches.flatMap (Stretch.valued params) := by
      simpa only [stretches, hstyle] using Explain.numbered_read false 0 params sql.toList
    refine ⟨fun _ => hread, ?_⟩
    rw [hstyle] at hspells
    simp only [hread, Stretch.flatMap_valued_iff hspells.dollars, forall_const]

/-- The literal is part of what the statement asks for, and the trace shows another one. -/
theorem explain_within_literal :
    let d : Dialect := .generic .numbered
    let sql := "SELECT '$1' WHERE id = $1"
    let documented := (d.placeholder.read false 0 sql.toList).flatMap (Stretch.documented [.int 7])
    d.explain sql [.int 7] = "SELECT '7' WHERE id = 7" ∧
      String.ofList documented = "SELECT '$1' WHERE id = 7" ∧
      d.explain sql [.int 7] ≠ String.ofList documented := by
  intro d sql documented
  have hshown : d.explain sql [.int 7] = "SELECT '7' WHERE id = 7" := by decide +kernel
  have hdocumented : String.ofList ((d.placeholder.read false 0 sql.toList).flatMap (Stretch.documented [.int 7])) =
      "SELECT '$1' WHERE id = 7" := by cbv
  refine ⟨hshown, hdocumented, ?_⟩
  intro hsame
  exact absurd (hshown.symm.trans (hsame.trans hdocumented)) (by decide +kernel)

end SqlPipeline
