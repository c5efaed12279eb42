/-
  SqlPipeline.Proofs.Explained.Placeholders — explaining finds the placeholders that were written.

  Written pieces are text, quoted identifiers and placeholders; explaining sees only characters.
  It finds the placeholders again, and puts each value in its own place, when nothing else looks
  like one: text and identifiers have no single quote, question mark or dollar sign, and no
  decimal digit comes right behind a placeholder, for a numbered one would take it in. The values
  put in are not looked at again, whatever they hold.

  - `questions_spelled`, `numbered_spelled`: the two scanners over written pieces.
  - `explain_writeAll`: explaining gives the text in which values stand for their placeholders.
-/

import Mathlib.Data.List.Chain
import SqlPipeline.Sql.Explained
import SqlPipeline.Sql.Rendered

namespace SqlPipeline

/-! ## Pieces with values in them -/

/-- As `Rendered.write`, but a value is written where it would be bound. -/
def writeInline (d : Dialect) (text : String) : Piece → String
  | .text s => text ++ s
  | .name identifier => text ++ d.quoteIdentifier identifier
  | .param v => text ++ v.inline

def inlineAll (d : Dialect) (ps : List Piece) : String := ps.foldl (writeInline d) ""

section Spelling

variable (d : Dialect)

def Piece.inlined : Piece → List Char
  | .text s => s.toList
  | .name identifier => d.quotePath identifier.toList
  | .param v => v.literal

/-- The characters of pieces, so many parameters having been bound before. -/
def spelled : Nat → List Piece → List Char
  | _, [] => []
  | n, .text s :: ps => s.toList ++ spelled n ps
  | n, .name identifier :: ps => d.quotePath identifier.toList ++ spelled n ps
  | n, .param _ :: ps => (d.bind (n + 1)).toList ++ spelled (n + 1) ps

theorem inlineAll_toList (ps : List Piece) : (inlineAll d ps).toList = ps.flatMap (Piece.inlined d) := by
  have hfold : ∀ text : String,
      (ps.foldl (writeInline d) text).toList = text.toList ++ ps.flatMap (Piece.inlined d) := by
    induction ps with
    | nil => simp
    | cons p ps ih =>
      intro text
      rw [List.foldl_cons, ih, List.flatMap_cons, ← List.append_assoc]
      congr 1
      cases p <;> simp [writeInline, Piece.inlined, Dialect.quoteIdentifier, Value.inline]
  exact hfold ""

theorem writeAll_spelled (r : Rendered) (ps : List Piece) :
    (r.writeAll d ps).text.toList = r.text.toList ++ spelled d r.params.length ps ∧
      (r.writeAll d ps).params = r.params ++ ps.filterMap Piece.param? := by
  induction ps generalizing r with
  | nil => simp [spelled]
  | cons p ps ih =>
    rw [Rendered.writeAll_cons, (ih _).1, (ih _).2]
    cases p <;> simp [Rendered.write, spelled, Dialect.quoteIdentifier, List.filterMap_cons]

end Spelling

/-! ## Characters that explaining looks for -/

/-- None that begins or ends a literal or begins a placeholder. -/
def Quiet (cs : List Char) : Prop := ∀ c ∈ cs, c ≠ '\'' ∧ c ≠ '?' ∧ c ≠ '$'

instance (cs : List Char) : Decidable (Quiet cs) := List.decidableBAll _ cs

theorem quiet_append {cs ds : List Char} : Quiet (cs ++ ds) ↔ Quiet cs ∧ Quiet ds := List.forall_mem_append

theorem mem_pathParts {part path : List Char} {c : Char} (hpart : part ∈ pathParts path) (hc : c ∈ part) :
    c ∈ path := by
  induction path generalizing part with
  | nil =>
    rw [List.mem_singleton.mp hpart] at hc
    cases hc
  | cons b path ih =>
    rw [pathParts] at hpart
    split at hpart
    · rcases List.mem_cons.mp hpart with rfl | hpart
      · cases hc
      · exact List.mem_cons_of_mem b (ih hpart hc)
    · split at hpart
      · rw [List.mem_singleton.mp hpart] at hc
        exact List.mem_cons.mpr (Or.inl (List.mem_singleton.mp hc))
      · next first parts hpath =>
        rcases List.mem_cons.mp hpart with rfl | hpart
        · rcases List.mem_cons.mp hc with rfl | hc
          · exact List.mem_cons_self
          · exact List.mem_cons_of_mem b (ih (hpath ▸ List.mem_cons_self) hc)
        · exact List.mem_cons_of_mem b (ih (hpath ▸ List.mem_cons_of_mem first hpart) hc)

/-- What joined lists have in them was in the lists or between them. -/
theorem forall_mem_intercalate {α : Type} {p : α → Prop} {sep : List α} (hsep : ∀ a ∈ sep, p a) {parts : List (List α)}
    (h : ∀ part ∈ parts, ∀ a ∈ part, p a) : ∀ a ∈ sep.intercalate parts, p a := by
  induction parts with
  | nil => simp
  | cons part parts ih =>
    obtain ⟨hpart, hparts⟩ := List.forall_mem_cons.mp h
    cases parts with
    | nil => simpa using hpart
    | cons part' parts =>
      rw [List.intercalate_cons_cons, List.forall_mem_append, List.forall_mem_append]
      exact ⟨⟨hpart, hsep⟩, ih hparts⟩

/-- A quoted identifier has no characters but its own, its quotes and dots. -/
theorem quiet_quotePath {d : Dialect} (hquote : Quiet [d.quote]) {name : List Char} (h : Quiet name) :
    Quiet (d.quotePath name) := by
  have hdot : Quiet ['.'] := by decide
  refine forall_mem_intercalate hdot fun part hpart => ?_
  obtain ⟨inner, hinner, rfl⟩ := List.mem_map.mp hpart
  have hquiet : Quiet inner := fun c hc => h c (mem_pathParts hinner hc)
  unfold Dialect.quotePart
  split
  · exact hquiet
  · exact quiet_append.mpr ⟨quiet_append.mpr ⟨hquote, hquiet⟩, hquote⟩

/-! ## Pieces that can be told apart -/

def Piece.name? : Piece → Option String
  | .name identifier => some identifier
  | _ => none

/-- Whether a number that ends right before the piece ends there for a reader of digits. -/
def Piece.endsNumber : Piece → Bool
  | .text s => s.toList.head?.any fun c => !Text.isDecimalDigit c
  | .name _ => false
  | .param _ => true

/-- Text has nothing that looks like a placeholder, and no placeholder runs on into the next piece. -/
structure Discernible (ps : List Piece) : Prop where
  texts : ∀ s, .text s ∈ ps → Quiet s.toList
  apart : ps.IsChain fun p q => p.param?.isSome = true → q.endsNumber = true

theorem Discernible.tail {p : Piece} {ps : List Piece} (h : Discernible (p :: ps)) : Discernible ps :=
  ⟨fun s hs => h.texts s (List.mem_cons_of_mem p hs), (List.isChain_cons.mp h.apart).2⟩

theorem Discernible.behind_param {v : Value} {ps : List Piece} (h : Discernible (.param v :: ps)) :
    ∀ q ∈ ps.head?, q.endsNumber = true :=
  fun q hq => (List.isChain_cons.mp h.apart).1 q hq rfl

namespace Explain

/-! ## Question marks -/

theorem questions_quiet {cs : List Char} (h : Quiet cs) (params : List Value) (rest : List Char) :
    questions false params (cs ++ rest) = cs ++ questions false params rest := by
  induction cs with
  | nil => rfl
  | cons c cs ih =>
    obtain ⟨⟨hquote, hmark, -⟩, hcs⟩ := List.forall_mem_cons.mp h
    rw [List.cons_append, List.cons_append, questions.eq_def]
    simp only [hquote, hmark, false_and, if_false, ih hcs]

theorem questions_spelled {d : Dialect} (hd : d.placeholder = .question) (hquote : Quiet [d.quote]) {ps : List Piece}
    (hnames : ∀ p ∈ ps, ∀ identifier ∈ p.name?, Quiet identifier.toList) (h : Discernible ps) (n : Nat) :
    questions false (ps.filterMap Piece.param?) (spelled d n ps) = ps.flatMap (Piece.inlined d) := by
  induction ps generalizing n with
  | nil => rfl
  | cons p ps ih =>
    obtain ⟨hname, hothers⟩ := List.forall_mem_cons.mp hnames
    cases p with
    | text s =>
      rw [spelled, questions_quiet (h.texts s List.mem_cons_self)]
      exact congrArg (s.toList ++ ·) (ih hothers h.tail n)
    | name identifier =>
      rw [spelled, questions_quiet (quiet_quotePath hquote (hname identifier rfl))]
      exact congrArg (d.quotePath identifier.toList ++ ·) (ih hothers h.tail n)
    | param v =>
      have hbind : (d.bind (n + 1)).toList = ['?'] := by simp [Dialect.bind, hd]
      rw [spelled, hbind]
      exact congrArg (v.literal ++ ·) (ih hothers h.tail (n + 1))

/-! ## Numbers -/

theorem numbered_plain {cs : List Char} (h : ∀ c ∈ cs, c ≠ '$') (params : List Value) (rest : List Char) :
    numbered params none (cs ++ rest) = cs ++ numbered params none rest := by
  induction cs with
  | nil => rfl
  | cons c cs ih =>
    obtain ⟨hdollar, hcs⟩ := List.forall_mem_cons.mp h
    rw [List.cons_append, numbered, if_neg hdollar, ih hcs]
    rfl

theorem numbered_quiet {cs : List Char} (h : Quiet cs) (params : List Value) (rest : List Char) :
    numbered params none (cs ++ rest) = cs ++ numbered params none rest :=
  numbered_plain (fun c hc => (h c hc).2.2) params rest

theorem numbered_digits {ds : List Char} (h : ∀ c ∈ ds, Text.isDecimalDigit c = true) (params : List Value)
    (digits rest : List Char) :
    numbered params (some digits) (ds ++ rest) = numbered params (some (digits ++ ds)) rest := by
  induction ds generalizing digits with
  | nil => simp
  | cons c ds ih =>
    obtain ⟨hc, hds⟩ := List.forall_mem_cons.mp h
    rw [List.cons_append, numbered, if_pos hc, ih hds, List.append_assoc]
    rfl

/-- A run of digits ends where no digit follows. -/
theorem numbered_settled {rest : List Char} (h : ∀ c ∈ rest.head?, Text.isDecimalDigit c = false) (params : List Value)
    (digits : List Char) :
    numbered params (some digits) rest = settled params digits ++ numbered params none rest := by
  cases rest with
  | nil => simp [numbered]
  | cons c rest =>
    simp only [numbered, h c rfl, Bool.false_eq_true, if_false]
    split <;> simp

theorem position?_toDigits {n : Nat} (h : n < UInt64.size) : position? (Nat.toDigits 10 n) = some n := by
  have hdigits : (Nat.toDigits 10 n).all Char.isDigit = true :=
    List.all_eq_true.mpr fun c hc => Nat.isDigit_of_mem_toDigits (by decide) (by decide) hc
  have hvalue : (Nat.toDigits 10 n).foldl (fun n c => n * 10 + (c.toNat - 48)) 0 = n := by
    have hread : Nat.ofDigitChars 10 (Nat.toDigits 10 n) 0 = n := Nat.ofDigitChars_ten_toDigits
    simp only [Nat.ofDigitChars, Nat.mul_comm 10] at hread
    exact hread
  unfold position?
  rw [if_pos hdigits, hvalue]
  exact if_pos h

theorem settled_toDigits {params : List Value} {n : Nat} {v : Value} (hv : params[n]? = some v)
    (h : n + 1 < UInt64.size) : settled params (Nat.toDigits 10 (n + 1)) = v.literal := by
  have hne : (Nat.toDigits 10 (n + 1)).isEmpty = false := by simp
  unfold settled named?
  rw [hne, position?_toDigits h]
  simp [hv]

theorem numbered_bind {params : List Value} {n : Nat} {v : Value} (hv : params[n]? = some v)
    (h : n + 1 < UInt64.size) {rest : List Char} (hrest : ∀ c ∈ rest.head?, Text.isDecimalDigit c = false) :
    numbered params none ('$' :: Nat.toDigits 10 (n + 1) ++ rest) = v.literal ++ numbered params none rest := by
  have hdigits : ∀ c ∈ Nat.toDigits 10 (n + 1), Text.isDecimalDigit c = true := fun c hc =>
    Text.isDecimalDigit_of_isDigit (Nat.isDigit_of_mem_toDigits (by decide) (by decide) hc)
  rw [List.cons_append, numbered, if_pos rfl, numbered_digits hdigits, numbered_settled hrest, List.nil_append,
    settled_toDigits hv h]

theorem head_spelled {d : Dialect} (hd : d.placeholder = .numbered) {ps : List Piece}
    (h : ∀ q ∈ ps.head?, q.endsNumber = true) (n : Nat) :
    ∀ c ∈ (spelled d n ps).head?, Text.isDecimalDigit c = false := by
  cases ps with
  | nil => simp [spelled]
  | cons p ps =>
    have hp : p.endsNumber = true := h p rfl
    cases p with
    | text s =>
      cases hs : s.toList with
      | nil => simp [Piece.endsNumber, hs] at hp
      | cons c cs => simpa [spelled, Piece.endsNumber, hs] using hp
    | name => cases hp
    | param v =>
      have hbind : (d.bind (n + 1)).toList = '$' :: Nat.toDigits 10 (n + 1) := by simp [Dialect.bind, hd]
      rw [spelled, hbind]
      rintro c ⟨rfl⟩
      decide

/-- The pieces before these have bound as many parameters as there are before theirs. -/
theorem numbered_spelled {d : Dialect} (hd : d.placeholder = .numbered) (hquote : Quiet [d.quote]) {ps : List Piece}
    (hnames : ∀ p ∈ ps, ∀ identifier ∈ p.name?, Quiet identifier.toList) (h : Discernible ps)
    (before : List Value) (hsize : (before ++ ps.filterMap Piece.param?).length < UInt64.size) :
    numbered (before ++ ps.filterMap Piece.param?) none (spelled d before.length ps) =
      ps.flatMap (Piece.inlined d) := by
  induction ps generalizing before with
  | nil => rfl
  | cons p ps ih =>
    obtain ⟨hname, hothers⟩ := List.forall_mem_cons.mp hnames
    cases p with
    | text s =>
      rw [spelled, numbered_quiet (h.texts s List.mem_cons_self)]
      exact congrArg (s.toList ++ ·) (ih hothers h.tail before hsize)
    | name identifier =>
      rw [spelled, numbered_quiet (quiet_quotePath hquote (hname identifier rfl))]
      exact congrArg (d.quotePath identifier.toList ++ ·) (ih hothers h.tail before hsize)
    | param v =>
      have hbind : (d.bind (before.length + 1)).toList = '$' :: Nat.toDigits 10 (before.length + 1) := by
        simp [Dialect.bind, hd]
      have hparams : before ++ (Piece.param v :: ps).filterMap Piece.param? =
          (before ++ [v]) ++ ps.filterMap Piece.param? := by simp
      have hrest := ih hothers h.tail (before ++ [v]) (hparams ▸ hsize)
      have hv : ((before ++ [v]) ++ ps.filterMap Piece.param?)[before.length]? = some v := by simp
      have hposition : before.length + 1 < UInt64.size := by
        simp only [hparams, List.length_append, List.length_singleton] at hsize
        omega
      -- The next piece begins with no digit, so the number is read to its end and no further.
      rw [hparams, spelled, hbind, numbered_bind hv hposition (head_spelled hd h.behind_param _)]
      rw [List.length_append] at hrest
      exact congrArg (v.literal ++ ·) hrest

end Explain

/-- Explaining written pieces with the parameters they bind puts every value in its place. Numbers
    are read as 64-bit counts, so there is none for a parameter beyond them. -/
theorem explain_writeAll {d : Dialect} (hquote : Quiet [d.quote]) {ps : List Piece}
    (hnames : ∀ p ∈ ps, ∀ identifier ∈ p.name?, Quiet identifier.toList) (h : Discernible ps)
    (hsize : d.placeholder = .numbered → (ps.filterMap Piece.param?).length < UInt64.size) :
    d.explain (Rendered.writeAll d {} ps).text (Rendered.writeAll d {} ps).params = inlineAll d ps := by
  obtain ⟨htext, hparams⟩ := writeAll_spelled d {} ps
  refine String.toList_injective ?_
  rw [inlineAll_toList, Dialect.explain, htext, hparams, String.toList_ofList]
  unfold Placeholder.explain
  cases hd : d.placeholder with
  | question => exact Explain.questions_spelled hd hquote hnames h 0
  | numbered => exact Explain.numbered_spelled hd hquote hnames h [] (hsize hd)

end SqlPipeline
