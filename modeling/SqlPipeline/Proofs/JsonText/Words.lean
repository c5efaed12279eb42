/-
  SqlPipeline.Proofs.JsonText.Words — what is written in JSON is read again, with any blanks between.

  Written JSON is a sequence of words: brackets, commas, colons, strings, numbers, true and false.
  A reader passes over the blanks before each of them, so it does not matter where there are any.
  It also has to find the end of a value, which for a number only what follows can tell; after a
  value there is a blank, a comma, a closing bracket or nothing.

  - `reads_natural`, `reads_bool`, `reads_strings`: single values and lists of strings.
  - `reads_record`: a record of which some members are given, each once and in any order, is the
    blank one with these members put into it.
-/

import Mathlib
import SqlPipeline.JsonText.Record
import SqlPipeline.JsonText.Writer

namespace SqlPipeline.JsonText

/-! ## Words and blanks -/

/-- A text that is made of the words, with any blanks before each. -/
inductive Spaced : List (List Char) → List Char → Prop
  | nil : Spaced [] []
  | cons {blanks word text : List Char} {words : List (List Char)} (hblanks : ∀ c ∈ blanks, isBlank c = true)
      (h : Spaced words text) : Spaced (word :: words) (blanks ++ (word ++ text))

/-- What can follow a value. -/
def Ends (rest : List Char) : Prop := ∀ c ∈ rest.head?, isBlank c = true ∨ c ∈ [',', ']', '\x7d']

/-- Wherever the value stands, the reader takes it for `a` and leaves what follows. -/
def Reads {α : Type} (read : List Char → Reading α) (words : List (List Char)) (a : α) : Prop :=
  ∀ text : List Char, Spaced words text → ∀ rest : List Char, Ends rest → read (text ++ rest) = .ok (a, rest)

theorem spaced_nil {text : List Char} : Spaced [] text ↔ text = [] :=
  ⟨fun h => by cases h; rfl, fun h => h ▸ .nil⟩

theorem spaced_flatten (words : List (List Char)) : Spaced words words.flatten := by
  induction words with
  | nil => exact .nil
  | cons word words ih => exact Spaced.cons (List.forall_mem_nil _) ih

theorem spaced_append {us vs : List (List Char)} {text : List Char} :
    Spaced (us ++ vs) text ↔ ∃ t t', text = t ++ t' ∧ Spaced us t ∧ Spaced vs t' := by
  induction us generalizing text with
  | nil => simp [spaced_nil]
  | cons u us ih =>
    constructor
    · intro h
      cases h with
      | cons hblanks h =>
        obtain ⟨t, t', rfl, hus, hvs⟩ := ih.mp h
        exact ⟨_, t', by simp, .cons hblanks hus, hvs⟩
    · rintro ⟨t, t', rfl, hus, hvs⟩
      cases hus with
      | cons hblanks hus =>
        rw [List.append_assoc, List.append_assoc]
        exact .cons hblanks (ih.mpr ⟨_, t', rfl, hus, hvs⟩)

theorem skipBlanks_word {blanks : List Char} (hblanks : ∀ c ∈ blanks, isBlank c = true) {c : Char}
    (hc : isBlank c = false) (cs : List Char) : skipBlanks (blanks ++ c :: cs) = c :: cs := by
  unfold skipBlanks
  rw [List.dropWhile_append_of_pos hblanks, List.dropWhile_cons_of_neg (by simp [hc])]

theorem Spaced.ends {c : Char} (hc : c ∈ [',', ']', '\x7d']) {words : List (List Char)} {text : List Char}
    (h : Spaced ([c] :: words) text) (rest : List Char) : Ends (text ++ rest) := by
  cases h with
  | @cons blanks _ text _ hblanks h =>
    cases blanks with
    | nil => rintro d ⟨rfl⟩; exact Or.inr hc
    | cons b blanks => rintro d ⟨rfl⟩; exact Or.inl (hblanks b List.mem_cons_self)

/-- A reader that passes over blanks comes to the first word. -/
theorem Spaced.skip {c : Char} {cs text : List Char} {words : List (List Char)} (hc : isBlank c = false)
    (h : Spaced ((c :: cs) :: words) text) :
    ∃ text', Spaced words text' ∧ text'.length < text.length ∧
      ∀ rest, skipBlanks (text ++ rest) = c :: (cs ++ (text' ++ rest)) := by
  cases h with
  | @cons blanks _ text' _ hblanks h =>
    refine ⟨text', h, ?_, fun rest => ?_⟩
    · simp only [List.length_append, List.length_cons]
      omega
    · rw [List.append_assoc, List.append_assoc, List.cons_append]
      exact skipBlanks_word hblanks hc _

theorem reads_word {α : Type} {read : List Char → Reading α} {c : Char} {cs : List Char} {a : α}
    (hc : isBlank c = false)
    (hread : ∀ {text rest : List Char}, skipBlanks text = c :: (cs ++ rest) → Ends rest → read text = .ok (a, rest)) :
    Reads read [c :: cs] a := by
  intro text h rest hrest
  obtain ⟨text', hnil, -, hskip⟩ := h.skip hc
  rw [spaced_nil.mp hnil] at hskip
  exact hread (hskip rest) hrest

/-! ## Strings -/

theorem hexValue?_digitChar : ∀ n < 16, hexValue? (Nat.digitChar n) = some n := by decide

/-- A control character by its number. -/
theorem numbered_control {n : Nat} (h : n < 32) (rest : List Char) :
    numbered ('0' :: '0' :: Nat.digitChar (n / 16) :: Nat.digitChar (n % 16) :: rest) = .ok (Char.ofNat n, rest) := by
  have hzero : hexValue? '0' = some 0 := by decide
  have hhigh := hexValue?_digitChar (n / 16) (by omega)
  have hlow := hexValue?_digitChar (n % 16) (by omega)
  have hunit : codeUnit ('0' :: '0' :: Nat.digitChar (n / 16) :: Nat.digitChar (n % 16) :: rest) = .ok (n, rest) := by
    simp only [codeUnit, hzero, hhigh, hlow, Except.ok.injEq, Prod.mk.injEq, and_true]
    omega
  rw [numbered, hunit]
  dsimp only
  rw [if_neg (by omega), if_neg (by omega)]

theorem character_escape (c : Char) (rest : List Char) : character (escape c ++ rest) = .ok (some c, rest) := by
  unfold escape
  split_ifs with hquote hbackslash hb hf hn hr ht hcontrol
  · rw [hquote]; rfl
  · rw [hbackslash]; rfl
  · rw [hb]; rfl
  · rw [hf]; rfl
  · rw [hn]; rfl
  · rw [hr]; rfl
  · rw [ht]; rfl
  · have hescaped :
        escaped ('u' :: '0' :: '0' :: Nat.digitChar (c.toNat / 16) :: Nat.digitChar (c.toNat % 16) :: rest) =
          .ok (c, rest) := by
      rw [escaped, if_pos rfl, numbered_control hcontrol, Char.ofNat_toNat]
    exact congrArg (Except.map fun r => (some r.1, r.2)) hescaped
  · rw [List.singleton_append, character, if_neg hquote, if_neg hbackslash, if_neg hcontrol]

theorem characters_end {cs rest : List Char} (h : character cs = .ok (none, rest)) :
    characters cs = .ok ([], rest) := by
  rw [characters.eq_def]
  split <;> simp_all

theorem characters_next {cs rest : List Char} {c : Char} (h : character cs = .ok (some c, rest)) :
    characters cs = (characters rest).map fun r => (c :: r.1, r.2) := by
  rw [characters.eq_def]
  split <;> simp_all

theorem characters_escaped (cs rest : List Char) : characters (cs.flatMap escape ++ '"' :: rest) = .ok (cs, rest) := by
  induction cs with
  | nil => exact characters_end rfl
  | cons c cs ih =>
    rw [List.flatMap_cons, List.append_assoc, characters_next (character_escape c _), ih]
    rfl

theorem string_escaped (s : String) (rest : List Char) :
    string (s.toList.flatMap escape ++ '"' :: rest) = .ok (s, rest) := by
  rw [string, characters_escaped]
  exact congrArg (fun s => Except.ok (s, rest)) (String.ofList_toList (s := s))

theorem Spaced.skip_string {s : String} {text : List Char} {words : List (List Char)}
    (h : Spaced (stringText s :: words) text) :
    ∃ text', Spaced words text' ∧ text'.length < text.length ∧
      ∀ rest, skipBlanks (text ++ rest) = '"' :: (s.toList.flatMap escape ++ '"' :: (text' ++ rest)) := by
  have hword : stringText s = '"' :: (s.toList.flatMap escape ++ ['"']) := rfl
  rw [hword] at h
  obtain ⟨text', htext', hlt, hskip⟩ := h.skip (by decide)
  refine ⟨text', htext', hlt, fun rest => ?_⟩
  rw [hskip, List.append_assoc, List.singleton_append]

theorem reads_bool (b : Bool) : Reads readBool [boolText b] b := by
  cases b with
  | true =>
    rw [show boolText true = 't' :: ['r', 'u', 'e'] from rfl]
    refine reads_word (by decide) fun hskip _ => ?_
    unfold readBool
    rw [hskip]
    rfl
  | false =>
    rw [show boolText false = 'f' :: ['a', 'l', 's', 'e'] from rfl]
    refine reads_word (by decide) fun hskip _ => ?_
    unfold readBool
    rw [hskip]
    rfl

/-! ## Numbers -/

/-- Only the number zero begins with the digit. -/
theorem tail_of_leading_zero {n : Nat} {ds : List Char} (h : Nat.toDigits 10 n = '0' :: ds) : ds = [] := by
  induction n using Nat.strong_induction_on generalizing ds with
  | _ n ih =>
    rcases Nat.lt_or_ge n 10 with hlt | hge
    · rw [Nat.toDigits_of_lt_base hlt] at h
      exact (List.cons.inj h).2.symm
    · rw [Nat.toDigits_of_base_le (by decide) hge] at h
      cases hdigits : Nat.toDigits 10 (n / 10) with
      | nil => exact absurd hdigits Nat.toDigits_ne_nil
      | cons c cs =>
        rw [hdigits, List.cons_append] at h
        obtain ⟨rfl, -⟩ := List.cons.inj h
        have hcs : cs = [] := ih (n / 10) (by omega) hdigits
        have hvalue : Nat.ofDigitChars 10 (Nat.toDigits 10 (n / 10)) 0 = n / 10 := Nat.ofDigitChars_ten_toDigits
        rw [hdigits, hcs] at hvalue
        have hzero : n / 10 = 0 := hvalue.symm
        omega

theorem le_ofDigitChars (ds : List Char) (n : Nat) : n ≤ Nat.ofDigitChars 10 ds n := by
  rw [Nat.ofDigitChars_eq_ofDigitChars_zero]
  exact (Nat.le_mul_of_pos_left n (by positivity)).trans (Nat.le_add_right _ _)

theorem absorb_all {ds : List Char} {n : Nat} (h : Nat.ofDigitChars 10 ds n < UInt64.size) :
    absorb n ds = (Nat.ofDigitChars 10 ds n, 0) := by
  induction ds generalizing n with
  | nil => rfl
  | cons d ds ih =>
    have hnext : n * 10 + (d.toNat - 48) = 10 * n + (d.toNat - '0'.toNat) := by
      rw [Nat.mul_comm]
      rfl
    rw [Nat.ofDigitChars_cons, ← hnext] at h ⊢
    rw [absorb, if_pos ((le_ofDigitChars ds _).trans_lt h), ih h]

theorem Ends.head {rest : List Char} (h : Ends rest) :
    ∀ c ∈ rest.head?, c.isDigit = false ∧ c ≠ '.' ∧ c ≠ 'e' ∧ c ≠ 'E' := by
  intro c hc
  have hcases : c = ' ' ∨ c = '\n' ∨ c = '\t' ∨ c = '\r' ∨ c = ',' ∨ c = ']' ∨ c = '\x7d' := by
    simpa [isBlank, or_assoc] using h c hc
  rcases hcases with rfl | rfl | rfl | rfl | rfl | rfl | rfl <;> decide

theorem isDigit_of_mem_naturalText {n : Nat} : ∀ c ∈ naturalText n, c.isDigit = true := fun _ hc =>
  Nat.isDigit_of_mem_toDigits (by decide) (by decide) hc

theorem naturalText_cons (n : Nat) : ∃ c cs, naturalText n = c :: cs ∧ c.isDigit = true := by
  cases htext : naturalText n with
  | nil => exact absurd htext Nat.toDigits_ne_nil
  | cons c cs => exact ⟨c, cs, rfl, isDigit_of_mem_naturalText c (htext ▸ List.mem_cons_self)⟩

theorem unsigned_naturalText {n : Nat} (hn : n < UInt64.size) {rest : List Char} (h : Ends rest) :
    unsigned false (naturalText n ++ rest) = .ok (.natural n, rest) := by
  have hdigits : ∀ c ∈ naturalText n, c.isDigit = true := isDigit_of_mem_naturalText
  have hnone : rest.takeWhile Char.isDigit = [] ∧ rest.dropWhile Char.isDigit = rest := by
    cases rest with
    | nil => exact ⟨rfl, rfl⟩
    | cons c rest => simp [(h.head c rfl).1]
  have habsorb : absorb 0 (naturalText n) = (n, 0) := by
    have hvalue : Nat.ofDigitChars 10 (naturalText n) 0 = n := Nat.ofDigitChars_ten_toDigits
    rw [absorb_all (hvalue.symm ▸ hn), hvalue]
  unfold unsigned
  rw [List.takeWhile_append_of_pos hdigits, List.dropWhile_append_of_pos hdigits, hnone.1, hnone.2, List.append_nil]
  obtain ⟨d, more, htext, -⟩ := naturalText_cons n
  have hleading : ¬ (d = '0' ∧ more ≠ []) := by
    rintro ⟨rfl, hmore⟩
    exact hmore (tail_of_leading_zero htext)
  rw [htext] at habsorb ⊢
  dsimp only
  rw [if_neg hleading, habsorb]
  dsimp only
  split
  · exact absurd rfl (h.head _ rfl).2.1
  · exact absurd rfl (h.head _ rfl).2.2.1
  · exact absurd rfl (h.head _ rfl).2.2.2
  · rfl

theorem number_naturalText {n : Nat} (hn : n < UInt64.size) {rest : List Char} (h : Ends rest) :
    number (naturalText n ++ rest) = .ok (.natural n, rest) := by
  have hunsigned := unsigned_naturalText hn h
  obtain ⟨c, cs, htext, hc⟩ := naturalText_cons n
  rw [htext] at hunsigned ⊢
  unfold number
  split
  · next heq =>
    cases heq
    cases hc
  · exact hunsigned

theorem isBlank_of_isDigit {c : Char} (h : c.isDigit = true) : isBlank c = false := by
  refine Bool.eq_false_iff.mpr fun hblank => ?_
  have hcases : c = ' ' ∨ c = '\n' ∨ c = '\t' ∨ c = '\r' := by simpa [isBlank, or_assoc] using hblank
  rcases hcases with rfl | rfl | rfl | rfl <;> cases h

theorem reads_natural {n : Nat} (hn : n < UInt64.size) : Reads readNatural [naturalText n] n := by
  have hread {rest : List Char} (h : Ends rest) := number_naturalText hn h
  obtain ⟨c, cs, htext, hc⟩ := naturalText_cons n
  rw [htext] at hread ⊢
  refine reads_word (isBlank_of_isDigit hc) fun hskip hrest => ?_
  unfold readNatural
  rw [hskip]
  dsimp only
  rw [if_pos (Or.inr hc), ← List.cons_append, hread hrest]

/-! ## Brackets and commas -/

def arrayWords (items : List (List (List Char))) : List (List Char) :=
  ['['] :: ([[',']].intercalate items ++ [[']']])

def memberWords (name : String) (value : List (List Char)) : List (List Char) := stringText name :: [':'] :: value

def objectWords (members : List (List (List Char))) : List (List Char) :=
  ['\x7b'] :: ([[',']].intercalate members ++ [['\x7d']])

/-- What is written behind the first of several items, to the closing bracket. -/
def following (close : Char) (items : List (List (List Char))) : List (List Char) :=
  items.flatMap ([','] :: ·) ++ [[close]]

theorem following_cons (close : Char) (item : List (List Char)) (items : List (List (List Char))) :
    following close (item :: items) = [','] :: (item ++ following close items) := by
  simp [following]

theorem intercalate_following (close : Char) (item : List (List Char)) (items : List (List (List Char))) :
    [[',']].intercalate (item :: items) ++ [[close]] = item ++ following close items := by
  induction items generalizing item with
  | nil => simp [following]
  | cons item' items ih =>
    rw [List.intercalate_cons_cons, List.append_assoc, List.append_assoc, ih, following_cons]
    rfl

/-- Whether more items follow or none, the value before is at its end. -/
theorem ends_following {close : Char} (hclose : close ∈ [',', ']', '\x7d']) {items : List (List (List Char))}
    {text : List Char} (h : Spaced (following close items) text) (rest : List Char) : Ends (text ++ rest) := by
  cases items with
  | nil => exact h.ends hclose rest
  | cons item items =>
    rw [following_cons] at h
    exact h.ends List.mem_cons_self rest

theorem flatten_intercalate (items : List (List (List Char))) :
    ([[',']].intercalate items).flatten = [','].intercalate (items.map List.flatten) := by
  induction items with
  | nil => rfl
  | cons item items ih =>
    cases items with
    | nil => simp
    | cons item' items =>
      rw [List.map_cons, List.map_cons, List.intercalate_cons_cons, List.intercalate_cons_cons, ← List.map_cons, ← ih]
      simp

theorem flatten_arrayWords (items : List (List (List Char))) :
    (arrayWords items).flatten = arrayText (items.map List.flatten) := by
  simp [arrayWords, arrayText, flatten_intercalate]

theorem flatten_memberWords (name : String) (value : List (List Char)) :
    (memberWords name value).flatten = memberText name value.flatten := by
  simp [memberWords, memberText]

theorem flatten_objectWords (members : List (List (List Char))) :
    (objectWords members).flatten = objectText (members.map List.flatten) := by
  simp [objectWords, objectText, flatten_intercalate]

/-! ## Lists of strings -/

theorem readStrings_item {first : Bool} {cs rest : List Char} {s : String}
    (hnext : nextElement first cs = .ok (true, '"' :: (s.toList.flatMap escape ++ '"' :: rest))) (n : Nat) :
    readStrings (n + 1) first cs = (readStrings n false rest).map fun r => (s :: r.1, r.2) := by
  have hread : readString ('"' :: (s.toList.flatMap escape ++ '"' :: rest)) = .ok (s, rest) := string_escaped s rest
  rw [readStrings, hnext]
  dsimp only
  rw [hread]

theorem nextElement_close {text : List Char} (h : Spaced [[']']] text) (first : Bool) (rest : List Char) :
    nextElement first (text ++ rest) = .ok (false, rest) := by
  obtain ⟨text', hnil, -, hskip⟩ := h.skip (by decide)
  rw [nextElement, hskip, spaced_nil.mp hnil]
  rfl

theorem nextElement_string {cs rest : List Char} (h : skipBlanks cs = '"' :: rest) :
    nextElement true cs = .ok (true, '"' :: rest) := by
  rw [nextElement, h]
  rfl

theorem nextElement_comma {cs behind rest : List Char} (hcomma : skipBlanks cs = ',' :: behind)
    (h : skipBlanks behind = '"' :: rest) : nextElement false cs = .ok (true, '"' :: rest) := by
  simp [nextElement, hcomma, h]

theorem readStrings_following {ss : List String} {n : Nat} {text : List Char}
    (h : Spaced (following ']' (ss.map fun s => [stringText s])) text) (hn : text.length < n) (rest : List Char) :
    readStrings n false (text ++ rest) = .ok (ss, rest) := by
  obtain ⟨n, rfl⟩ := Nat.exists_eq_succ_of_ne_zero (Nat.ne_zero_of_lt hn)
  induction ss generalizing n text with
  | nil => rw [readStrings, nextElement_close h]
  | cons s ss ih =>
    rw [List.map_cons, following_cons] at h
    obtain ⟨behind, hbehind, hshorter, hcomma⟩ := h.skip (by decide)
    obtain ⟨more, hmore, hshorter', hstring⟩ := hbehind.skip_string
    have hnext := nextElement_comma (hcomma rest) (hstring rest)
    obtain ⟨m, rfl⟩ := Nat.exists_eq_succ_of_ne_zero (show n ≠ 0 by omega)
    rw [readStrings_item hnext, ih hmore m (by omega)]
    rfl

theorem reads_strings (ss : List String) : Reads readStringArray (arrayWords (ss.map fun s => [stringText s])) ss := by
  intro text h rest _
  obtain ⟨inside, hinside, -, hopen⟩ := h.skip (by decide)
  rw [readStringArray, hopen, List.nil_append]
  show readStrings ((inside ++ rest).length + 1) true (inside ++ rest) = _
  cases ss with
  | nil => rw [readStrings, nextElement_close hinside]
  | cons s ss =>
    rw [List.map_cons, intercalate_following] at hinside
    obtain ⟨more, hmore, hshorter, hstring⟩ := hinside.skip_string
    have hnext := nextElement_string (hstring rest)
    have hlength : more.length < (inside ++ rest).length := by
      rw [List.length_append]
      omega
    rw [readStrings_item hnext, readStrings_following hmore hlength]
    rfl

/-! ## Records -/

theorem Reads.member {σ α : Type} {value : List Char → Reading α} {words : List (List Char)} {a : α}
    (h : Reads value words a) (name : String) (set : σ → α → σ) (s : σ) :
    Reads ((Member.of name value set).read s) words (set s a) := by
  intro text htext rest hrest
  show (value (text ++ rest)).map _ = _
  rw [h text htext rest hrest]
  rfl

section Record

variable {σ ι : Type} {members : List (Member σ)} {name : ι → String} {value : ι → List (List Char)} {put : ι → σ → σ}

/-- The record has a member of the name, and reading the value puts it into the record. -/
def Knows (members : List (Member σ)) (name : String) (value : List (List Char)) (put : σ → σ) : Prop :=
  ∃ m, members.find? (·.name == name) = some m ∧ ∀ s, Reads (m.read s) value (put s)

theorem nextMember_close {text : List Char} (h : Spaced [['\x7d']] text) (first : Bool) (rest : List Char) :
    nextMember first (text ++ rest) = .ok (false, rest) := by
  obtain ⟨text', hnil, -, hskip⟩ := h.skip (by decide)
  rw [nextMember, hskip, spaced_nil.mp hnil]
  rfl

theorem nextMember_name {cs rest : List Char} (h : skipBlanks cs = '"' :: rest) :
    nextMember true cs = .ok (true, rest) := by
  rw [nextMember, h]
  rfl

theorem nextMember_comma {cs behind rest : List Char} (hcomma : skipBlanks cs = ',' :: behind)
    (h : skipBlanks behind = '"' :: rest) : nextMember false cs = .ok (true, rest) := by
  simp [nextMember, nameQuote, hcomma, h, Except.map]

theorem colon_spaced {words : List (List Char)} {text : List Char} (h : Spaced ([':'] :: words) text) :
    ∃ text', Spaced words text' ∧ ∀ rest, colon (text ++ rest) = .ok (text' ++ rest) := by
  obtain ⟨text', htext', -, hskip⟩ := h.skip (by decide)
  refine ⟨text', htext', fun rest => ?_⟩
  rw [colon, hskip]
  rfl

theorem Spaced.skip_member {name : String} {value words : List (List Char)} {text : List Char}
    (h : Spaced (memberWords name value ++ words) text) :
    ∃ written left, Spaced ([':'] :: value) written ∧ Spaced words left ∧ left.length < text.length ∧
      ∀ rest, skipBlanks (text ++ rest) =
        '"' :: (name.toList.flatMap escape ++ '"' :: (written ++ (left ++ rest))) := by
  rw [memberWords, List.cons_append] at h
  obtain ⟨behind, hbehind, hshorter, hstring⟩ := h.skip_string
  obtain ⟨written, left, rfl, hwritten, hleft⟩ := spaced_append.mp hbehind
  refine ⟨written, left, hwritten, hleft, ?_, fun rest => ?_⟩
  · rw [List.length_append] at hshorter
    omega
  · rw [hstring, List.append_assoc]

/-- One member that was not met before. -/
theorem readMembers_member {i : ι} (hknows : Knows members (name i) (value i) (put i)) {met : List String}
    (hnew : name i ∉ met) {text rest cs : List Char} (h : Spaced ([':'] :: value i) text) (hrest : Ends rest)
    {first : Bool}
    (hnext : nextMember first cs = .ok (true, (name i).toList.flatMap escape ++ '"' :: (text ++ rest))) (n : Nat)
    (s : σ) :
    readMembers members (n + 1) met first s cs = readMembers members n (name i :: met) false (put i s) rest := by
  obtain ⟨m, hfind, hread⟩ := hknows
  obtain ⟨behind, hbehind, hcolon⟩ := colon_spaced h
  have hvalue : (colon (text ++ rest)).bind (m.read s) = .ok (put i s, rest) := by
    rw [hcolon]
    exact hread s behind hbehind rest hrest
  rw [readMembers, hnext]
  dsimp only
  rw [string_escaped]
  dsimp only
  rw [hfind]
  dsimp only
  rw [if_neg hnew, hvalue]

theorem readMembers_following {is : List ι} (hknows : ∀ i ∈ is, Knows members (name i) (value i) (put i))
    {met : List String} (hdistinct : (is.map name).Nodup) (hnew : ∀ i ∈ is, name i ∉ met) {n : Nat} {text : List Char}
    (h : Spaced (following '\x7d' (is.map fun i => memberWords (name i) (value i))) text) (hn : text.length < n)
    (rest : List Char) (s : σ) :
    readMembers members n met false s (text ++ rest) = .ok (is.foldl (fun s i => put i s) s, rest) := by
  obtain ⟨n, rfl⟩ := Nat.exists_eq_succ_of_ne_zero (Nat.ne_zero_of_lt hn)
  induction is generalizing met n text s with
  | nil => rw [readMembers, nextMember_close h]; rfl
  | cons i is ih =>
    obtain ⟨hknow, hknows⟩ := List.forall_mem_cons.mp hknows
    obtain ⟨hi, hothers⟩ := List.forall_mem_cons.mp hnew
    obtain ⟨hfresh, hdistinct⟩ := List.nodup_cons.mp hdistinct
    rw [List.map_cons, following_cons] at h
    obtain ⟨behind, hbehind, hshorter, hcomma⟩ := h.skip (by decide)
    obtain ⟨written, left, hwritten, hleft, hshorter', hstring⟩ := hbehind.skip_member
    have hnext := nextMember_comma (hcomma rest) (hstring rest)
    have hstill : ∀ j ∈ is, name j ∉ name i :: met := by
      intro j hj hmet
      rcases List.mem_cons.mp hmet with heq | hmet
      · exact hfresh (heq ▸ List.mem_map_of_mem hj)
      · exact hothers j hj hmet
    obtain ⟨m, rfl⟩ := Nat.exists_eq_succ_of_ne_zero (show n ≠ 0 by omega)
    rw [readMembers_member hknow hi hwritten (ends_following (by decide) hleft rest) hnext,
      ih hknows hdistinct hstill hleft (put i s) m (by omega)]
    rfl

/-- Members that are given once each, in whatever order, are put into the blank record. -/
theorem reads_record {is : List ι} (hknows : ∀ i ∈ is, Knows members (name i) (value i) (put i))
    (hdistinct : (is.map name).Nodup) (blank : σ) :
    Reads (readRecord members blank) (objectWords (is.map fun i => memberWords (name i) (value i)))
      (is.foldl (fun s i => put i s) blank) := by
  intro text h rest _
  obtain ⟨inside, hinside, -, hopen⟩ := h.skip (by decide)
  rw [readRecord, hopen, List.nil_append]
  show readMembers members ((inside ++ rest).length + 1) [] true blank (inside ++ rest) = _
  cases is with
  | nil => rw [readMembers, nextMember_close hinside]; rfl
  | cons i is =>
    obtain ⟨hknow, hknows⟩ := List.forall_mem_cons.mp hknows
    obtain ⟨hfresh, hdistinct⟩ := List.nodup_cons.mp hdistinct
    rw [List.map_cons, intercalate_following] at hinside
    obtain ⟨written, left, hwritten, hleft, hshorter, hstring⟩ := hinside.skip_member
    have hnext := nextMember_name (hstring rest)
    have hstill : ∀ j ∈ is, name j ∉ [name i] := by
      intro j hj hmet
      exact hfresh (List.mem_singleton.mp hmet ▸ List.mem_map_of_mem hj)
    have hlength : left.length < (inside ++ rest).length := by
      rw [List.length_append]
      omega
    rw [readMembers_member hknow List.not_mem_nil hwritten (ends_following (by decide) hleft rest) hnext,
      readMembers_following hknows hdistinct hstill hleft hlength]
    rfl

end Record

end SqlPipeline.JsonText
