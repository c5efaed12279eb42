/-
  SqlPipeline.Proofs.Condition.Reading — what the words of a condition say of a row.

  A database reads a condition by precedence: NOT binds closer than AND, AND closer than OR,
  and parentheses closer than all of them. A leaf is true, false or unknown of a row, and the
  condition is met by the rows it is true of.

  The words are gone through once, with a level for each parenthesis that is open. A level
  keeps the disjunction of the alternatives that are complete and the conjunction of the
  members, so far, of the one that is not. Words that do not make a condition are not read.

  - `read_conjunct`: a leaf between ANDs, with no OR outside parentheses, is true of every row
    that meets the condition.
-/

import SqlPipeline.Sql.Condition.Tokens

namespace SqlPipeline

/-! ## Truth -/

inductive Truth where
  | no | unknown | yes
  deriving DecidableEq, Repr

namespace Truth

def not : Truth → Truth
  | no => yes
  | unknown => unknown
  | yes => no

def and : Truth → Truth → Truth
  | yes, b => b
  | no, _ => no
  | unknown, no => no
  | unknown, _ => unknown

def or : Truth → Truth → Truth
  | no, b => b
  | yes, _ => yes
  | unknown, yes => yes
  | unknown, _ => unknown

theorem and_eq_yes {a b : Truth} : a.and b = yes ↔ a = yes ∧ b = yes := by
  cases a <;> cases b <;> simp [and]

end Truth

/-! ## Reading -/

/-- One level of parentheses. -/
structure Level where
  /-- Of the alternatives that are complete. -/
  alternatives : Truth := .no
  /-- Of the members so far of the last one. -/
  conjunction : Truth := .yes
  /-- Whether the member that comes next is denied. -/
  denied : Bool := false
  deriving DecidableEq, Repr

namespace Level

def value (l : Level) : Truth := l.alternatives.or l.conjunction

/-- The level with one more member. -/
def take (l : Level) (v : Truth) : Level :=
  { l with conjunction := l.conjunction.and (if l.denied then v.not else v), denied := false }

end Level

structure Reader where
  level : Level := {}
  /-- The levels around it, the innermost first. -/
  outer : List Level := []
  /-- Whether a member has to come next. -/
  expects : Bool := true
  deriving DecidableEq, Repr

namespace Reader

/-- One word. Nothing when it cannot come here. -/
def step (truth : Leaf → Truth) (r : Reader) : Token → Option Reader
  | .leaf l => if r.expects then some { r with level := r.level.take (truth l), expects := false } else none
  | .not => if r.expects then some { r with level := { r.level with denied := !r.level.denied } } else none
  | .open => if r.expects then some { outer := r.level :: r.outer } else none
  | .close =>
    match r.expects, r.outer with
    | false, l :: outer => some { level := l.take r.level.value, outer, expects := false }
    | _, _ => none
  | .and => if r.expects then none else some { r with level := { r.level with denied := false }, expects := true }
  | .or => if r.expects then none else some { r with level := { alternatives := r.level.value }, expects := true }

def run (truth : Leaf → Truth) (r : Reader) : List Token → Option Reader
  | [] => some r
  | t :: ts => (r.step truth t).bind fun r => r.run truth ts

theorem run_append (truth : Leaf → Truth) (r : Reader) (ts us : List Token) :
    r.run truth (ts ++ us) = (r.run truth ts).bind fun r => r.run truth us := by
  induction ts generalizing r with
  | nil => rfl
  | cons t ts ih =>
    simp only [List.cons_append, run]
    cases r.step truth t with
    | none => rfl
    | some r' => exact ih r'

end Reader

/-- The truth of a condition, from the truth of its leaves; nothing if the words make none. -/
def read (truth : Leaf → Truth) (ts : List Token) : Option Truth :=
  match Reader.run truth {} ts with
  | some ⟨level, [], false⟩ => some level.value
  | _ => none

/-! ## Parentheses that match -/

/-- Whether the parentheses match, `depth` being open before, and OR stands outside of them
    only where this is allowed. -/
def matched (orAllowed : Bool) : Nat → List Token → Bool
  | depth, [] => depth == 0
  | depth, .open :: ts => matched orAllowed (depth + 1) ts
  | 0, .close :: _ => false
  | depth + 1, .close :: ts => matched orAllowed depth ts
  | depth, .or :: ts => (orAllowed || depth != 0) && matched orAllowed depth ts
  | depth, .leaf _ :: ts => matched orAllowed depth ts
  | depth, .and :: ts => matched orAllowed depth ts
  | depth, .not :: ts => matched orAllowed depth ts

/-- Words that match, in front of others and possibly inside parentheses that these close. -/
theorem matched_append {o o' : Bool} (depth around : Nat) {ts us : List Token} (h : matched o depth ts = true)
    (hor : o = true → o' = true ∨ around ≠ 0) (h' : matched o' around us = true) :
    matched o' (depth + around) (ts ++ us) = true := by
  induction ts generalizing depth with
  | nil =>
    have hzero : depth = 0 := by simpa [matched] using h
    subst hzero
    rw [Nat.zero_add]
    exact h'
  | cons t ts ih =>
    cases t with
    | «open» =>
      have hinside := ih (depth + 1) h
      rw [show depth + 1 + around = depth + around + 1 by omega] at hinside
      exact hinside
    | close =>
      cases depth with
      | zero => cases h
      | succ depth =>
        rw [show depth + 1 + around = depth + around + 1 by omega]
        exact ih depth h
    | or =>
      simp only [List.cons_append, matched, Bool.and_eq_true, Bool.or_eq_true, bne_iff_ne] at h ⊢
      refine ⟨?_, ih depth h.2⟩
      rcases h.1 with ho | hdepth
      · rcases hor ho with ho' | haround
        · exact Or.inl ho'
        · exact Or.inr (by omega)
      · exact Or.inr (by omega)
    | _ => exact ih depth h

theorem matched_beside {o : Bool} {ts us : List Token} (h : matched o 0 ts = true) (h' : matched o 0 us = true) :
    matched o 0 (ts ++ us) = true :=
  matched_append 0 0 h (fun ho => Or.inl ho) h'

theorem matched_mono {o : Bool} {ts : List Token} (h : matched o 0 ts = true) : matched true 0 ts = true := by
  have hend : matched true 0 (ts ++ []) = true := matched_append 0 0 h (fun _ => Or.inl rfl) rfl
  rwa [List.append_nil] at hend

/-- Parentheses keep an OR inside; without them there must be none. -/
theorem matched_enclosed {o wanted : Bool} {ts : List Token} (h : matched true 0 ts = true)
    (hopen : wanted = false → matched o 0 ts = true) : matched o 0 (enclosed wanted ts) = true := by
  cases wanted with
  | false => exact hopen rfl
  | true =>
    have hclose : matched o 1 [.close] = true := rfl
    exact matched_append 0 1 h (fun _ => Or.inr Nat.one_ne_zero) hclose

/-! ## A conjunct -/

namespace Reader

/-- The outermost level. -/
def base (r : Reader) : Level := r.outer.getLastD r.level

theorem base_cons (level l : Level) (outer : List Level) (e e' : Bool) :
    base ⟨level, l :: outer, e⟩ = base ⟨l, outer, e'⟩ := List.getLastD_cons

/-- There is no alternative at the outermost level, and it cannot be met unless `p` holds. -/
structure Holds (p : Prop) (r : Reader) : Prop where
  alternatives : r.base.alternatives = .no
  conjunction : r.base.conjunction = .yes → p

theorem take_conjunction (l : Level) (v : Truth) (h : (l.take v).conjunction = .yes) : l.conjunction = .yes :=
  (Truth.and_eq_yes.mp h).1

variable {truth : Leaf → Truth}

/-- The level may change as long as its conjunction gets no truer. -/
theorem Holds.of_level {p : Prop} {level level' : Level} {outer : List Level} {e e' : Bool}
    (h : Holds p ⟨level, outer, e⟩) (ha : level'.alternatives = level.alternatives)
    (hc : level'.conjunction = .yes → level.conjunction = .yes) : Holds p ⟨level', outer, e'⟩ := by
  cases outer with
  | nil => exact ⟨ha.trans h.alternatives, fun hyes => h.conjunction (hc hyes)⟩
  | cons l outer => exact ⟨h.alternatives, h.conjunction⟩

/-- No word takes back what holds, but for an OR outside parentheses. -/
theorem Holds.step {p : Prop} {r r' : Reader} {t : Token} (h : r.Holds p) (hstep : r.step truth t = some r')
    (hor : t = .or → r.outer ≠ []) : r'.Holds p := by
  obtain ⟨level, outer, expects⟩ := r
  cases t with
  | leaf l =>
    cases expects <;> cases hstep
    exact h.of_level rfl (take_conjunction level (truth l))
  | not =>
    cases expects <;> cases hstep
    exact h.of_level rfl id
  | «open» =>
    cases expects <;> cases hstep
    have hbase := base_cons {} level outer true true
    exact ⟨hbase ▸ h.alternatives, hbase ▸ h.conjunction⟩
  | close =>
    cases expects with
    | true => cases hstep
    | false =>
      cases outer with
      | nil => cases hstep
      | cons l outer =>
        cases hstep
        have hbase := base_cons level l outer false true
        have hl : Holds p ⟨l, outer, true⟩ := ⟨hbase ▸ h.alternatives, hbase ▸ h.conjunction⟩
        exact hl.of_level rfl (take_conjunction l level.value)
  | and =>
    cases expects <;> cases hstep
    exact h.of_level rfl id
  | or =>
    cases expects <;> cases hstep
    cases outer with
    | nil => exact absurd rfl (hor rfl)
    | cons l outer => exact ⟨h.alternatives, h.conjunction⟩

/-- What holds outside all parentheses holds after words that match. -/
theorem Holds.run {p : Prop} {ts : List Token} {r r' : Reader} (h : r.Holds p)
    (hm : matched false r.outer.length ts = true) (hrun : r.run truth ts = some r') : r'.Holds p ∧ r'.outer = [] := by
  induction ts generalizing r with
  | nil =>
    cases hrun
    exact ⟨h, List.eq_nil_of_length_eq_zero (by simpa [matched] using hm)⟩
  | cons t ts ih =>
    obtain ⟨r₁, hstep, hrest⟩ := Option.bind_eq_some_iff.mp hrun
    have hor : t = .or → r.outer ≠ [] := by
      rintro rfl hnil
      rw [hnil] at hm
      cases hm
    refine ih (h.step hstep hor) ?_ hrest
    obtain ⟨level, outer, expects⟩ := r
    cases t with
    | close =>
      cases expects with
      | true => cases hstep
      | false =>
        cases outer with
        | nil => cases hstep
        | cons l outer => cases hstep; exact hm
    | or =>
      cases expects <;> cases hstep
      exact (Bool.and_eq_true_iff.mp hm).2
    | _ =>
      cases expects <;> cases hstep
      exact hm

end Reader

/-- A leaf that starts the condition or follows an AND, with no OR outside parentheses on
    either side, is true of what the condition is true of. -/
theorem read_conjunct {truth : Leaf → Truth} {before after : List Token} {l : Leaf}
    (hbefore : matched false 0 before = true) (hlead : before = [] ∨ ∃ ts, before = ts ++ [.and])
    (hafter : matched false 0 after = true) (h : read truth (before ++ .leaf l :: after) = some .yes) :
    truth l = .yes := by
  unfold read at h
  split at h
  · next level hrun =>
    rw [Reader.run_append] at hrun
    obtain ⟨r₁, hbefore', hrest⟩ := Option.bind_eq_some_iff.mp hrun
    obtain ⟨r₂, hleaf, hafter'⟩ := Option.bind_eq_some_iff.mp hrest
    have hstart : Reader.Holds True {} := ⟨rfl, fun _ => trivial⟩
    obtain ⟨h₁, houter⟩ := hstart.run hbefore hbefore'
    have hplain : r₁.level.denied = false := by
      rcases hlead with rfl | ⟨ts, rfl⟩
      · cases hbefore'
        rfl
      · rw [Reader.run_append] at hbefore'
        obtain ⟨r₀, -, hand⟩ := Option.bind_eq_some_iff.mp hbefore'
        obtain ⟨level₀, outer₀, _ | _⟩ := r₀ <;> cases hand
        rfl
    obtain ⟨level₁, outer₁, expects₁⟩ := r₁
    cases houter
    cases expects₁ <;> cases hleaf
    have h₂ : Reader.Holds (truth l = .yes) ⟨level₁.take (truth l), [], false⟩ := by
      refine ⟨h₁.alternatives, fun hyes => ?_⟩
      have hmember := (Truth.and_eq_yes.mp hyes).2
      rw [show level₁.denied = false from hplain] at hmember
      exact hmember
    obtain ⟨h₃, -⟩ := h₂.run hafter hafter'
    -- the condition is the outermost conjunction, for there is no alternative to it
    have hvalue : level.value = .yes := by simpa using h
    have hnone : level.alternatives = .no := h₃.alternatives
    unfold Level.value at hvalue
    rw [hnone] at hvalue
    exact h₃.conjunction hvalue
  · cases h

/-- OR binds less than AND, NOT more; parentheses come first. -/
example :
    let a : Leaf := .isNull "a" false
    let b : Leaf := .isNull "b" false
    let truth : Leaf → Truth := fun l => if l = a then .yes else .no
    read truth [.leaf a, .or, .leaf b, .and, .leaf b] = some .yes ∧
      read truth [.open, .leaf a, .or, .leaf b, .close, .and, .leaf b] = some .no ∧
      read truth [.not, .leaf b, .and, .leaf a] = some .yes ∧ read truth [.leaf a, .and] = none := by
  decide

end SqlPipeline
