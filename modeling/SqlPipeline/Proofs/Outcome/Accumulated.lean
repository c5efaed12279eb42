/-
  SqlPipeline.Proofs.Outcome.Accumulated — errors added one after the other.

  Joining treats single errors and several ones differently, and the first operand differently
  from the second, so the tree that comes of it depends on what was added and how that was nested.
  Who looks at it sees none of this: not in its leaves, not when searching it, and not in its text,
  which is the texts of the leaves. A place for several errors that has none is the one exception:
  it has no leaf, but its separator is written.

  - `message_leaves`: the text of an error is the texts of its leaves.
  - `StandsFor.join`, `Met.addError`: two errors joined, and one more added to those that were met.
  - `errors_accumulated`: errors added to a fresh statement, and joining bracketed in two ways.
-/

import SqlPipeline.Proofs.Outcome.Leaves

namespace SqlPipeline

namespace Error

/-! ## The text -/

mutual

/-- Whether there is no place for several errors, at any depth, that has none. -/
def isFilled : Error → Bool
  | .several errors => !errors.isEmpty && areFilled errors
  | _ => true

def areFilled : List Error → Bool
  | [] => true
  | e :: es => isFilled e && areFilled es

end

theorem areFilled_cons {e : Error} {es : List Error} :
    areFilled (e :: es) = true ↔ e.isFilled = true ∧ areFilled es = true := by
  rw [areFilled, Bool.and_eq_true]

theorem isFilled_several {es : List Error} :
    (Error.several es).isFilled = true ↔ es ≠ [] ∧ areFilled es = true := by
  simp [isFilled]

theorem areFilled_iff {es : List Error} : areFilled es = true ↔ ∀ e ∈ es, e.isFilled = true := by
  induction es with
  | nil => simp [areFilled]
  | cons e es ih => rw [areFilled_cons, ih, List.forall_mem_cons]

theorem areFilled_append {es es' : List Error} (h : areFilled es = true) (h' : areFilled es' = true) :
    areFilled (es ++ es') = true :=
  areFilled_iff.mpr (List.forall_mem_append.mpr ⟨areFilled_iff.mp h, areFilled_iff.mp h'⟩)

theorem isFilled_join {e e' : Error} (h : e.isFilled = true) (h' : e'.isFilled = true) : (e.join e').isFilled = true := by
  have hone : areFilled [e'] = true := areFilled_cons.mpr ⟨h', rfl⟩
  have hpair : (Error.several [e, e']).isFilled = true :=
    isFilled_several.mpr ⟨List.cons_ne_nil e [e'], areFilled_cons.mpr ⟨h, hone⟩⟩
  cases e with
  | several es =>
    obtain ⟨hne, hes⟩ := isFilled_several.mp h
    have hbehind : ∀ {more : List Error}, areFilled more = true → (Error.several (es ++ more)).isFilled = true :=
      fun hmore => isFilled_several.mpr ⟨List.append_ne_nil_of_left_ne_nil hne _, areFilled_append hes hmore⟩
    cases e' with
    | several more => exact hbehind (isFilled_several.mp h').2
    | _ => exact hbehind hone
  | _ => exact hpair

mutual

theorem leaves_ne_nil : ∀ {e : Error}, e.isFilled = true → e.leaves ≠ []
  | .several _, h => leavesOf_ne_nil (isFilled_several.mp h).1 (isFilled_several.mp h).2
  | .conflict _, _ | .stale _, _ | .unusableDestination, _ | .invalidData _, _ | .untabled _, _ | .tableNotSet _, _
  | .emptyBatch, _ | .missingConditions, _ | .recordNotFound, _ | .database _, _ | .validation _, _ =>
    List.cons_ne_nil _ []

theorem leavesOf_ne_nil : ∀ {es : List Error}, es ≠ [] → areFilled es = true → leavesOf es ≠ []
  | [], hne, _ => absurd rfl hne
  | _ :: es, _, h => List.append_ne_nil_of_left_ne_nil (leaves_ne_nil (areFilled_cons.mp h).1) (leavesOf es)

end

mutual

theorem message_leaves : ∀ {e : Error}, e.isFilled = true → e.message = "; ".intercalate (e.leaves.map message)
  | .several _, h => intercalate_messages (isFilled_several.mp h).2
  | .conflict _, _ | .stale _, _ | .unusableDestination, _ | .invalidData _, _ | .untabled _, _ | .tableNotSet _, _
  | .emptyBatch, _ | .missingConditions, _ | .recordNotFound, _ | .database _, _ | .validation _, _ =>
    String.intercalate_singleton.symm

/-- Every error has a leaf, so there are as many separators between leaves as between errors, and
    within them. -/
theorem intercalate_messages : ∀ {es : List Error}, areFilled es = true →
    "; ".intercalate (messages es) = "; ".intercalate ((leavesOf es).map message)
  | [], _ => rfl
  | [e], h => by
    rw [messages, messages, String.intercalate_singleton, message_leaves (areFilled_cons.mp h).1, leavesOf, leavesOf,
      List.append_nil]
  | e :: e' :: es, h => by
    obtain ⟨he, hes⟩ := areFilled_cons.mp h
    have hfirst : e.leaves.map message ≠ [] := by simpa using leaves_ne_nil he
    have hothers : (leavesOf (e' :: es)).map message ≠ [] := by
      simpa using leavesOf_ne_nil (List.cons_ne_nil e' es) hes
    have htexts : messages (e' :: es) ≠ [] := by simp [messages]
    have hleaves : leavesOf (e :: e' :: es) = e.leaves ++ leavesOf (e' :: es) := rfl
    rw [messages, String.intercalate_cons_of_ne_nil htexts, message_leaves he, intercalate_messages hes, hleaves,
      List.map_append, String.intercalate_append_of_ne_nil hfirst hothers]

end

/-! ## Joining -/

/-- What there is to see of an error that came of these, in this order, whatever its tree. -/
structure StandsFor (e : Error) (errors : List Error) : Prop where
  leaves : e.leaves = errors.flatMap Error.leaves
  any : ∀ p, e.any p = errors.any (·.any p)
  filled : (∀ e' ∈ errors, e'.isFilled = true) → e.isFilled = true
  message : (∀ e' ∈ errors, e'.isFilled = true) → e.message = "; ".intercalate (e.leaves.map Error.message)

theorem StandsFor.of_leaves {e : Error} {errors : List Error} (hleaves : e.leaves = errors.flatMap Error.leaves)
    (hfilled : (∀ e' ∈ errors, e'.isFilled = true) → e.isFilled = true) : e.StandsFor errors where
  leaves := hleaves
  any p := by
    have heach : (fun e' : Error => e'.any p) = fun e' => e'.leaves.any p := funext (any_leaves p)
    rw [any_leaves, hleaves, List.any_flatMap, heach]
  filled := hfilled
  message h := message_leaves (hfilled h)

theorem standsFor_self (e : Error) : e.StandsFor [e] :=
  .of_leaves (List.flatMap_singleton leaves e).symm fun h => h e (List.mem_singleton.mpr rfl)

theorem StandsFor.join {e e' : Error} {errors errors' : List Error} (h : e.StandsFor errors)
    (h' : e'.StandsFor errors') : (e.join e').StandsFor (errors ++ errors') := by
  refine .of_leaves ?_ fun hall => ?_
  · rw [leaves_join, h.leaves, h'.leaves, List.flatMap_append]
  · obtain ⟨hfilled, hfilled'⟩ := List.forall_mem_append.mp hall
    exact isFilled_join (h.filled hfilled) (h'.filled hfilled')

/-- Two errors that came of the same differ in their trees at most. -/
theorem StandsFor.alike {e e' : Error} {errors : List Error} (h : e.StandsFor errors) (h' : e'.StandsFor errors) :
    e.leaves = e'.leaves ∧ (∀ p, e.any p = e'.any p) ∧
      ((∀ e ∈ errors, e.isFilled = true) → e.message = e'.message) := by
  have hleaves : e.leaves = e'.leaves := h.leaves.trans h'.leaves.symm
  refine ⟨hleaves, fun p => (h.any p).trans (h'.any p).symm, fun hall => ?_⟩
  rw [h.message hall, h'.message hall, hleaves]

end Error

/-! ## Adding -/

namespace Statement

variable {ρ : Type}

/-- These were added, the oldest first, and none else. -/
def Met (s : Statement ρ) (errors : List Error) : Prop :=
  match s.error with
  | none => errors = []
  | some e => errors ≠ [] ∧ e.StandsFor errors

theorem Met.addError {s : Statement ρ} {errors : List Error} (h : s.Met errors) (e : Error) :
    (s.addError e).Met (errors ++ [e]) := by
  refine ⟨List.append_ne_nil_of_right_ne_nil errors (List.cons_ne_nil e []), ?_⟩
  unfold Met at h
  cases herror : s.error with
  | none =>
    rw [herror] at h
    subst h
    exact e.standsFor_self
  | some before =>
    rw [herror] at h
    exact h.2.join e.standsFor_self

theorem Met.addErrors {s : Statement ρ} {errors : List Error} (h : s.Met errors) (more : List Error) :
    (more.foldl Statement.addError s).Met (errors ++ more) := by
  induction more generalizing s errors with
  | nil => rwa [List.append_nil]
  | cons e more ih =>
    rw [List.foldl_cons, List.append_cons]
    exact ih (h.addError e)

theorem Met.result {s : Statement ρ} {errors : List Error} (h : s.Met errors) :
    ((∃ e, s.result = .error e) ↔ errors ≠ []) ∧ ∀ e, s.result = .error e → e.StandsFor errors := by
  unfold Met at h
  unfold Statement.result
  cases herror : s.error with
  | none =>
    rw [herror] at h
    simp [h]
  | some e =>
    rw [herror] at h
    obtain ⟨hne, hstands⟩ := h
    refine ⟨⟨fun _ => hne, fun _ => ⟨e, rfl⟩⟩, fun e' he' => ?_⟩
    cases he'
    exact hstands

/-- Errors added to a fresh statement are all there, in order. Its result is an error if there was
    any to add; it has the leaves of those that were added, an error is found in it that is found
    in one of them and, unless a place for several errors has none, its text is the texts of its
    leaves. So it makes no difference to any of this how joining is bracketed, though it does to
    the tree. -/
theorem errors_accumulated (config : Config) (errors : List Error) :
    let s : Statement ρ := errors.foldl addError (fresh config)
    ((∃ e, s.result = .error e) ↔ errors ≠ []) ∧
      (∀ e, s.result = .error e →
        e.leaves = errors.flatMap Error.leaves ∧
        (∀ p, e.any p = errors.any (·.any p)) ∧
        ((∀ e' ∈ errors, e'.isFilled = true) → e.message = "; ".intercalate (e.leaves.map Error.message))) ∧
      (∀ a b c : Error,
        let e := (a.join b).join c
        let e' := a.join (b.join c)
        e.leaves = e'.leaves ∧ (∀ p, e.any p = e'.any p) ∧
          ((∀ x ∈ [a, b, c], x.isFilled = true) → e.message = e'.message)) ∧
      ∃ a b c : Error, (a.join b).join c ≠ a.join (b.join c) := by
  intro s
  have hfresh : (fresh config : Statement ρ).Met [] := rfl
  have hmet : s.Met errors := hfresh.addErrors errors
  obtain ⟨hfailed, hstands⟩ := hmet.result
  refine ⟨hfailed, fun e he => ?_, fun a b c => ?_, .recordNotFound, .emptyBatch, .missingConditions, ?_⟩
  · have h := hstands e he
    exact ⟨h.leaves, h.any, h.message⟩
  · have hleft := (a.standsFor_self.join b.standsFor_self).join c.standsFor_self
    have hright := a.standsFor_self.join (b.standsFor_self.join c.standsFor_self)
    exact hleft.alike hright
  · simp [Error.join]

/-- A missing row in nests of its own, a refused statement, and two errors that came together. -/
theorem accumulated_from_nests :
    let errors : List Error :=
      [.several [.several [.recordNotFound]], .database "gone", .several [.emptyBatch, .validation "name is required"]]
    let s : Statement Unit := errors.foldl addError (fresh {})
    errors ≠ [] ∧ (∀ e ∈ errors, e.isFilled = true) ∧
      ∃ e, s.result = .error e ∧
        e.leaves = [.recordNotFound, .database "gone", .emptyBatch, .validation "name is required"] ∧
        e.any Error.isRecordNotFound = true ∧
        e.message = "record not found; database error: gone; empty slice found; validation error: name is required" := by
  intro errors s
  obtain ⟨hfailed, hstands, -⟩ := errors_accumulated (ρ := Unit) {} errors
  have hne : errors ≠ [] := List.cons_ne_nil _ _
  have hfilled : ∀ e ∈ errors, e.isFilled = true := Error.areFilled_iff.mp rfl
  obtain ⟨e, he⟩ := hfailed.mpr hne
  obtain ⟨hleaves, hany, hmessage⟩ := hstands e he
  have htexts : (errors.flatMap Error.leaves).map Error.message =
      ["record not found", "database error: gone", "empty slice found", "validation error: name is required"] := rfl
  refine ⟨hne, hfilled, e, he, hleaves, (hany _).trans rfl, ?_⟩
  rw [hmessage hfilled, hleaves, htexts]
  cbv

end Statement

end SqlPipeline
