/-
  SqlPipeline.Proofs.Outcome.Leaves — the single errors of an error, in order.

  How errors are nested depends on how they came together. Their leaves do not: adding an
  error puts its leaves behind those that are there.
-/

import SqlPipeline.Statement.Basic

namespace SqlPipeline

namespace Error

mutual

/-- The single errors, from left to right. -/
def leaves : Error → List Error
  | .several errors => leavesOf errors
  | e => [e]

def leavesOf : List Error → List Error
  | [] => []
  | e :: es => leaves e ++ leavesOf es

end

theorem leavesOf_append (es es' : List Error) : leavesOf (es ++ es') = leavesOf es ++ leavesOf es' := by
  induction es with
  | nil => rfl
  | cons e es ih => rw [List.cons_append, leavesOf, leavesOf, ih, List.append_assoc]

theorem leaves_join (e e' : Error) : (e.join e').leaves = e.leaves ++ e'.leaves := by
  have hpair : (Error.several [e, e']).leaves = e.leaves ++ e'.leaves := by
    simp [leaves, leavesOf]
  cases e with
  | several es =>
    cases e' with
    | several es' => exact leavesOf_append es es'
    | _ => exact leavesOf_append es [_]
  | _ => exact hpair

mutual

/-- Looking for an error in a tree is looking among its leaves. -/
theorem any_leaves (p : Error → Bool) : ∀ e : Error, e.any p = e.leaves.any p
  | .several errors => anyOf_leaves p errors
  | .conflict _ | .stale _ | .unusableDestination | .invalidData _ | .untabled _ | .tableNotSet _ | .emptyBatch
  | .missingConditions | .recordNotFound | .database _ | .validation _ => (Bool.or_false _).symm

theorem anyOf_leaves (p : Error → Bool) : ∀ errors : List Error, anyOf p errors = (leavesOf errors).any p
  | [] => rfl
  | e :: es => by rw [anyOf, leavesOf, List.any_append, any_leaves p e, anyOf_leaves p es]

end

end Error

/-- The single errors a statement has met. -/
def Statement.leaves {ρ : Type} (s : Statement ρ) : List Error := s.error.elim [] Error.leaves

namespace Statement

variable {ρ : Type}

theorem leaves_of_not_failed {s : Statement ρ} (h : s.failed = false) : s.leaves = [] := by
  unfold failed at h
  unfold leaves
  cases he : s.error with
  | none => rfl
  | some e => rw [he] at h; cases h

theorem leaves_addError (s : Statement ρ) (e : Error) : (s.addError e).leaves = s.leaves ++ e.leaves := by
  show (e.added s.error).leaves = s.error.elim [] Error.leaves ++ e.leaves
  cases s.error with
  | none => rfl
  | some before => exact Error.leaves_join before e

theorem leaves_addErrors (errors : List Error) (s : Statement ρ) :
    (errors.foldl addError s).leaves = s.leaves ++ Error.leavesOf errors := by
  induction errors generalizing s with
  | nil => exact (List.append_nil _).symm
  | cons e errors ih => rw [List.foldl_cons, ih, leaves_addError, Error.leavesOf, List.append_assoc]

end Statement

end SqlPipeline
