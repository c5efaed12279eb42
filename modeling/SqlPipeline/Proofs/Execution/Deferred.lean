/-
  SqlPipeline.Proofs.Execution.Deferred — work that queues work.

  A piece of deferred work is a function of a state, which gives another state and the pieces
  it queues. The queue is no part of the state, so no piece sees what is pending. What a piece
  queues, and which of them, may depend on the state; but whatever the state, queueing comes to
  an end: pieces are ranked, and a piece queues only pieces of a lower rank.

  The queue is worked off in batches, or a piece at a time. Let an order be a list of pieces
  which, carried out one after the other, queue what the list has beyond those pending from the
  start. There is one such list, and both ways carry out just this list.

  - `order_closed`, `order_unique`: the batches, end to end, are the one order there is.
  - `order_cons`: its first piece leaves the order of what is pending then.
  - `drain_order`, `turns_order`, `turns_drain`: what the batches come to, any number of turns, and
    all turns.
  - `fifo_order`: all of it.
-/

import Mathlib
import SqlPipeline.Statement.Scopes

namespace SqlPipeline

/-- Pieces of work on a state, which hand over what they queue. -/
structure Deferral (α σ : Type) where
  run : α → σ → σ × List α
  /-- However the states turn out, no piece queues one that queues one, and so on for ever. -/
  ends : WellFounded fun queued a => ∃ x, queued ∈ (run a x).2

namespace Deferral

variable {α σ : Type} (d : Deferral α σ)

/-- One piece may queue another. -/
def Queues (queued a : α) : Prop := ∃ x, queued ∈ (d.run a x).2

/-- Carries out pieces one after the other. -/
def batch : List α → σ → σ × List α
  | [], x => (x, [])
  | a :: as, x =>
    let first := d.run a x
    let rest := batch as first.1
    (rest.1, first.2 ++ rest.2)

@[simp] theorem batch_nil (x : σ) : d.batch [] x = (x, []) := rfl

theorem batch_cons (a : α) (as : List α) (x : σ) :
    d.batch (a :: as) x = ((d.batch as (d.run a x).1).1, (d.run a x).2 ++ (d.batch as (d.run a x).1).2) := rfl

theorem batch_append (as bs : List α) (x : σ) :
    d.batch (as ++ bs) x =
      ((d.batch bs (d.batch as x).1).1, (d.batch as x).2 ++ (d.batch bs (d.batch as x).1).2) := by
  induction as generalizing x with
  | nil => rfl
  | cons a as ih => simp only [List.cons_append, batch_cons, ih, List.append_assoc]

/-- What is queued is queued by one of the pieces. -/
theorem batch_queues (as : List α) (x : σ) : ∀ queued ∈ (d.batch as x).2, ∃ a ∈ as, d.Queues queued a := by
  induction as generalizing x with
  | nil => exact nofun
  | cons a as ih =>
    intro queued hqueued
    rcases List.mem_append.mp hqueued with h | h
    · exact ⟨a, List.mem_cons_self, x, h⟩
    · obtain ⟨b, hb, hy⟩ := ih _ queued h
      exact ⟨b, List.mem_cons_of_mem a hb, hy⟩

theorem batch_descends {as : List α} (h : as ≠ []) (x : σ) : Descends d.Queues (d.batch as x).2 as :=
  ⟨h, d.batch_queues as x⟩

/-! ## Two ways to work off a queue -/

/-- In batches: all that is pending, then all that was queued meanwhile, until nothing is. -/
def drain (p : σ × List α) : σ × List α :=
  if p.2 = [] then p else drain (d.batch p.2 p.1)
termination_by (Descends.wellFounded d.ends).wrap p.2
decreasing_by exact d.batch_descends ‹_› p.1

/-- A piece at a time: the oldest leaves the queue, and what it queues goes to the end. -/
def turn : σ × List α → σ × List α
  | (x, []) => (x, [])
  | (x, a :: queue) => ((d.run a x).1, queue ++ (d.run a x).2)

@[simp] theorem turn_nil (x : σ) : d.turn (x, []) = (x, []) := rfl

@[simp] theorem turn_cons (x : σ) (a : α) (queue : List α) :
    d.turn (x, a :: queue) = ((d.run a x).1, queue ++ (d.run a x).2) := rfl

/-! ## The order -/

/-- The batches, end to end. -/
def order (x : σ) (queue : List α) : List α :=
  if queue = [] then [] else queue ++ order (d.batch queue x).1 (d.batch queue x).2
termination_by (Descends.wellFounded d.ends).wrap queue
decreasing_by exact d.batch_descends ‹_› x

theorem order_nil (x : σ) : d.order x [] = [] := by
  rw [order, if_pos rfl]

theorem order_closed (x : σ) (queue : List α) : queue ++ (d.batch (d.order x queue) x).2 = d.order x queue := by
  fun_induction order d x queue with
  | case1 => rfl
  | case2 x queue _ ih => rw [batch_append, ih]

/-- Pieces that queue just themselves are none: one of the highest rank would be queued by none of them. -/
theorem eq_nil_of_self_queued {as : List α} {x : σ} (h : (d.batch as x).2 = as) : as = [] := by
  by_contra hne
  have hself : Descends d.Queues as as := by
    have hbelow := d.batch_descends hne x
    rwa [h] at hbelow
  exact (Descends.wellFounded d.ends).asymmetric as as hself hself

theorem order_unique {x : σ} {queue other : List α} (h : queue ++ (d.batch other x).2 = other) :
    other = d.order x queue := by
  fun_induction order d x queue generalizing other with
  | case1 => exact d.eq_nil_of_self_queued h
  | case2 x queue _ ih =>
    obtain ⟨rest, rfl⟩ : ∃ rest, other = queue ++ rest := ⟨_, h.symm⟩
    have hrest : (d.batch (queue ++ rest) x).2 = rest := List.append_cancel_left h
    rw [batch_append] at hrest
    exact congrArg (queue ++ ·) (ih hrest)

theorem order_cons (a : α) (queue : List α) (x : σ) :
    d.order x (a :: queue) = a :: d.order (d.run a x).1 (queue ++ (d.run a x).2) := by
  symm
  apply d.order_unique
  rw [batch_cons, List.cons_append, ← List.append_assoc, order_closed]

theorem order_eq_nil {x : σ} {queue : List α} : d.order x queue = [] ↔ queue = [] := by
  cases queue with
  | nil => simp [order_nil]
  | cons a queue => simp [order_cons]

/-! ## Both ways follow the order -/

theorem drain_order (x : σ) (queue : List α) :
    d.drain (x, queue) = ((d.batch (d.order x queue) x).1, []) := by
  fun_induction order d x queue with
  | case1 x => rw [drain, if_pos rfl, batch_nil]
  | case2 x queue hsome ih =>
    rw [drain, if_neg hsome, batch_append]
    exact ih

/-- So many turns carry out so many pieces of the order. They take as many from what was pending
    and what was queued meanwhile. -/
theorem turns_order (n : Nat) (x : σ) (queue : List α) :
    let done := d.batch ((d.order x queue).take n) x
    d.turn^[n] (x, queue) = (done.1, (queue ++ done.2).drop n) := by
  induction n generalizing x queue with
  | zero => simp
  | succ n ih =>
    rw [Function.iterate_succ_apply]
    cases queue with
    | nil => simpa [order_nil] using ih x []
    | cons a queue =>
      simp only [turn_cons, order_cons, List.take_succ_cons, batch_cons, List.cons_append, List.drop_succ_cons,
        ← List.append_assoc]
      exact ih (d.run a x).1 (queue ++ (d.run a x).2)

theorem turns_end (n : Nat) (x : σ) (queue : List α) :
    (d.turn^[n] (x, queue)).2 = [] ↔ (d.order x queue).length ≤ n := by
  induction n generalizing x queue with
  | zero => rw [Nat.le_zero, List.length_eq_zero_iff, order_eq_nil]; rfl
  | succ n ih =>
    rw [Function.iterate_succ_apply]
    cases queue with
    | nil => simpa [order_nil] using ih x []
    | cons a queue =>
      rw [order_cons, List.length_cons, Nat.add_le_add_iff_right]
      exact ih (d.run a x).1 (queue ++ (d.run a x).2)

theorem turns_drain (x : σ) (queue : List α) :
    d.turn^[(d.order x queue).length] (x, queue) = d.drain (x, queue) := by
  have hall := d.turns_order (d.order x queue).length x queue
  rw [List.take_length] at hall
  rw [hall, order_closed, List.drop_length, drain_order]

/-- `order` is the order in which a queue is worked off, first in, first out. -/
structure Fifo (x : σ) (queue order : List α) : Prop where
  /-- Carried out in this order, each piece once, they queue what comes behind those pending. -/
  queued : queue ++ (d.batch order x).2 = order
  unique : ∀ other, queue ++ (d.batch other x).2 = other → other = order
  /-- The batches come to an end with all of them carried out and nothing pending. -/
  drained : d.drain (x, queue) = ((d.batch order x).1, [])
  /-- A turn at a time: those whose turn it was are carried out, the others are pending. -/
  turns : ∀ n,
    let done := d.batch (order.take n) x
    d.turn^[n] (x, queue) = (done.1, (queue ++ done.2).drop n)
  /-- Nothing is pending as soon as all had their turn, and not before. -/
  ends : ∀ n, (d.turn^[n] (x, queue)).2 = [] ↔ order.length ≤ n
  /-- Then the turns have come to what the batches come to. -/
  agree : d.turn^[order.length] (x, queue) = d.drain (x, queue)

theorem fifo_order (x : σ) (queue : List α) : d.Fifo x queue (d.order x queue) where
  queued := d.order_closed x queue
  unique _ := d.order_unique
  drained := d.drain_order x queue
  turns n := d.turns_order n x queue
  ends n := d.turns_end n x queue
  agree := d.turns_drain x queue

end Deferral

/-! ## Scopes as functions -/

/-- A function of a state that may queue more of its kind. -/
inductive Scope (σ : Type) where
  | mk (run : σ → σ × List (Scope σ))

namespace Scope

variable {σ : Type}

def run : Scope σ → σ → σ × List (Scope σ)
  | mk run => run

/-- One scope may queue another. -/
def Queues (queued scope : Scope σ) : Prop := ∃ x, queued ∈ (scope.run x).2

mutual

theorem acc_queues (scope : Scope σ) : Acc Queues scope := by
  cases scope with
  | mk run => exact ⟨_, fun queued ⟨x, hqueued⟩ => acc_of_done (run x) queued hqueued⟩

theorem acc_of_done (done : σ × List (Scope σ)) : ∀ queued ∈ done.2, Acc Queues queued := by
  cases done with
  | mk _ queue => exact acc_of_queue queue

theorem acc_of_queue (queue : List (Scope σ)) : ∀ queued ∈ queue, Acc Queues queued := by
  cases queue with
  | nil => exact nofun
  | cons scope queue => exact List.forall_mem_cons.mpr ⟨acc_queues scope, acc_of_queue queue⟩

end

def deferral : Deferral (Scope σ) σ where
  run := run
  ends := ⟨acc_queues⟩

end Scope

end SqlPipeline
