/-
  SqlPipeline.Proofs.Placement.Reported — what a conflict says is true.

  A conflict names a step and a constraint. There is a candidate of that name which declares
  that constraint, and one of these is the case:
  - it wants to be both first and last;
  - it names itself;
  - it asks for an order of two candidates whose groups stand the other way round;
  - it asks for an order of two candidates of which the second has to precede the first,
    over a chain of constraints.

  `Unmet` is one of the last three. `Unmet.no_order`: then no order at all honours the
  candidates. `conflict_true`: a conflict is reported for nothing else.
-/

import Mathlib.Data.List.Permutation
import SqlPipeline.Proofs.Placement.Compile

namespace SqlPipeline

open Relation Placement Candidate

variable {α : Type}

/-- The constraint is in effect for the candidate. -/
def Candidate.Declares (c : Candidate α) : Constraint → Prop
  | .before a => c.before = some a
  | .after a => c.after = some a

/-- The constraint, declared by `x`, asks for one candidate before another. -/
inductive Constraint.Asks (x : Candidate α) : Constraint → Candidate α → Candidate α → Prop
  | before (y : Candidate α) : Asks x (.before (.step y.name)) x y
  | after (y : Candidate α) : Asks x (.after (.step y.name)) y x

/-- The constraint, declared by `x`, cannot be met among the candidates. -/
inductive Unmet (cs : List (Candidate α)) (x : Candidate α) (k : Constraint) : Prop
  | itself : k = .before (.step x.name) ∨ k = .after (.step x.name) → Unmet cs x k
  /-- `a` is to run before `b`, which is of an earlier group. -/
  | group {a b : Candidate α} : a ∈ cs → b ∈ cs → k.Asks x a b → b.group.rank < a.group.rank → Unmet cs x k
  /-- `a` is to run before `b`, and has to follow it. -/
  | circle {a b : Candidate α} : a ∈ cs → b ∈ cs → k.Asks x a b → ReflTransGen (PrecedesIn cs) b a → Unmet cs x k

theorem Constraint.Asks.precedes {x a b : Candidate α} {k : Constraint} (h : k.Asks x a b) (hd : x.Declares k) :
    a.Precedes b := by
  cases h with
  | before y => exact Or.inl hd
  | after y => exact Or.inr hd

theorem Unmet.perm {cs ds : List (Candidate α)} {x : Candidate α} {k : Constraint} (h : Unmet cs x k)
    (hp : cs.Perm ds) : Unmet ds x k := by
  cases h with
  | itself hk => exact .itself hk
  | group ha hb hk hr => exact .group (hp.mem_iff.mp ha) (hp.mem_iff.mp hb) hk hr
  | circle ha hb hk hc =>
    exact .circle (hp.mem_iff.mp ha) (hp.mem_iff.mp hb) hk (hc.lift id fun _ _ h => h.perm hp)

/-- Where a declared constraint cannot be met there is no order. -/
theorem Unmet.no_order {cs : List (Candidate α)} {x : Candidate α} {k : Constraint} (h : Unmet cs x k) (hx : x ∈ cs)
    (hd : x.Declares k) {l : List (Candidate α)} (hp : l.Perm cs) : ¬ Honours l := by
  intro ho
  cases h with
  | itself hk =>
    refine no_order_of_self hx ?_ hp ho
    rcases hk with rfl | rfl
    · exact Or.inl hd
    · exact Or.inr hd
  | group ha hb hk hr =>
    have hle := ho.rank_le ⟨hp.mem_iff.mpr ha, hp.mem_iff.mpr hb, hk.precedes hd⟩
    omega
  | @circle a b ha hb hk hc =>
    have hcycle : TransGen (PrecedesIn cs) a a := TransGen.head' ⟨ha, hb, hk.precedes hd⟩ hc
    exact ho.no_cycle a (hcycle.lift id fun _ _ h => h.perm hp.symm)

/-! ## Conflicts of the recursion -/

namespace Placement

/-- An edge is what its owner declares. -/
theorem edge_asks {cs : List (Candidate α)} {i : Fin cs.length} {e : Edge cs.length} (h : e ∈ edges cs i) :
    (cs.get e.owner).Declares e.constraint ∧ e.constraint.Asks (cs.get e.owner) (cs.get e.pred) (cs.get i) := by
  obtain ⟨p, -, hp⟩ := List.mem_flatMap.mp h
  unfold edgesBetween at hp
  rcases List.mem_append.mp hp with hp | hp <;> split at hp
  · next hb =>
    rw [List.mem_singleton.mp hp]
    exact ⟨hb, .before _⟩
  · cases hp
  · next ha =>
    rw [List.mem_singleton.mp hp]
    exact ⟨ha, .after _⟩
  · cases hp

theorem Fault.unmet {cs : List (Candidate α)} {c : Conflict} (h : Fault cs c) :
    ∃ x ∈ cs, x.name = c.step ∧ x.Declares c.constraint ∧ Unmet cs x c.constraint := by
  obtain ⟨i, e, he, rfl, hf⟩ := h
  obtain ⟨hd, hk⟩ := edge_asks he
  refine ⟨cs.get e.owner, List.getElem_mem e.owner.isLt, rfl, hd, ?_⟩
  have ha : cs.get e.pred ∈ cs := List.getElem_mem e.pred.isLt
  have hb : cs.get i ∈ cs := List.getElem_mem i.isLt
  rcases hf with hr | hc
  · exact .group ha hb hk hr
  · exact .circle ha hb hk (chain_of_leads hc)

end Placement

/-! ## Conflicts of a candidate on its own -/

theorem flaw?_eq_some {x : Candidate α} {c : Conflict} (h : x.flaw? = some c) :
    x.name = c.step ∧ x.Declares c.constraint ∧
      (x.Torn ∧ c.constraint = .after .all ∨
        c.constraint = .before (.step x.name) ∨ c.constraint = .after (.step x.name)) := by
  unfold flaw? at h
  split_ifs at h with hb ha ht <;> cases h
  · exact ⟨rfl, hb, Or.inr (Or.inl rfl)⟩
  · exact ⟨rfl, ha, Or.inr (Or.inr rfl)⟩
  · exact ⟨rfl, ht.2, Or.inl ⟨ht, rfl⟩⟩

/-! ## Conflicts that are reported -/

theorem compile_error_cases {cs : List (Candidate α)} {c : Conflict} (h : compile cs = .error c) :
    (∃ x ∈ cs, x.flaw? = some c) ∨ Fault (byGroup (bySlot cs)) c := by
  by_cases hf : ∃ x ∈ cs, x.flaw? ≠ none
  · obtain ⟨x, hx, c', hxf, hc⟩ := compile_flawed hf
    rw [h] at hc
    cases hc
    exact Or.inl ⟨x, hx, hxf⟩
  · have ho := order_outcome (byGroup_sorted (bySlot cs))
    rw [compile_flawless (by simpa using hf)] at h
    cases horder : order (byGroup (bySlot cs)) with
    | ok positions => rw [horder] at h; cases h
    | error conflict =>
      rw [horder] at h ho
      cases h
      exact Or.inr ho

/-- The step that a conflict names declares the constraint that it names, and wants to be both
    first and last, or cannot have what it declares; and then no order honours this constraint
    together with all the others. -/
theorem conflict_true {cs : List (Candidate α)} {c : Conflict} (h : compile cs = .error c) :
    ∃ x ∈ cs, x.name = c.step ∧ x.Declares c.constraint ∧
      (x.Torn ∧ c.constraint = .after .all ∨
        Unmet cs x c.constraint ∧ ∀ l : List (Candidate α), l.Perm cs → ¬ Honours l) := by
  rcases compile_error_cases h with ⟨x, hx, hf⟩ | hf
  · obtain ⟨hn, hd, ht | hk⟩ := flaw?_eq_some hf
    · exact ⟨x, hx, hn, hd, Or.inl ht⟩
    · have hu : Unmet cs x c.constraint := .itself hk
      exact ⟨x, hx, hn, hd, Or.inr ⟨hu, fun l hl => hu.no_order hx hd hl⟩⟩
  · obtain ⟨x, hx, hn, hd, hu⟩ := hf.unmet
    have hx : x ∈ cs := (grouped_perm cs).mem_iff.mp hx
    have hu : Unmet cs x c.constraint := hu.perm (grouped_perm cs)
    exact ⟨x, hx, hn, hd, Or.inr ⟨hu, fun l hl => hu.no_order hx hd hl⟩⟩

/-- Three steps that want to run one before the other, all around. The first in the list is
    visited first, and met again over the other two. -/
theorem conflict_of_three :
    let step (name anchor : String) (slot : Nat) : Candidate Unit :=
      { name, before := some (.step anchor), after := none, slot, condition := none, action := (),
        replacing := false, site := ⟨"setup"⟩ }
    let cs := [step "audit" "check" 0, step "check" "stamp" 1, step "stamp" "audit" 2]
    compile cs = .error ⟨"audit", .before (.step "check")⟩ ∧
      ∃ x ∈ cs, x.name = "audit" ∧ x.Declares (.before (.step "check")) ∧
        (x.Torn ∧ Constraint.before (.step "check") = .after .all ∨
          Unmet cs x (.before (.step "check")) ∧ ∀ l : List (Candidate Unit), l.Perm cs → ¬ Honours l) := by
  intro step cs
  have h : compile cs = .error ⟨"audit", .before (.step "check")⟩ := by cbv
  exact ⟨h, conflict_true h⟩

end SqlPipeline
