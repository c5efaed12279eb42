/-
  SqlPipeline.Proofs.Keys.Stored — the conditions a statement stores, and its key condition.

  Conditions are kept under one clause name and accumulate. Narrowing a statement to its
  destination adds at most one, behind those that are there, and that one binds the keys
  that are set, in row order.

  - `get?_add`, `get?_addIfAbsent`: what a clause leaves of the others.
  - `addKeyCondition_conditions`: what narrowing adds.
-/

import SqlPipeline.Operation.Keys

namespace SqlPipeline

open Operation

/-! ## Clauses by name -/

theorem Clause.merge_name (c : Clause) (present : Option Clause) : (c.merge present).name = c.name := by
  unfold Clause.merge
  split <;> rfl

namespace Clauses

theorem get?_add (cs : Clauses) (c : Clause) (name : String) :
    (cs.add c).get? name = if c.name = name then some (c.merge (cs.get? c.name)) else cs.get? name := by
  show ((c.merge (cs.get? c.name) :: cs.entries.filter (·.name != c.name)).find? (·.name == name)) = _
  rw [List.find?_cons, Clause.merge_name]
  by_cases h : c.name = name
  · simp [h]
  · rw [beq_eq_false_iff_ne.mpr h, if_neg h, List.find?_filter]
    show cs.entries.find? _ = cs.entries.find? _
    congr 1
    funext d
    by_cases hd : d.name = name
    · simp [hd, Ne.symm h]
    · simp [hd]

theorem get?_addIfAbsent (cs : Clauses) {c : Clause} {name : String} (h : c.name ≠ name) :
    (cs.addIfAbsent c).get? name = cs.get? name := by
  unfold addIfAbsent
  split
  · rfl
  · show (c :: cs.entries).find? (·.name == name) = _
    rw [List.find?_cons, beq_eq_false_iff_ne.mpr h]
    rfl

end Clauses

/-! ## Conditions -/

namespace Statement

variable {ρ : Type}

/-- The conditions stored, the oldest first. -/
def conditions (s : Statement ρ) : List Expression :=
  match s.clause? "WHERE" with
  | some (.where conditions) => conditions
  | _ => []

theorem conditions_addWhere (s : Statement ρ) (new : List Expression) :
    (s.addClause (.where new)).conditions = s.conditions ++ new := by
  have hget : (s.addClause (.where new)).clause? "WHERE" = some ((Clause.where new).merge (s.clause? "WHERE")) :=
    (s.clauses.get?_add (.where new) "WHERE").trans (if_pos rfl)
  unfold conditions
  rw [hget]
  unfold Clause.merge
  rcases s.clause? "WHERE" with _ | c
  · rfl
  · cases c <;> rfl

theorem conditions_suchThat (s : Statement ρ) (e : Expression) : (s.suchThat e).conditions = s.conditions ++ [e] :=
  s.conditions_addWhere [e]

theorem conditions_addClause (s : Statement ρ) {c : Clause} (h : c.name ≠ "WHERE") :
    (s.addClause c).conditions = s.conditions := by
  have hget : (s.addClause c).clause? "WHERE" = s.clause? "WHERE" := (s.clauses.get?_add c "WHERE").trans (if_neg h)
  unfold conditions
  rw [hget]

theorem conditions_addClauseIfAbsent (s : Statement ρ) {c : Clause} (h : c.name ≠ "WHERE") :
    (s.addClauseIfAbsent c).conditions = s.conditions := by
  have hget : (s.addClauseIfAbsent c).clause? "WHERE" = s.clause? "WHERE" := s.clauses.get?_addIfAbsent h
  unfold conditions
  rw [hget]

theorem conditions_of_clauses {s s' : Statement ρ} (h : s'.clauses = s.clauses) : s'.conditions = s.conditions := by
  unfold conditions clause?
  rw [h]

theorem hasConditions_of_conditions {s : Statement ρ} (h : s.conditions ≠ []) : s.hasConditions = true := by
  unfold conditions at h
  unfold hasConditions
  split at h
  · next conditions hc =>
    rw [hc]
    cases conditions with
    | nil => exact absurd rfl h
    | cons e es => rfl
  · exact absurd rfl h

theorem clause?_of_conditions {s : Statement ρ} (h : s.conditions ≠ []) :
    s.clause? "WHERE" = some (.where s.conditions) := by
  unfold conditions at h ⊢
  split at h
  · next conditions hc => rw [hc]
  · exact absurd rfl h

theorem tableName?_of_schema {s : Statement ρ} {schema : Schema} (h : s.schema = some schema) :
    ∃ table, s.tableName? = some table := by
  unfold tableName?
  rw [h]
  cases s.table with
  | none => exact ⟨schema.table, rfl⟩
  | some table => exact ⟨table, rfl⟩

end Statement

/-! ## Keys -/

/-- The values the text of a condition binds, in order. -/
def Expression.bound (e : Expression) : List Value := e.pieces.filterMap Piece.param?

variable {ρ : Type} [Record ρ]

/-- The keys that are set in the destination's rows, in row order. -/
def Statement.heldKeys (s : Statement ρ) : List Value :=
  match s.schema.bind Schema.primary?, keyedRows? s.shape, s.destination? with
  | some key, some rows, some dest => setKeys dest key.name rows
  | _, _, _ => []

theorem Statement.schema_of_heldKeys {s : Statement ρ} (h : s.heldKeys ≠ []) :
    ∃ schema, s.schema = some schema := by
  cases hs : s.schema with
  | none =>
    unfold heldKeys at h
    rw [hs] at h
    exact absurd rfl h
  | some schema => exact ⟨schema, rfl⟩

namespace Operation

theorem keyConditionOf?_eq (s : Statement ρ) :
    keyConditionOf? s = (s.schema.bind Schema.primary?).bind fun key => keyCondition? s.shape key.name s.heldKeys := by
  unfold keyConditionOf? Statement.heldKeys
  rcases s.schema with _ | schema
  · rfl
  · rcases hk : schema.primary? with _ | key
    · simp [hk]
    · rcases keyedRows? s.shape with _ | rows
      · simp [hk, keyCondition?]
      · rcases s.destination? with _ | dest
        · simp [hk, keyCondition?]
        · simp [hk]

theorem commaSeparated_params (vs : List Value) :
    (Piece.commaSeparated (vs.map fun v => [.param v])).filterMap Piece.param? = vs := by
  rw [Piece.params_commaSeparated, List.flatMap_map]
  simp

theorem bound_member (column : String) {vs : List Value} (h : vs ≠ []) :
    (Expression.member column vs).bound = vs := by
  have hne : vs.isEmpty = false := by simpa using h
  simp [Expression.bound, Expression.pieces, Expression.tokens, Token.pieces, Leaf.pieces, hne, List.filterMap_cons,
    commaSeparated_params]

/-- NULL would be tested for without a value. -/
theorem bound_compare (column : String) {v : Value} (h : v.isZero = false) :
    (Expression.compare column .eq v).bound = [v] := by
  have hnull : v ≠ .null := by
    rintro rfl
    exact absurd h (by decide)
  cases v <;>
    simp_all [Expression.bound, Expression.pieces, Expression.tokens, Token.pieces, Leaf.pieces, List.filterMap_cons]

theorem setKeys_nonzero (dest : ρ) (column : String) (rows : Nat) :
    ∀ v ∈ setKeys dest column rows, v.isZero = false := by
  intro v hv
  simpa using (List.mem_filter.mp hv).2

theorem heldKeys_nonzero (s : Statement ρ) : ∀ v ∈ s.heldKeys, v.isZero = false := by
  unfold Statement.heldKeys
  split
  · exact setKeys_nonzero _ _ _
  · simp

omit [Record ρ] in
/-- There is a key condition exactly when there are keys. -/
theorem keyCondition?_cases (shape : Shape) (column : String) (keys : List Value) :
    (keyCondition? shape column keys = none ∧ keys = []) ∨
    ∃ e, keyCondition? shape column keys = some e ∧ keys ≠ [] ∧
      (e = .member column keys ∨ ∃ key, keys = [key] ∧ e = .compare column .eq key) := by
  match keys with
  | [] => exact Or.inl ⟨rfl, rfl⟩
  | [key] =>
    refine Or.inr ⟨_, rfl, by simp, ?_⟩
    split
    · exact Or.inr ⟨key, rfl, rfl⟩
    · exact Or.inl rfl
  | key :: key' :: keys => exact Or.inr ⟨_, rfl, by simp, Or.inl rfl⟩

theorem addKeyCondition_conditions (s : Statement ρ) :
    (addKeyCondition s).conditions = s.conditions ++ (keyConditionOf? s).toList := by
  unfold addKeyCondition
  cases keyConditionOf? s with
  | none => exact (List.append_nil _).symm
  | some e => exact s.conditions_suchThat e

theorem addKeyCondition_sql (s : Statement ρ) :
    (addKeyCondition s).sql = s.sql ∧ (addKeyCondition s).buildClauses = s.buildClauses := by
  unfold addKeyCondition
  cases keyConditionOf? s <;> exact ⟨rfl, rfl⟩

end Operation

/-- `s'` stores the conditions of `s` and, if there are keys, one more behind them: on the key
    column of the schema, for exactly these keys. -/
def Narrowed (keys : List Value) (s s' : Statement ρ) : Prop :=
  (keys = [] ∧ s'.conditions = s.conditions) ∨
    ∃ key e, keys ≠ [] ∧ s.schema.bind Schema.primary? = some key ∧ s'.conditions = s.conditions ++ [e] ∧
      (e = .member key.name keys ∨ ∃ v, keys = [v] ∧ e = .compare key.name .eq v) ∧ e.bound = keys

omit [Record ρ] in
theorem Narrowed.of_same {keys : List Value} {s₁ s₂ s₁' s₂' : Statement ρ} (h : Narrowed keys s₁ s₂)
    (hschema : s₁'.schema = s₁.schema) (hbefore : s₁'.conditions = s₁.conditions)
    (hafter : s₂'.conditions = s₂.conditions) : Narrowed keys s₁' s₂' := by
  unfold Narrowed
  rw [hschema, hbefore, hafter]
  exact h

theorem heldKeys_of_same {s s' : Statement ρ} (hschema : s'.schema = s.schema) (hshape : s'.shape = s.shape)
    (hdest : s'.destination? = s.destination?) : s'.heldKeys = s.heldKeys := by
  unfold Statement.heldKeys
  rw [hschema, hshape, hdest]

theorem addKeyCondition_narrowed (s : Statement ρ) : Narrowed s.heldKeys s (addKeyCondition s) := by
  have hconditions := addKeyCondition_conditions s
  rw [keyConditionOf?_eq] at hconditions
  cases hk : s.schema.bind Schema.primary? with
  | none =>
    have hnone : s.heldKeys = [] := by
      unfold Statement.heldKeys
      rw [hk]
    rw [hk] at hconditions
    exact Or.inl ⟨hnone, hconditions.trans (List.append_nil _)⟩
  | some key =>
    rw [hk, Option.bind_some] at hconditions
    rcases keyCondition?_cases s.shape key.name s.heldKeys with ⟨hnone, hkeys⟩ | ⟨e, he, hkeys, hform⟩
    · rw [hnone] at hconditions
      exact Or.inl ⟨hkeys, hconditions.trans (List.append_nil _)⟩
    · rw [he] at hconditions
      refine Or.inr ⟨key, e, hkeys, hk, hconditions, hform, ?_⟩
      rcases hform with rfl | ⟨v, hv, rfl⟩
      · exact bound_member key.name hkeys
      · rw [hv]
        exact bound_compare key.name (heldKeys_nonzero s v (hv ▸ List.mem_singleton_self v))

end SqlPipeline
