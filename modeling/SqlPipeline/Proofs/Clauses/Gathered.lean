/-
  SqlPipeline.Proofs.Clauses.Gathered — what the clauses given in a chain come to.

  A statement keeps one clause of each name, and what it keeps depends on the clauses given
  under that name alone: all the conditions and all the terms of an ordering, in the order
  they were given, the last number of rows and the last offset, and of any other name the last
  clause. So links that give clauses of different names may change places.

  - `get?_addAll`: what is kept after any clauses.
  - `writeAll_spaced`: the text and the parameters of clauses with a space between neighbours.
  - `chain_gathers`: what a chain of such links leaves to be written, and how it is written.
-/

import Mathlib.Data.List.Induction
import SqlPipeline.Database.Chain
import SqlPipeline.Proofs.Guard.Conditions
import SqlPipeline.Proofs.Keys.Stored
import SqlPipeline.Proofs.Rendered.Bound
import SqlPipeline.Record.Destination

namespace SqlPipeline

/-! ## Clauses of one name -/

namespace Clause

def conditions : Clause → List Expression
  | .where conditions => conditions
  | _ => []

def terms : Clause → List OrderTerm
  | .orderBy terms => terms
  | _ => []

def rows? : Clause → Option Nat
  | .limit rows _ => rows
  | _ => none

def offset? : Clause → Option Nat
  | .limit _ offset => offset
  | _ => none

/-- What is kept of the clauses given under a name, in the order they were given. -/
def gather (name : String) (cs : List Clause) : Option Clause :=
  if cs.isEmpty then none
  else if name = "WHERE" then some (.where (cs.flatMap conditions))
  else if name = "ORDER BY" then some (.orderBy (cs.flatMap terms))
  else if name = "LIMIT" then some (.limit (cs.filterMap rows?).getLast? (cs.filterMap offset?).getLast?)
  else cs.getLast?

theorem getLast?_filterMap_snoc {β : Type} (f : Clause → Option β) (cs : List Clause) (c : Clause) :
    ((cs ++ [c]).filterMap f).getLast? = (f c <|> (cs.filterMap f).getLast?) := by
  rw [List.filterMap_append]
  cases h : f c <;> simp [h]

/-- One more clause of the name merges with what is kept. -/
theorem gather_snoc (cs : List Clause) (c : Clause) :
    gather c.name (cs ++ [c]) = some (c.merge (gather c.name cs)) := by
  have hne : (cs ++ [c]).isEmpty = false := by simp
  cases c with
  | «where» new =>
    have hname : (Clause.where new).name = "WHERE" := rfl
    simp only [gather, hne, hname, if_true, Bool.false_eq_true, if_false]
    cases cs with
    | nil => simp [merge, conditions]
    | cons d cs => simp [merge, conditions]
  | orderBy new =>
    have hname : (Clause.orderBy new).name = "ORDER BY" := rfl
    have hwhere : "ORDER BY" ≠ "WHERE" := by decide
    simp only [gather, hne, hname, hwhere, if_true, Bool.false_eq_true, if_false]
    cases cs with
    | nil => simp [merge, terms]
    | cons d cs => simp [merge, terms]
  | limit rows offset =>
    have hname : (Clause.limit rows offset).name = "LIMIT" := rfl
    have hwhere : "LIMIT" ≠ "WHERE" := by decide
    have horder : "LIMIT" ≠ "ORDER BY" := by decide
    simp only [gather, hne, hname, hwhere, horder, if_true, Bool.false_eq_true, if_false, getLast?_filterMap_snoc]
    cases cs with
    | nil => simp [merge, rows?, offset?]
    | cons d cs => rfl
  | _ => simp [gather, merge, name]

theorem gather_singleton (c : Clause) : gather c.name [c] = some c := by
  have h := gather_snoc [] c
  have hmerge : c.merge (gather c.name []) = c := by cases c <;> rfl
  rw [hmerge] at h
  exact h

end Clause

namespace Clauses

/-- After any clauses, what is kept of a name is what those given under it come to, behind the
    one that was there. -/
theorem get?_addAll (cs : Clauses) (given : List Clause) (name : String) :
    (given.foldl add cs).get? name =
      Clause.gather name ((cs.get? name).toList ++ given.filter (·.name = name)) := by
  induction given using List.reverseRecOn with
  | nil =>
    rw [List.filter_nil, List.append_nil]
    cases h : cs.get? name with
    | none => exact h
    | some c =>
      rw [← name_of_get? h]
      exact (name_of_get? h ▸ h).trans (Clause.gather_singleton c).symm
  | append_singleton given c ih =>
    rw [List.foldl_append, List.filter_append]
    show ((given.foldl add cs).add c).get? name = _
    rw [get?_add]
    by_cases hc : c.name = name
    · subst hc
      rw [if_pos rfl, ih, List.filter_cons_of_pos (by simp), List.filter_nil, ← List.append_assoc, Clause.gather_snoc]
    · rw [if_neg hc, ih, List.filter_cons_of_neg (by simpa using hc), List.filter_nil, List.append_nil]

/-- Nothing but the clause kept of each name is written. -/
theorem pieces_of_get? {cs cs' : Clauses} (h : ∀ name, cs.get? name = cs'.get? name) (names : List String) :
    cs.pieces names = cs'.pieces names := by
  unfold pieces present
  rw [funext h]

end Clauses

/-! ## Text -/

namespace Clause

/-- The text of a clause, so many parameters having been bound before. -/
def spelled (d : Dialect) (bound : Nat) (c : Clause) : String :=
  String.join ((Layout.ofPieces c.pieces).items.map (Item.spelled d bound))

/-- The texts of clauses, the parameters of each counted behind those of the one before. -/
def spelledAll (d : Dialect) (bound : Nat) : List Clause → List String
  | [] => []
  | c :: cs => c.spelled d bound :: spelledAll d (bound + c.binds.length) cs

theorem writeAll_spelled (d : Dialect) (r : Rendered) (c : Clause) :
    r.writeAll d c.pieces = ⟨r.text ++ c.spelled d r.params.length, r.params ++ c.binds⟩ := by
  rw [Rendered.writeAll_eq_write, ← c.params_pieces]
  rfl

theorem writeAll_spaced (d : Dialect) (cs : List Clause) (r : Rendered) :
    r.writeAll d (([Piece.text " "] : List Piece).intercalate (cs.map pieces)) =
      ⟨r.text ++ " ".intercalate (spelledAll d r.params.length cs), r.params ++ cs.flatMap binds⟩ := by
  induction cs generalizing r with
  | nil => simp [spelledAll]
  | cons c cs ih =>
    cases cs with
    | nil => simp [writeAll_spelled, spelledAll]
    | cons c' cs =>
      rw [List.map_cons, List.map_cons, List.intercalate_cons_cons, Rendered.writeAll_append,
        Rendered.writeAll_append, writeAll_spelled, ← List.map_cons, ih]
      simp [Rendered.write, spelledAll, String.append_assoc]

end Clause

/-! ## Chains -/

variable {ρ : Type} [Record ρ]

namespace Link

/-- The clause that a link gives, if that is all it does. -/
def given? : Link ρ → Option Clause
  | .suchThat e => some (.where [e])
  | .order column descending => some (.orderBy [{ column, descending }])
  | .limit n => some (.limit (some n) none)
  | .offset n => some (.limit none (some n))
  | .select columns => some (.select columns false)
  | .edit [.addClause c] => some c
  | _ => none

theorem apply_given {l : Link ρ} {c : Clause} (h : l.given? = some c) (env : Env) (r : Run ρ) :
    l.apply env r = r.modify (·.addClause c) := by
  unfold given? at h
  split at h <;> cases h <;> rfl

/-- Such links change the clauses and nothing else. -/
theorem foldl_given {links : List (Link ρ)} {given : List Clause} (h : links.map given? = given.map some) (env : Env)
    (r : Run ρ) :
    links.foldl (apply env) r = r.modify fun s => { s with clauses := given.foldl Clauses.add s.clauses } := by
  induction links generalizing given r with
  | nil =>
    have hnil : given = [] := by simpa using h.symm
    rw [hnil]
    rfl
  | cons l links ih =>
    cases given with
    | nil => cases h
    | cons c given =>
      obtain ⟨hl, hrest⟩ := List.cons_eq_cons.mp h
      rw [List.foldl_cons, apply_given hl, ih hrest]
      rfl

theorem kept_of_given {links : List (Link ρ)} {given : List Clause} (h : links.map given? = given.map some) (env : Env)
    (r : Run ρ) (name : String) :
    (links.foldl (apply env) r).statement.clauses.get? name =
      Clause.gather name ((r.statement.clauses.get? name).toList ++ given.filter (·.name = name)) := by
  rw [foldl_given h]
  exact Clauses.get?_addAll _ given name

theorem sql_of_given {links : List (Link ρ)} {given : List Clause} (h : links.map given? = given.map some) (env : Env)
    (r : Run ρ) : (links.foldl (apply env) r).statement.sql = r.statement.sql := by
  rw [foldl_given h]
  rfl

end Link

/-- Links that give clauses leave of each name what was given under it, in the order it was
    given; the same text and the same parameters are written after any other such links that
    give the same under each name. What is written, of these and of any statement, is the text
    of the clauses named that are there and ask for something, with a space between
    neighbours, behind the text that is there. -/
theorem chain_gathers {links : List (Link ρ)} {given : List Clause} (h : links.map Link.given? = given.map some)
    (env : Env) (r : Run ρ) :
    let s := (links.foldl (Link.apply env) r).statement
    (∀ name, s.clause? name =
      Clause.gather name ((r.statement.clause? name).toList ++ given.filter (·.name = name))) ∧
    (∀ (links' : List (Link ρ)) (given' : List Clause), links'.map Link.given? = given'.map some →
      (∀ name, given'.filter (·.name = name) = given.filter (·.name = name)) →
      ∀ (d : Dialect) (names : List String),
        ((links'.foldl (Link.apply env) r).statement.build d names).sql = (s.build d names).sql) ∧
    ∀ (s : Statement ρ) (d : Dialect) (names : List String),
      let present := (names.filterMap s.clause?).filter (!·.isEmpty)
      s.build d names = { s with
        sql.text := s.sql.text ++ " ".intercalate (Clause.spelledAll d s.sql.params.length present)
        sql.params := s.sql.params ++ present.flatMap Clause.binds } := by
  intro s
  refine ⟨Link.kept_of_given h env r, fun links' given' h' hsame d names => ?_, fun s d names => ?_⟩
  · have hpieces : (links'.foldl (Link.apply env) r).statement.clauses.pieces names = s.clauses.pieces names := by
      refine Clauses.pieces_of_get? (fun name => ?_) names
      rw [Link.kept_of_given h', Link.kept_of_given h, hsame]
    have hsql : (links'.foldl (Link.apply env) r).statement.sql = s.sql :=
      (Link.sql_of_given h' env r).trans (Link.sql_of_given h env r).symm
    unfold Statement.build Statement.write
    rw [hpieces, hsql]
  · unfold Statement.build Statement.write Clauses.pieces
    rw [Clause.writeAll_spaced]
    rfl

/-- The order and the offset may be asked for between the conditions or after them. The limit
    is the one given last, and the offset stays. -/
theorem chain_reordered :
    let env : Env := { now := ⟨1715000000, 0⟩ }
    let r : Run (Destination Row) := { statement := {} }
    let adult : Expression := .compare "age" .gt (.int 18)
    let active : Expression := .raw "active = ?" [.bool true]
    let links : List (Link (Destination Row)) :=
      [.suchThat adult, .limit 10, .offset 20, .suchThat active, .order "name" true, .limit 5]
    let links' : List (Link (Destination Row)) :=
      [.order "name" true, .limit 10, .suchThat adult, .suchThat active, .offset 20, .limit 5]
    let names := ["SELECT", "WHERE", "ORDER BY", "LIMIT"]
    let s := (links.foldl (Link.apply env) r).statement
    s.clause? "LIMIT" = some (.limit (some 5) (some 20)) ∧
      (s.build env.dialect names).sql =
        ⟨"WHERE \"age\" > ? AND active = ? ORDER BY \"name\" DESC LIMIT 5 OFFSET 20", [.int 18, .bool true]⟩ ∧
      ((links'.foldl (Link.apply env) r).statement.build env.dialect names).sql = (s.build env.dialect names).sql := by
  intro env r adult active links links' names s
  let given : List Clause :=
    [.where [adult], .limit (some 10) none, .limit none (some 20), .where [active], .orderBy [⟨"name", true⟩],
      .limit (some 5) none]
  let given' : List Clause :=
    [.orderBy [⟨"name", true⟩], .limit (some 10) none, .where [adult], .where [active], .limit none (some 20),
      .limit (some 5) none]
  have hgiven : links.map Link.given? = given.map some := rfl
  obtain ⟨hkept, hreordered, -⟩ := chain_gathers hgiven env r
  have hsame : ∀ name, given'.filter (·.name = name) = given.filter (·.name = name) := by
    intro name
    by_cases hw : "WHERE" = name
    · subst hw; rfl
    by_cases ho : "ORDER BY" = name
    · subst ho; rfl
    by_cases hl : "LIMIT" = name
    · subst hl; rfl
    simp [given, given', Clause.name, hw, ho, hl]
  exact ⟨hkept "LIMIT", by decide +kernel, hreordered links' given' rfl hsame env.dialect names⟩

end SqlPipeline
