/-
  SqlPipeline.Table.Shape — how the rows of a destination are laid out.

  The shape is found out once per execution, before any step runs; steps count the rows by
  it.
-/

namespace SqlPipeline

inductive Shape where
  /-- Not resolved, or of no use. -/
  | unusable
  | record
  | list (size : Nat)
  /-- A single map without a schema. -/
  | map
  deriving DecidableEq, Repr

end SqlPipeline
