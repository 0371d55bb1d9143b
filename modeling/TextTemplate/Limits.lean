/-! # Limits

How deep blocks and expressions may nest. -/

namespace TextTemplate

/-- The nesting that reading a template allows. -/
structure Limits where
  /-- How many blocks may lie inside each other. -/
  maxBlockDepth : Nat := 64
  /-- How many levels an expression may have. -/
  maxExpressionDepth : Nat := 64
  deriving DecidableEq

end TextTemplate
