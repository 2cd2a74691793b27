/-! What a single literal may cost. -/
namespace TypedLiteral

structure Limits where
  maxDepth : Nat := 64
  /-- How many numbers one range of a sequence may add. -/
  maxRangeLength : Nat := 1048576
deriving DecidableEq

end TypedLiteral
