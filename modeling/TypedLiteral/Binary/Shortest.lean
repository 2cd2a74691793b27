import TypedLiteral.Binary.Number

/-! Decimal forms of binary numbers: the exact one, and the one with the fewest digits that reads
back to the same word. Both count in `1 / 10 ^ scale`, of which every finite number is a whole
multiple. The shortest form is sought grid by grid: on the grid of one more digit each time, the
two neighbours of the number are read back, and of two that return it the nearer one is taken. -/
namespace TypedLiteral

/-- Where a number halfway between its two neighbours on a decimal grid goes. -/
inductive Tie
  | up
  | toEven
deriving DecidableEq

namespace BinaryFormat

/-- The number of a finite magnitude, counted in `1 / 10 ^ scale`. -/
def exactCount (format : BinaryFormat) (magnitude : Nat) : Nat :=
  format.units magnitude * Nat.pow 5 format.scale

def readsBack (format : BinaryFormat) (magnitude count : Nat) : Bool :=
  format.nearest count (Nat.pow 10 format.scale) == magnitude

/-- The neighbour on the grid of multiples of `step` that reads back, if there is one. -/
def onGrid? (format : BinaryFormat) (tie : Tie) (magnitude step : Nat) : Option Nat :=
  let quotient := format.exactCount magnitude / step
  let remainder := format.exactCount magnitude % step
  let below := quotient * step
  let above := (quotient + 1) * step
  if format.readsBack magnitude below then
    if format.readsBack magnitude above &&
        (step < 2 * remainder ||
          (step == 2 * remainder && (tie == .up || quotient % 2 == 1))) then some above
    else some below
  else if format.readsBack magnitude above then some above
  else none

/-- Seventeen digits always suffice for a double, and nine for a single. -/
def digitLimit : Nat := 17

/-- The shortest form of a finite magnitude, counted in `1 / 10 ^ scale`. -/
def shortestCount (format : BinaryFormat) (tie : Tie) (magnitude : Nat) : Nat :=
  let size := (Nat.toDigits 10 (format.exactCount magnitude)).length
  ((List.range digitLimit).findSome? fun digits =>
    format.onGrid? tie magnitude (Nat.pow 10 (size - (digits + 1)))).getD (format.exactCount magnitude)

end BinaryFormat

namespace Binary64

def exact (number : Binary64) : Decimal :=
  ⟨number.isNegative, BinaryFormat.double.exactCount number.magnitude, BinaryFormat.double.scale⟩

/-- The shortest decimal that reads back to a finite number. -/
def shortest (tie : Tie) (number : Binary64) : Decimal :=
  ⟨number.isNegative, BinaryFormat.double.shortestCount tie number.magnitude,
    BinaryFormat.double.scale⟩

end Binary64
end TypedLiteral
