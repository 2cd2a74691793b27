/-! Binary interchange formats. A word without its sign bit is a magnitude: an exponent field above
a fraction. Magnitudes are ordered like the numbers they stand for, and `units` and `nearest`
translate between the two with exact natural-number arithmetic. -/
namespace TypedLiteral

structure BinaryFormat where
  fractionBits : Nat
  /-- The least positive number is `1 / 2 ^ scale`. -/
  scale : Nat
  /-- The exponent field of infinity and of the words that are no numbers. -/
  topField : Nat

namespace BinaryFormat

def double : BinaryFormat := ⟨52, 1074, 2047⟩

def single : BinaryFormat := ⟨23, 149, 255⟩

/-- The magnitude of infinity. Finite magnitudes lie below it. -/
def infinity (format : BinaryFormat) : Nat :=
  format.topField * Nat.pow 2 format.fractionBits

/-- The number of a finite magnitude, counted in `1 / 2 ^ scale`. -/
def units (format : BinaryFormat) (magnitude : Nat) : Nat :=
  let field := magnitude / Nat.pow 2 format.fractionBits
  let fraction := magnitude % Nat.pow 2 format.fractionBits
  if field = 0 then fraction else (Nat.pow 2 format.fractionBits + fraction) * Nat.pow 2 (field - 1)

/-- The whole number nearest to a quotient. A quotient halfway between two goes to the even one. -/
def roundQuotient (numerator denominator : Nat) : Nat :=
  let quotient := numerator / denominator
  let remainder := numerator % denominator
  if 2 * remainder < denominator then quotient
  else if denominator < 2 * remainder then quotient + 1
  else quotient + quotient % 2

def bitLength (number : Nat) : Nat :=
  if number = 0 then 0 else number.log2 + 1

/-- The magnitude nearest to a quotient, ties to even. What exceeds the largest finite number by
half a step or more is infinite. -/
def nearest (format : BinaryFormat) (numerator denominator : Nat) : Nat :=
  let scaled := numerator * Nat.pow 2 format.scale
  let shift := bitLength (scaled / (denominator * Nat.pow 2 (format.fractionBits + 1)))
  min format.infinity
    (shift * Nat.pow 2 format.fractionBits +
      roundQuotient scaled (denominator * Nat.pow 2 shift))

end BinaryFormat
end TypedLiteral
