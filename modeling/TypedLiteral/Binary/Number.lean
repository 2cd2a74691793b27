import TypedLiteral.Binary.Format
import TypedLiteral.Decimal.Basic

/-! Binary numbers of double and of single width, as words. Equality is equality of the words, so
the two zeros differ and a word that is no number equals itself. -/
namespace TypedLiteral

structure Binary64 where
  bits : UInt64
deriving DecidableEq

namespace Binary64

def signBit : Nat := 0x8000000000000000

def isNegative (number : Binary64) : Bool :=
  signBit ≤ number.bits.toNat

def magnitude (number : Binary64) : Nat :=
  number.bits.toNat % signBit

def ofParts (negative : Bool) (magnitude : Nat) : Binary64 :=
  ⟨UInt64.ofNat (if negative then signBit + magnitude else magnitude)⟩

def isFinite (number : Binary64) : Bool :=
  number.magnitude < BinaryFormat.double.infinity

def isNaN (number : Binary64) : Bool :=
  BinaryFormat.double.infinity < number.magnitude

def isIntegral (number : Binary64) : Bool :=
  number.isFinite &&
    BinaryFormat.double.units number.magnitude % Nat.pow 2 BinaryFormat.double.scale == 0

def ofDecimal (number : Decimal) : Binary64 :=
  ofParts number.negative (BinaryFormat.double.nearest number.significand (Nat.pow 10 number.places))

def ofInt (number : Int) : Binary64 :=
  ofParts (number < 0) (BinaryFormat.double.nearest number.natAbs 1)

end Binary64

structure Binary32 where
  bits : UInt32
deriving DecidableEq

namespace Binary32

def signBit : Nat := 0x80000000

def ofParts (negative : Bool) (magnitude : Nat) : Binary32 :=
  ⟨UInt32.ofNat (if negative then signBit + magnitude else magnitude)⟩

def ofInt (number : Int) : Binary32 :=
  ofParts (number < 0) (BinaryFormat.single.nearest number.natAbs 1)

/-- The magnitude of the canonical word that is no number. -/
def quietNaN : Nat :=
  BinaryFormat.single.infinity + Nat.pow 2 (BinaryFormat.single.fractionBits - 1)

/-- The single nearest to a double. What is too large becomes infinite. -/
def ofDouble (number : Binary64) : Binary32 :=
  ofParts number.isNegative
    (if number.isNaN then quietNaN
    else if number.isFinite then
      BinaryFormat.single.nearest (BinaryFormat.double.units number.magnitude)
        (Nat.pow 2 BinaryFormat.double.scale)
    else BinaryFormat.single.infinity)

end Binary32
end TypedLiteral
