import TypedLiteral.Binary.Notation
import TypedLiteral.Proofs.DecimalText
import TypedLiteral.Proofs.Rounding

/-! Doubles as literals. What is written for a finite double reads back to the same word, sign of
zero included. What is written for any other word is no number. -/
namespace TypedLiteral.Binary64

open Literal

theorem ofDecimal_congr {number other : Decimal} (same : number.Same other) :
    ofDecimal number = ofDecimal other := by
  have positive (decimal : Decimal) : 0 < 10 ^ decimal.places := Nat.pow_pos (by decide)
  simp only [ofDecimal, Nat.pow_eq, same.negative,
    BinaryFormat.nearest_congr _ (positive number) (positive other) same.quotient]

theorem readDouble_positional (number : Decimal) :
    readDouble number.positional = .ok (ofDecimal number) := by
  obtain ⟨again, found, same⟩ := number.exists_ofText?_positional
  simp only [readDouble, number.trim_positional, found, ofDecimal_congr same]

variable (number : Binary64)

theorem isNegative_iff : number.isNegative = true ↔ signBit ≤ number.bits.toNat :=
  decide_eq_true_iff

theorem ofParts_isNegative_magnitude : ofParts number.isNegative number.magnitude = number := by
  have parts : (if number.isNegative then signBit + number.magnitude else number.magnitude) =
      number.bits.toNat := by
    have word := number.bits.toNat_lt
    simp only [isNegative_iff]
    unfold magnitude signBit
    split <;> omega
  rw [ofParts, parts, UInt64.ofNat_toNat]

theorem magnitude_ofParts (negative : Bool) {magnitude : Nat} (fits : magnitude < signBit) :
    (ofParts negative magnitude).magnitude = magnitude := by
  unfold Binary64.magnitude ofParts
  rw [UInt64.toNat_ofNat']
  unfold signBit at *
  cases negative <;> simp only [Bool.false_eq_true, reduceIte] <;> omega

theorem magnitude_ofDecimal (decimal : Decimal) : (ofDecimal decimal).magnitude =
    BinaryFormat.double.nearest decimal.significand (10 ^ decimal.places) := by
  have bound := BinaryFormat.double.nearest_le_infinity decimal.significand (10 ^ decimal.places)
  exact magnitude_ofParts _ (Nat.lt_of_le_of_lt bound (by decide))

theorem isNaN_ofDecimal (decimal : Decimal) : (ofDecimal decimal).isNaN = false := by
  simpa only [isNaN, magnitude_ofDecimal, decide_eq_false_iff_not, Nat.not_lt] using
    BinaryFormat.double.nearest_le_infinity decimal.significand (10 ^ decimal.places)

theorem isFinite_iff {number : Binary64} :
    number.isFinite = true ↔ number.magnitude < BinaryFormat.double.infinity :=
  decide_eq_true_iff

/-- Infinity begins at `2 ^ 1024 - 2 ^ 970`, half a step above the largest finite double. -/
theorem isFinite_ofDecimal_iff (decimal : Decimal) : (ofDecimal decimal).isFinite = true ↔
    decimal.significand < (2 ^ 54 - 1) * 2 ^ 970 * 10 ^ decimal.places := by
  have positive : 0 < 10 ^ decimal.places := Nat.pow_pos (by decide)
  have bits : BinaryFormat.double.fractionBits + 2 = 54 := rfl
  have below := BinaryFormat.double.nearest_lt_infinity_iff decimal.significand positive
    (show 2047 = 1074 + 970 + 3 from rfl)
  rw [bits] at below
  rw [isFinite_iff, magnitude_ofDecimal, below]

variable {number}

/-- Every count that is rounded to the magnitude gives the number back under its sign. -/
theorem ofDecimal_of_nearest {count : Nat}
    (back : BinaryFormat.double.nearest count (10 ^ BinaryFormat.double.scale) = number.magnitude) :
    ofDecimal ⟨number.isNegative, count, BinaryFormat.double.scale⟩ = number := by
  simp only [ofDecimal, Nat.pow_eq, back, ofParts_isNegative_magnitude]

section Finite

variable (finite : number.isFinite = true)
include finite

theorem ofDecimal_exact : ofDecimal number.exact = number :=
  ofDecimal_of_nearest (BinaryFormat.nearest_exactCount _ (isFinite_iff.mp finite))

theorem ofDecimal_shortest (tie : Tie) : ofDecimal (number.shortest tie) = number :=
  ofDecimal_of_nearest (BinaryFormat.nearest_shortestCount _ tie (isFinite_iff.mp finite))

/-- What is written is the positional form of a decimal that is rounded to the number. -/
theorem exists_literalText_eq_positional : ∃ decimal : Decimal,
    decimal.negative = number.isNegative ∧ number.literalText = decimal.positional ∧
      ofDecimal decimal = number := by
  unfold literalText
  split
  · exact ⟨number.exact, rfl, rfl, ofDecimal_exact finite⟩
  · exact ⟨number.shortest .up, rfl, rfl, ofDecimal_shortest finite .up⟩

theorem readDouble_literalText : readDouble number.literalText = .ok number := by
  obtain ⟨decimal, -, text, rounded⟩ := exists_literalText_eq_positional finite
  rw [text, readDouble_positional, rounded]

end Finite

theorem readDouble_nonFiniteText (number : Binary64) :
    readDouble number.nonFiniteText = .error (invalidNumber number.nonFiniteText .double) := by
  unfold nonFiniteText Decimal.signed
  split
  · rfl
  · split <;> rfl

theorem literalText_of_not_isFinite (infinite : number.isFinite = false) :
    number.literalText = number.nonFiniteText := by
  simp [literalText, isIntegral, infinite]

theorem readDouble_literalText_of_not_isFinite (infinite : number.isFinite = false) :
    readDouble number.literalText = .error (invalidNumber number.literalText .double) := by
  rw [literalText_of_not_isFinite infinite, readDouble_nonFiniteText]

theorem readDouble_eq_ok_iff {text : List Char} : readDouble text = .ok number ↔
    ∃ decimal, Decimal.ofText? (Text.trim text) = some decimal ∧ ofDecimal decimal = number := by
  unfold readDouble
  dsimp only
  split
  · rename_i missing
    simp [missing]
  · rename_i decimal found
    simp [found]

/-- No literal stands for a word that is no number, so what is not finite is one of the two
infinities. -/
theorem literalText_of_readDouble {text : List Char} (read : readDouble text = .ok number)
    (infinite : number.isFinite = false) :
    number.literalText = Decimal.signed number.isNegative "inf".toList := by
  obtain ⟨decimal, -, rfl⟩ := readDouble_eq_ok_iff.mp read
  rw [literalText_of_not_isFinite infinite, nonFiniteText, isNaN_ofDecimal]
  rfl

/-- Which literals are read as finite doubles. -/
theorem isFinite_iff_of_readDouble {text : List Char} (read : readDouble text = .ok number) :
    number.isFinite = true ↔ ∃ decimal, Decimal.ofText? (Text.trim text) = some decimal ∧
      decimal.significand < (2 ^ 54 - 1) * 2 ^ 970 * 10 ^ decimal.places := by
  obtain ⟨decimal, found, rfl⟩ := readDouble_eq_ok_iff.mp read
  rw [isFinite_ofDecimal_iff, found]
  simp only [Option.some.injEq, exists_eq_left']

end TypedLiteral.Binary64
