import TypedLiteral.Proofs.DoubleText

/-! Rounding gives what is nearest. No finite magnitude is closer to a quotient than the one that it
is rounded to, and where another one is as close, that one is even. So a literal is read as the
double nearest to the number that it stands for, whatever its exponent is. -/
namespace TypedLiteral

namespace BinaryFormat

/-- How far a whole number is from a quotient, counted in parts of the denominator. -/
def gap (numerator denominator number : Nat) : Nat :=
  number * denominator - numerator + (numerator - number * denominator)

/-- The first number is closer to a quotient than the second, or as close while `even` holds. -/
def Beats (numerator denominator number other : Nat) (even : Prop) : Prop :=
  gap numerator denominator number < gap numerator denominator other ∨
    gap numerator denominator number = gap numerator denominator other ∧ even

/-- A magnitude beats every other finite one, by being even where the other is as close. -/
def Closest (format : BinaryFormat) (numerator denominator magnitude : Nat) : Prop :=
  ∀ other < format.infinity, other ≠ magnitude →
    Beats (numerator * 2 ^ format.scale) denominator (format.units magnitude) (format.units other)
      (magnitude % 2 = 0)

theorem gap_shift (numerator denominator number shift : Nat) :
    gap numerator denominator (number * 2 ^ shift) =
      gap numerator (denominator * 2 ^ shift) number := by
  rw [gap, gap, Nat.mul_assoc, Nat.mul_comm (2 ^ shift)]

theorem roundQuotient_cases (numerator denominator : Nat) :
    2 * (numerator % denominator) < denominator ∧
        roundQuotient numerator denominator = numerator / denominator ∨
      denominator < 2 * (numerator % denominator) ∧
        roundQuotient numerator denominator = numerator / denominator + 1 ∨
      2 * (numerator % denominator) = denominator ∧ roundQuotient numerator denominator % 2 = 0 ∧
        (roundQuotient numerator denominator = numerator / denominator ∨
          roundQuotient numerator denominator = numerator / denominator + 1) := by
  simp only [roundQuotient]
  split
  · omega
  · split <;> omega

theorem beats_roundQuotient (numerator : Nat) {denominator : Nat} (positive : 0 < denominator)
    {number : Nat} (other : number ≠ roundQuotient numerator denominator) :
    Beats numerator denominator (roundQuotient numerator denominator) number
      (roundQuotient numerator denominator % 2 = 0) := by
  have parts := Nat.div_add_mod' numerator denominator
  have small := Nat.mod_lt numerator positive
  have cases := roundQuotient_cases numerator denominator
  generalize roundQuotient numerator denominator = rounded at *
  generalize numerator / denominator = quotient at *
  generalize numerator % denominator = remainder at *
  have place : number * denominator + denominator ≤ quotient * denominator ∨ number = quotient ∨
      number = quotient + 1 ∨ quotient * denominator + 2 * denominator ≤ number * denominator := by
    rcases Nat.lt_trichotomy number quotient with below | same | above
    · exact Or.inl (Nat.succ_mul number denominator ▸ Nat.mul_le_mul_right denominator below)
    · exact Or.inr (Or.inl same)
    · rcases Nat.eq_or_lt_of_le above with next | above
      · exact Or.inr (Or.inr (Or.inl next.symm))
      · rw [← Nat.add_mul]
        exact Or.inr (Or.inr (Or.inr (Nat.mul_le_mul_right denominator above)))
  have next : (quotient + 1) * denominator = quotient * denominator + denominator :=
    Nat.succ_mul quotient denominator
  unfold Beats gap
  rcases cases with ⟨less, rfl⟩ | ⟨more, rfl⟩ | ⟨half, even, rfl | rfl⟩ <;>
    rcases place with below | rfl | rfl | above <;> omega

theorem gap_roundQuotient_le (numerator : Nat) {denominator : Nat} (positive : 0 < denominator)
    (number : Nat) :
    gap numerator denominator (roundQuotient numerator denominator) ≤
      gap numerator denominator number := by
  by_cases same : number = roundQuotient numerator denominator
  · rw [same]
  · rcases beats_roundQuotient numerator positive same with less | equal
    · exact Nat.le_of_lt less
    · exact Nat.le_of_eq equal.1

variable (format : BinaryFormat)

/-- A rounded significand may have reached twice the leading bit, which is the next field. -/
theorem units_of_significand {significand shift : Nat}
    (fits : significand ≤ 2 ^ (format.fractionBits + 1))
    (leading : shift = 0 ∨ 2 ^ format.fractionBits ≤ significand) :
    format.units (shift * 2 ^ format.fractionBits + significand) = significand * 2 ^ shift := by
  obtain ⟨other, field, units, parts, small, first⟩ :=
    format.exists_significand (shift * 2 ^ format.fractionBits + significand)
  have present := Nat.two_pow_pos format.fractionBits
  rw [units]
  rw [Nat.pow_succ] at fits small
  generalize 2 ^ format.fractionBits = unit at *
  rcases Nat.lt_trichotomy field shift with below | rfl | above
  · have fields := Nat.mul_le_mul_right unit (Nat.succ_le_of_lt below)
    rw [Nat.succ_mul] at fields
    omega
  · obtain rfl : other = significand := by omega
    rfl
  · have fields := Nat.mul_le_mul_right unit (Nat.succ_le_of_lt above)
    rw [Nat.succ_mul] at fields
    have next : field * unit = (shift + 1) * unit := by
      rw [Nat.succ_mul]
      omega
    obtain rfl := Nat.eq_of_mul_eq_mul_right present next
    obtain rfl : significand = other * 2 := by omega
    rw [Nat.pow_succ', Nat.mul_assoc]

theorem units_injective {magnitude other : Nat} (finite : magnitude < format.infinity)
    (otherFinite : other < format.infinity) (same : format.units other = format.units magnitude) :
    other = magnitude := by
  rw [← format.nearest_units finite, ← same, format.nearest_units otherFinite]

section Nearest

variable (numerator : Nat) {denominator : Nat} (positive : 0 < denominator)
  (finite : format.nearest numerator denominator < format.infinity)
include positive finite

/-- What is nearest is a quotient of the scaled numerator, rounded, whose leading bit is missing
only without a shift. -/
theorem exists_units_nearest : ∃ shift rounded,
    format.nearest numerator denominator = shift * 2 ^ format.fractionBits + rounded ∧
      format.units (format.nearest numerator denominator) = rounded * 2 ^ shift ∧
      rounded = roundQuotient (numerator * 2 ^ format.scale) (denominator * 2 ^ shift) ∧
      (shift = 0 ∨
        2 ^ format.fractionBits * (denominator * 2 ^ shift) ≤ numerator * 2 ^ format.scale) := by
  obtain ⟨shift, nearest, fits, leading⟩ := format.exists_nearest numerator positive
  have room : 0 < denominator * 2 ^ shift := Nat.mul_pos positive (Nat.two_pow_pos shift)
  obtain ⟨least, most⟩ :=
    roundQuotient_bounds (numerator * 2 ^ format.scale) (denominator * 2 ^ shift)
  have quotient := (Nat.div_lt_iff_lt_mul room).mpr fits
  rw [min_eq_right (by omega)] at nearest
  refine ⟨shift, _, nearest, ?_, rfl, leading⟩
  rw [nearest]
  refine format.units_of_significand (by omega) (leading.imp_right fun full => ?_)
  exact Nat.le_trans ((Nat.le_div_iff_mul_le room).mpr full) least

theorem closest_nearest (wide : format.fractionBits ≠ 0) :
    format.Closest numerator denominator (format.nearest numerator denominator) := by
  intro other otherFinite different
  obtain ⟨shift, rounded, nearest, units, rounding, leading⟩ :=
    format.exists_units_nearest numerator positive finite
  have distinct : format.units other ≠ rounded * 2 ^ shift := fun same =>
    different (format.units_injective finite otherFinite (same.trans units.symm))
  obtain ⟨significand, field, value, -, small, -⟩ := format.exists_significand other
  have room : 0 < denominator * 2 ^ shift := Nat.mul_pos positive (Nat.two_pow_pos shift)
  rw [Beats, units, gap_shift, rounding]
  rcases Nat.lt_or_ge field shift with finer | covered
  · -- The other magnitude lies below the least significand with this shift, which is closer.
    have full := leading.resolve_left (by omega)
    have nearer := gap_roundQuotient_le (numerator * 2 ^ format.scale) room (2 ^ format.fractionBits)
    have below : format.units other < 2 ^ format.fractionBits * 2 ^ shift := by
      calc
        format.units other = significand * 2 ^ field := value
        _ < 2 ^ (format.fractionBits + 1) * 2 ^ field :=
          Nat.mul_lt_mul_of_pos_right small (Nat.two_pow_pos field)
        _ = 2 ^ format.fractionBits * 2 ^ (field + 1) := by rw [Nat.pow_succ, Nat.pow_succ']; ring
        _ ≤ 2 ^ format.fractionBits * 2 ^ shift :=
          Nat.mul_le_mul_left _ (Nat.pow_le_pow_right (by decide) finer)
    have scaled := Nat.mul_lt_mul_of_pos_right below positive
    rw [Nat.mul_assoc, Nat.mul_comm (2 ^ shift)] at scaled
    refine Or.inl (Nat.lt_of_le_of_lt nearer ?_)
    unfold gap
    omega
  · -- The other magnitude stands for a multiple of the same power of two.
    obtain ⟨more, rfl⟩ := Nat.exists_eq_add_of_le covered
    rw [Nat.add_comm, Nat.pow_add, ← Nat.mul_assoc] at value
    rw [value, gap_shift]
    refine (beats_roundQuotient _ room fun same => distinct ?_).imp_right fun ⟨same, even⟩ => ⟨same, ?_⟩
    · rw [value, same, rounding]
    · obtain ⟨bits, width⟩ := Nat.exists_eq_succ_of_ne_zero wide
      rw [nearest, rounding, width, Nat.pow_succ, ← Nat.mul_assoc]
      omega

end Nearest

end BinaryFormat

namespace Binary64

theorem isNegative_ofParts (negative : Bool) {magnitude : Nat} (fits : magnitude < signBit) :
    (ofParts negative magnitude).isNegative = negative := by
  unfold isNegative ofParts
  rw [UInt64.toNat_ofNat']
  unfold signBit at *
  cases negative <;> simp <;> omega

/-- A literal is read as a double of its sign, and as the one closest to it unless that is infinite. -/
theorem closest_of_readDouble {text : List Char} {number : Binary64}
    (read : Literal.readDouble text = .ok number) (finite : number.isFinite = true) :
    ∃ decimal, Decimal.ofText? (Text.trim text) = some decimal ∧
      number.isNegative = decimal.negative ∧
      BinaryFormat.double.Closest decimal.significand (10 ^ decimal.places) number.magnitude := by
  obtain ⟨decimal, found, rfl⟩ := readDouble_eq_ok_iff.mp read
  have bound := BinaryFormat.double.nearest_le_infinity decimal.significand (10 ^ decimal.places)
  refine ⟨decimal, found, ?_, ?_⟩
  · exact isNegative_ofParts _ (Nat.lt_of_le_of_lt bound (by decide))
  · rw [isFinite_iff, magnitude_ofDecimal] at finite
    rw [magnitude_ofDecimal]
    exact BinaryFormat.double.closest_nearest _ (Nat.pow_pos (by decide)) finite (by decide)

end Binary64
end TypedLiteral
