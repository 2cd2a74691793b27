import Mathlib.Algebra.Order.Ring.Nat
import Mathlib.Tactic.Ring
import TypedLiteral.Binary.Shortest

/-! Rounding to a binary format. The nearest magnitude depends on a quotient and not on how it is
written, and the quotient that a finite magnitude stands for is rounded to that magnitude. So both
decimal forms of a finite magnitude, the exact one and the shortest, read back as the magnitude.
What is rounded to infinity begins half a step above the largest finite number. -/
namespace TypedLiteral.BinaryFormat

theorem roundQuotient_mul_right (numerator denominator : Nat) {factor : Nat} (positive : 0 < factor) :
    roundQuotient (numerator * factor) (denominator * factor) =
      roundQuotient numerator denominator := by
  have below : 2 * (numerator % denominator * factor) < denominator * factor ↔
      2 * (numerator % denominator) < denominator := by
    rw [← Nat.mul_assoc, Nat.mul_lt_mul_right positive]
  have above : denominator * factor < 2 * (numerator % denominator * factor) ↔
      denominator < 2 * (numerator % denominator) := by
    rw [← Nat.mul_assoc, Nat.mul_lt_mul_right positive]
  simp only [roundQuotient, Nat.mul_div_mul_right _ _ positive, Nat.mul_mod_mul_right, below, above]

theorem roundQuotient_exact (number : Nat) {denominator : Nat} (positive : 0 < denominator) :
    roundQuotient (number * denominator) denominator = number := by
  simp [roundQuotient, Nat.mul_div_cancel _ positive, positive]

theorem roundQuotient_bounds (numerator denominator : Nat) :
    numerator / denominator ≤ roundQuotient numerator denominator ∧
      roundQuotient numerator denominator ≤ numerator / denominator + 1 := by
  simp only [roundQuotient]
  split
  · omega
  · split <;> omega

/-- What rounds below an even number lies more than half below it: the tie goes to the even one. -/
theorem roundQuotient_lt_even_iff {numerator denominator : Nat} (positive : 0 < denominator)
    (half : Nat) :
    roundQuotient numerator denominator < 2 * (half + 1) ↔
      2 * numerator < (4 * half + 3) * denominator := by
  have bounds := roundQuotient_bounds numerator denominator
  have parts := Nat.div_add_mod' numerator denominator
  have small := Nat.mod_lt numerator positive
  rcases Nat.lt_trichotomy (numerator / denominator) (2 * half + 1) with below | last | above
  · have less := Nat.mul_le_mul_right denominator
      (show 2 * (numerator / denominator) + 2 ≤ 4 * half + 2 by omega)
    simp only [Nat.add_mul, Nat.mul_assoc] at less ⊢
    omega
  · rw [last] at parts
    have product : (4 * half + 3) * denominator =
        2 * ((2 * half + 1) * denominator) + denominator := by ring
    rw [roundQuotient, last, product]
    split
    · omega
    · split <;> omega
  · have more := Nat.mul_le_mul_right denominator
      (show 4 * half + 4 ≤ 2 * (numerator / denominator) by omega)
    simp only [Nat.add_mul, Nat.mul_assoc] at more ⊢
    omega

theorem bitLength_le_iff {number bits : Nat} : bitLength number ≤ bits ↔ number < 2 ^ bits := by
  unfold bitLength
  split
  · rename_i zero
    simp [zero]
  · rename_i nonzero
    rw [Nat.succ_le_iff, Nat.log2_lt nonzero]

theorem bitLength_eq {number bits : Nat} (low : bits = 0 ∨ 2 ^ (bits - 1) ≤ number)
    (high : number < 2 ^ bits) : bitLength number = bits := by
  refine Nat.le_antisymm (bitLength_le_iff.mpr high) ?_
  by_contra short
  have fits : number < 2 ^ (bits - 1) := bitLength_le_iff.mp (by omega)
  rcases low with zero | low <;> omega

variable (format : BinaryFormat)

theorem nearest_mul_right (numerator denominator : Nat) {factor : Nat} (positive : 0 < factor) :
    format.nearest (numerator * factor) (denominator * factor) =
      format.nearest numerator denominator := by
  have swap (number power : Nat) : number * factor * power = number * power * factor :=
    Nat.mul_right_comm number factor power
  simp only [nearest, swap, Nat.mul_div_mul_right _ _ positive,
    roundQuotient_mul_right _ _ positive]

/-- Two ways to write one quotient are rounded alike. -/
theorem nearest_congr {numerator denominator other under : Nat} (positive : 0 < denominator)
    (positiveUnder : 0 < under) (same : numerator * under = other * denominator) :
    format.nearest numerator denominator = format.nearest other under := by
  rw [← format.nearest_mul_right numerator denominator positiveUnder, same,
    Nat.mul_comm denominator under, format.nearest_mul_right other under positive]

/-- A magnitude is a significand below twice the leading bit, shifted. Only without a shift may the
leading bit be missing. -/
theorem exists_significand (magnitude : Nat) : ∃ significand shift,
    format.units magnitude = significand * 2 ^ shift ∧
      magnitude = shift * 2 ^ format.fractionBits + significand ∧
      significand < 2 ^ (format.fractionBits + 1) ∧
      (shift = 0 ∨ 2 ^ format.fractionBits ≤ significand) := by
  have parts := Nat.div_add_mod' magnitude (2 ^ format.fractionBits)
  have small := Nat.mod_lt magnitude (Nat.two_pow_pos format.fractionBits)
  have double := Nat.pow_succ 2 format.fractionBits
  simp only [units, Nat.pow_eq]
  cases field : magnitude / 2 ^ format.fractionBits with
  | zero =>
    rw [field] at parts
    exact ⟨magnitude % 2 ^ format.fractionBits, 0, by simp, by omega, by omega, Or.inl rfl⟩
  | succ shift =>
    rw [field, Nat.succ_mul] at parts
    exact ⟨2 ^ format.fractionBits + magnitude % 2 ^ format.fractionBits, shift, by simp, by omega,
      by omega, Or.inr (Nat.le_add_right _ _)⟩

/-- The shift is the one that makes room for a significand and leaves its leading bit in place. -/
theorem nearest_eq {numerator denominator shift : Nat} (positive : 0 < denominator)
    (fits : numerator * 2 ^ format.scale < 2 ^ (format.fractionBits + 1) * (denominator * 2 ^ shift))
    (leading : shift = 0 ∨
      2 ^ format.fractionBits * (denominator * 2 ^ shift) ≤ numerator * 2 ^ format.scale) :
    format.nearest numerator denominator = min format.infinity (shift * 2 ^ format.fractionBits +
      roundQuotient (numerator * 2 ^ format.scale) (denominator * 2 ^ shift)) := by
  have room : 0 < denominator * 2 ^ (format.fractionBits + 1) :=
    Nat.mul_pos positive (Nat.two_pow_pos _)
  have bits : bitLength (numerator * 2 ^ format.scale /
      (denominator * 2 ^ (format.fractionBits + 1))) = shift := by
    refine bitLength_eq ?_ ((Nat.div_lt_iff_lt_mul room).mpr (fits.trans_eq (by ring)))
    cases shift with
    | zero => exact Or.inl rfl
    | succ shift =>
      have full := leading.resolve_left (Nat.succ_ne_zero shift)
      refine Or.inr ((Nat.le_div_iff_mul_le room).mpr (Nat.le_trans (Nat.le_of_eq ?_) full))
      rw [Nat.add_sub_cancel]
      ring
  simp only [nearest, Nat.pow_eq, bits]

theorem nearest_units {magnitude : Nat} (finite : magnitude < format.infinity) :
    format.nearest (format.units magnitude) (2 ^ format.scale) = magnitude := by
  obtain ⟨significand, shift, units, parts, small, leading⟩ := format.exists_significand magnitude
  have scale := Nat.two_pow_pos format.scale
  have unit : 0 < 2 ^ format.scale * 2 ^ shift := Nat.mul_pos scale (Nat.two_pow_pos shift)
  have scaled : significand * 2 ^ shift * 2 ^ format.scale =
      significand * (2 ^ format.scale * 2 ^ shift) := by ring
  have nearest := @nearest_eq format (significand * 2 ^ shift) (2 ^ format.scale) shift scale
  rw [scaled, roundQuotient_exact significand unit, ← parts] at nearest
  rw [units, nearest (Nat.mul_lt_mul_of_pos_right small unit)
    (leading.imp_right (Nat.mul_le_mul_right _))]
  exact Nat.min_eq_right (Nat.le_of_lt finite)

theorem nearest_le_infinity (numerator denominator : Nat) :
    format.nearest numerator denominator ≤ format.infinity :=
  Nat.min_le_left _ _

/-- The nearest magnitude is a rounded significand, shifted by the least amount that makes room. -/
theorem exists_nearest (numerator : Nat) {denominator : Nat} (positive : 0 < denominator) :
    ∃ shift, format.nearest numerator denominator =
        min format.infinity (shift * 2 ^ format.fractionBits +
          roundQuotient (numerator * 2 ^ format.scale) (denominator * 2 ^ shift)) ∧
      numerator * 2 ^ format.scale < 2 ^ (format.fractionBits + 1) * (denominator * 2 ^ shift) ∧
      (shift = 0 ∨
        2 ^ format.fractionBits * (denominator * 2 ^ shift) ≤ numerator * 2 ^ format.scale) := by
  have room : 0 < denominator * 2 ^ (format.fractionBits + 1) :=
    Nat.mul_pos positive (Nat.two_pow_pos _)
  refine ⟨_, rfl, ?_, ?_⟩ <;> simp only [Nat.pow_eq] <;>
    generalize steps : numerator * 2 ^ format.scale / _ = count
  · have fits := bitLength_le_iff.mp (Nat.le_refl (bitLength count))
    rw [← steps, Nat.div_lt_iff_lt_mul room, steps] at fits
    calc
      _ < 2 ^ bitLength count * (denominator * 2 ^ (format.fractionBits + 1)) := fits
      _ = 2 ^ (format.fractionBits + 1) * (denominator * 2 ^ bitLength count) := by ring
  · cases length : bitLength count with
    | zero => exact Or.inl rfl
    | succ shift =>
      have short : ¬bitLength count ≤ shift := by omega
      rw [bitLength_le_iff, Nat.not_lt, ← steps, Nat.le_div_iff_mul_le room] at short
      refine Or.inr (Nat.le_trans (Nat.le_of_eq ?_) short)
      ring

private theorem nearest_lt_infinity_iff_scaled {numerator denominator : Nat} (positive : 0 < denominator)
    {top : Nat} (wide : format.topField = top + 2) :
    format.nearest numerator denominator < format.infinity ↔
      2 * (numerator * 2 ^ format.scale) <
        (2 ^ (format.fractionBits + 2) - 1) * (denominator * 2 ^ top) := by
  obtain ⟨shift, nearest, fits, leading⟩ := format.exists_nearest numerator positive
  have shifted (amount : Nat) : 0 < denominator * 2 ^ amount :=
    Nat.mul_pos positive (Nat.two_pow_pos amount)
  have wider {less more : Nat} (grows : less < more) :
      2 * (denominator * 2 ^ less) ≤ denominator * 2 ^ more := by
    rw [Nat.mul_left_comm, ← Nat.pow_succ']
    exact Nat.mul_le_mul_left _ (Nat.pow_le_pow_right (by decide) grows)
  have bounds := roundQuotient_bounds (numerator * 2 ^ format.scale) (denominator * 2 ^ shift)
  rw [nearest, infinity, Nat.pow_eq, wide, Nat.pow_add _ _ 2, min_lt_iff,
    or_iff_right (Nat.lt_irrefl _)]
  rw [Nat.pow_succ] at fits
  have present := Nat.two_pow_pos format.fractionBits
  generalize numerator * 2 ^ format.scale = scaled at *
  generalize 2 ^ format.fractionBits = unit at *
  rcases Nat.lt_trichotomy shift top with below | rfl | above
  · have quotient := (Nat.div_lt_iff_lt_mul (shifted shift)).mpr fits
    have fields := Nat.mul_le_mul_right unit (show shift + 3 ≤ top + 2 by omega)
    refine iff_of_true ?_ ?_
    · rw [Nat.add_mul] at fields
      omega
    · calc
        2 * scaled < 2 * (unit * 2 * (denominator * 2 ^ shift)) := by omega
        _ = unit * 2 * (2 * (denominator * 2 ^ shift)) := Nat.mul_left_comm ..
        _ ≤ unit * 2 * (denominator * 2 ^ top) := Nat.mul_le_mul_left _ (wider below)
        _ ≤ (unit * 2 ^ 2 - 1) * (denominator * 2 ^ top) := Nat.mul_le_mul_right _ (by omega)
  · obtain ⟨half, rfl⟩ := Nat.exists_eq_add_of_lt present
    have even : roundQuotient scaled (denominator * 2 ^ shift) < 2 * (half + 1) ↔ _ :=
      roundQuotient_lt_even_iff (shifted shift) half
    have odd : (0 + half + 1) * 2 ^ 2 - 1 = 4 * half + 3 := by omega
    rw [odd, ← even, Nat.add_mul]
    omega
  · have full := leading.resolve_left (by omega)
    have quotient := (Nat.le_div_iff_mul_le (shifted shift)).mpr full
    have fields := Nat.mul_le_mul_right unit (show top + 1 ≤ shift by omega)
    refine iff_of_false (Nat.not_lt.mpr ?_) (Nat.not_lt.mpr ?_)
    · rw [Nat.add_mul] at fields ⊢
      omega
    · calc
        (unit * 2 ^ 2 - 1) * (denominator * 2 ^ top) ≤ unit * 2 ^ 2 * (denominator * 2 ^ top) :=
          Nat.mul_le_mul_right _ (Nat.sub_le _ _)
        _ = unit * 2 * (2 * (denominator * 2 ^ top)) := by ring
        _ ≤ unit * 2 * (denominator * 2 ^ shift) := Nat.mul_le_mul_left _ (wider above)
        _ = 2 * (unit * (denominator * 2 ^ shift)) := by ring
        _ ≤ 2 * scaled := Nat.mul_le_mul_left 2 full

/-- A quotient stays finite if it is less than half a step above the largest finite number. -/
theorem nearest_lt_infinity_iff (numerator : Nat) {denominator : Nat} (positive : 0 < denominator)
    {half : Nat} (wide : format.topField = format.scale + half + 3) :
    format.nearest numerator denominator < format.infinity ↔
      numerator < (2 ^ (format.fractionBits + 2) - 1) * 2 ^ half * denominator := by
  rw [format.nearest_lt_infinity_iff_scaled positive wide]
  have product : (2 ^ (format.fractionBits + 2) - 1) *
      (denominator * 2 ^ (format.scale + half + 1)) =
      2 * ((2 ^ (format.fractionBits + 2) - 1) * 2 ^ half * denominator * 2 ^ format.scale) := by
    rw [Nat.pow_succ, Nat.pow_add]
    ring
  rw [product, Nat.mul_lt_mul_left (by decide), Nat.mul_lt_mul_right (Nat.two_pow_pos _)]

theorem ten_pow_scale : 10 ^ format.scale = 2 ^ format.scale * 5 ^ format.scale :=
  Nat.mul_pow 2 5 format.scale

theorem exactCount_div (magnitude : Nat) :
    format.exactCount magnitude / 10 ^ format.scale = format.units magnitude / 2 ^ format.scale := by
  rw [exactCount, Nat.pow_eq, ten_pow_scale, Nat.mul_div_mul_right _ _ (Nat.pow_pos (by decide))]

theorem exactCount_mod (magnitude : Nat) : format.exactCount magnitude % 10 ^ format.scale =
    format.units magnitude % 2 ^ format.scale * 5 ^ format.scale := by
  rw [exactCount, Nat.pow_eq, ten_pow_scale, Nat.mul_mod_mul_right]

theorem nearest_exactCount {magnitude : Nat} (finite : magnitude < format.infinity) :
    format.nearest (format.exactCount magnitude) (10 ^ format.scale) = magnitude := by
  rw [exactCount, Nat.pow_eq, ten_pow_scale, format.nearest_mul_right _ _ (Nat.pow_pos (by decide)),
    format.nearest_units finite]

theorem readsBack_iff {magnitude count : Nat} :
    format.readsBack magnitude count = true ↔
      format.nearest count (10 ^ format.scale) = magnitude := by
  rw [readsBack, Nat.pow_eq, beq_iff_eq]

theorem nearest_onGrid {tie : Tie} {magnitude step count : Nat}
    (found : format.onGrid? tie magnitude step = some count) :
    format.nearest count (10 ^ format.scale) = magnitude := by
  rw [← readsBack_iff]
  grind [onGrid?]

theorem nearest_shortestCount (tie : Tie) {magnitude : Nat} (finite : magnitude < format.infinity) :
    format.nearest (format.shortestCount tie magnitude) (10 ^ format.scale) = magnitude := by
  unfold shortestCount
  dsimp only
  generalize attempts : (List.range digitLimit).findSome? _ = found
  cases found with
  | none => exact format.nearest_exactCount finite
  | some count =>
    obtain ⟨digits, -, found⟩ := List.exists_of_findSome?_eq_some attempts
    exact format.nearest_onGrid found

end TypedLiteral.BinaryFormat
