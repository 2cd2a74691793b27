import TypedLiteral.Proofs.NearestDouble

/-! The shortest form has the fewest digits. Rounding keeps the order of quotients, so whatever lies
between a number and a decimal that is rounded to it is rounded to it as well. A decimal of few
digits lies beyond a neighbour of the number on the grid of so many digits, and the first grid with
such a neighbour is the one that the search stops at. -/
namespace TypedLiteral

namespace BinaryFormat

theorem roundQuotient_mono {first second denominator : Nat} (le : first ≤ second) :
    roundQuotient first denominator ≤ roundQuotient second denominator := by
  have firstParts := Nat.div_add_mod' first denominator
  have secondParts := Nat.div_add_mod' second denominator
  have firstCases := roundQuotient_cases first denominator
  have secondCases := roundQuotient_cases second denominator
  rcases Nat.lt_or_ge (first / denominator) (second / denominator) with less | notLess
  · have upper := (roundQuotient_bounds first denominator).2
    have lower := (roundQuotient_bounds second denominator).1
    omega
  · have same := Nat.le_antisymm (Nat.div_le_div_right le) notLess
    rw [same] at firstParts firstCases
    omega

variable (format : BinaryFormat)

theorem nearest_mono {first second denominator : Nat} (positive : 0 < denominator)
    (le : first ≤ second) : format.nearest first denominator ≤ format.nearest second denominator := by
  obtain ⟨shift, firstNearest, firstFits, firstLeading⟩ := format.exists_nearest first positive
  obtain ⟨other, secondNearest, secondFits, secondLeading⟩ := format.exists_nearest second positive
  have scaled := Nat.mul_le_mul_right (2 ^ format.scale) le
  have room (shift : Nat) : 0 < denominator * 2 ^ shift :=
    Nat.mul_pos positive (Nat.two_pow_pos shift)
  rw [firstNearest, secondNearest]
  refine min_le_min_left _ ?_
  rcases Nat.lt_trichotomy shift other with below | rfl | above
  · have upper := (roundQuotient_bounds (first * 2 ^ format.scale) (denominator * 2 ^ shift)).2
    have lower := (roundQuotient_bounds (second * 2 ^ format.scale) (denominator * 2 ^ other)).1
    have full := (Nat.le_div_iff_mul_le (room other)).mpr (secondLeading.resolve_left (by omega))
    have fits := (Nat.div_lt_iff_lt_mul (room shift)).mpr firstFits
    have fields := Nat.mul_le_mul_right (2 ^ format.fractionBits) (Nat.succ_le_of_lt below)
    rw [Nat.succ_mul] at fields
    rw [Nat.pow_succ] at fits
    omega
  · exact Nat.add_le_add_left (roundQuotient_mono scaled) _
  · have full := firstLeading.resolve_left (by omega)
    have wider : denominator * 2 ^ other * 2 ≤ denominator * 2 ^ shift := by
      rw [Nat.mul_assoc, ← Nat.pow_succ]
      exact Nat.mul_le_mul_left _ (Nat.pow_le_pow_right (by decide) above)
    have larger := Nat.mul_le_mul_left (2 ^ format.fractionBits) wider
    rw [Nat.pow_succ, Nat.mul_assoc, Nat.mul_comm 2] at secondFits
    omega

/-- The quotients may have different denominators. -/
theorem nearest_le_nearest {numerator denominator other under : Nat} (positive : 0 < denominator)
    (positiveUnder : 0 < under) (le : numerator * under ≤ other * denominator) :
    format.nearest numerator denominator ≤ format.nearest other under := by
  rw [← format.nearest_mul_right numerator denominator positiveUnder,
    ← format.nearest_mul_right other under positive, Nat.mul_comm under]
  exact format.nearest_mono (Nat.mul_pos positive positiveUnder) le

/-- A decimal of few digits, `lead * 10 ^ width / 10 ^ places`, is not between a number and both of
its neighbours on the grid of so many digits. -/
theorem beyond_neighbour {count lead digits size : Nat} (width places : Nat) (positive : 0 < digits)
    (few : lead < 10 ^ digits) (coarse : digits ≤ size) (large : 10 ^ size ≤ count) :
    lead * 10 ^ width ≤
        count / 10 ^ (size + 1 - digits) * 10 ^ (size + 1 - digits) * 10 ^ places ∨
      (count / 10 ^ (size + 1 - digits) + 1) * 10 ^ (size + 1 - digits) * 10 ^ places ≤
        lead * 10 ^ width := by
  have ten (power : Nat) : 0 < 10 ^ power := Nat.pow_pos (by decide)
  rcases Nat.lt_or_ge (lead * 10 ^ width) (10 ^ size * 10 ^ places) with small | wide
  · have leading : 10 ^ (digits - 1) * 10 ^ (size + 1 - digits) = 10 ^ size := by
      rw [← Nat.pow_add]
      congr 1
      omega
    have below := Nat.mul_le_mul_right (10 ^ (size + 1 - digits))
      ((Nat.le_div_iff_mul_le (ten _)).mpr (leading.trans_le large))
    rw [leading] at below
    exact Or.inl (Nat.le_trans (Nat.le_of_lt small) (Nat.mul_le_mul_right _ below))
  · -- The decimal is so large that it is on the grid itself.
    have room : size + places < digits + width := by
      apply (Nat.pow_lt_pow_iff_right (show 1 < 10 by decide)).mp
      rw [Nat.pow_add, Nat.pow_add]
      exact Nat.lt_of_le_of_lt wide (Nat.mul_lt_mul_of_pos_right few (ten width))
    obtain ⟨extra, rfl⟩ : ∃ extra, width = extra + (size + 1 - digits) + places :=
      ⟨width - (size + 1 - digits) - places, by omega⟩
    rw [Nat.pow_add, Nat.pow_add, ← Nat.mul_assoc, ← Nat.mul_assoc]
    rcases Nat.lt_or_ge (count / 10 ^ (size + 1 - digits)) (lead * 10 ^ extra) with above | below
    · exact Or.inr (Nat.mul_le_mul_right _ (Nat.mul_le_mul_right _ above))
    · exact Or.inl (Nat.mul_le_mul_right _ (Nat.mul_le_mul_right _ below))

variable {tie : Tie} {magnitude step count : Nat}

theorem onGrid?_cases (found : format.onGrid? tie magnitude step = some count) :
    count = format.exactCount magnitude / step * step ∨
      count = (format.exactCount magnitude / step + 1) * step := by
  grind [onGrid?]

theorem isSome_onGrid? (back : format.nearest (format.exactCount magnitude / step * step)
        (10 ^ format.scale) = magnitude ∨
      format.nearest ((format.exactCount magnitude / step + 1) * step)
        (10 ^ format.scale) = magnitude) :
    (format.onGrid? tie magnitude step).isSome = true := by
  simp only [← readsBack_iff] at back
  grind [onGrid?]

/-- How many digits the count of a magnitude has. -/
def exactSize (magnitude : Nat) : Nat := (Nat.toDigits 10 (format.exactCount magnitude)).length

theorem exactCount_lt (magnitude : Nat) :
    format.exactCount magnitude < 10 ^ format.exactSize magnitude :=
  (Nat.length_toDigits_le_iff (by decide) (List.length_pos_of_ne_nil
    Nat.toDigits_ne_nil)).mp (Nat.le_refl _)

theorem exactCount_ge {size : Nat} (long : size + 1 = format.exactSize magnitude) (positive : 0 < size) :
    10 ^ size ≤ format.exactCount magnitude := by
  by_contra small
  have short := (Nat.length_toDigits_le_iff (by decide) positive).mpr (Nat.lt_of_not_le small)
  rw [← exactSize] at short
  omega

/-- A grid with as many digits as some decimal that is rounded to the magnitude has a neighbour that
reads back. -/
theorem isSome_onGrid?_of_nearest (finite : magnitude < format.infinity)
    {lead zeros places digits : Nat} (positive : 0 < digits) (few : lead < 10 ^ digits)
    (rounded : format.nearest (lead * 10 ^ zeros) (10 ^ places) = magnitude) :
    (format.onGrid? tie magnitude (10 ^ (format.exactSize magnitude - digits))).isSome = true := by
  have ten (power : Nat) : 0 < 10 ^ power := Nat.pow_pos (by decide)
  have exact := format.nearest_exactCount finite
  rcases Nat.lt_or_ge digits (format.exactSize magnitude) with coarse | fine
  · obtain ⟨size, long⟩ := Nat.exists_eq_succ_of_ne_zero (Nat.ne_zero_of_lt coarse)
    rw [long]
    have large := format.exactCount_ge long.symm (by omega)
    refine format.isSome_onGrid? ?_
    rcases beyond_neighbour (zeros + format.scale) places positive few (by omega) large with below | above
    · rw [Nat.pow_add, ← Nat.mul_assoc] at below
      refine Or.inl (Nat.le_antisymm ?_ ?_)
      · exact (format.nearest_mono (ten _) (Nat.div_mul_le_self ..)).trans_eq exact
      · exact rounded.symm.trans_le (format.nearest_le_nearest (ten _) (ten _) below)
    · rw [Nat.pow_add, ← Nat.mul_assoc] at above
      refine Or.inr (Nat.le_antisymm ?_ ?_)
      · exact (format.nearest_le_nearest (ten _) (ten _) above).trans_eq rounded
      · have larger := Nat.lt_mul_div_succ (format.exactCount magnitude) (ten (size + 1 - digits))
        rw [Nat.mul_comm] at larger
        exact exact.symm.trans_le (format.nearest_mono (ten _) (Nat.le_of_lt larger))
  · rw [Nat.sub_eq_zero_of_le fine]
    exact format.isSome_onGrid? (Or.inl (by simpa using exact))

theorem exists_shortestCount {digits : Nat} (few : digits < digitLimit)
    (hit : (format.onGrid? tie magnitude
      (10 ^ (format.exactSize magnitude - (digits + 1)))).isSome = true) :
    ∃ fewer ≤ digits, format.onGrid? tie magnitude
      (10 ^ (format.exactSize magnitude - (fewer + 1))) = some (format.shortestCount tie magnitude) := by
  unfold shortestCount
  dsimp only
  generalize attempts : (List.range digitLimit).findSome? _ = found
  cases found with
  | none =>
    have missed := List.findSome?_eq_none_iff.mp attempts digits (List.mem_range.mpr few)
    rw [Nat.pow_eq, ← exactSize] at missed
    rw [missed] at hit
    contradiction
  | some count =>
    obtain ⟨before, fewer, behind, parts, found, missed⟩ := List.findSome?_eq_some_iff.mp attempts
    refine ⟨fewer, ?_, found⟩
    by_contra more
    have sorted : (before ++ fewer :: behind).Pairwise (· < ·) := parts ▸ List.pairwise_lt_range
    obtain ⟨-, later, -⟩ := List.pairwise_append.mp sorted
    have tried : digits ∈ before := by
      have listed : digits ∈ before ++ fewer :: behind := parts ▸ List.mem_range.mpr few
      rcases List.mem_append.mp listed with tried | listed
      · exact tried
      · rcases List.mem_cons.mp listed with same | after
        · omega
        · have less := (List.pairwise_cons.mp later).1 digits after
          omega
    rw [exactSize, ← Nat.pow_eq, missed digits tried] at hit
    contradiction

theorem roundQuotient_of_near {numerator denominator number : Nat}
    (near : 2 * gap numerator denominator number < denominator) :
    roundQuotient numerator denominator = number := by
  have closer := gap_roundQuotient_le numerator (Nat.zero_lt_of_lt near) number
  unfold gap at closer near
  rcases Nat.lt_trichotomy (roundQuotient numerator denominator) number with below | same | above
  · have less := Nat.mul_le_mul_right denominator (Nat.succ_le_of_lt below)
    rw [Nat.succ_mul] at less
    omega
  · exact same
  · have more := Nat.mul_le_mul_right denominator (Nat.succ_le_of_lt above)
    rw [Nat.succ_mul] at more
    omega

theorem nearest_count {count shift : Nat}
    (fits : count < 2 ^ (format.fractionBits + 1) * (5 ^ format.scale * 2 ^ shift))
    (leading : shift = 0 ∨ 2 ^ format.fractionBits * (5 ^ format.scale * 2 ^ shift) ≤ count) :
    format.nearest count (10 ^ format.scale) = min format.infinity
      (shift * 2 ^ format.fractionBits + roundQuotient count (5 ^ format.scale * 2 ^ shift)) := by
  have scale := Nat.two_pow_pos format.scale
  have unit : 10 ^ format.scale * 2 ^ shift = 5 ^ format.scale * 2 ^ shift * 2 ^ format.scale := by
    rw [ten_pow_scale]
    ring
  have nearest := @nearest_eq format count (10 ^ format.scale) shift (Nat.pow_pos (by decide))
  rw [unit, roundQuotient_mul_right _ _ scale] at nearest
  refine nearest ?_ (leading.imp_right fun full => ?_) <;> rw [← Nat.mul_assoc]
  · exact Nat.mul_lt_mul_of_pos_right fits scale
  · exact Nat.mul_le_mul_right _ full

theorem step_lt_unit {lead unit : Nat} (narrow : 2 ^ (format.fractionBits + 1) < 10 ^ 16)
    (positive : 0 < unit) (bound : lead ≤ 2 ^ (format.fractionBits + 1))
    (large : 10 ^ 16 * step ≤ lead * unit) : step < unit := by
  apply Nat.lt_of_mul_lt_mul_left (a := 10 ^ 16)
  exact large.trans_lt (Nat.mul_lt_mul_of_pos_right (bound.trans_lt narrow) positive)

/-- A count that differs from that of a magnitude by at most half a step of a grid of seventeen
digits is rounded to the magnitude. -/
theorem nearest_of_near (narrow : 2 ^ (format.fractionBits + 1) < 10 ^ 16)
    (finite : magnitude < format.infinity) (large : 10 ^ 16 * step ≤ format.exactCount magnitude)
    (near : 2 * (count - format.exactCount magnitude + (format.exactCount magnitude - count)) ≤ step) :
    format.nearest count (10 ^ format.scale) = magnitude := by
  obtain ⟨significand, shift, units, parts, small, leading⟩ := format.exists_significand magnitude
  have exact : format.exactCount magnitude = significand * (5 ^ format.scale * 2 ^ shift) := by
    rw [exactCount, units, Nat.pow_eq]
    ring
  rw [exact] at large near
  have unit (shift : Nat) : 0 < 5 ^ format.scale * 2 ^ shift :=
    Nat.mul_pos (Nat.pow_pos (by decide)) (Nat.two_pow_pos shift)
  have less := format.step_lt_unit narrow (unit shift) (Nat.le_of_lt small) large
  by_cases room : shift = 0 ∨ 2 ^ format.fractionBits * (5 ^ format.scale * 2 ^ shift) ≤ count
  · have next := Nat.mul_le_mul_right (5 ^ format.scale * 2 ^ shift) (Nat.succ_le_of_lt small)
    rw [Nat.succ_mul] at next
    have rounded : roundQuotient count (5 ^ format.scale * 2 ^ shift) = significand :=
      roundQuotient_of_near (by unfold gap; omega)
    rw [format.nearest_count (by omega) room, rounded, ← parts]
    exact min_eq_right (Nat.le_of_lt finite)
  · -- Below the least significand with this shift, counts are rounded with a smaller one.
    obtain ⟨shifted, below⟩ := not_or.mp room
    obtain ⟨smaller, rfl⟩ := Nat.exists_eq_add_one_of_ne_zero shifted
    have doubled : 5 ^ format.scale * 2 ^ (smaller + 1) = 2 * (5 ^ format.scale * 2 ^ smaller) := by
      ring
    have product : 2 ^ format.fractionBits * (2 * (5 ^ format.scale * 2 ^ smaller)) =
        2 ^ (format.fractionBits + 1) * (5 ^ format.scale * 2 ^ smaller) := by ring
    have twice : 2 ^ (format.fractionBits + 1) * (5 ^ format.scale * 2 ^ smaller) =
        2 * (2 ^ format.fractionBits * (5 ^ format.scale * 2 ^ smaller)) := by ring
    have one := Nat.le_mul_of_pos_left (5 ^ format.scale * 2 ^ smaller)
      (Nat.two_pow_pos format.fractionBits)
    have least : significand = 2 ^ format.fractionBits := by
      refine Nat.le_antisymm (Nat.not_lt.mp fun more => ?_) (leading.resolve_left shifted)
      have next := Nat.mul_le_mul_right (5 ^ format.scale * 2 ^ (smaller + 1))
        (Nat.succ_le_of_lt more)
      rw [Nat.succ_mul] at next
      generalize 5 ^ format.scale * 2 ^ (smaller + 1) = unit at *
      omega
    rw [least, doubled, product] at large near
    rw [doubled, product, Nat.not_le] at below
    have less := format.step_lt_unit narrow (unit smaller) (Nat.le_refl _) large
    have nearest := @nearest_count format count smaller below
    generalize 5 ^ format.scale * 2 ^ smaller = unit at *
    have rounded : roundQuotient count unit = 2 ^ (format.fractionBits + 1) :=
      roundQuotient_of_near (by unfold gap; omega)
    rw [nearest (Or.inr (by omega)), rounded]
    rw [parts, least] at finite ⊢
    rw [Nat.pow_succ, Nat.succ_mul] at *
    omega

theorem isSome_onGrid?_of_narrow (narrow : 2 ^ (format.fractionBits + 1) < 10 ^ 16)
    (finite : magnitude < format.infinity) :
    (format.onGrid? tie magnitude (10 ^ (format.exactSize magnitude - 17))).isSome = true := by
  rcases Nat.lt_or_ge 17 (format.exactSize magnitude) with long | short
  · obtain ⟨size, length⟩ : ∃ size, format.exactSize magnitude = 16 + size + 1 :=
      ⟨format.exactSize magnitude - 17, by omega⟩
    have large := format.exactCount_ge length.symm (by omega)
    rw [Nat.pow_add] at large
    have grid : format.exactSize magnitude - 17 = size := by omega
    rw [grid]
    have near {count : Nat} := @nearest_of_near format magnitude (10 ^ size) count narrow finite large
    have parts := Nat.div_add_mod' (format.exactCount magnitude) (10 ^ size)
    have small := Nat.mod_lt (format.exactCount magnitude) (show 0 < 10 ^ size from Nat.pow_pos (by decide))
    have next : (format.exactCount magnitude / 10 ^ size + 1) * 10 ^ size =
        format.exactCount magnitude / 10 ^ size * 10 ^ size + 10 ^ size := Nat.succ_mul _ _
    refine format.isSome_onGrid? ?_
    by_cases lower : 2 * (format.exactCount magnitude % 10 ^ size) ≤ 10 ^ size
    · exact Or.inl (near (by omega))
    · exact Or.inr (near (by omega))
  · rw [Nat.sub_eq_zero_of_le short]
    exact format.isSome_onGrid? (Or.inl (by simpa using format.nearest_exactCount finite))

end BinaryFormat

/-- The number is written with so many digits when zeros at the end do not count. -/
def Decimal.Fits (number : Decimal) (digits : Nat) : Prop :=
  ∃ lead zeros, lead < 10 ^ digits ∧ number.significand = lead * 10 ^ zeros

theorem Decimal.Fits.mono {number : Decimal} {digits more : Nat} (fits : number.Fits digits)
    (le : digits ≤ more) : number.Fits more := by
  obtain ⟨lead, zeros, few, parts⟩ := fits
  exact ⟨lead, zeros, few.trans_le (Nat.pow_le_pow_right (by decide) le), parts⟩

namespace BinaryFormat

variable (format : BinaryFormat) {tie : Tie} {magnitude count digits : Nat}

theorem fits_of_onGrid? (positive : 0 < digits) (found : format.onGrid? tie magnitude
      (10 ^ (format.exactSize magnitude - digits)) = some count) (negative : Bool) (places : Nat) :
    Decimal.Fits ⟨negative, count, places⟩ digits := by
  have ten (power : Nat) : 0 < 10 ^ power := Nat.pow_pos (by decide)
  have quotient : format.exactCount magnitude / 10 ^ (format.exactSize magnitude - digits) <
      10 ^ digits := by
    rw [Nat.div_lt_iff_lt_mul (ten _), ← Nat.pow_add]
    exact (format.exactCount_lt magnitude).trans_le (Nat.pow_le_pow_right (by decide) (by omega))
  rcases format.onGrid?_cases found with below | above
  · exact ⟨_, _, quotient, below⟩
  · rcases Nat.eq_or_lt_of_le quotient with power | fewer
    · refine ⟨1, digits + (format.exactSize magnitude - digits),
        Nat.one_lt_pow (Nat.ne_of_gt positive) (by decide), ?_⟩
      rw [Nat.one_mul, Nat.pow_add, ← power]
      exact above
    · exact ⟨_, _, fewer, above⟩

theorem fits_shortestCount (narrow : 2 ^ (format.fractionBits + 1) < 10 ^ 16)
    (finite : magnitude < format.infinity) (positive : 0 < digits)
    (hit : (format.onGrid? tie magnitude
      (10 ^ (format.exactSize magnitude - digits))).isSome = true) (negative : Bool) (places : Nat) :
    Decimal.Fits ⟨negative, format.shortestCount tie magnitude, places⟩ digits := by
  obtain ⟨wanted, rfl⟩ := Nat.exists_eq_add_one_of_ne_zero (Nat.ne_of_gt positive)
  rcases Nat.lt_or_ge wanted digitLimit with few | many
  · obtain ⟨fewer, le, found⟩ := format.exists_shortestCount few hit
    exact (format.fits_of_onGrid? (Nat.succ_pos fewer) found negative places).mono
      (Nat.succ_le_succ le)
  · obtain ⟨fewer, le, found⟩ := format.exists_shortestCount (show 16 < digitLimit by decide)
      (format.isSome_onGrid?_of_narrow narrow finite)
    exact (format.fits_of_onGrid? (Nat.succ_pos fewer) found negative places).mono
      (Nat.succ_le_succ (le.trans (Nat.le_of_lt many)))

end BinaryFormat

/-- No decimal that is rounded to a finite double has fewer digits than the shortest one. -/
theorem Binary64.shortest_fits {number : Binary64} (finite : number.isFinite = true) (tie : Tie)
    {other : Decimal} (rounded : ofDecimal other = number) {digits : Nat} (positive : 0 < digits)
    (fits : other.Fits digits) : (number.shortest tie).Fits digits := by
  obtain ⟨lead, zeros, few, parts⟩ := fits
  have back := magnitude_ofDecimal other
  rw [rounded, parts] at back
  exact BinaryFormat.double.fits_shortestCount (by decide) (isFinite_iff.mp finite) positive
    (BinaryFormat.double.isSome_onGrid?_of_nearest (isFinite_iff.mp finite) positive few back.symm) _ _

theorem Binary64.shortest_fits_seventeen {number : Binary64} (finite : number.isFinite = true)
    (tie : Tie) : (number.shortest tie).Fits 17 :=
  BinaryFormat.double.fits_shortestCount (by decide) (isFinite_iff.mp finite) (by decide)
    (BinaryFormat.double.isSome_onGrid?_of_narrow (by decide) (isFinite_iff.mp finite)) _ _

end TypedLiteral
