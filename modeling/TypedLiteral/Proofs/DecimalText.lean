import Mathlib.Tactic.Ring
import TypedLiteral.Decimal.Notation
import TypedLiteral.Proofs.Numerals

/-! Decimals as text. The positional form is digits around a point, and reading it gives a decimal
of the same sign and the same quotient. It need not be the same significand: the zeros at the end
of the fraction are not written. -/
namespace TypedLiteral.Decimal

/-- The decimals have one sign and stand for one number. -/
structure Same (number other : Decimal) : Prop where
  negative : number.negative = other.negative
  quotient : number.significand * 10 ^ other.places = other.significand * 10 ^ number.places

theorem exists_numeral_iff {text : List Char} : (∃ number, Numeral text number) ↔
    ∃ negative whole, areDigits whole = true ∧ text = signed negative whole := by
  constructor
  · rintro ⟨number, numeral⟩
    cases numeral with
    | plain present each => exact ⟨false, _, areDigits_iff.mpr ⟨present, each⟩, rfl⟩
    | negative present each => exact ⟨true, _, areDigits_iff.mpr ⟨present, each⟩, rfl⟩
  · rintro ⟨negative, whole, digits, rfl⟩
    obtain ⟨present, each⟩ := areDigits_iff.mp digits
    cases negative with
    | false => exact ⟨_, .plain present each⟩
    | true => exact ⟨_, .negative present each⟩

theorem signed_append (negative : Bool) (front back : List Char) :
    signed negative (front ++ back) = signed negative front ++ back := by
  cases negative <;> rfl

theorem signed_splitSign (text : List Char) :
    signed (splitSign text).1 (splitSign text).2 = text := by
  rcases splitSign_cases text with ⟨digits, rfl, split⟩ | unsigned
  · rw [split]
    rfl
  · rw [unsigned]
    rfl

section Whole

variable {whole : List Char} (negative : Bool) (before : areDigits whole = true)
include before

theorem splitSign_signed (text : List Char) :
    splitSign (signed negative (whole ++ text)) = (negative, whole ++ text) := by
  obtain ⟨present, each⟩ := areDigits_iff.mp before
  cases negative with
  | true => rfl
  | false =>
    rcases splitSign_cases (whole ++ text) with ⟨rest, same, -⟩ | unsigned
    · have first := congrArg List.head? same
      rw [List.head?_append_of_ne_nil _ present] at first
      exact absurd (each _ (List.mem_of_mem_head? first)) (by decide)
    · exact unsigned

theorem forall_ne_point : ∀ c ∈ whole, (c != '.') = true := by
  intro c member
  rw [bne_iff_ne]
  rintro rfl
  exact absurd ((areDigits_iff.mp before).2 _ member) (by decide)

theorem ofText?_whole :
    ofText? (signed negative whole) = some ⟨negative, Nat.ofDigitChars 10 whole 0, 0⟩ := by
  have split := splitSign_signed negative before []
  rw [List.append_nil] at split
  have unpointed := forall_ne_point before
  have rest : whole.dropWhile (· != '.') = [] := List.dropWhile_eq_nil_iff.mpr unpointed
  have front : whole.takeWhile (· != '.') = whole := List.takeWhile_eq_self_iff.mpr unpointed
  simp [ofText?, split, rest, front, before]

end Whole

section Pointed

variable {whole fraction : List Char} (negative : Bool) (before : areDigits whole = true)
  (behind : areDigits fraction = true)
include before behind

theorem ofText?_signed :
    ofText? (signed negative (whole ++ '.' :: fraction)) =
      some ⟨negative, Nat.ofDigitChars 10 (whole ++ fraction) 0, fraction.length⟩ := by
  have unpointed := forall_ne_point before
  simp [ofText?, splitSign_signed negative before, List.takeWhile_append_of_pos unpointed,
    List.dropWhile_append_of_pos unpointed, before, behind]

theorem fractional_signed : Fractional (signed negative (whole ++ '.' :: fraction)) := by
  obtain ⟨number, numeral⟩ := exists_numeral_iff.mpr ⟨negative, whole, before, rfl⟩
  rw [signed_append]
  exact .pointed numeral behind

theorem trim_signed :
    Text.trim (signed negative (whole ++ '.' :: fraction)) =
      signed negative (whole ++ '.' :: fraction) := by
  have digit {text : List Char} (digits : areDigits text = true) :
      ∀ c ∈ text, Text.isBlank c = false :=
    fun c member => not_isBlank_of_isDigit ((areDigits_iff.mp digits).2 c member)
  have unsigned : ∀ c ∈ whole ++ '.' :: fraction, Text.isBlank c = false :=
    List.forall_mem_append.mpr
      ⟨digit before, List.forall_mem_cons.mpr ⟨by decide, digit behind⟩⟩
  apply Text.trim_of_forall_not_blank
  cases negative with
  | true => exact List.forall_mem_cons.mpr ⟨by decide, unsigned⟩
  | false => exact unsigned

end Pointed

/-- The texts that are read as decimals. -/
theorem exists_ofText?_iff {text : List Char} :
    (∃ number, ofText? text = some number) ↔ Fractional text := by
  constructor
  · rintro ⟨number, found⟩
    rw [← signed_splitSign text]
    generalize (splitSign text).1 = negative
    have parted : (splitSign text).2.takeWhile (· != '.') ++ (splitSign text).2.dropWhile (· != '.') =
        (splitSign text).2 := List.takeWhile_append_dropWhile
    have ends := List.head?_dropWhile_not (· != '.') (splitSign text).2
    unfold ofText? at found
    dsimp only at found
    split at found
    · rename_i rest
      obtain ⟨digits, -⟩ := Option.ite_none_right_eq_some.mp found
      rw [rest, List.append_nil] at parted
      rw [parted] at digits
      obtain ⟨number, numeral⟩ := exists_numeral_iff.mpr ⟨negative, _, digits, rfl⟩
      exact .whole numeral
    · rename_i c fraction rest
      obtain ⟨digits, -⟩ := Option.ite_none_right_eq_some.mp found
      obtain ⟨before, behind⟩ := Bool.and_eq_true_iff.mp digits
      rw [rest] at parted ends
      obtain rfl : c = '.' := by simpa using ends
      rw [← parted]
      exact fractional_signed negative before behind
  · rintro (@⟨_, _, numeral⟩ | @⟨_, fraction, _, numeral, behind⟩)
    · obtain ⟨negative, whole, before, rfl⟩ := exists_numeral_iff.mp ⟨_, numeral⟩
      exact ⟨_, ofText?_whole negative before⟩
    · obtain ⟨negative, whole, before, rfl⟩ := exists_numeral_iff.mp ⟨_, numeral⟩
      rw [← signed_append]
      exact ⟨_, ofText?_signed negative before behind⟩

theorem trimZeros_append_zeros (digits : List Char) :
    ∃ zeros, trimZeros digits ++ List.replicate zeros '0' = digits := by
  have zero : ∀ c ∈ digits.rtakeWhile (· == '0'), c = '0' := fun c member => by
    simpa using List.mem_rtakeWhile_imp member
  refine ⟨(digits.rtakeWhile (· == '0')).length, ?_⟩
  rw [← List.eq_replicate_of_mem zero]
  exact List.rdropWhile_append_rtakeWhile

section

variable (number : Decimal)

theorem areDigits_wholeDigits : areDigits number.wholeDigits = true :=
  areDigits_toDigits _

theorem isDigit_of_mem_fractionDigits {c : Char} (member : c ∈ number.fractionDigits) :
    c.isDigit := by
  obtain ⟨zeros, parts⟩ := trimZeros_append_zeros
    (List.replicate (number.places - _) '0' ++ Nat.toDigits 10 _)
  have padded := parts ▸ List.mem_append_left _ member
  rcases List.mem_append.mp padded with zero | digit
  · rw [List.eq_of_mem_replicate zero]
    decide
  · exact (areDigits_iff.mp (areDigits_toDigits _)).2 c digit

/-- The digits of the fraction stand for the part of the number behind the point. -/
theorem ofDigitChars_fractionDigits :
    Nat.ofDigitChars 10 number.fractionDigits 0 * 10 ^ number.places =
      number.significand % 10 ^ number.places * 10 ^ number.fractionDigits.length := by
  simp only [fractionDigits, Nat.pow_eq]
  generalize below : number.significand % 10 ^ number.places = remainder
  have small : remainder < 10 ^ number.places := below ▸ Nat.mod_lt _ (Nat.pow_pos (by decide))
  obtain ⟨zeros, parts⟩ := trimZeros_append_zeros
    (List.replicate (number.places - (Nat.toDigits 10 remainder).length) '0' ++
      Nat.toDigits 10 remainder)
  generalize trimZeros _ = fraction at parts ⊢
  have counted : 10 ^ zeros * Nat.ofDigitChars 10 fraction 0 = remainder := by
    simpa [Nat.ofDigitChars_append] using congrArg (Nat.ofDigitChars 10 · 0) parts
  rcases Nat.eq_zero_or_pos remainder with rfl | positive
  · have none := (Nat.mul_eq_zero.mp counted).resolve_left (Nat.ne_of_gt (Nat.pow_pos (by decide)))
    rw [none, Nat.zero_mul, Nat.zero_mul]
  · have fractional : 0 < number.places := by
      by_contra whole
      rw [Nat.eq_zero_of_not_pos whole, Nat.pow_zero] at small
      omega
    have fits := (Nat.length_toDigits_le_iff (by decide) fractional).mpr small
    have lengths := congrArg List.length parts
    simp only [List.length_append, List.length_replicate] at lengths
    have places : number.places = zeros + fraction.length := by omega
    rw [← counted, places, Nat.pow_add]
    ring

/-- The digits behind the point as they are written, a single zero where there are none. -/
def shownFraction : List Char :=
  if number.fractionDigits.isEmpty then ['0'] else number.fractionDigits

theorem positional_eq :
    number.positional = signed number.negative (number.wholeDigits ++ '.' :: number.shownFraction) :=
  rfl

theorem areDigits_shownFraction : areDigits number.shownFraction = true := by
  unfold shownFraction
  split
  · decide
  · rename_i present
    exact areDigits_iff.mpr ⟨by simpa using present,
      fun _ member => number.isDigit_of_mem_fractionDigits member⟩

variable {number} in
theorem shownFraction_of_whole (whole : number.significand % 10 ^ number.places = 0) :
    number.shownFraction = ['0'] := by
  have digits : number.fractionDigits = [] := by
    rw [fractionDigits, Nat.pow_eq, whole]
    simp [trimZeros]
  rw [shownFraction, digits]
  rfl

theorem ofDigitChars_shownFraction :
    Nat.ofDigitChars 10 number.shownFraction 0 * 10 ^ number.places =
      number.significand % 10 ^ number.places * 10 ^ number.shownFraction.length := by
  have digits := number.ofDigitChars_fractionDigits
  unfold shownFraction
  split
  · rename_i empty
    rw [List.isEmpty_iff.mp empty] at digits
    have whole : number.significand % 10 ^ number.places = 0 := by simpa using digits.symm
    simp [whole, Nat.ofDigitChars_cons]
  · exact digits

theorem trim_positional : Text.trim number.positional = number.positional :=
  trim_signed _ number.areDigits_wholeDigits number.areDigits_shownFraction

/-- The positional form reads back as a decimal that is the same number. -/
theorem exists_ofText?_positional :
    ∃ again, ofText? number.positional = some again ∧ again.Same number := by
  rw [positional_eq]
  refine ⟨_, ofText?_signed _ number.areDigits_wholeDigits number.areDigits_shownFraction, rfl, ?_⟩
  have whole : Nat.ofDigitChars 10 number.wholeDigits 0 = number.significand / 10 ^ number.places :=
    Nat.ofDigitChars_ten_toDigits
  rw [Nat.ofDigitChars_append, Nat.ofDigitChars_eq_ofDigitChars_zero, whole]
  calc
    _ = 10 ^ number.shownFraction.length *
          (number.significand / 10 ^ number.places) * 10 ^ number.places +
        Nat.ofDigitChars 10 number.shownFraction 0 * 10 ^ number.places := Nat.add_mul _ _ _
    _ = (number.significand / 10 ^ number.places * 10 ^ number.places +
          number.significand % 10 ^ number.places) * 10 ^ number.shownFraction.length := by
      rw [ofDigitChars_shownFraction]
      ring
    _ = number.significand * 10 ^ number.shownFraction.length := by rw [Nat.div_add_mod']

end

end TypedLiteral.Decimal
