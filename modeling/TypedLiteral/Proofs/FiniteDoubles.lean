import TypedLiteral.Proofs.ScalarRoundTrip

/-! Finite doubles, written and read. Each is written as digits around a point, read back as the
same word, and the only one to be written so. What is written for any other double is no number. -/
namespace TypedLiteral

namespace Binary64

/-- A whole number is written with all its digits, however many they are. -/
theorem literalText_of_isIntegral {number : Binary64} (integral : number.isIntegral = true) :
    number.literalText = Decimal.signed number.isNegative
      (Nat.toDigits 10 (BinaryFormat.double.units number.magnitude / 2 ^ BinaryFormat.double.scale) ++
        ['.', '0']) := by
  obtain ⟨-, multiple⟩ := Bool.and_eq_true_iff.mp integral
  have whole : number.exact.significand % 10 ^ number.exact.places = 0 := by
    rw [Nat.pow_eq, beq_iff_eq] at multiple
    refine (BinaryFormat.double.exactCount_mod number.magnitude).trans ?_
    rw [multiple, Nat.zero_mul]
  have digits : number.exact.wholeDigits = Nat.toDigits 10
      (BinaryFormat.double.units number.magnitude / 2 ^ BinaryFormat.double.scale) :=
    congrArg (Nat.toDigits 10) (BinaryFormat.double.exactCount_div number.magnitude)
  rw [literalText, if_pos integral, Decimal.positional_eq, Decimal.shownFraction_of_whole whole,
    digits]
  rfl

section Finite

variable {number other : Binary64} (finite : number.isFinite = true)
include finite

theorem exists_digits_literalText : ∃ whole fraction,
    Decimal.areDigits whole = true ∧ Decimal.areDigits fraction = true ∧
      number.literalText = Decimal.signed number.isNegative (whole ++ '.' :: fraction) := by
  obtain ⟨decimal, sign, text, -⟩ := exists_literalText_eq_positional finite
  refine ⟨decimal.wholeDigits, decimal.shownFraction, decimal.areDigits_wholeDigits,
    decimal.areDigits_shownFraction, ?_⟩
  rw [text, decimal.positional_eq, sign]

theorem isSome_ofText?_literalText : (Decimal.ofText? number.literalText).isSome = true := by
  obtain ⟨whole, fraction, before, behind, text⟩ := exists_digits_literalText finite
  rw [text, Decimal.ofText?_signed _ before behind]
  rfl

theorem eq_of_literalText_eq (same : other.literalText = number.literalText) : other = number := by
  have read := readDouble_literalText finite
  rw [← same] at read
  cases known : other.isFinite with
  | true =>
    rw [readDouble_literalText known] at read
    exact Except.ok.inj read
  | false =>
    rw [readDouble_literalText_of_not_isFinite known] at read
    contradiction

end Finite

end Binary64

/-- A finite double is written as digits around a point, behind a minus sign if its word has one,
and is read back as the same word. No other double is written like it. What is written for a double
that is not finite is no number. -/
theorem double_text (number : Binary64) :
    let text := (Value.double number).toText
    (number.isFinite = true →
      (∃ whole fraction, Decimal.areDigits whole = true ∧ Decimal.areDigits fraction = true ∧
        text = String.ofList (Decimal.signed number.isNegative (whole ++ '.' :: fraction))) ∧
      (Decimal.ofText? text.toList).isSome = true ∧
      (∀ (reader : Reader) type, reader.Scalar type .double →
        reader.read text type = .ok (.double number)) ∧
      ∀ other : Binary64, (Value.double other).toText = text → other = number) ∧
    (number.isFinite = false → ∀ (reader : Reader) type, reader.Scalar type .double →
      reader.read text type = .error (.numberFormat text "double")) := by
  intro text
  have variant := ScalarKind.Variant.double number
  have written : text.toList = number.literalText := String.toList_ofList
  have read {reader : Reader} {type : TypeExpr} (scalar : reader.Scalar type .double) :
      reader.read text type = Literal.readScalar .double number.literalText := by
    rw [Reader.read, scalar.shape, Shape.read, written]
  refine ⟨fun finite => ⟨?form, ?decimal, ?back, ?only⟩, fun infinite reader type scalar => ?none⟩
  case form =>
    obtain ⟨whole, fraction, before, behind, digits⟩ := number.exists_digits_literalText finite
    exact ⟨whole, fraction, before, behind, congrArg String.ofList digits⟩
  case decimal =>
    rw [written]
    exact number.isSome_ofText?_literalText finite
  case back =>
    intro reader type scalar
    rw [read scalar]
    exact variant.readScalar_render finite
  case only =>
    intro other same
    exact Binary64.eq_of_literalText_eq finite (String.ofList_injective same)
  case none =>
    rw [read scalar]
    exact variant.readScalar_render_of_not_isFinite infinite

theorem double_text_extremes :
    let largest : Binary64 := ⟨0x7FEFFFFFFFFFFFFF⟩
    let least : Binary64 := ⟨0x8000000000000001⟩
    let infinite : Binary64 := ⟨0xFFF0000000000000⟩
    let double : TypeExpr := .named .double
    (Reader.Scalar {} double .double ∧ largest.isFinite = true ∧ least.isFinite = true ∧
      infinite.isFinite = false) ∧
    Reader.read {} (Value.double largest).toText double = .ok (.double largest) ∧
    Reader.read {} (Value.double least).toText double = .ok (.double least) ∧
    Reader.read {} "-inf" double = .error (.numberFormat "-inf" "double") := by
  intro largest least infinite double
  have scalar : Reader.Scalar {} double .double := .named (by decide +kernel) (by decide +kernel)
  have large : largest.isFinite = true := by decide +kernel
  have small : least.isFinite = true := by decide +kernel
  have beyond : infinite.isFinite = false := by decide +kernel
  obtain ⟨-, -, back, -⟩ := (double_text largest).1 large
  obtain ⟨-, -, again, -⟩ := (double_text least).1 small
  have text : (Value.double infinite).toText = "-inf" := by decide +kernel
  have failed := (double_text infinite).2 beyond {} double scalar
  rw [text] at failed
  exact ⟨⟨scalar, large, small, beyond⟩, back {} double scalar, again {} double scalar, failed⟩

end TypedLiteral
