import TypedLiteral.Proofs.Conformance
import TypedLiteral.Proofs.DoubleText

/-! Scalars written and read again. Whatever was read for a type without elements reads back from
its own text as the same value, unless it is a double that is too large to be finite: such a literal
is read as an infinity, and the text of an infinity is no number. -/
namespace TypedLiteral

open Literal

/-- The types of literals without elements: enumerations, and names with the strategy of a scalar. -/
inductive Reader.Atomic (reader : Reader) : TypeExpr → Prop
  | member {name members} (enumerated : reader.hierarchy.members? name = some members) :
      Atomic reader (.named name)
  | scalar {type kind} (scalar : reader.Scalar type kind) : Atomic reader type

def Value.isFinite : Value → Bool
  | .double number => number.isFinite
  | _ => true

theorem readInteger_writeInteger {width : Width} {number : Int} (held : width.Holds number) :
    readInteger width (writeInteger number) = .ok (Int64.ofInt number) := by
  have numeral := numeral_writeInteger number
  exact readInteger_eq_ok_iff.mpr ⟨number, ⟨numeral.trimmed.symm ▸ numeral, held⟩, rfl⟩

theorem Width.Represents.readScalar_render {width : Width} {number : Int} {value : Value}
    (represents : width.Represents number value) :
    readScalar (.integer width) (writeInteger number) = .ok value := by
  rw [readScalar, readInteger_writeInteger represents.holds, represents.eq_value]
  rfl

theorem ScalarKind.Variant.readScalar_render {kind : ScalarKind} {value : Value}
    (variant : kind.Variant value) (finite : value.isFinite = true) :
    readScalar kind value.render = .ok value := by
  cases variant with
  | text content => simp [readScalar, Value.render]
  | int number => exact Width.Represents.int.readScalar_render
  | long number => exact Width.Represents.long.readScalar_render
  | boolean flag => cases flag <;> rfl
  | double number =>
    rw [readScalar, Value.render, Binary64.readDouble_literalText finite]
    rfl

theorem ScalarKind.Variant.readScalar_render_of_not_isFinite {kind : ScalarKind} {value : Value}
    (variant : kind.Variant value) (infinite : value.isFinite = false) :
    readScalar kind value.render = .error (invalidNumber value.render .double) := by
  cases variant with
  | double number =>
    rw [readScalar, Value.render, Binary64.readDouble_literalText_of_not_isFinite infinite]
    rfl
  | _ => contradiction

/-- What was read and is not finite is one of the two infinities. -/
theorem render_of_readScalar {kind : ScalarKind} {text : List Char} {value : Value}
    (succeeded : readScalar kind text = .ok value) (infinite : value.isFinite = false) :
    ∃ negative, value.render = Decimal.signed negative "inf".toList := by
  cases variant_of_readScalar succeeded with
  | double number =>
    obtain ⟨number, read, same⟩ := map_eq_ok_iff.mp succeeded
    cases same
    exact ⟨_, Binary64.literalText_of_readDouble read infinite⟩
  | _ => contradiction

theorem readMember_again {type : TypeIdent} {members : List String} {text : List Char}
    {value : Value} (succeeded : readMember type members text = .ok value) :
    readMember type members value.render = .ok value := by
  obtain ⟨declared, rfl⟩ := readMember_eq_ok_iff.mp succeeded
  rw [readMember_eq_ok_iff]
  simp [Value.render, Text.trim_trim, declared]

/-- What was read for a type without elements reads back from its own text as the same value. Only
the two infinities do not: their text is reported as no number. -/
theorem read_scalar_again (reader : Reader) {type : TypeExpr} (atomic : reader.Atomic type)
    {text : String} {value : Value} (succeeded : reader.read text type = .ok value) :
    (value.isFinite = true →
      reader.read value.toText type = .ok value ∧ value.same value = true) ∧
    (value.isFinite = false →
      (∃ negative, value.toText = String.ofList (Decimal.signed negative "inf".toList)) ∧
      reader.read value.toText type = .error (.numberFormat value.toText "double")) := by
  rw [Reader.read] at succeeded
  simp only [Reader.read, Value.toText, String.toList_ofList]
  cases atomic with
  | @member name members enumerated =>
    rw [Reader.shape_member enumerated, Shape.read] at succeeded ⊢
    refine ⟨fun _ => ⟨readMember_again succeeded, value.same_refl⟩, fun infinite => ?_⟩
    obtain ⟨-, rfl⟩ := readMember_eq_ok_iff.mp succeeded
    contradiction
  | scalar scalar =>
    rw [scalar.shape, Shape.read] at succeeded ⊢
    have variant := variant_of_readScalar succeeded
    refine ⟨fun finite => ⟨variant.readScalar_render finite, value.same_refl⟩, fun infinite => ?_⟩
    obtain ⟨negative, text⟩ := render_of_readScalar succeeded infinite
    exact ⟨⟨negative, congrArg String.ofList text⟩,
      variant.readScalar_render_of_not_isFinite infinite⟩

theorem read_scalar_again_signed_zero :
    let zero : Value := .double ⟨0x8000000000000000⟩
    (Reader.Atomic {} (.applied .double [.named .string]) ∧
      Reader.read {} " -00.000 " (.applied .double [.named .string]) = .ok zero ∧
      zero.isFinite = true) ∧
    Reader.read {} "-0.0" (.applied .double [.named .string]) = .ok zero ∧ zero.same zero = true := by
  have strategy : (Reader.strategies {}).get? .double = some (.scalar .double) := by
    decide +kernel
  have atomic : Reader.Atomic {} (.applied .double [.named .string]) :=
    .scalar (.applied strategy)
  have read : Reader.read {} " -00.000 " (.applied .double [.named .string]) =
      .ok (.double ⟨0x8000000000000000⟩) := by decide +kernel
  have finite : (Value.double ⟨0x8000000000000000⟩).isFinite = true := by decide +kernel
  have again := (read_scalar_again {} atomic read).1 finite
  have text : (Value.double ⟨0x8000000000000000⟩).toText = "-0.0" := by decide +kernel
  rw [text] at again
  exact ⟨⟨atomic, read, finite⟩, again⟩

/-- A literal beyond the largest finite double is read, but what is written for it is not. -/
theorem read_infinite_again :
    let literal := String.ofList ('1' :: List.replicate 309 '0')
    let infinite : Value := .double ⟨0x7FF0000000000000⟩
    Reader.read {} literal (.named .double) = .ok infinite ∧
      ¬∃ again, Reader.read {} infinite.toText (.named .double) = .ok again ∧
        again.same infinite = true := by
  have second : Reader.read {} (Value.double ⟨0x7FF0000000000000⟩).toText (.named .double) =
      .error (.numberFormat "inf" "double") := by decide +kernel
  refine ⟨?_, ?_⟩
  · rw [Reader.read, String.toList_ofList]
    decide +kernel
  rintro ⟨again, read, -⟩
  rw [second] at read
  contradiction

end TypedLiteral
