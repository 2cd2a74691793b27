import Mathlib.Algebra.Ring.Int.Defs
import TypedLiteral.Extraction
import TypedLiteral.Proofs.InOrder

/-! Scalars as they are extracted. A target for one kind of scalar takes a value exactly when the
accessor of that kind answers, and yields that answer. A number outside the range of an integer type
is refused and never wrapped. -/
namespace TypedLiteral

/-- What is said of a value of a kind that does not fit. -/
def Value.refused (value : Value) (expected : String) : Failure :=
  .custom ("invalid type: " ++ value.content.description ++ ", expected " ++ expected)

namespace Target

/-- An integer type with its name, its least and its greatest number. -/
inductive Integral : Target → String → Int → Int → Prop
  | signed (name : String) (width : Nat) :
      Integral (.signed name width) name (-2 ^ (width - 1)) (2 ^ (width - 1) - 1)
  | unsigned (name : String) (width : Nat) :
      Integral (.unsigned name width) name 0 (2 ^ width - 1)

theorem Integral.eq_integer {target : Target} {name : String} {least greatest : Int}
    (integral : Integral target name least greatest) :
    target = .integer ⟨name, least, greatest⟩ := by
  cases integral with
  | signed name width =>
    have power : ((Nat.pow 2 (width - 1) : Nat) : Int) = 2 ^ (width - 1) := Int.natCast_pow 2 _
    rw [Target.signed, power]
  | unsigned name width =>
    have power : ((Nat.pow 2 width : Nat) : Int) = 2 ^ width := Int.natCast_pow 2 _
    rw [Target.unsigned, power]

end Target

namespace Value

theorem content_of_integer? {value : Value} {word : Int64} (counted : value.integer? = some word) :
    value.content = .integer word.toInt := by
  cases value with
  | int number =>
    cases counted
    exact congrArg Content.integer (Int32.toInt_toInt64 number).symm
  | long number =>
    cases counted
    rfl
  | _ => contradiction

theorem extract_integer_inside {value : Value} {word : Int64} (range : IntegerRange)
    (counted : value.integer? = some word)
    (inside : range.least ≤ word.toInt ∧ word.toInt ≤ range.greatest) :
    value.extract (.integer range) = .ok (.integer word.toInt) := by
  have taken : Target.extractInteger range value.content = .ok (.integer word.toInt) := by
    rw [content_of_integer? counted]
    exact if_pos inside
  exact congrArg (Except.mapError Misfit.failure) taken

theorem extract_integer_outside {value : Value} {word : Int64} (range : IntegerRange)
    (counted : value.integer? = some word)
    (outside : ¬(range.least ≤ word.toInt ∧ word.toInt ≤ range.greatest)) :
    value.extract (.integer range) =
      .error (.custom ("invalid value: integer `" ++ String.ofList (writeInteger word.toInt) ++
        "`, expected " ++ range.name)) := by
  have refused : Target.extractInteger range value.content =
      .error (.wrongValue (.integer word.toInt) range.name) := by
    rw [content_of_integer? counted]
    exact if_neg outside
  have failed : value.extract (.integer range) =
      .error (.custom ("invalid value: " ++
        ("integer `" ++ String.ofList (writeInteger word.toInt) ++ "`") ++ ", expected " ++
          range.name)) :=
    congrArg (Except.mapError Misfit.failure) refused
  have opening : "invalid value: " ++ "integer `" = "invalid value: integer `" := by simp
  have closing : "`" ++ ", expected " = "`, expected " := by simp
  rw [failed, ← opening, ← closing]
  simp only [String.append_assoc, -String.reduceAppend]

theorem extract_integer_none {value : Value} (range : IntegerRange)
    (uncounted : value.integer? = none) :
    value.extract (.integer range) = .error (value.refused range.name) := by
  cases value with
  | int _ => contradiction
  | long _ => contradiction
  | _ => rfl

theorem extract_double (value : Value) :
    value.extract .double =
      value.double?.elim (.error (value.refused "f64")) fun number => .ok (.double number) := by
  cases value <;> rfl

theorem extract_boolean (value : Value) :
    value.extract .boolean =
      value.flag?.elim (.error (value.refused "a boolean")) fun flag => .ok (.boolean flag) := by
  cases value <;> rfl

theorem extract_string (value : Value) :
    value.extract .string =
      value.string?.elim (.error (value.refused "a string")) fun content =>
        .ok (.string content) := by
  cases value <;> rfl

theorem extract_option (value : Value) (body : Target) :
    value.extract (.option body) = (value.extract body).map .present := by
  unfold extract
  rw [Target.extract]
  cases body.extract value <;> rfl

end Value

theorem elim_eq_ok_iff {α β ε : Type} {answer : Option α} {failure : ε} {f : α → β} {result : β} :
    (answer.elim (.error failure) fun found => .ok (f found)) = Except.ok result ↔
      ∃ found, answer = some found ∧ result = f found := by
  cases answer <;> simp [eq_comm]

/-- Every scalar target agrees with the accessor of its kind on every value. -/
theorem extract_scalar_iff_accessor (value : Value) :
    (∀ target name least greatest, Target.Integral target name least greatest →
      (∀ result, value.extract target = .ok result ↔
        ∃ word, value.integer? = some word ∧ (least ≤ word.toInt ∧ word.toInt ≤ greatest) ∧
          result = .integer word.toInt) ∧
      (∀ word, value.integer? = some word → ¬(least ≤ word.toInt ∧ word.toInt ≤ greatest) →
        value.extract target =
          .error (.custom ("invalid value: integer `" ++
            String.ofList (writeInteger word.toInt) ++ "`, expected " ++ name))) ∧
      (value.integer? = none → value.extract target = .error (value.refused name))) ∧
    (∀ result, value.extract .double = .ok result ↔
      ∃ number, value.double? = some number ∧ result = .double number) ∧
    (∀ result, value.extract .boolean = .ok result ↔
      ∃ flag, value.flag? = some flag ∧ result = .boolean flag) ∧
    (∀ result, value.extract .string = .ok result ↔
      ∃ content, value.string? = some content ∧ result = .string content) ∧
    ∀ body, value.extract (.option body) = (value.extract body).map .present := by
  refine ⟨?_, ?_, ?_, ?_, value.extract_option⟩
  · intro target name least greatest integral
    rw [integral.eq_integer]
    refine ⟨fun result => ?_, fun word counted outside => ?_, fun uncounted => ?_⟩
    · cases counted : value.integer? with
      | none => simp [Value.extract_integer_none _ counted]
      | some word =>
        by_cases inside : least ≤ word.toInt ∧ word.toInt ≤ greatest
        · have taken := Value.extract_integer_inside ⟨name, least, greatest⟩ counted inside
          simp [taken, inside, eq_comm]
        · have refused := Value.extract_integer_outside ⟨name, least, greatest⟩ counted inside
          simp [refused, inside]
    · exact Value.extract_integer_outside ⟨name, least, greatest⟩ counted outside
    · exact Value.extract_integer_none _ uncounted
  · intro result
    rw [value.extract_double, elim_eq_ok_iff]
  · intro result
    rw [value.extract_boolean, elim_eq_ok_iff]
  · intro result
    rw [value.extract_string, elim_eq_ok_iff]

theorem extract_scalar_iff_accessor_extremes :
    Value.extract (.unsigned "u64" 64) (.long 9223372036854775807) =
        .ok (.integer 9223372036854775807) ∧
      Value.extract (.unsigned "u64" 64) (.int (-1)) =
        .error (.custom "invalid value: integer `-1`, expected u64") ∧
      Value.extract (.signed "i8" 8) (.bool true) = .error ((Value.bool true).refused "i8") := by
  obtain ⟨largest, -⟩ := extract_scalar_iff_accessor (.long 9223372036854775807)
  obtain ⟨negative, -⟩ := extract_scalar_iff_accessor (.int (-1))
  obtain ⟨flag, -⟩ := extract_scalar_iff_accessor (.bool true)
  obtain ⟨taken, -, -⟩ := largest _ _ _ _ (.unsigned "u64" 64)
  obtain ⟨-, outside, -⟩ := negative _ _ _ _ (.unsigned "u64" 64)
  obtain ⟨-, -, uncounted⟩ := flag _ _ _ _ (.signed "i8" 8)
  refine ⟨(taken _).mpr ⟨9223372036854775807, rfl, by decide, rfl⟩, ?_, uncounted rfl⟩
  have refused := outside (-1) rfl (by decide)
  have words : "invalid value: integer `" ++ String.ofList (writeInteger (-1)) ++
      "`, expected " ++ "u64" = "invalid value: integer `-1`, expected u64" := by decide
  exact refused.trans (congrArg (fun text => Except.error (Failure.custom text)) words)

end TypedLiteral
