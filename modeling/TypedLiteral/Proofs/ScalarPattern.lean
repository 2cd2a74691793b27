import TypedLiteral.Proofs.RegexReading
import TypedLiteral.Proofs.Conformance
import TypedLiteral.Proofs.DoubleText
import TypedLiteral.Proofs.Reports

/-! Scalar literals against the patterns of their types. For enumerations, integers, booleans and
doubles the pattern is exact: it matches a literal without the blanks at its ends if and only if the
literal is read, except for integers that are too large for their width. -/
namespace TypedLiteral

open Literal

theorem toNat_toLower (c : Char) :
    c.toLower.toNat = if 65 ≤ c.toNat ∧ c.toNat ≤ 90 then c.toNat + 32 else c.toNat := by
  -- Code points compare and add as their numbers do, by definition, but for the wrap around.
  by_cases capital : 65 ≤ c.toNat ∧ c.toNat ≤ 90
  · have lowered : c.toLower.toNat = (c.toNat + 32) % 2 ^ 32 :=
      congrArg Char.toNat (dif_pos capital)
    rw [if_pos capital, lowered]
    omega
  · have kept : c.toLower = c := dif_neg capital
    rw [if_neg capital, kept]

theorem toLower_eq_iff {c small capital : Char} (letter : 97 ≤ small.toNat ∧ small.toNat ≤ 122)
    (paired : small.toNat = capital.toNat + 32) : c.toLower = small ↔ c = small ∨ c = capital := by
  simp only [← Char.toNat_inj, toNat_toLower]
  split <;> omega

theorem readBoolean_eq_ok_iff {text : List Char} {flag : Bool} :
    readBoolean text = .ok flag ↔ (Text.trim text).map Char.toLower = Value.boolText flag := by
  unfold readBoolean
  dsimp only
  split
  · rename_i same
    rw [same]
    cases flag <;> decide
  · rename_i notTrue
    split
    · rename_i same
      rw [same]
      cases flag <;> decide
    · rename_i notFalse
      cases flag with
      | false => exact ⟨nofun, fun same => absurd same notFalse⟩
      | true => exact ⟨nofun, fun same => absurd same notTrue⟩

theorem exists_readBoolean_iff {text : List Char} :
    (∃ flag, readBoolean text = .ok flag) ↔ Text.trim text ∈ Regex.boolean.language := by
  have letters : ∀ flag, ∀ small ∈ Value.boolText flag,
      (97 ≤ small.toNat ∧ small.toNat ≤ 122) ∧ small.toNat = small.toUpper.toNat + 32 := by
    intro flag
    cases flag <;> simp [Value.boolText]
  rw [Regex.mem_boolean]
  apply exists_congr
  intro flag
  have cased : ∀ small ∈ Value.boolText flag, ∀ c : Char,
      c.toLower = small ↔ c = small ∨ c = small.toUpper := by
    intro small member c
    obtain ⟨letter, paired⟩ := letters flag small member
    exact toLower_eq_iff letter paired
  rw [readBoolean_eq_ok_iff, eq_comm, ← List.forall₂_eq_eq_eq, List.forall₂_map_right_iff]
  constructor
  · exact forall₂_imp_of_mem fun small member c same => (cased small member c).mp same.symm
  · exact forall₂_imp_of_mem fun small member c either => ((cased small member c).mpr either).symm

theorem exists_readInteger_iff {width : Width} {text : List Char} :
    (∃ word, readInteger width text = .ok word) ↔ Text.trim text ∈ Regex.integer.language ∧
      ∀ number, Numeral (Text.trim text) number → width.Holds number := by
  rw [Regex.mem_integer]
  constructor
  · rintro ⟨word, read⟩
    obtain ⟨number, denotes, -⟩ := readInteger_eq_ok_iff.mp read
    refine ⟨⟨number, denotes.numeral⟩, fun other numeral => ?_⟩
    rw [numeral.unique denotes.numeral]
    exact denotes.held
  · rintro ⟨⟨number, numeral⟩, held⟩
    exact ⟨_, readInteger_eq_ok_iff.mpr ⟨number, ⟨numeral, held number numeral⟩, rfl⟩⟩

theorem readScalar_integer_eq_ok_iff {width : Width} {text : List Char} {value : Value} :
    readScalar (.integer width) text = .ok value ↔
      ∃ number, Numeral (Text.trim text) number ∧ width.Represents number value := by
  rw [readScalar, map_eq_ok_iff]
  constructor
  · rintro ⟨word, read, rfl⟩
    obtain ⟨number, denotes, rfl⟩ := readInteger_eq_ok_iff.mp read
    exact ⟨number, denotes.numeral, denotes.held.represents⟩
  · rintro ⟨number, numeral, represents⟩
    have read := readInteger_eq_ok_iff.mpr ⟨number, ⟨numeral, represents.holds⟩, rfl⟩
    exact ⟨_, read, represents.eq_value.symm⟩

theorem exists_readDouble_iff {text : List Char} :
    (∃ number, readDouble text = .ok number) ↔ Text.trim text ∈ Regex.double.language := by
  rw [Regex.mem_double, ← Decimal.exists_ofText?_iff]
  simp only [Binary64.readDouble_eq_ok_iff]
  rw [exists_comm]
  simp

theorem exists_readMember_iff {type : TypeIdent} {members : List String} {text : List Char}
    (inhabited : members ≠ []) : (∃ value, readMember type members text = .ok value) ↔
      Text.trim text ∈ (Shape.member type members).pattern.language := by
  have listed : members.map (fun name => Regex.literal name.toList) ≠ [] := by simpa using inhabited
  rw [Shape.pattern, Regex.mem_choice listed]
  constructor
  · rintro ⟨value, read⟩
    obtain ⟨declared, -⟩ := readMember_eq_ok_iff.mp read
    exact ⟨_, List.mem_map_of_mem declared, Regex.mem_literal.mpr String.toList_ofList.symm⟩
  · rintro ⟨_, member, matched⟩
    obtain ⟨name, declared, rfl⟩ := List.mem_map.mp member
    rw [Regex.mem_literal] at matched
    refine ⟨_, readMember_eq_ok_iff.mpr ⟨?_, rfl⟩⟩
    rwa [matched, String.ofList_toList]

section Judges

variable {reader : Reader} {type : TypeExpr} {text : String} {within : Prop} {failure : Failure}

/-- The literal is read exactly when the pattern of the type matches it, the blanks at its ends
aside, and `within` holds. When it is not read, `failure` is reported. -/
structure Reader.Judges (reader : Reader) (type : TypeExpr) (text : String) (within : Prop)
    (failure : Failure) : Prop where
  accepts : (∃ value, reader.read text type = .ok value) ↔
    Matches (reader.pattern type) (String.ofList (Text.trim text.toList)) ∧ within
  reports : ∀ other, reader.read text type = .error other → other = failure

theorem Reader.judges_of_shape {shape : Shape} (same : reader.shape type = shape)
    (accepts : (∃ value, shape.read reader.limits 0 text.toList = .ok value) ↔
      Text.trim text.toList ∈ shape.pattern.language ∧ within)
    (reports : ∀ other, shape.read reader.limits 0 text.toList = .error other → other = failure) :
    reader.Judges type text within failure where
  accepts := by rw [Reader.matches_pattern_iff, Reader.read, same, String.toList_ofList, accepts]
  reports := by
    rw [Reader.read, same]
    exact reports

theorem Reader.judges_member {name : TypeIdent} {members : List String}
    (enumerated : reader.hierarchy.members? name = some members) (inhabited : members ≠ []) :
    reader.Judges (.named name) text True
      (.unknownMember name.text (String.ofList (Text.trim text.toList))) := by
  refine judges_of_shape (shape_member enumerated) ?_ fun _ => readMember_failure
  rw [and_true]
  exact exists_readMember_iff inhabited

theorem Reader.Scalar.judges_integer {width : Width}
    (scalar : reader.Scalar type (.integer width)) :
    reader.Judges type text
      (∀ number, Numeral (Text.trim text.toList) number → width.Holds number)
      (invalidNumber (Text.trim text.toList) width.typeName) := by
  refine judges_of_shape scalar.shape (exists_map_eq_ok_iff.trans exists_readInteger_iff) ?_
  intro other failed
  cases readScalar_failure failed with
  | integer => rfl

theorem Reader.Scalar.judges_boolean (scalar : reader.Scalar type .boolean) :
    reader.Judges type text True
      (.invalidBoolean (String.ofList (Text.trim text.toList))) := by
  refine judges_of_shape scalar.shape ?_ ?_
  · rw [and_true]
    exact exists_map_eq_ok_iff.trans exists_readBoolean_iff
  · intro other failed
    cases readScalar_failure failed with
    | boolean => rfl

theorem Reader.Scalar.judges_double (scalar : reader.Scalar type .double) :
    reader.Judges type text True (invalidNumber (Text.trim text.toList) .double) := by
  refine judges_of_shape scalar.shape ?_ ?_
  · rw [and_true]
    exact exists_map_eq_ok_iff.trans exists_readDouble_iff
  · intro other failed
    cases readScalar_failure failed with
    | double => rfl

end Judges

/-- The patterns of enumerations with members, of integers, of booleans and of doubles match exactly
the literals that are read, blanks at their ends aside; an integer must also lie within its width,
and the value that is read for it is the number that its digits denote. What is reported of any
other literal shows it without these blanks. -/
theorem read_scalar_iff_matches (reader : Reader) (text : String) :
    let token := Text.trim text.toList
    (∀ name members, reader.hierarchy.members? name = some members → members ≠ [] →
      reader.Judges (.named name) text True (.unknownMember name.text (String.ofList token))) ∧
    (∀ type width, reader.Scalar type (.integer width) →
      reader.Judges type text (∀ number, Numeral token number → width.Holds number)
        (.numberFormat (String.ofList token) width.typeName.text) ∧
      ∀ value, reader.read text type = .ok value ↔
        ∃ number, Numeral token number ∧ width.Represents number value) ∧
    (∀ type, reader.Scalar type .boolean →
      reader.Judges type text True (.invalidBoolean (String.ofList token))) ∧
    (∀ type, reader.Scalar type .double →
      reader.Judges type text True (.numberFormat (String.ofList token) "double")) := by
  refine ⟨?_, ?_, ?_, ?_⟩
  · exact fun name members enumerated inhabited => Reader.judges_member enumerated inhabited
  · intro type width scalar
    refine ⟨scalar.judges_integer, fun value => ?_⟩
    rw [Reader.read, scalar.shape]
    exact readScalar_integer_eq_ok_iff
  · exact fun type scalar => scalar.judges_boolean
  · exact fun type scalar => scalar.judges_double

theorem read_scalar_iff_matches_extremes :
    let operation : TypeIdent := ⟨"Operation"⟩
    let members := ["A.B", "C|D"]
    let reader : Reader :=
      { hierarchy := Hierarchy.standard.declare operation (.enumeration members) }
    let text := " -0002147483648\t"
    (reader.hierarchy.members? operation = some members ∧ members ≠ [] ∧
      reader.Scalar (.named .number) (.integer .int) ∧ reader.Scalar (.named .boolean) .boolean ∧
      reader.Scalar (.named .double) .double ∧
      reader.read "\u00A0C|D " (.named operation) = .ok (.member operation "C|D")) ∧
    Matches (reader.pattern (.named operation)) "C|D" ∧
    reader.read text (.named .number) = .ok (.int (-2147483648)) ∧
    Matches (reader.pattern (.named .number)) "-0002147483648" ∧
    Matches (reader.pattern (.named .double)) "-0002147483648" ∧
    ¬Matches (reader.pattern (.named .boolean)) "-0002147483648" := by
  intro operation members reader text
  have enumerated : reader.hierarchy.members? operation = some members := by decide +kernel
  have inhabited : members ≠ [] := List.cons_ne_nil _ _
  have integer : reader.Scalar (.named .number) (.integer .int) :=
    .named (by decide +kernel) (by decide +kernel)
  have boolean : reader.Scalar (.named .boolean) .boolean :=
    .named (by decide +kernel) (by decide +kernel)
  have double : reader.Scalar (.named .double) .double :=
    .named (by decide +kernel) (by decide +kernel)
  have chosen : reader.read "\u00A0C|D " (.named operation) = .ok (.member operation "C|D") := by
    decide +kernel
  have name : String.ofList (Text.trim "\u00A0C|D ".toList) = "C|D" := by decide +kernel
  have token : String.ofList (Text.trim text.toList) = "-0002147483648" := by decide +kernel
  obtain ⟨choices, -⟩ := read_scalar_iff_matches reader "\u00A0C|D "
  obtain ⟨-, integers, booleans, doubles⟩ := read_scalar_iff_matches reader text
  have judgedName := (choices operation members enumerated inhabited).accepts
  have judgedInteger := (integers _ _ integer).1.accepts
  have judgedBoolean := (booleans _ boolean).accepts
  have judgedDouble := (doubles _ double).accepts
  rw [name] at judgedName
  rw [token] at judgedInteger judgedBoolean judgedDouble
  have least : reader.read text (.named .number) = .ok (.int (-2147483648)) := by
    have numeral : Numeral (Text.trim text.toList) (Int32.toInt (-2147483648)) :=
      integer?_eq_some_iff.mp (by decide +kernel)
    exact ((integers _ _ integer).2 _).mpr ⟨_, numeral, .int⟩
  have halved : reader.read text (.named .double) = .ok (.double ⟨0xC1E0000000000000⟩) := by
    decide +kernel
  have refused : reader.read text (.named .boolean) =
      .error (.invalidBoolean "-0002147483648") := by decide +kernel
  refine ⟨⟨enumerated, inhabited, integer, boolean, double, chosen⟩,
    (judgedName.mp ⟨_, chosen⟩).1, least, (judgedInteger.mp ⟨_, least⟩).1,
    (judgedDouble.mp ⟨_, halved⟩).1, ?_⟩
  intro matched
  obtain ⟨value, read⟩ := judgedBoolean.mpr ⟨matched, trivial⟩
  rw [refused] at read
  contradiction

end TypedLiteral
