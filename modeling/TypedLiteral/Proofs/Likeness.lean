import TypedLiteral.Extraction
import TypedLiteral.Proofs.RoundTrip

/-! What can be told apart about values other than by sameness. Two values are alike when they
differ only in kind: a text and a member of its name, an `int` and a `long` of one number, and
collections of any two forms. No notation, no accessor and no extraction sees a difference. -/
namespace TypedLiteral

namespace Value

inductive Spells : Value → String → Prop
  | text (content : String) : Spells (.text content) content
  | member (type : TypeIdent) (name : String) : Spells (.member type name) name

inductive Counts : Value → Int → Prop
  | int (number : Int32) : Counts (.int number) number.toInt
  | long (number : Int64) : Counts (.long number) number.toInt

inductive Alike : Value → Value → Prop
  | word {first second : Value} {content : String} (former : first.Spells content)
      (latter : second.Spells content) : Alike first second
  | number {first second : Value} {number : Int} (former : first.Counts number)
      (latter : second.Counts number) : Alike first second
  | flag (flag : Bool) : Alike (.bool flag) (.bool flag)
  | double (number : Binary64) : Alike (.double number) (.double number)
  | collection (form other : Form) {firsts seconds : List Value}
      (each : List.Forall₂ Alike firsts seconds) :
      Alike (.collection form firsts) (.collection other seconds)

/-- A view that shows words by their content, integers by their number and collections by what it
shows of their elements is the same on values that are alike. -/
theorem Alike.view_eq {β : Type} {view : Value → β} {first second : Value}
    (alike : first.Alike second) (spell : String → β) (count : Int → β) (combine : List β → β)
    (words : ∀ value content, Spells value content → view value = spell content)
    (numbers : ∀ value number, Counts value number → view value = count number)
    (collections : ∀ form elements,
      view (.collection form elements) = combine (elements.map view)) :
    view first = view second := by
  induction first using induction_on_elements generalizing second with
  | scalar first scalar =>
    cases alike with
    | word former latter => rw [words _ _ former, words _ _ latter]
    | number former latter => rw [numbers _ _ former, numbers _ _ latter]
    | flag flag => rfl
    | double number => rfl
    | collection form other each => contradiction
  | collection form firsts ih =>
    cases alike with
    | word former latter => contradiction
    | number former latter => contradiction
    | @collection _ other _ seconds each =>
      have views : firsts.map view = seconds.map view := by
        clear collections
        induction each with
        | nil => rfl
        | cons head tail rest =>
          obtain ⟨atHead, later⟩ := List.forall_mem_cons.mp ih
          rw [List.map_cons, List.map_cons, atHead head, rest later]
      rw [collections, collections, views]

theorem json_collection (form : Form) (elements : List Value) :
    json (.collection form elements) =
      '[' :: ([','].intercalate (elements.map json) ++ [']']) := by
  have tail (later : List Value) (first : Value) :
      first.json ++ jsonTail later = [','].intercalate ((first :: later).map json) := by
    induction later generalizing first with
    | nil => simp [jsonTail]
    | cons next later ih => simp [jsonTail, ih next]
  cases elements with
  | nil => rfl
  | cons first later => rw [json, jsonAll, tail later first]

theorem Alike.render {first second : Value} (alike : first.Alike second) :
    first.render = second.render := by
  apply alike.view_eq String.toList writeInteger (fun texts =>
    Literal.bracketed ([' '] ++ ([',', ' '].intercalate texts ++ [' '])))
  · rintro _ _ (_ | _) <;> rw [Value.render]
  · rintro _ _ (_ | _) <;> rw [Value.render]
  · intro form elements
    rw [render_collection, listing_eq]

theorem Alike.json {first second : Value} (alike : first.Alike second) :
    first.json = second.json := by
  apply alike.view_eq (fun content => Text.jsonQuoted content.toList) writeInteger
    (fun texts => '[' :: ([','].intercalate texts ++ [']']))
  · rintro _ _ (_ | _) <;> rw [Value.json]
  · rintro _ _ (_ | _) <;> rw [Value.json]
  · exact json_collection

theorem Alike.string? {first second : Value} (alike : first.Alike second) :
    first.string? = second.string? := by
  apply alike.view_eq some (fun _ => none) (fun _ => none)
  · rintro _ _ (_ | _) <;> rfl
  · rintro _ _ (_ | _) <;> rfl
  · exact fun _ _ => rfl

theorem Alike.integer? {first second : Value} (alike : first.Alike second) :
    first.integer? = second.integer? := by
  apply alike.view_eq (fun _ => none) (fun number => some (Int64.ofInt number)) (fun _ => none)
  · rintro _ _ (_ | _) <;> rfl
  · rintro _ _ (number | number)
    · rw [Value.integer?, Int64.ofInt_int32ToInt]
    · rw [Value.integer?, Int64.ofInt_toInt]
  · exact fun _ _ => rfl

theorem Alike.double? {first second : Value} (alike : first.Alike second) :
    first.double? = second.double? := by
  apply alike.view_eq (fun _ => none) (fun number => some (Binary64.ofInt number)) (fun _ => none)
  · rintro _ _ (_ | _) <;> rfl
  · rintro _ _ (_ | _) <;> rfl
  · exact fun _ _ => rfl

theorem Alike.flag? {first second : Value} (alike : first.Alike second) :
    first.flag? = second.flag? := by
  apply alike.view_eq (fun _ => none) (fun _ => none) (fun _ => none)
  · rintro _ _ (_ | _) <;> rfl
  · rintro _ _ (_ | _) <;> rfl
  · exact fun _ _ => rfl

theorem Alike.size? {first second : Value} (alike : first.Alike second) :
    first.size? = second.size? := by
  apply alike.view_eq (fun _ => none) (fun _ => none) (fun sizes => some sizes.length)
  · rintro _ _ (_ | _) <;> rfl
  · rintro _ _ (_ | _) <;> rfl
  · intro form elements
    rw [List.length_map]
    rfl

end Value

inductive Content.Alike : Content → Content → Prop
  | text (content : String) : Alike (.text content) (.text content)
  | integer (number : Int) : Alike (.integer number) (.integer number)
  | boolean (flag : Bool) : Alike (.boolean flag) (.boolean flag)
  | double (number : Binary64) : Alike (.double number) (.double number)
  | sequence {firsts seconds : List Value} (each : List.Forall₂ Value.Alike firsts seconds) :
      Alike (.sequence firsts) (.sequence seconds)

theorem Value.Alike.content {first second : Value} (alike : first.Alike second) :
    first.content.Alike second.content := by
  cases alike with
  | @word _ _ content former latter =>
    have shown : ∀ value : Value, value.Spells content → value.content = .text content := by
      rintro _ (_ | _) <;> rfl
    rw [shown _ former, shown _ latter]
    exact .text content
  | @number _ _ number former latter =>
    have shown : ∀ value : Value, value.Counts number → value.content = .integer number := by
      rintro _ (_ | _) <;> rfl
    rw [shown _ former, shown _ latter]
    exact .integer number
  | flag flag => exact .boolean flag
  | double number => exact .double number
  | collection form other each => exact .sequence each

/-- Two outcomes that succeed with related results, or fail in the same words. -/
inductive Agree {α β : Type} (related : α → β → Prop) : Except Misfit α → Except Misfit β → Prop
  | ok {first : α} {second : β} (results : related first second) :
      Agree related (.ok first) (.ok second)
  | error {first second : Misfit} (words : first.failure = second.failure) :
      Agree related (.error first) (.error second)

namespace Agree

theorem refl {α : Type} (outcome : Except Misfit α) : Agree (· = ·) outcome outcome := by
  cases outcome with
  | error misfit => exact .error rfl
  | ok result => exact .ok rfl

theorem mapError_eq {α : Type} {first second : Except Misfit α}
    (agree : Agree (· = ·) first second) :
    first.mapError Misfit.failure = second.mapError Misfit.failure := by
  cases agree with
  | ok results => rw [results]
  | error words => exact congrArg Except.error words

theorem map {α β : Type} {first second : Except Misfit α} {f : α → β}
    (agree : Agree (· = ·) first second) : Agree (· = ·) (first.map f) (second.map f) := by
  cases agree with
  | ok results => exact .ok (congrArg f results)
  | error words => exact .error words

theorem bind {α β γ δ : Type} {related : α → β → Prop} {relatedNext : γ → δ → Prop}
    {first : Except Misfit α} {second : Except Misfit β} {next : α → Except Misfit γ}
    {nextOther : β → Except Misfit δ} (agree : Agree related first second)
    (onward : ∀ result other, related result other →
      Agree relatedNext (next result) (nextOther other)) :
    Agree relatedNext (first >>= next) (second >>= nextOther) := by
  cases agree with
  | ok results => exact onward _ _ results
  | error words => exact .error words

theorem mapM {α β γ : Type} {related : α → β → Prop} {f : α → Except Misfit γ}
    {g : β → Except Misfit γ} {items : List α} {others : List β}
    (each : ∀ item other, related item other → Agree (· = ·) (f item) (g other))
    (items_related : List.Forall₂ related items others) :
    Agree (· = ·) (items.mapM f) (others.mapM g) := by
  induction items_related with
  | nil => exact .refl _
  | cons head tail ih =>
    rw [List.mapM_cons, List.mapM_cons]
    refine (each _ _ head).bind ?_
    rintro result _ rfl
    refine ih.bind ?_
    rintro results _ rfl
    exact .refl _

end Agree

theorem Misfit.message_notName (value : Value) : (notName value).message =
    "expected an enum member name, found '" ++ value.toText ++ "'" := rfl

namespace Target

theorem agree_wrongKind {first second : Content} (alike : first.Alike second) (expected : String) :
    Agree (· = ·) (.error (.wrongKind first expected) : Except Misfit Extracted)
      (.error (.wrongKind second expected)) := by
  cases alike <;> exact .error rfl

/-- Scalar content that is alike is the same, and a sequence is refused whatever is in it. -/
theorem agree_scalar {extractScalar : Content → Except Misfit Extracted} {expected : String}
    (refused : ∀ elements, extractScalar (.sequence elements) =
      .error (.wrongKind (.sequence elements) expected))
    {first second : Content} (alike : first.Alike second) :
    Agree (· = ·) (extractScalar first) (extractScalar second) := by
  cases alike with
  | sequence each =>
    rw [refused, refused]
    exact .error rfl
  | _ => exact .refl _

theorem agree_elementsOf (expected : String) {first second : Content}
    (alike : first.Alike second) :
    Agree (List.Forall₂ Value.Alike) (elementsOf expected first) (elementsOf expected second) := by
  cases alike with
  | sequence each => exact .ok each
  | _ => exact .error rfl

theorem agree_choice (variants : List Variant) {first second : Value}
    (alike : first.Alike second) :
    Agree (· = ·) (extractChoice variants first) (extractChoice variants second) := by
  have words : (Misfit.notName first).failure = (Misfit.notName second).failure := by
    apply congrArg Failure.custom
    rw [Misfit.message_notName, Misfit.message_notName, Value.toText, Value.toText, alike.render]
  have content := alike.content
  unfold extractChoice
  revert content
  generalize first.content = former
  generalize second.content = latter
  rintro (name | _ | _ | _ | _)
  · exact .refl _
  all_goals exact .error words

mutual

theorem agree_extract : ∀ (target : Target) {first second : Value}, first.Alike second →
    Agree (· = ·) (target.extract first) (target.extract second)
  | .integer _, _, _, alike => agree_scalar (fun _ => rfl) alike.content
  | .single, _, _, alike => agree_scalar (fun _ => rfl) alike.content
  | .double, _, _, alike => agree_scalar (fun _ => rfl) alike.content
  | .boolean, _, _, alike => agree_scalar (fun _ => rfl) alike.content
  | .character, _, _, alike => agree_scalar (fun _ => rfl) alike.content
  | .string, _, _, alike => agree_scalar (fun _ => rfl) alike.content
  | .unit, _, _, alike => agree_wrongKind alike.content _
  | .unitStruct _, _, _, alike => agree_wrongKind alike.content _
  | .ignored, _, _, _ => .refl _
  | .map, _, _, alike => agree_wrongKind alike.content _
  | .choice variants, _, _, alike => agree_choice variants alike
  | .option body, first, second, alike => by
    simp only [extract]
    exact (agree_extract body alike).map
  | .sequence element, first, second, alike => by
    simp only [extract]
    refine (agree_elementsOf _ alike.content).bind fun _ _ each => ?_
    refine (Agree.mapM (fun _ _ similar => agree_extract element similar) each).bind ?_
    rintro results _ rfl
    exact .refl _
  | .set element, first, second, alike => by
    simp only [extract]
    refine (agree_elementsOf _ alike.content).bind fun _ _ each => ?_
    refine (Agree.mapM (fun _ _ similar => agree_extract element similar) each).bind ?_
    rintro results _ rfl
    exact .refl _
  | .product kind positions, first, second, alike => by
    simp only [extract]
    refine (agree_elementsOf _ alike.content).bind fun _ _ each => ?_
    refine (agree_extractPositions positions _ 0 each).bind ?_
    rintro parts _ rfl
    exact .refl _

theorem agree_extractPositions : ∀ (positions : List Target) (expected : String) (taken : Nat)
    {firsts seconds : List Value}, List.Forall₂ Value.Alike firsts seconds →
    Agree (· = ·) (extractPositions expected positions taken firsts)
      (extractPositions expected positions taken seconds)
  | [], _, _, _, _, _ => .refl _
  | _ :: _, _, _, [], [], .nil => .refl _
  | position :: positions, expected, taken, _ :: _, _ :: _, .cons head tail => by
    simp only [extractPositions]
    refine (agree_extract position head).bind ?_
    rintro part _ rfl
    refine (agree_extractPositions positions expected (taken + 1) tail).bind ?_
    rintro parts _ rfl
    exact .refl _

end

end Target

/-- Values that are alike are written in the same way in both notations, answer every accessor in
the same way, and give for every target the same result or the same failure, its words included. -/
theorem alike_indistinguishable {first second : Value} (alike : first.Alike second) :
    first.toText = second.toText ∧ first.toJson = second.toJson ∧
      first.string? = second.string? ∧ first.integer? = second.integer? ∧
      first.double? = second.double? ∧ first.flag? = second.flag? ∧
      first.size? = second.size? ∧
      ∀ target, first.extract target = second.extract target := by
  refine ⟨congrArg String.ofList alike.render, congrArg String.ofList alike.json, alike.string?,
    alike.integer?, alike.double?, alike.flag?, alike.size?, fun target => ?_⟩
  exact (target.agree_extract alike).mapError_eq

theorem alike_indistinguishable_nested :
    Value.Alike
        (.collection .set [.text "RED", .int (-3), .collection .list [.bool true, .long 4]])
        (.collection .array [.member ⟨"Color"⟩ "RED", .long (-3),
          .collection .set [.bool true, .int 4]]) ∧
      ∀ target,
        Value.extract target
            (.collection .set [.text "RED", .int (-3), .collection .list [.bool true, .long 4]]) =
          Value.extract target
            (.collection .array [.member ⟨"Color"⟩ "RED", .long (-3),
              .collection .set [.bool true, .int 4]]) := by
  have four : Value.Alike (.long 4) (.int 4) := .number (.long 4) (.int 4)
  have three : Value.Alike (.int (-3)) (.long (-3)) := .number (.int (-3)) (.long (-3))
  have red : Value.Alike (.text "RED") (.member ⟨"Color"⟩ "RED") :=
    .word (.text "RED") (.member ⟨"Color"⟩ "RED")
  have inner := Value.Alike.collection .list .set (.cons (.flag true) (.cons four .nil))
  have alike := Value.Alike.collection .set .array (.cons red (.cons three (.cons inner .nil)))
  obtain ⟨-, -, -, -, -, -, -, extracted⟩ := alike_indistinguishable alike
  exact ⟨alike, extracted⟩

end TypedLiteral
