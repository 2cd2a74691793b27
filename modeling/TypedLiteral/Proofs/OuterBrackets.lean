import TypedLiteral.Proofs.CollectionGrammar

/-! Brackets and blanks around a whole collection literal, which it is read the same without. The
pair that is taken off is told by depth: the literal begins with a bracket, and behind its last
character, for the first time since, none is open. `[a], [b]` has no such pair, and neither has
`a[b]`. -/
namespace TypedLiteral

namespace Literal

/-- The text begins with a bracket, and its last character is the one that closes it. -/
structure Paired (text : List Char) : Prop where
  opens : ['['] <+: text
  balanced : Balanced text
  returns : ∀ front, front <+: text → front ≠ [] → depthAfter? 0 front = some 0 → front = text

/-- Behind an opening bracket, no beginning of a balanced text closes it. -/
theorem Balanced.stays_open {inner front : List Char} (balanced : Balanced inner)
    (inFront : front <+: inner) : depthAfter? 1 front ≠ some 0 := by
  intro closed
  have counts := (depthAfter?_eq_some_iff.mp closed).2
  have covered := balanced.covered front inFront
  omega

theorem paired_iff {text : List Char} :
    Paired text ↔ ∃ inner, text = bracketed inner ∧ Balanced inner := by
  constructor
  · intro paired
    obtain ⟨rest, rfl⟩ := paired.opens
    obtain ⟨inner, after, rfl, nested⟩ := exists_group (balanced_iff_depth.mp paired.balanced)
    have within : Balanced inner := balanced_iff_depth.mpr nested
    have inFront : bracketed inner <+: ['['] ++ (inner ++ ']' :: after) :=
      ⟨after, by simp [bracketed]⟩
    have closed := balanced_iff_depth.mp within.bracketed
    exact ⟨inner, (paired.returns _ inFront (List.cons_ne_nil _ _) closed).symm, within⟩
  · rintro ⟨inner, rfl, balanced⟩
    refine ⟨⟨inner ++ [']'], rfl⟩, balanced.bracketed, ?_⟩
    intro front inFront present closed
    obtain ⟨c, behind, rfl⟩ := List.exists_cons_of_ne_nil present
    obtain ⟨rfl, further⟩ := List.cons_prefix_cons.mp inFront
    rcases List.prefix_concat_iff.mp further with rfl | within
    · rfl
    · exact absurd closed (balanced.stays_open within)

theorem paired_trim_iff {text : List Char} :
    Paired (Text.trim text) ↔ ∃ inner, Encloses text inner := by
  rw [paired_iff]
  constructor
  · rintro ⟨inner, group, balanced⟩
    exact ⟨inner, group, balanced⟩
  · rintro ⟨inner, encloses⟩
    exact ⟨inner, encloses.group, encloses.balanced⟩

theorem encloses_padded {before after inner : List Char} (balanced : Balanced inner)
    (blankBefore : ∀ c ∈ before, Text.isBlank c) (blankAfter : ∀ c ∈ after, Text.isBlank c) :
    Encloses (before ++ (bracketed inner ++ after)) inner where
  group := by
    rw [Text.trim_padded _ blankBefore blankAfter]
    exact (encloses_bracketed balanced).group
  balanced := balanced

theorem not_encloses_self {text : List Char} : ¬Encloses text text := by
  intro encloses
  have longer := congrArg List.length encloses.group
  have shorter := Text.trim_length_le text
  simp only [bracketed, List.length_cons, List.length_append] at longer
  omega

/-- What stands between two offsets into a text, counted in bytes of UTF-8. Between offsets outside
of the text or inside of a character stands nothing. -/
inductive Slice : String → Nat → Nat → String → Prop
  | intro (before part after : String) : Slice (before ++ part ++ after) before.utf8ByteSize
      (before ++ part).utf8ByteSize part

theorem slice_bracketed (inner : List Char) :
    Slice (String.ofList (bracketed inner)) 1
      ((String.ofList (bracketed inner)).utf8ByteSize - 1) (String.ofList inner) := by
  have parts : String.ofList (bracketed inner) = "[" ++ String.ofList inner ++ "]" := by
    rw [← String.toList_inj]
    simp [bracketed]
  have size : ("[" ++ String.ofList inner ++ "]").utf8ByteSize - 1 =
      ("[" ++ String.ofList inner).utf8ByteSize := by
    rw [String.utf8ByteSize_append]
    exact Nat.add_sub_cancel _ 1
  rw [parts, size]
  exact .intro "[" (String.ofList inner) "]"

end Literal

open Literal

/-- A pair of brackets around a whole collection literal, and blanks around these, change nothing
unless the literal is one bracketed group by itself. A literal has a body exactly when it is
balanced. The body lacks one pair of brackets exactly when the trimmed literal begins with a bracket
and ends with the one that closes it, and is then what stands between its first and its last byte;
otherwise it is the literal as it stands. -/
theorem outer_brackets_optional (reader : Reader) (deep : 1 ≤ reader.limits.maxDepth) :
    (∀ type form element, reader.Collects type form element → ∀ before body after : String,
      (∀ c ∈ before.toList, Text.isBlank c) → (∀ c ∈ after.toList, Text.isBlank c) →
      Balanced body.toList → (∀ inner, ¬Encloses body.toList inner) →
      reader.read (before ++ "[" ++ body ++ "]" ++ after) type = reader.read body type) ∧
    ∀ text, ((∃ body, body? text = some body) ↔ Balanced text) ∧
      ((∃ inner, Text.trim text = bracketed inner ∧ body? text = some inner) ↔
        Paired (Text.trim text)) ∧
      ∀ body, body? text = some body →
        (Text.trim text = bracketed body ∧
          Slice (String.ofList (Text.trim text)) 1
            ((String.ofList (Text.trim text)).utf8ByteSize - 1) (String.ofList body)) ∨
        (¬Paired (Text.trim text) ∧ body = text) := by
  refine ⟨?_, fun text => ⟨⟨?_, exists_body?⟩, ⟨?_, ?_⟩, ?_⟩⟩
  · intro type form element collects before body after blankBefore blankAfter balanced bare
    have parts : (before ++ "[" ++ body ++ "]" ++ after).toList =
        before.toList ++ (bracketed body.toList ++ after.toList) := by simp [bracketed]
    have enclosed := body?_of_encloses (encloses_padded balanced blankBefore blankAfter)
    rw [Reader.read, Reader.read, parts]
    exact collects.read_congr deep enclosed (body?_of_open balanced bare)
  · rintro ⟨body, unwrapped⟩
    exact (body?_eq_some_iff.mp unwrapped).1
  · rintro ⟨inner, group, unwrapped⟩
    rw [paired_trim_iff]
    obtain ⟨balanced, encloses | ⟨rfl, -⟩⟩ := body?_eq_some_iff.mp unwrapped
    · exact ⟨inner, encloses⟩
    · exact (not_encloses_self ⟨group, balanced⟩).elim
  · rw [paired_trim_iff]
    rintro ⟨inner, encloses⟩
    exact ⟨inner, encloses.group, body?_of_encloses encloses⟩
  · intro body unwrapped
    rw [paired_trim_iff, not_exists]
    obtain ⟨-, encloses | ⟨rfl, bare⟩⟩ := body?_eq_some_iff.mp unwrapped
    · rw [encloses.group]
      exact Or.inl ⟨rfl, slice_bracketed body⟩
    · exact Or.inr ⟨bare, rfl⟩

theorem outer_brackets_optional_groups :
    let reader : Reader := { limits := { maxDepth := 2 } }
    let type : TypeExpr := .applied .collection [.array (.named .string)]
    let body := "[é, é], ü[]"
    (1 ≤ reader.limits.maxDepth ∧ reader.Collects type .set (.array (.named .string)) ∧
      (∀ c ∈ " \u3000".toList, Text.isBlank c) ∧ (∀ c ∈ "\t".toList, Text.isBlank c) ∧
      Balanced body.toList ∧ (∀ inner, ¬Encloses body.toList inner) ∧
      body? " [é, [ü]]".toList = some "é, [ü]".toList) ∧
    reader.read " \u3000[[é, é], ü[]]\t" type = reader.read body type ∧
    Text.trim " [é, [ü]]".toList = bracketed "é, [ü]".toList ∧
    Slice "[é, [ü]]" 1 9 "é, [ü]" := by
  intro reader type body
  have deep : 1 ≤ reader.limits.maxDepth := by decide
  have collects : reader.Collects type .set (.array (.named .string)) := .set (by decide +kernel)
  have blankBefore : ∀ c ∈ " \u3000".toList, Text.isBlank c := List.all_eq_true.mp rfl
  have blankAfter : ∀ c ∈ "\t".toList, Text.isBlank c := List.all_eq_true.mp rfl
  have balanced : Balanced body.toList := by decide
  have bare : ∀ inner, ¬Encloses body.toList inner := by
    intro inner encloses
    have inside := inside?_eq_some_iff.mpr encloses
    simp [show inside? body.toList = none by decide] at inside
  have unwrapped : body? " [é, [ü]]".toList = some "é, [ü]".toList := by decide
  obtain ⟨same, helper⟩ := outer_brackets_optional reader deep
  have outcome := same type .set _ collects " \u3000" body "\t" blankBefore blankAfter balanced bare
  refine ⟨⟨deep, collects, blankBefore, blankAfter, balanced, bare, unwrapped⟩, outcome, ?_⟩
  rcases (helper _).2.2 _ unwrapped with stripped | ⟨-, whole⟩
  · exact stripped
  · exact absurd (congrArg List.length whole) (by decide)

end TypedLiteral
