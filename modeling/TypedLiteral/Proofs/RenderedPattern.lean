import TypedLiteral.Proofs.Conformance
import TypedLiteral.Proofs.DoubleText
import TypedLiteral.Proofs.RegexReading
import TypedLiteral.Proofs.RoundTrip

/-! Written values against the pattern of their type. The pattern follows the shape of the type and
the text follows the value, and the two meet at every depth: the pattern of an element matches what
an element is written as, so that of the collection matches the whole. Left out are infinite
doubles, for which there is no literal, and texts that break the line, which `.*` does not match. -/
namespace TypedLiteral

open Literal

/-- No double inside is infinite or not a number, and no text inside has a line feed. -/
structure Value.Matchable (value : Value) : Prop where
  finite : ∀ number, Relation.ReflTransGen ElementOf (.double number) value →
    number.isFinite = true
  unbroken : ∀ content, Relation.ReflTransGen ElementOf (.text content) value →
    '\n' ∉ content.toList

theorem Value.Matchable.element {value part : Value} (matchable : value.Matchable)
    (member : part.ElementOf value) : part.Matchable where
  finite := fun number inside => matchable.finite number (inside.tail member)
  unbroken := fun content inside => matchable.unbroken content (inside.tail member)

theorem Value.matchable_collection (form : Form) {elements : List Value}
    (each : ∀ part ∈ elements, part.Matchable) : (Value.collection form elements).Matchable where
  finite := by
    intro number inside
    rcases inside.cases_tail with same | ⟨part, within, member⟩
    · contradiction
    · exact (each part member).finite number within
  unbroken := by
    intro content inside
    rcases inside.cases_tail with same | ⟨part, within, member⟩
    · contradiction
    · exact (each part member).unbroken content within

theorem Value.matchable_member (type : TypeIdent) (name : String) :
    (Value.member type name).Matchable where
  finite := by
    intro number inside
    rcases inside.cases_tail with same | ⟨part, within, member⟩ <;> contradiction
  unbroken := by
    intro content inside
    rcases inside.cases_tail with same | ⟨part, within, member⟩ <;> contradiction

theorem Value.ofElements_sublist (form : Form) (elements : List Value) :
    ∃ kept, ofElements form elements = .collection form kept ∧ kept.Sublist elements := by
  unfold ofElements
  split
  · exact ⟨distinct elements, rfl, distinct_sublist elements⟩
  · exact ⟨elements, rfl, .refl elements⟩

theorem Binary64.mem_double_literalText {number : Binary64} (finite : number.isFinite = true) :
    number.literalText ∈ Regex.double.language := by
  obtain ⟨decimal, -, text, -⟩ := exists_literalText_eq_positional finite
  rw [text, Regex.mem_double, decimal.positional_eq]
  exact Decimal.fractional_signed _ decimal.areDigits_wholeDigits decimal.areDigits_shownFraction

theorem ScalarKind.Variant.render_mem_pattern {kind : ScalarKind} {value : Value}
    (variant : kind.Variant value) (matchable : value.Matchable) :
    value.render ∈ kind.pattern.language := by
  cases variant with
  | text content =>
    rw [Value.render]
    exact Regex.mem_any.mpr (matchable.unbroken content .refl)
  | int number =>
    rw [Value.render]
    exact Regex.mem_integer.mpr ⟨_, numeral_writeInteger _⟩
  | long number =>
    rw [Value.render]
    exact Regex.mem_integer.mpr ⟨_, numeral_writeInteger _⟩
  | boolean flag =>
    rw [Value.render]
    exact Regex.mem_boolean.mpr ⟨flag, List.forall₂_same.mpr fun _ _ => Or.inl rfl⟩
  | double number =>
    rw [Value.render]
    exact number.mem_double_literalText (matchable.finite number .refl)

theorem Value.mem_listing {elements : List Value} {c : Char} (inside : c ∈ listing elements) :
    c = ' ' ∨ c = ',' ∨ ∃ part ∈ elements, c ∈ part.render := by
  rw [listing_eq] at inside
  cases elements with
  | nil => exact Or.inl (by simpa using inside)
  | cons first later =>
    rw [List.map_cons, Sequence.intercalate_cons] at inside
    simp only [List.mem_append, List.mem_flatMap, List.mem_map, List.mem_cons] at inside
    grind

section Collections

variable {element : Regex} {elements : List Value}
  (each : ∀ part ∈ elements, part.render ∈ element.language) (form : Form)
include each

theorem Value.listed_renders (present : elements ≠ []) :
    Regex.Listed element.language ([',', ' '].intercalate (elements.map render)) := by
  obtain ⟨first, later, rfl⟩ := List.exists_cons_of_ne_nil present
  clear present
  induction later generalizing first with
  | nil => simpa using Regex.Listed.last (each first List.mem_cons_self)
  | cons next later ih =>
    obtain ⟨head, tail⟩ := List.forall_mem_cons.mp each
    have listed := Regex.Listed.more head Text.blank_nil Text.blank_space (ih next tail)
    simpa using listed

theorem Value.render_mem_separated :
    render (.collection form elements) ∈ (Regex.separated element).language := by
  have parts (inner : List Char) : bracketed ([' '] ++ (inner ++ [' '])) =
      ['['] ++ ([' '] ++ (inner ++ ([' '] ++ [']']))) := by simp [bracketed]
  rw [Regex.mem_separated, render_collection, listing_eq, parts]
  refine .intro (Or.inr rfl) Text.blank_space ?_ Text.blank_space (Or.inr rfl)
  by_cases empty : elements = []
  · rw [empty]
    exact Or.inl rfl
  · exact Or.inr (listed_renders each empty)

theorem Value.render_mem_collection :
    render (.collection form elements) ∈ (Regex.collection element).language := by
  unfold Regex.collection
  split
  · rename_i anything
    subst anything
    rw [Regex.mem_any, render_collection]
    intro feed
    have inside : '\n' ∈ listing elements := by simpa [bracketed] using feed
    rcases mem_listing inside with space | comma | ⟨part, member, broken⟩
    · contradiction
    · contradiction
    · exact Regex.mem_any.mp (each part member) broken
  · exact render_mem_separated each form

end Collections

theorem Shape.render_mem_pattern {limits : Limits} {shape : Shape} {depth : Nat}
    {text : List Char} {value : Value} (succeeded : shape.read limits depth text = .ok value)
    (matchable : value.Matchable) : value.render ∈ shape.pattern.language := by
  induction shape generalizing depth text value with
  | member type members =>
    obtain ⟨declared, rfl⟩ := readMember_eq_ok_iff.mp succeeded
    have listed : Regex.literal (String.ofList (Text.trim text)).toList ∈
        members.map fun name => Regex.literal name.toList := List.mem_map_of_mem declared
    rw [Shape.pattern, Value.render, Regex.mem_choice (List.ne_nil_of_mem listed)]
    exact ⟨_, listed, Regex.mem_literal.mpr rfl⟩
  | scalar kind => exact (variant_of_readScalar succeeded).render_mem_pattern matchable
  | sequence form width =>
    obtain ⟨body, numbers, -, -, rfl⟩ := exists_of_read_sequence succeeded
    obtain ⟨kept, made, fewer⟩ := Value.ofElements_sublist form (numbers.map width.value)
    rw [made] at matchable ⊢
    apply Value.render_mem_collection
    intro part member
    obtain ⟨number, -, rfl⟩ := List.mem_map.mp (fewer.subset member)
    have written := (width.variant_value number).render_mem_pattern (matchable.element member)
    obtain ⟨shown, numeral⟩ := Regex.mem_integer.mp written
    exact Regex.mem_segment.mpr (.point numeral)
  | collection form element ih =>
    obtain ⟨body, texts, values, -, -, each, rfl⟩ := exists_of_read_collection succeeded
    obtain ⟨kept, made, fewer⟩ := Value.ofElements_sublist form values
    rw [made] at matchable ⊢
    apply Value.render_mem_collection
    intro part member
    obtain ⟨source, -, read⟩ := exists_mem_of_forall₂ each (fewer.subset member)
    exact ih read (matchable.element member)
  | unsupported type => contradiction
  | misapplied type found => contradiction

/-- What a literal is read as is written in a form that the pattern of its type matches. -/
theorem rendering_matches_pattern (reader : Reader) {text : String} {type : TypeExpr}
    {value : Value} (succeeded : reader.read text type = .ok value) (matchable : value.Matchable) :
    Matches (reader.pattern type) value.toText := by
  rw [Reader.matches_pattern_iff, Value.toText, String.toList_ofList]
  exact Shape.render_mem_pattern succeeded matchable

theorem rendering_matches_pattern_nested :
    let operation : TypeIdent := ⟨"Operation"⟩
    let reader : Reader :=
      { hierarchy := Hierarchy.standard.declare operation (.enumeration ["A.B", "C|D"]) }
    let type : TypeExpr := .applied .collection [.array (.applied .set [.named operation])]
    let text := "[[[A.B, C|D, A.B], []], []]"
    let value : Value := .collection .set [.collection .array
      [.collection .set [.member operation "A.B", .member operation "C|D"], .collection .set []],
      .collection .array []]
    (reader.read text type = .ok value ∧ value.Matchable) ∧
      Matches (reader.pattern type) value.toText := by
  intro operation reader type text value
  have read : reader.read text type = .ok value := by decide +kernel
  have matchable : value.Matchable := by
    refine Value.matchable_collection .set ?_
    simp only [List.forall_mem_cons]
    refine ⟨Value.matchable_collection .array ?_, Value.matchable_collection .array (by simp),
      by simp⟩
    simp only [List.forall_mem_cons]
    refine ⟨Value.matchable_collection .set ?_, Value.matchable_collection .set (by simp), by simp⟩
    simp [Value.matchable_member]
  exact ⟨⟨read, matchable⟩, rendering_matches_pattern reader read matchable⟩

end TypedLiteral
