import Mathlib.Data.List.Destutter
import TypedLiteral.Proofs.TokenSequence

/-! The four settings of the switches as four views of one segmentation. Without any switch all
pieces are tokens; delimiters that are returned stand where they stand in the text; collapsing
leaves the empty pieces out and of adjacent delimiters all but the first one. -/
namespace TypedLiteral

open Text

/-- The parts without those delimiters that directly follow another one. -/
def Text.firstOfRuns (parts : List Part) : List Part :=
  parts.destutter fun first second => first.isDelimiter = false ∨ second.isDelimiter = false

namespace TokenStream

variable {parts : List Part}

theorem shown_pieces (parts : List Part) (repeated : Bool) :
    shown false false repeated parts = parts.filterMap Part.piece? := by
  induction parts generalizing repeated with
  | nil => rfl
  | cons part parts ih => cases part <;> simp [shown, ih, List.filterMap_cons]

theorem shown_collapse (parts : List Part) (repeated : Bool) :
    shown false true repeated parts = (parts.filterMap Part.piece?).filter (!·.isEmpty) := by
  induction parts generalizing repeated with
  | nil => rfl
  | cons part parts ih =>
    cases part with
    | piece text => cases text <;> simp [shown, ih]
    | delimiter text => simp [shown, ih, List.filterMap_cons]

/-- The tokens behind a part that was returned depend on whether it is a delimiter. -/
private theorem shown_behind (full : .delimiter [] ∉ parts) (last : Part) :
    (firstOfRuns (last :: parts.filter Part.isPresent)).map Part.text =
      last.text :: shown true true last.isDelimiter parts := by
  induction parts generalizing last with
  | nil => rfl
  | cons part parts ih =>
    obtain ⟨first, later⟩ := not_or.mp (mt List.mem_cons.mpr full)
    have ih := ih later
    simp only [firstOfRuns, List.destutter_cons'] at ih ⊢
    cases part with
    | piece text =>
      cases text with
      | nil => simp [shown, ih]
      | cons c text => simp [shown, ih]
    | delimiter text =>
      cases text with
      | nil => exact (first rfl).elim
      | cons c text =>
        cases known : last.isDelimiter <;> simp [shown, known, ih]

theorem shown_both (full : .delimiter [] ∉ parts) :
    shown true true false parts = (firstOfRuns (parts.filter Part.isPresent)).map Part.text := by
  have apart (parts : List Part) :
      firstOfRuns (.piece [] :: parts) = .piece [] :: firstOfRuns parts := by
    cases parts <;> simp [firstOfRuns, List.destutter_cons']
  have behind := shown_behind full (.piece [])
  rw [apart, List.map_cons] at behind
  exact (List.cons.inj behind).2.symm

end TokenStream

/-- The tokens of a text under each setting of the switches, in terms of the one way to cut it into
pieces and delimiters. The pieces hold no beginning of a delimiter, all parts together are the text,
and the stream ends. -/
theorem tokens_modes (text : List Char) (delimiters : List (List Char)) :
    ∃ parts, Segments delimiters text parts ∧
      (∀ others, Segments delimiters text others → others = parts) ∧
      (parts.map Part.text).flatten = text ∧
      (∀ before piece after, parts = before ++ .piece piece :: after →
        Clear delimiters piece (after.map Part.text).flatten) ∧
      (∀ returnDelimiters collapse,
        let stream := TokenStream.ofText text delimiters returnDelimiters collapse
        stream.drain.2.next = (none, stream.drain.2)) ∧
      tokens text delimiters = parts.filterMap Part.piece? ∧
      tokens text delimiters true = (parts.filter Part.isPresent).map Part.text ∧
      (tokens text delimiters true).flatten = text ∧
      tokens text delimiters false true = (parts.filterMap Part.piece?).filter (!·.isEmpty) ∧
      tokens text delimiters true true =
        (firstOfRuns (parts.filter Part.isPresent)).map Part.text ∧
      ∀ others, (∀ delimiter, delimiter ≠ [] → (delimiter ∈ others ↔ delimiter ∈ delimiters)) →
        ∀ returnDelimiters collapse, tokens text others returnDelimiters collapse =
          tokens text delimiters returnDelimiters collapse := by
  obtain ⟨parts, segments⟩ := exists_segments delimiters text
  have shown := tokens_eq_shown segments
  have full := segments.nil_notMem
  refine ⟨parts, segments, fun others other => other.unique segments, ?_,
    fun before piece after place => segments.clear place,
    fun returnDelimiters collapse => TokenStream.next_drained _, ?_, ?_, tokens_flatten text delimiters,
    ?_, ?_, fun others same returnDelimiters collapse => ?_⟩
  · rw [segments.map_text, segmentation_flatten]
  · rw [shown, TokenStream.shown_pieces]
  · rw [shown, TokenStream.shown_return full]
  · rw [shown, TokenStream.shown_collapse]
  · rw [shown, TokenStream.shown_both full]
  · rw [shown, tokens_eq_shown (segments.congr same)]

theorem tokens_modes_overlapping :
    let dots : List (List Char) := [['.'], [], ['.', '.'], [','], ['.', '.', '-'], ['.']]
    tokens "..a...,,b".toList dots true true = ["..".toList, ['a'], "..".toList, ['b']] ∧
    tokens "..a...,,b".toList [['.', '.', '-'], [','], ['.', '.'], ['.']] true true =
      tokens "..a...,,b".toList dots true true := by
  obtain ⟨-, -, -, -, -, -, -, -, -, -, -, same⟩ := tokens_modes "..a...,,b".toList
    [['.'], [], ['.', '.'], [','], ['.', '.', '-'], ['.']]
  exact ⟨by decide +kernel, same _ (by simp; grind) true true⟩

end TypedLiteral
