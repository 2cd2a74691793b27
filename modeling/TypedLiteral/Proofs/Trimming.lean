import Mathlib.Data.List.DropRight
import TypedLiteral.Text.Blank

/-! What trimming does: it takes off a run of blanks at either end and nothing else, so blanks
around a text do not count and a trimmed text stays as it is. -/
namespace TypedLiteral.Text

private theorem trimEnd_after (text : List Char) {after : List Char}
    (blank : ∀ c ∈ after, isBlank c) : trimEnd (text ++ after) = trimEnd text := by
  unfold trimEnd
  rw [List.reverse_append, List.dropWhile_append_of_pos]
  intro c member
  exact blank c (List.mem_reverse.mp member)

theorem blank_nil : ∀ c ∈ ([] : List Char), isBlank c := by simp

theorem blank_space : ∀ c ∈ [' '], isBlank c := List.forall_mem_singleton.mpr rfl

@[simp] theorem trim_nil : trim [] = [] := rfl

theorem trim_padded {before after : List Char} (text : List Char)
    (blankBefore : ∀ c ∈ before, isBlank c) (blankAfter : ∀ c ∈ after, isBlank c) :
    trim (before ++ (text ++ after)) = trim text := by
  unfold trim
  rw [List.dropWhile_append_of_pos blankBefore, List.dropWhile_append]
  split
  · rename_i empty
    have vanished : text.dropWhile isBlank = [] := by simpa using empty
    rw [vanished, List.dropWhile_eq_nil_iff.mpr blankAfter]
  · exact trimEnd_after _ blankAfter

theorem trim_blank {text : List Char} (blank : ∀ c ∈ text, isBlank c) : trim text = [] := by
  simpa using trim_padded [] blank blank_nil

/-- A text is its trimmed middle between two runs of blanks. -/
theorem trim_parts (text : List Char) :
    ∃ before after, text = before ++ (trim text ++ after) ∧
      (∀ c ∈ before, isBlank c) ∧ ∀ c ∈ after, isBlank c := by
  refine ⟨text.takeWhile isBlank, (text.dropWhile isBlank).rtakeWhile isBlank, ?_, ?_, ?_⟩
  · have inner : trim text ++ (text.dropWhile isBlank).rtakeWhile isBlank =
        text.dropWhile isBlank := List.rdropWhile_append_rtakeWhile
    rw [inner, List.takeWhile_append_dropWhile]
  · exact fun c member => List.mem_takeWhile_imp member
  · exact fun c member => List.mem_rtakeWhile_imp member

theorem trim_length_le (text : List Char) : (trim text).length ≤ text.length := by
  obtain ⟨before, after, parts, -, -⟩ := trim_parts text
  have lengths := congrArg List.length parts
  simp only [List.length_append] at lengths
  omega

theorem trim_trim (text : List Char) : trim (trim text) = trim text := by
  obtain ⟨before, after, parts, blankBefore, blankAfter⟩ := trim_parts text
  have same := trim_padded (trim text) blankBefore blankAfter
  rw [← parts] at same
  exact same.symm

theorem trim_eq_nil_iff {text : List Char} : trim text = [] ↔ ∀ c ∈ text, isBlank c := by
  constructor
  · intro empty
    obtain ⟨before, after, parts, blankBefore, blankAfter⟩ := trim_parts text
    intro c member
    rw [parts, empty] at member
    rcases List.mem_append.mp member with inFront | behind
    · exact blankBefore c inFront
    · exact blankAfter c behind
  · exact trim_blank

theorem trim_eq_self_iff {text : List Char} :
    trim text = text ↔
      (∀ c ∈ text.head?, isBlank c = false) ∧ ∀ c ∈ text.getLast?, isBlank c = false := by
  constructor
  · intro trimmed
    have kept {before middle after : List Char} (parts : text = before ++ (middle ++ after))
        (blankBefore : ∀ c ∈ before, isBlank c) (blankAfter : ∀ c ∈ after, isBlank c) :
        before = [] ∧ after = [] := by
      have same := trim_padded middle blankBefore blankAfter
      rw [← parts, trimmed, parts] at same
      have lengths := congrArg List.length same
      have shorter := trim_length_le middle
      simp only [List.length_append] at lengths
      constructor <;> rw [← List.length_eq_zero_iff] <;> omega
    constructor
    · intro c begins
      obtain ⟨rest, rfl⟩ := List.head?_eq_some_iff.mp begins
      by_contra blank
      have vanished := @kept [c] rest [] (by simp) (by simpa using blank) blank_nil
      simp at vanished
    · intro c ends
      obtain ⟨front, rfl⟩ := List.getLast?_eq_some_iff.mp ends
      by_contra blank
      have vanished := @kept [] front [c] (by simp) blank_nil (by simpa using blank)
      simp at vanished
  · intro known
    obtain ⟨begins, ends⟩ := known
    have front : text.dropWhile isBlank = text := by
      cases text with
      | nil => rfl
      | cons c text => exact List.dropWhile_cons_of_neg (by simp [begins c rfl])
    rw [trim, front]
    refine List.rdropWhile_eq_self_iff.mpr fun present => ?_
    simp [ends _ (List.getLast?_eq_some_getLast present)]

theorem trim_of_forall_not_blank {text : List Char} (plain : ∀ c ∈ text, isBlank c = false) :
    trim text = text :=
  trim_eq_self_iff.mpr ⟨fun c begins => plain c (List.mem_of_mem_head? begins),
    fun c ends => plain c (List.mem_of_mem_getLast? ends)⟩

theorem trim_between {front back : List Char} (presentFront : front ≠ []) (presentBack : back ≠ [])
    (trimmedFront : trim front = front) (trimmedBack : trim back = back) (middle : List Char) :
    trim (front ++ (middle ++ back)) = front ++ (middle ++ back) := by
  rw [trim_eq_self_iff] at *
  refine ⟨?_, ?_⟩
  · rw [List.head?_append_of_ne_nil _ presentFront]
    exact trimmedFront.1
  · rw [← List.append_assoc, List.getLast?_append_of_ne_nil _ presentBack]
    exact trimmedBack.2

theorem trim_enclosed {first last : Char} (inner : List Char) (begins : isBlank first = false)
    (ends : isBlank last = false) :
    trim (first :: (inner ++ [last])) = first :: (inner ++ [last]) := by
  have trimmedFirst : trim [first] = [first] := by simpa [trim_eq_self_iff] using begins
  have trimmedLast : trim [last] = [last] := by simpa [trim_eq_self_iff] using ends
  exact trim_between (by simp) (by simp) trimmedFirst trimmedLast inner

theorem trim_subset {text : List Char} {c : Char} (member : c ∈ trim text) : c ∈ text := by
  obtain ⟨before, after, parts, -, -⟩ := trim_parts text
  rw [parts]
  exact List.mem_append_right _ (List.mem_append_left _ member)

end TypedLiteral.Text
