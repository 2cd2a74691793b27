/-! Cutting a text at its first delimiter. A delimiter starts as far left as possible, and of the
delimiters that start there the longest one counts. Empty delimiters never cut. -/
namespace TypedLiteral.Text

/-- The longest non-empty delimiter at the head of the text. -/
def leading? : List (List Char) → List Char → Option (List Char)
  | [], _ => none
  | delimiter :: delimiters, text =>
    match leading? delimiters text with
    | none => if !delimiter.isEmpty && delimiter.isPrefixOf text then some delimiter else none
    | some longest =>
      if delimiter.isPrefixOf text && longest.length < delimiter.length then some delimiter
      else some longest

structure Cut where
  piece : List Char
  delimiter : List Char
  rest : List Char

def cut? (delimiters : List (List Char)) : List Char → Option Cut
  | [] => none
  | c :: text =>
    match leading? delimiters (c :: text) with
    | some delimiter => some ⟨[], delimiter, (c :: text).drop delimiter.length⟩
    | none => (cut? delimiters text).map fun cut => { cut with piece := c :: cut.piece }

theorem leading?_ne_nil {delimiters : List (List Char)} {text delimiter : List Char}
    (found : leading? delimiters text = some delimiter) : delimiter ≠ [] := by
  induction delimiters generalizing delimiter with
  | nil => simp [leading?] at found
  | cons first delimiters ih =>
    simp only [leading?] at found
    split at found
    · simp only [Bool.and_eq_true, Bool.not_eq_true', Option.ite_none_right_eq_some,
        Option.some.injEq] at found
      rintro rfl
      simp [← found.2] at found
    · rename_i longest hlongest
      split at found
      · rename_i longer
        rintro rfl
        simp_all
      · simp only [Option.some.injEq] at found
        exact found ▸ ih hlongest

theorem leading?_isPrefix {delimiters : List (List Char)} {text delimiter : List Char}
    (found : leading? delimiters text = some delimiter) : delimiter <+: text := by
  induction delimiters generalizing delimiter with
  | nil => simp [leading?] at found
  | cons first delimiters ih =>
    simp only [leading?] at found
    split at found
    · simp only [Bool.and_eq_true, Option.ite_none_right_eq_some, Option.some.injEq] at found
      exact found.2 ▸ List.isPrefixOf_iff_prefix.mp found.1.2
    · rename_i longest hlongest
      split at found
      · rename_i longer
        simp only [Bool.and_eq_true, Option.some.injEq] at longer found
        exact found ▸ List.isPrefixOf_iff_prefix.mp longer.1
      · simp only [Option.some.injEq] at found
        exact found ▸ ih hlongest

theorem cut?_text {delimiters : List (List Char)} {text : List Char} {cut : Cut}
    (found : cut? delimiters text = some cut) :
    text = cut.piece ++ cut.delimiter ++ cut.rest := by
  induction text generalizing cut with
  | nil => simp [cut?] at found
  | cons c text ih =>
    simp only [cut?] at found
    split at found
    · rename_i delimiter hd
      cases found
      obtain ⟨rest, hrest⟩ := leading?_isPrefix hd
      simp [← hrest]
    · obtain ⟨inner, hinner, rfl⟩ := Option.map_eq_some_iff.mp found
      simp [ih hinner]

theorem cut?_delimiter_ne_nil {delimiters : List (List Char)} {text : List Char} {cut : Cut}
    (found : cut? delimiters text = some cut) : cut.delimiter ≠ [] := by
  induction text generalizing cut with
  | nil => simp [cut?] at found
  | cons c text ih =>
    simp only [cut?] at found
    split at found
    · rename_i delimiter hd
      cases found
      exact leading?_ne_nil hd
    · obtain ⟨inner, hinner, rfl⟩ := Option.map_eq_some_iff.mp found
      simpa using ih hinner

theorem cut?_rest_length {delimiters : List (List Char)} {text : List Char} {cut : Cut}
    (found : cut? delimiters text = some cut) : cut.rest.length < text.length := by
  have parts := congrArg List.length (cut?_text found)
  have present := List.length_pos_iff.mpr (cut?_delimiter_ne_nil found)
  simp only [List.length_append] at parts
  omega

end TypedLiteral.Text
