import TypedLiteral.Proofs.Division

/-! Elements written out, with commas and blanks between them. An element is written as a bracketed
group or as a run without separators, and a listing is divided into exactly what was written. -/
namespace TypedLiteral.Literal

/-- The first text, which may have blanks around it, is one way to write the second as an
element. -/
inductive Written : List Char → List Char → Prop
  | group {text inner} (encloses : Encloses text inner) : Written text inner
  | run {text} (present : Text.trim text ≠ []) (plain : ∀ c ∈ text, ¬IsSeparator c) :
      Written text (Text.trim text)

theorem Written.balanced {text inner : List Char} (written : Written text inner) :
    Balanced inner := by
  cases written with
  | group encloses => exact encloses.balanced
  | run present plain =>
    exact balanced_of_plain fun c member => plain c (Text.trim_subset member)

theorem not_isSeparator_of_blank {c : Char} (blank : Text.isBlank c) : ¬IsSeparator c := by
  rintro (rfl | bracket)
  · simp [Text.isBlank] at blank
  · exact not_isBracket_of_blank blank bracket

theorem Written.padded {text inner before after : List Char} (written : Written text inner)
    (blankBefore : ∀ c ∈ before, Text.isBlank c) (blankAfter : ∀ c ∈ after, Text.isBlank c) :
    Written (before ++ (text ++ after)) inner := by
  have trimmed := Text.trim_padded text blankBefore blankAfter
  cases written with
  | group encloses => exact .group ⟨trimmed.trans encloses.group, encloses.balanced⟩
  | run present plain =>
    rw [← trimmed] at present ⊢
    refine .run present fun c member => ?_
    rcases List.mem_append.mp member with front | member
    · exact not_isSeparator_of_blank (blankBefore c front)
    rcases List.mem_append.mp member with middle | back
    · exact plain c middle
    · exact not_isSeparator_of_blank (blankAfter c back)

theorem Division.blanks {blanks rest : List Char} {texts : List (List Char)}
    (blank : ∀ c ∈ blanks, Text.isBlank c) (maximal : ∀ c ∈ rest.head?, IsSeparator c)
    (behind : Division rest texts) : Division (blanks ++ rest) texts := by
  by_cases none : blanks = []
  · subst none
    exact behind
  · have plain : ∀ c ∈ blanks, ¬IsSeparator c := fun c member =>
      not_isSeparator_of_blank (blank c member)
    have division := Division.run none plain maximal behind
    rwa [runElements_blank blank] at division

theorem Division.written {text inner rest : List Char} {texts : List (List Char)}
    (written : Written text inner) (maximal : ∀ c ∈ rest.head?, IsSeparator c)
    (behind : Division rest texts) : Division (text ++ rest) (inner :: texts) := by
  cases written with
  | group encloses =>
    obtain ⟨before, after, parts, blankBefore, blankAfter⟩ := Text.trim_parts text
    have opens : ∀ c ∈ (bracketed inner ++ (after ++ rest)).head?, IsSeparator c := by
      simp [bracketed, IsSeparator, IsBracket]
    rw [parts, encloses.group, List.append_assoc, List.append_assoc]
    exact .blanks blankBefore opens (.group encloses.balanced (.blanks blankAfter maximal behind))
  | run present plain =>
    have filled : text ≠ [] := by
      rintro rfl
      exact present rfl
    have division := Division.run filled plain maximal behind
    simpa [runElements, present] using division

/-- A listing is divided into the elements that are written in it. -/
theorem division_listing {texts inners : List (List Char)}
    (written : List.Forall₂ Written texts inners) {before after : List Char}
    (blankBefore : ∀ c ∈ before, Text.isBlank c) (blankAfter : ∀ c ∈ after, Text.isBlank c) :
    Division (before ++ ([',', ' '].intercalate texts ++ after)) inners := by
  induction written generalizing before with
  | nil =>
    have blank : ∀ c ∈ before ++ after, Text.isBlank c := fun c member =>
      (List.mem_append.mp member).elim (blankBefore c) (blankAfter c)
    simpa using Division.blanks blank (by simp) .nil
  | @cons text inner texts inners first later ih =>
    cases later with
    | nil => simpa using Division.written (first.padded blankBefore blankAfter) (by simp) .nil
    | cons second rest =>
      have behind := Division.comma (ih Text.blank_space)
      have padded := first.padded blankBefore Text.blank_nil
      simpa using Division.written padded (by simp [IsSeparator]) behind

end TypedLiteral.Literal
