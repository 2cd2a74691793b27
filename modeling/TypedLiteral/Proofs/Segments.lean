import TypedLiteral.Text.Segmentation

/-! The segmentation of a text: pieces and delimiters in turn. It is cut again and again where a
delimiter begins first, and by the longest one that begins there. No cut depends on the order of the
delimiters, on their repetitions or on the empty ones. -/
namespace TypedLiteral.Text

/-- A delimiter that is not empty begins the text. -/
structure Begins (delimiters : List (List Char)) (delimiter text : List Char) : Prop where
  listed : delimiter ∈ delimiters
  present : delimiter ≠ []
  inFront : delimiter <+: text

/-- Of the delimiters that begin the text this is the longest one. -/
structure Leads (delimiters : List (List Char)) (delimiter text : List Char) : Prop extends
    Begins delimiters delimiter text where
  longest : ∀ other, Begins delimiters other text → other.length ≤ delimiter.length

/-- No delimiter begins inside of the piece, however far behind it that delimiter would end. -/
def Clear (delimiters : List (List Char)) (piece behind : List Char) : Prop :=
  ∀ tail, tail <:+ piece → tail ≠ [] → ∀ delimiter, ¬Begins delimiters delimiter (tail ++ behind)

inductive Part
  | piece (text : List Char)
  | delimiter (text : List Char)
deriving DecidableEq

namespace Part

def text : Part → List Char
  | .piece text => text
  | .delimiter text => text

def piece? : Part → Option (List Char)
  | .piece text => some text
  | .delimiter _ => none

def isDelimiter : Part → Bool
  | .piece _ => false
  | .delimiter _ => true

def isPresent (part : Part) : Bool :=
  !part.text.isEmpty

@[simp] theorem text_piece (text : List Char) : (Part.piece text).text = text := rfl

@[simp] theorem text_delimiter (text : List Char) : (Part.delimiter text).text = text := rfl

@[simp] theorem piece?_piece (text : List Char) : (Part.piece text).piece? = some text := rfl

@[simp] theorem piece?_delimiter (text : List Char) : (Part.delimiter text).piece? = none := rfl

@[simp] theorem isDelimiter_piece (text : List Char) : (Part.piece text).isDelimiter = false := rfl

@[simp] theorem isDelimiter_delimiter (text : List Char) :
    (Part.delimiter text).isDelimiter = true := rfl

@[simp] theorem isPresent_piece (text : List Char) :
    (Part.piece text).isPresent = !text.isEmpty := rfl

@[simp] theorem isPresent_delimiter (text : List Char) :
    (Part.delimiter text).isPresent = !text.isEmpty := rfl

end Part

/-- The parts are the pieces of the text and the delimiters between them. -/
inductive Segments (delimiters : List (List Char)) : List Char → List Part → Prop
  | whole {text} (clear : Clear delimiters text []) : Segments delimiters text [.piece text]
  | cut {piece delimiter rest parts} (clear : Clear delimiters piece (delimiter ++ rest))
      (leads : Leads delimiters delimiter (delimiter ++ rest))
      (behind : Segments delimiters rest parts) :
      Segments delimiters (piece ++ (delimiter ++ rest))
        (.piece piece :: .delimiter delimiter :: parts)

/-- Pieces and delimiters in turn, beginning and ending with a piece. Pieces may be empty. -/
def segmentation (delimiters : List (List Char)) (text : List Char) : List (List Char) :=
  match found : cut? delimiters text with
  | none => [text]
  | some cut =>
    have := cut?_rest_length found
    cut.piece :: cut.delimiter :: segmentation delimiters cut.rest
termination_by text.length

/-- Texts in turn as pieces and delimiters. -/
def alternating : List (List Char) → List Part
  | [] => []
  | [piece] => [.piece piece]
  | piece :: delimiter :: texts => .piece piece :: .delimiter delimiter :: alternating texts

section

variable {delimiters : List (List Char)} {text delimiter : List Char}

theorem begins_cons {first : List Char} :
    Begins (first :: delimiters) delimiter text ↔
      (delimiter = first ∧ first ≠ [] ∧ first <+: text) ∨ Begins delimiters delimiter text := by
  constructor
  · intro begins
    obtain ⟨listed, present, inFront⟩ := begins
    rcases List.mem_cons.mp listed with rfl | behind
    · exact Or.inl ⟨rfl, present, inFront⟩
    · exact Or.inr ⟨behind, present, inFront⟩
  · intro known
    rcases known with ⟨rfl, present, inFront⟩ | begins
    · exact ⟨List.mem_cons_self, present, inFront⟩
    · exact ⟨List.mem_cons_of_mem first begins.listed, begins.present, begins.inFront⟩

/-- The two outcomes of the search for a delimiter in front. -/
private theorem leading?_outcome (delimiters : List (List Char)) (text : List Char) :
    match leading? delimiters text with
    | none => ∀ delimiter, ¬Begins delimiters delimiter text
    | some delimiter => Leads delimiters delimiter text := by
  induction delimiters with
  | nil => exact fun delimiter begins => nomatch begins.listed
  | cons first delimiters ih =>
    rw [leading?]
    cases found : leading? delimiters text with
    | none =>
      simp only [found] at ih
      by_cases counts : first ≠ [] ∧ first <+: text
      · have taken : (!first.isEmpty && first.isPrefixOf text) = true := by simpa using counts
        simp only [taken, if_true]
        refine ⟨begins_cons.mpr (Or.inl ⟨rfl, counts⟩), fun other begins => ?_⟩
        rcases begins_cons.mp begins with ⟨rfl, -⟩ | behind
        · exact Nat.le_refl _
        · exact (ih other behind).elim
      · have left : ¬(!first.isEmpty && first.isPrefixOf text) = true := by simpa using counts
        simp only [left]
        intro other begins
        rcases begins_cons.mp begins with ⟨-, counting⟩ | behind
        · exact counts counting
        · exact ih other behind
    | some longest =>
      simp only [found] at ih
      by_cases longer : first <+: text ∧ longest.length < first.length
      · have taken : (first.isPrefixOf text && decide (longest.length < first.length)) = true := by
          simpa using longer
        have present : first ≠ [] := List.ne_nil_of_length_pos (by omega)
        simp only [taken, if_true]
        refine ⟨begins_cons.mpr (Or.inl ⟨rfl, present, longer.1⟩), fun other begins => ?_⟩
        rcases begins_cons.mp begins with ⟨rfl, -⟩ | behind
        · exact Nat.le_refl _
        · exact Nat.le_of_lt (Nat.lt_of_le_of_lt (ih.longest other behind) longer.2)
      · have left : ¬(first.isPrefixOf text && decide (longest.length < first.length)) = true := by
          simpa using longer
        simp only [left]
        refine ⟨begins_cons.mpr (Or.inr ih.toBegins), fun other begins => ?_⟩
        rcases begins_cons.mp begins with ⟨rfl, -, inFront⟩ | behind
        · exact Nat.le_of_not_lt fun more => longer ⟨inFront, more⟩
        · exact ih.longest other behind

theorem leading?_eq_none_iff :
    leading? delimiters text = none ↔ ∀ delimiter, ¬Begins delimiters delimiter text := by
  have outcome := leading?_outcome delimiters text
  cases found : leading? delimiters text with
  | none => simpa [found] using outcome
  | some delimiter =>
    rw [found] at outcome
    exact ⟨nofun, fun none => (none delimiter outcome.toBegins).elim⟩

theorem Leads.unique {other : List Char} (first : Leads delimiters delimiter text)
    (second : Leads delimiters other text) : delimiter = other := by
  have short := second.longest delimiter first.toBegins
  have long := first.longest other second.toBegins
  exact (List.prefix_of_prefix_length_le first.inFront second.inFront short).eq_of_length
    (by omega)

theorem leading?_eq_some_iff :
    leading? delimiters text = some delimiter ↔ Leads delimiters delimiter text := by
  have outcome := leading?_outcome delimiters text
  cases found : leading? delimiters text with
  | none =>
    rw [found] at outcome
    exact ⟨nofun, fun leads => (outcome delimiter leads.toBegins).elim⟩
  | some other =>
    rw [found] at outcome
    constructor
    · intro same
      exact Option.some.inj same ▸ outcome
    · intro leads
      exact congrArg some (outcome.unique leads)

theorem clear_nil (delimiters : List (List Char)) (behind : List Char) :
    Clear delimiters [] behind :=
  fun _ inside present => (present (List.suffix_nil.mp inside)).elim

theorem clear_cons {c : Char} {piece behind : List Char} :
    Clear delimiters (c :: piece) behind ↔
      (∀ delimiter, ¬Begins delimiters delimiter (c :: piece ++ behind)) ∧
        Clear delimiters piece behind := by
  constructor
  · intro clear
    refine ⟨clear (c :: piece) List.suffix_rfl (List.cons_ne_nil c piece), fun tail inside => ?_⟩
    exact clear tail (inside.trans (List.suffix_cons c piece))
  · intro known tail inside present
    rcases List.suffix_cons_iff.mp inside with rfl | within
    · exact known.1
    · exact known.2 tail within present

theorem cut?_eq_none_iff : cut? delimiters text = none ↔ Clear delimiters text [] := by
  induction text with
  | nil => simp [cut?, clear_nil]
  | cons c text ih =>
    rw [cut?, clear_cons, List.append_nil, ← leading?_eq_none_iff, ← ih]
    split
    · rename_i delimiter leads
      simp [leads]
    · rename_i plain
      simp [plain]

theorem cut?_eq_some_iff {piece rest : List Char} :
    cut? delimiters text = some ⟨piece, delimiter, rest⟩ ↔
      text = piece ++ (delimiter ++ rest) ∧ Clear delimiters piece (delimiter ++ rest) ∧
        Leads delimiters delimiter (delimiter ++ rest) := by
  constructor
  · intro found
    have parts := cut?_text found
    simp only [List.append_assoc] at parts
    refine ⟨parts, ?_⟩
    induction text generalizing piece with
    | nil => simp [cut?] at found
    | cons c text ih =>
      rw [cut?] at found
      split at found
      · rename_i leading leads
        cases found
        rw [List.nil_append] at parts
        exact ⟨clear_nil _ _, parts ▸ leading?_eq_some_iff.mp leads⟩
      · rename_i plain
        obtain ⟨inner, behind, same⟩ := Option.map_eq_some_iff.mp found
        cases same
        rw [List.cons_append, List.cons.injEq] at parts
        obtain ⟨clear, leads⟩ := ih behind parts.2
        refine ⟨clear_cons.mpr ⟨?_, clear⟩, leads⟩
        rw [List.cons_append, ← parts.2]
        exact leading?_eq_none_iff.mp plain
  · intro known
    obtain ⟨rfl, clear, leads⟩ := known
    induction piece with
    | nil =>
      have found := leading?_eq_some_iff.mpr leads
      obtain ⟨c, tail, rfl⟩ := List.exists_cons_of_ne_nil leads.present
      rw [List.cons_append] at found
      rw [List.nil_append, List.cons_append, cut?, found]
      simp
    | cons c piece ih =>
      obtain ⟨plain, clear⟩ := clear_cons.mp clear
      have found := leading?_eq_none_iff.mpr plain
      rw [List.cons_append] at found
      rw [List.cons_append, cut?, found]
      simp [ih clear]

theorem segmentation_whole {delimiters : List (List Char)} {text : List Char}
    (whole : cut? delimiters text = none) : segmentation delimiters text = [text] := by
  unfold segmentation
  split
  · rfl
  · rename_i cut found
    rw [whole] at found
    contradiction

theorem segmentation_cut {delimiters : List (List Char)} {text : List Char} {cut : Cut}
    (found : cut? delimiters text = some cut) :
    segmentation delimiters text =
      cut.piece :: cut.delimiter :: segmentation delimiters cut.rest := by
  rw [segmentation]
  split
  · rename_i whole
    rw [whole] at found
    contradiction
  · rename_i other same
    rw [found] at same
    cases same
    rfl

theorem segmentation_delimiter {delimiters : List (List Char)} {c : Char}
    {text delimiter : List Char} (leads : leading? delimiters (c :: text) = some delimiter) :
    segmentation delimiters (c :: text) =
      [] :: delimiter :: segmentation delimiters ((c :: text).drop delimiter.length) := by
  have cut : cut? delimiters (c :: text) =
      some ⟨[], delimiter, (c :: text).drop delimiter.length⟩ := by
    rw [cut?, leads]
  rw [segmentation_cut cut]

theorem segmentation_other {delimiters : List (List Char)} {c : Char} {text : List Char}
    (plain : leading? delimiters (c :: text) = none) :
    segmentation delimiters (c :: text) =
      (segmentation delimiters text).modifyHead (c :: ·) := by
  have behind : cut? delimiters (c :: text) =
      (cut? delimiters text).map fun cut => { cut with piece := c :: cut.piece } := by
    rw [cut?, plain]
  cases found : cut? delimiters text with
  | none =>
    rw [found] at behind
    rw [segmentation_whole behind, segmentation_whole found]
    rfl
  | some cut =>
    rw [found] at behind
    rw [segmentation_cut behind, segmentation_cut found]
    rfl

theorem segmentation_flatten (delimiters : List (List Char)) (text : List Char) :
    (segmentation delimiters text).flatten = text := by
  fun_induction segmentation delimiters text with
  | case1 text whole => simp
  | case2 text cut found shorter ih =>
    rw [List.flatten_cons, List.flatten_cons, ih, ← List.append_assoc]
    exact (cut?_text found).symm

theorem segments_iff {parts : List Part} :
    Segments delimiters text parts ↔ parts = alternating (segmentation delimiters text) := by
  constructor
  · intro segments
    induction segments with
    | whole clear => rw [segmentation_whole (cut?_eq_none_iff.mpr clear), alternating]
    | cut clear leads behind ih =>
      rw [segmentation_cut (cut?_eq_some_iff.mpr ⟨rfl, clear, leads⟩), alternating, ← ih]
  · intro same
    subst same
    fun_induction segmentation delimiters text with
    | case1 text whole => exact .whole (cut?_eq_none_iff.mp whole)
    | case2 text cut found shorter ih =>
      obtain ⟨parts, clear, leads⟩ := cut?_eq_some_iff.mp found
      rw [parts]
      exact .cut clear leads ih

theorem exists_segments (delimiters : List (List Char)) (text : List Char) :
    ∃ parts, Segments delimiters text parts :=
  ⟨_, segments_iff.mpr rfl⟩

theorem Segments.unique {parts others : List Part} (first : Segments delimiters text parts)
    (second : Segments delimiters text others) : parts = others :=
  (segments_iff.mp first).trans (segments_iff.mp second).symm

theorem Segments.map_text {parts : List Part} (segments : Segments delimiters text parts) :
    parts.map Part.text = segmentation delimiters text := by
  induction segments with
  | whole clear => rw [segmentation_whole (cut?_eq_none_iff.mpr clear)]; rfl
  | cut clear leads behind ih =>
    rw [segmentation_cut (cut?_eq_some_iff.mpr ⟨rfl, clear, leads⟩), ← ih]
    rfl

theorem Segments.nil_notMem {parts : List Part} (segments : Segments delimiters text parts) :
    Part.delimiter [] ∉ parts := by
  induction segments with
  | whole clear => simp
  | cut clear leads behind ih => simpa using ⟨leads.present, ih⟩

/-- No delimiter begins inside of any piece of the text. -/
theorem Segments.clear {parts before after : List Part} {piece : List Char}
    (segments : Segments delimiters text parts) (place : parts = before ++ .piece piece :: after) :
    Clear delimiters piece (after.map Part.text).flatten := by
  induction segments generalizing before with
  | whole clear =>
    cases before with
    | nil =>
      cases place
      exact clear
    | cons part before => simp at place
  | cut clear leads behind ih =>
    rcases before with _ | ⟨first, _ | ⟨second, before⟩⟩
    · cases place
      rw [List.map_cons, List.flatten_cons, behind.map_text, segmentation_flatten]
      exact clear
    · simp at place
    · simp only [List.cons_append, List.cons.injEq] at place
      exact ih place.2.2

/-- Only which delimiters there are matters, apart from the empty one. -/
theorem Segments.congr {others : List (List Char)} {parts : List Part}
    (same : ∀ delimiter, delimiter ≠ [] → (delimiter ∈ others ↔ delimiter ∈ delimiters))
    (segments : Segments delimiters text parts) : Segments others text parts := by
  have begins {delimiter text : List Char} :
      Begins others delimiter text ↔ Begins delimiters delimiter text := by
    constructor
    · exact fun known => ⟨(same _ known.present).mp known.listed, known.present, known.inFront⟩
    · exact fun known => ⟨(same _ known.present).mpr known.listed, known.present, known.inFront⟩
  induction segments with
  | whole clear =>
    refine .whole fun tail inside present delimiter => ?_
    rw [begins]
    exact clear tail inside present delimiter
  | cut clear leads behind ih =>
    refine .cut (fun tail inside present delimiter => ?_) ⟨begins.mpr leads.toBegins, ?_⟩ ih
    · rw [begins]
      exact clear tail inside present delimiter
    · exact fun other known => leads.longest other (begins.mp known)

end

end TypedLiteral.Text
