import TypedLiteral.Proofs.RegexReading
import TypedLiteral.Proofs.SequenceReading

/-! The pattern of integer collections against the sequences that are read. The pattern knows a
number and a range of two, while reading takes any number of ranges that begin at one number. A
literal that is read therefore matches exactly when no segment of it chains its ranges. -/
namespace TypedLiteral

open Literal

namespace Literal.Sequence

theorem intercalate_fields (text : List Char) : dots.intercalate (fields text) = text := by
  fun_induction fields text with
  | case1 => rfl
  | case2 text ih =>
    obtain ⟨field, others, same⟩ := List.exists_cons_of_ne_nil (fields_ne_nil text)
    rw [same] at ih ⊢
    rw [List.intercalate_cons_of_ne_nil (by simp), ih]
    rfl
  | case3 c text other ih =>
    obtain ⟨field, others, same⟩ := List.exists_cons_of_ne_nil (fields_ne_nil text)
    rw [same, intercalate_cons] at ih
    rw [same, List.modifyHead_cons, intercalate_cons, List.cons_append, ih]

/-- Every field but the first has two dots in front of it. -/
theorem length_fields_le (text : List Char) : 2 * (fields text).length ≤ text.count '.' + 2 := by
  fun_induction fields text with
  | case1 => simp
  | case2 text ih =>
    simp only [List.length_cons, List.count_cons_self]
    omega
  | case3 c text other ih =>
    have grown := List.count_le_count_cons (l := text) (a := '.') (b := c)
    rw [List.length_modifyHead]
    omega

/-- What is left of a text without all characters but the commas and dots. -/
def marks (text : List Char) : List Char :=
  text.filter fun c => c == ',' || c == '.'

theorem marks_append (front back : List Char) : marks (front ++ back) = marks front ++ marks back :=
  List.filter_append ..

theorem marks_eq_nil {text : List Char} (plain : ∀ c ∈ text, c ≠ ',' ∧ c ≠ '.') :
    marks text = [] := by
  simpa [marks] using plain

theorem marks_blank {text : List Char} (blank : ∀ c ∈ text, Text.isBlank c) : marks text = [] := by
  refine marks_eq_nil fun c member => ⟨?_, ?_⟩
  · rintro rfl
    exact absurd (blank _ member) (by decide)
  · rintro rfl
    exact absurd (blank _ member) (by decide)

theorem marks_numeral {text : List Char} {number : Int} (numeral : Numeral text number) :
    marks text = [] := by
  refine marks_eq_nil fun c member => ⟨?_, ?_⟩
  · rintro rfl
    rcases numeral.mem member with sign | digit <;> contradiction
  · rintro rfl
    rcases numeral.mem member with sign | digit <;> contradiction

theorem marks_framed {opening before after closing : List Char} (inner : List Char)
    (opens : opening = [] ∨ opening = ['[']) (blankBefore : ∀ c ∈ before, Text.isBlank c)
    (blankAfter : ∀ c ∈ after, Text.isBlank c) (closes : closing = [] ∨ closing = [']']) :
    marks (opening ++ (before ++ (inner ++ (after ++ closing)))) = marks inner := by
  have bracketless : marks opening = [] ∧ marks closing = [] := by
    rcases opens with rfl | rfl <;> rcases closes with rfl | rfl <;> exact ⟨rfl, rfl⟩
  simp only [marks_append, bracketless, marks_blank blankBefore, marks_blank blankAfter,
    List.nil_append, List.append_nil]

theorem marks_intercalate (pieces : List (List Char)) :
    marks ([','].intercalate pieces) = [','].intercalate (pieces.map marks) := by
  cases pieces with
  | nil => rfl
  | cons piece pieces =>
    rw [List.map_cons, intercalate_cons, intercalate_cons, marks_append, List.flatMap_map]
    simp [marks, List.filter_flatMap]

theorem splitOn_marks (text : List Char) :
    (marks text).splitOn ',' = (text.splitOn ',').map marks := by
  have joined : [','].intercalate (text.splitOn ',') = text := List.intercalate_splitOn ','
  nth_rewrite 1 [← joined]
  rw [marks_intercalate, List.splitOn_intercalate]
  · intro piece listed
    obtain ⟨whole, member, rfl⟩ := List.mem_map.mp listed
    exact fun comma => notMem_splitOn member (List.mem_of_mem_filter comma)
  · simp [List.splitOn_ne_nil]

theorem length_fields_of_marks {text : List Char} (few : marks text = [] ∨ marks text = dots) :
    (fields text).length ≤ 2 := by
  have bound := length_fields_le text
  have same : (marks text).count '.' = text.count '.' := List.count_filter (by decide)
  have two : (marks text).count '.' ≤ 2 := by
    rcases few with none | pair
    · simp [none]
    · simp [pair, dots]
  omega

theorem marks_interval {core : List Char} (interval : Regex.Interval core) :
    marks core = [] ∨ marks core = dots := by
  cases interval with
  | point numeral => exact Or.inl (marks_numeral numeral)
  | @range first last before after low high begins blankBefore blankAfter ends =>
    have middle (text : List Char) : marks ('.' :: '.' :: text) = dots ++ marks text := rfl
    right
    rw [marks_append, marks_append, middle, marks_append, marks_numeral begins,
      marks_blank blankBefore, marks_blank blankAfter, marks_numeral ends]
    rfl

theorem marks_listed {inner : List Char}
    (listed : Regex.Listed Regex.segment.language inner) :
    ∃ pieces, pieces ≠ [] ∧ marks inner = [','].intercalate pieces ∧
      ∀ piece ∈ pieces, piece = [] ∨ piece = dots := by
  induction listed with
  | @last core matched =>
    exact ⟨[marks core], by simp, by simp,
      List.forall_mem_singleton.mpr (marks_interval (Regex.mem_segment.mp matched))⟩
  | @more core before after rest matched blankBefore blankAfter later ih =>
    obtain ⟨pieces, present, joined, each⟩ := ih
    have comma (text : List Char) : marks (',' :: text) = ',' :: marks text := rfl
    refine ⟨marks core :: pieces, by simp, ?_,
      List.forall_mem_cons.mpr ⟨marks_interval (Regex.mem_segment.mp matched), each⟩⟩
    rw [marks_append, marks_append, comma, marks_append, marks_blank blankBefore,
      marks_blank blankAfter, joined, List.intercalate_cons_of_ne_nil present]
    simp

theorem marks_separated {word : List Char}
    (separated : Regex.Separated Regex.segment.language word) :
    ∃ pieces, pieces ≠ [] ∧ marks word = [','].intercalate pieces ∧
      ∀ piece ∈ pieces, piece = [] ∨ piece = dots := by
  obtain ⟨opens, blankBefore, listed, blankAfter, closes⟩ := separated
  rw [marks_framed _ opens blankBefore blankAfter closes]
  rcases listed with rfl | listed
  · exact ⟨[[]], by simp, rfl, by simp⟩
  · exact marks_listed listed

/-- Between two commas, a text that the pattern matches has two dots or none. -/
theorem length_fields_of_matched {word body segment : List Char}
    (matched : word ∈ (Regex.separated Regex.segment).language) (same : marks word = marks body)
    (member : segment ∈ body.splitOn ',') : (fields segment).length ≤ 2 := by
  obtain ⟨pieces, present, joined, each⟩ := marks_separated (Regex.mem_separated.mp matched)
  have alone : ∀ piece ∈ pieces, ',' ∉ piece := by
    intro piece listed
    rcases each piece listed with rfl | rfl <;> decide
  have listed : marks segment ∈ (marks word).splitOn ',' := by
    rw [same, splitOn_marks]
    exact List.mem_map_of_mem member
  rw [joined, List.splitOn_intercalate ',' alone present] at listed
  exact length_fields_of_marks (each _ listed)

/-- A number or a range, blanks aside. -/
inductive Padded : List Char → Prop
  | intro {before core after : List Char} (blankBefore : ∀ c ∈ before, Text.isBlank c)
      (interval : Regex.Interval core) (blankAfter : ∀ c ∈ after, Text.isBlank c) :
      Padded (before ++ (core ++ after))

theorem Segment.Reads.padded {width : Width} {limit : Nat} {text : List Char} {segment : Segment}
    (reads : segment.Reads width limit text) (short : (fields text).length ≤ 2) : Padded text := by
  have joined := intercalate_fields text
  obtain ⟨number, ends⟩ := segment
  obtain ⟨first, others, begins, later, same⟩ := List.forall₂_cons_right_iff.mp reads.each
  dsimp only at later
  obtain ⟨before, behind, parts, blankBefore, blankBehind⟩ := Text.trim_parts first
  rw [same] at joined short
  cases later with
  | nil =>
    have whole : text = before ++ (Text.trim first ++ behind) := by
      rw [← joined, ← parts, List.intercalate_singleton]
    rw [whole]
    exact .intro blankBefore (.point begins.numeral) blankBehind
  | @cons last high others ends ended later =>
    cases later with
    | cons next further => simp at short
    | nil =>
      obtain ⟨front, after, partsLast, blankFront, blankAfter⟩ := Text.trim_parts last
      have whole : text = before ++ ((Text.trim first ++ (behind ++ '.' :: '.' ::
          (front ++ Text.trim last))) ++ after) := by
        rw [← joined, List.intercalate_cons_of_ne_nil (by simp), List.intercalate_singleton]
        nth_rewrite 1 [parts]
        nth_rewrite 1 [partsLast]
        simp [dots]
      rw [whole]
      exact .intro blankBefore (.range begins.numeral blankBehind blankFront ended.numeral)
        blankAfter

/-- Segments between commas are elements between commas, once the blanks at both ends are off. -/
theorem exists_listed {pieces : List (List Char)} (present : pieces ≠ [])
    (each : ∀ piece ∈ pieces, Padded piece) :
    ∃ before inner after, [','].intercalate pieces = before ++ (inner ++ after) ∧
      (∀ c ∈ before, Text.isBlank c) ∧ Regex.Listed Regex.segment.language inner ∧
      ∀ c ∈ after, Text.isBlank c := by
  obtain ⟨piece, pieces, rfl⟩ := List.exists_cons_of_ne_nil present
  clear present
  induction pieces generalizing piece with
  | nil =>
    obtain @⟨before, core, after, blankBefore, interval, blankAfter⟩ :=
      each piece List.mem_cons_self
    exact ⟨before, core, after, List.intercalate_singleton, blankBefore,
      .last (Regex.mem_segment.mpr interval), blankAfter⟩
  | cons next pieces ih =>
    obtain ⟨head, tail⟩ := List.forall_mem_cons.mp each
    obtain @⟨before, core, behind, blankBefore, interval, blankBehind⟩ := head
    obtain ⟨front, inner, after, joined, blankFront, listed, blankAfter⟩ := ih next tail
    refine ⟨before, core ++ (behind ++ ',' :: (front ++ inner)), after, ?_, blankBefore,
      .more (Regex.mem_segment.mpr interval) blankBehind blankFront listed, blankAfter⟩
    rw [List.intercalate_cons_of_ne_nil (by simp), joined]
    simp

/-- A trimmed literal is its trimmed body, with blanks and one pair of brackets around it or with
nothing. -/
theorem exists_frame {text body : List Char} (unwraps : Unwraps text body) :
    ∃ opening before after closing,
      Text.trim text = opening ++ (before ++ (Text.trim body ++ (after ++ closing))) ∧
      (opening = [] ∨ opening = ['[']) ∧ (∀ c ∈ before, Text.isBlank c) ∧
      (∀ c ∈ after, Text.isBlank c) ∧ (closing = [] ∨ closing = [']']) := by
  rcases unwraps with encloses | ⟨rfl, -⟩
  · obtain ⟨before, after, parts, blankBefore, blankAfter⟩ := Text.trim_parts body
    refine ⟨['['], before, after, [']'], ?_, Or.inr rfl, blankBefore, blankAfter, Or.inr rfl⟩
    rw [encloses.group, bracketed]
    nth_rewrite 1 [parts]
    simp
  · exact ⟨[], [], [], [], by simp, Or.inl rfl, Text.blank_nil, Text.blank_nil, Or.inl rfl⟩

theorem marks_of_unwraps {text body : List Char} (unwraps : Unwraps text body) :
    marks (Text.trim text) = marks (Text.trim body) := by
  obtain ⟨opening, before, after, closing, framed, opens, blankBefore, blankAfter, closes⟩ :=
    exists_frame unwraps
  rw [framed, marks_framed _ opens blankBefore blankAfter closes]

theorem Meaning.matched {width : Width} {limit : Nat} {text body : List Char} {numbers : List Int}
    (meaning : Meaning width limit body numbers) (unwraps : Unwraps text body)
    (short : ∀ segment ∈ (Text.trim body).splitOn ',', (fields segment).length ≤ 2) :
    Text.trim text ∈ (Regex.separated Regex.segment).language := by
  obtain ⟨opening, before, after, closing, framed, opens, blankBefore, blankAfter, closes⟩ :=
    exists_frame unwraps
  rw [Regex.mem_separated, framed]
  cases meaning with
  | empty blank =>
    rw [blank]
    exact .intro opens blankBefore (Or.inl rfl) blankAfter closes
  | segments each =>
    have padded : ∀ piece ∈ (Text.trim body).splitOn ',', Padded piece := by
      intro piece member
      obtain ⟨segment, -, reads⟩ := exists_mem_of_forall₂ each.flip member
      exact reads.padded (short piece member)
    obtain ⟨front, inner, back, joined, blankFront, listed, blankBack⟩ :=
      exists_listed (List.splitOn_ne_nil ',' _) padded
    rw [List.intercalate_splitOn] at joined
    have separated := Regex.Separated.intro opens
      (List.forall_mem_append.mpr ⟨blankBefore, blankFront⟩) (Or.inr listed)
      (List.forall_mem_append.mpr ⟨blankBack, blankAfter⟩) closes
    rw [joined]
    simpa using separated

end Literal.Sequence

theorem Shape.pattern_sequence (form : Form) (width : Width) :
    (Shape.sequence form width).pattern = Regex.separated Regex.segment := by
  have narrow : Regex.segment ≠ .any := by decide
  rw [Shape.pattern, Regex.collection, if_neg narrow]

/-- A literal that is read as an integer collection matches the pattern of its type, blanks at its
ends aside, exactly when no segment has more than one range. -/
theorem literal_matches_pattern_iff (reader : Reader) {type element : TypeExpr} {form : Form}
    {width : Width} (collects : reader.Collects type form element)
    (integral : element.width? = some width) {text : String} {value : Value}
    (succeeded : reader.read text type = .ok value) :
    ∃ body, Unwraps text.toList body ∧
      (Matches (reader.pattern type) (String.ofList (Text.trim text.toList)) ↔
        ∀ segment ∈ (Text.trim body).splitOn ',', (Sequence.fields segment).length ≤ 2) := by
  have shape := collects.shape_of_width integral
  rw [Reader.read, shape] at succeeded
  obtain ⟨body, words, unwrapped, read, -⟩ := Shape.exists_of_read_sequence succeeded
  obtain ⟨numbers, meaning, -⟩ := readSequence_eq_ok_iff.mp read
  have unwraps := (body?_eq_some_iff.mp unwrapped).2
  refine ⟨body, unwraps, ?_⟩
  rw [Reader.matches_pattern_iff, shape, Shape.pattern_sequence, String.toList_ofList]
  constructor
  · intro matched segment member
    exact Sequence.length_fields_of_matched matched (Sequence.marks_of_unwraps unwraps) member
  · exact meaning.matched unwraps

theorem literal_matches_pattern_ranges :
    let type : TypeExpr := .applied .set [.named .boxedLong]
    let text := " [ 1..3 ,\t-2 .. 0, 07 ]"
    (Reader.Collects {} type .set (.named .boxedLong) ∧
      TypeExpr.width? (.named .boxedLong) = some .long ∧
      Reader.read {} text type = .ok (.collection .set ([1, 2, 3, -2, -1, 0, 7].map .long))) ∧
    Matches (Reader.pattern {} type) (String.ofList (Text.trim text.toList)) := by
  intro type text
  have collects : Reader.Collects {} type .set (.named .boxedLong) :=
    .set (StrategyTable.get?_close (by decide))
  have read : Reader.read {} text type =
      .ok (.collection .set ([1, 2, 3, -2, -1, 0, 7].map .long)) := by decide +kernel
  refine ⟨⟨collects, rfl, read⟩, ?_⟩
  obtain ⟨body, unwraps, matched⟩ := literal_matches_pattern_iff {} collects rfl read
  have balanced : Balanced text.toList := by decide
  have found := body?_eq_some_iff.mpr ⟨balanced, unwraps⟩
  have known : body? text.toList = some " 1..3 ,\t-2 .. 0, 07 ".toList := by decide
  rw [known] at found
  obtain rfl := Option.some.inj found
  exact matched.mpr (by decide)

theorem chained_ranges_unmatched :
    let type : TypeExpr := .applied .list [.named .boxedInt]
    Reader.read {} "1..3..5" type = .ok (.collection .list ([1, 2, 3, 2, 3, 4, 5].map .int)) ∧
      ¬Matches (Reader.pattern {} type) "1..3..5" := by
  intro type
  refine ⟨by decide +kernel, fun matched => ?_⟩
  have collects : Reader.Collects {} type .list (.named .boxedInt) :=
    .list (Reader.strategies_list {})
  have shape : Reader.shape {} type = .sequence .list .int := collects.shape_of_width rfl
  rw [Reader.matches_pattern_iff, shape, Shape.pattern_sequence] at matched
  have whole : "1..3..5".toList ∈ "1..3..5".toList.splitOn ',' := by decide
  exact absurd (Sequence.length_fields_of_matched matched rfl whole) (by decide)

end TypedLiteral
