import Mathlib.Data.List.Forall2
import TypedLiteral.Literal.Sequence
import TypedLiteral.Proofs.InOrder
import TypedLiteral.Proofs.Numerals
import TypedLiteral.Proofs.TokenSequence

/-! The grammar of integer sequences, by cutting instead of by state. A body is cut at its commas
into segments and a segment at its `..` into fields. The first field of a segment is a number of
its own, and each later one is the end of a range that begins above the first. -/
namespace TypedLiteral.Literal.Sequence

/-- The parts of a segment. Each `..` is cut off as far left as possible. -/
def fields : List Char → List (List Char)
  | [] => [[]]
  | '.' :: '.' :: text => [] :: fields text
  | c :: text => (fields text).modifyHead (c :: ·)

/-- The numbers above the first one, up to the last one. -/
def span (first last : Int) : List Int :=
  (List.range (last - first).toNat).map fun offset : Nat => first + 1 + (offset : Int)

structure Segment where
  first : Int
  ends : List Int

namespace Segment

def numbers (segment : Segment) : List Int :=
  segment.first :: segment.ends.flatMap (span segment.first)

/-- The text reads as the segment: field by field, and with no range above the limit. -/
structure Reads (width : Width) (limit : Nat) (text : List Char) (segment : Segment) : Prop where
  each : List.Forall₂ width.Denotes (fields text) (segment.first :: segment.ends)
  within : ∀ last ∈ segment.ends, segment.first < last → last - segment.first ≤ limit

end Segment

/-- The numbers that a body stands for. -/
inductive Meaning (width : Width) (limit : Nat) (body : List Char) : List Int → Prop
  | empty (blank : Text.trim body = []) : Meaning width limit body []
  | segments {segments}
      (each : List.Forall₂ (Segment.Reads width limit) ((Text.trim body).splitOn ',') segments) :
      Meaning width limit body (segments.flatMap Segment.numbers)

theorem mem_span {first last number : Int} :
    number ∈ span first last ↔ first < number ∧ number ≤ last := by
  simp only [span, List.mem_map, List.mem_range]
  constructor
  · intro known
    obtain ⟨offset, within, rfl⟩ := known
    omega
  · intro known
    obtain ⟨above, below⟩ := known
    exact ⟨(number - first - 1).toNat, by omega, by omega⟩

theorem span_eq_nil {first last : Int} (descending : last ≤ first) : span first last = [] := by
  have none : (last - first).toNat = 0 := by omega
  rw [span, none]
  rfl

theorem Segment.Reads.held {width : Width} {limit : Nat} {text : List Char} {segment : Segment}
    (reads : segment.Reads width limit text) : ∀ number ∈ segment.numbers, width.Holds number := by
  have ends := forall_mem_of_forall₂ (reads.each.imp fun _ _ denotes => denotes.held)
  have first := ends segment.first List.mem_cons_self
  refine List.forall_mem_cons.mpr ⟨first, fun number member => ?_⟩
  obtain ⟨last, listed, inside⟩ := List.mem_flatMap.mp member
  obtain ⟨above, below⟩ := mem_span.mp inside
  exact first.between (ends last (List.mem_cons_of_mem _ listed)) (by omega) below

theorem Meaning.held {width : Width} {limit : Nat} {body : List Char} {numbers : List Int}
    (meaning : Meaning width limit body numbers) : ∀ number ∈ numbers, width.Holds number := by
  cases meaning with
  | empty blank => simp
  | segments each =>
    intro number member
    obtain ⟨segment, listed, inside⟩ := List.mem_flatMap.mp member
    have held := forall_mem_of_forall₂ (each.imp fun _ _ reads => reads.held)
    exact held segment listed number inside

theorem fields_ne_nil (text : List Char) : fields text ≠ [] := by
  fun_induction fields text <;> simp_all

theorem fields_cons {c : Char} {text : List Char} (single : c = '.' → text.head? ≠ some '.') :
    fields (c :: text) = (fields text).modifyHead (c :: ·) := by
  rw [fields]
  rintro rest rfl rfl
  exact single rfl rfl

private theorem fields_head {text first : List Char} {others : List (List Char)}
    (same : fields text = first :: others) : first <+: text := by
  fun_induction fields text generalizing first others with
  | case1 => simp_all
  | case2 text ih =>
    cases same
    exact List.nil_prefix
  | case3 c text other ih =>
    obtain ⟨front, rest, parted⟩ := List.exists_cons_of_ne_nil (fields_ne_nil text)
    rw [parted] at same
    cases same
    exact List.cons_prefix_cons.mpr ⟨rfl, ih parted⟩

theorem mem_fields {text field : List Char} (member : field ∈ fields text) {c : Char}
    (inside : c ∈ field) : c ∈ text := by
  fun_induction fields text generalizing field with
  | case1 => simp_all
  | case2 text ih =>
    rcases List.mem_cons.mp member with rfl | later
    · contradiction
    · exact List.mem_cons_of_mem _ (List.mem_cons_of_mem _ (ih later inside))
  | case3 d text other ih =>
    obtain ⟨first, others, same⟩ := List.exists_cons_of_ne_nil (fields_ne_nil text)
    rw [same] at member ih
    rcases List.mem_cons.mp member with rfl | later
    · rcases List.mem_cons.mp inside with rfl | behind
      · exact List.mem_cons_self
      · exact List.mem_cons_of_mem d (ih List.mem_cons_self behind)
    · exact List.mem_cons_of_mem d (ih (List.mem_cons_of_mem first later) inside)

theorem dots_notMem_fields (text : List Char) : dots ∉ fields text := by
  fun_induction fields text with
  | case1 => simp [dots]
  | case2 text ih => simpa [dots] using ih
  | case3 c text other ih =>
    obtain ⟨first, others, same⟩ := List.exists_cons_of_ne_nil (fields_ne_nil text)
    rw [same] at ih ⊢
    intro member
    rcases List.mem_cons.mp member with whole | later
    · obtain ⟨point, alone⟩ := List.cons.inj whole
      have begins := fields_head same
      rw [← alone] at begins
      obtain ⟨rest, front⟩ := begins
      exact other rest point.symm front.symm
    · exact ih (List.mem_cons_of_mem first later)

/-- The tokens of a segment, the empty ones included. -/
def parts (segment : List Char) : List (List Char) :=
  (fields segment).intersperse dots

theorem parts_eq {text field : List Char} {others : List (List Char)}
    (same : fields text = field :: others) :
    parts text = field :: others.flatMap fun other => [dots, other] := by
  rw [parts, same]
  clear same
  induction others generalizing field with
  | nil => rfl
  | cons other others ih => simp [ih]

private theorem parts_ne_nil (text : List Char) : parts text ≠ [] := by
  obtain ⟨field, others, same⟩ := List.exists_cons_of_ne_nil (fields_ne_nil text)
  simp [parts_eq same]

private theorem parts_cons {c : Char} {text : List Char} (single : c = '.' → text.head? ≠ some '.') :
    parts (c :: text) = (parts text).modifyHead (c :: ·) := by
  obtain ⟨field, others, same⟩ := List.exists_cons_of_ne_nil (fields_ne_nil text)
  have grown : fields (c :: text) = (c :: field) :: others := by
    rw [fields_cons single, same]
    rfl
  rw [parts_eq same, parts_eq grown]
  rfl

private theorem parts_dots (text : List Char) :
    parts ('.' :: '.' :: text) = [] :: dots :: parts text := by
  obtain ⟨field, others, same⟩ := List.exists_cons_of_ne_nil (fields_ne_nil text)
  have grown : fields ('.' :: '.' :: text) = [] :: field :: others := by
    rw [fields, same]
  rw [parts_eq same, parts_eq grown]
  rfl

private theorem leading?_plain {c : Char} {text : List Char} (other : c ≠ ',')
    (single : c = '.' → text.head? ≠ some '.') : Text.leading? [comma, dots] (c :: text) = none := by
  have noDots : dots.isPrefixOf (c :: text) = false := by
    cases text with
    | nil => simp [dots, List.isPrefixOf]
    | cons d text =>
      by_cases point : c = '.'
      · have next : '.' ≠ d := by simpa [eq_comm] using single point
        simp [dots, List.isPrefixOf, next]
      · simp [dots, List.isPrefixOf, Ne.symm point]
  simp [Text.leading?, noDots, comma, Ne.symm other]

theorem notMem_splitOn {text piece : List Char} (member : piece ∈ text.splitOn ',') :
    ',' ∉ piece := by
  induction text generalizing piece with
  | nil => simp_all
  | cons c text ih =>
    rw [List.splitOn_cons_eq_if_modifyHead] at member
    split at member
    · rcases List.mem_cons.mp member with rfl | later
      · exact List.not_mem_nil
      · exact ih later
    · rename_i other
      obtain ⟨front, pieces, same⟩ := List.exists_cons_of_ne_nil (List.splitOn_ne_nil ',' text)
      rw [same] at member ih
      rcases List.mem_cons.mp member with rfl | later
      · have different : ',' ≠ c := by
          rintro rfl
          exact other BEq.rfl
        exact List.not_mem_cons_of_ne_of_not_mem different (ih List.mem_cons_self)
      · exact ih (List.mem_cons_of_mem front later)

theorem intercalate_cons {α : Type} (separator front : List α) (lists : List (List α)) :
    separator.intercalate (front :: lists) = front ++ lists.flatMap (separator ++ ·) := by
  induction lists generalizing front with
  | nil => simp
  | cons list lists ih => simp [ih list]

private theorem splitOn_head {text piece : List Char} {pieces : List (List Char)}
    (same : text.splitOn ',' = piece :: pieces) : piece <+: text := by
  have joined : [','].intercalate (text.splitOn ',') = text := List.intercalate_splitOn ','
  rw [same, intercalate_cons] at joined
  exact ⟨_, joined⟩

theorem segmentation_eq_parts {text piece : List Char} {pieces : List (List Char)}
    (cut : text.splitOn ',' = piece :: pieces) :
    Text.segmentation [comma, dots] text =
      parts piece ++ pieces.flatMap fun other => comma :: parts other := by
  induction text using fields.induct generalizing piece pieces with
  | case1 =>
    cases cut
    rw [Text.segmentation_whole rfl]
    rfl
  | case2 text ih =>
    obtain ⟨front, rest, same⟩ := List.exists_cons_of_ne_nil (List.splitOn_ne_nil ',' text)
    have leads : Text.leading? [comma, dots] ('.' :: '.' :: text) = some dots := by
      simp [Text.leading?, comma, dots]
    have grown : ('.' :: '.' :: text).splitOn ',' = ('.' :: '.' :: front) :: rest := by
      simp [List.splitOn_cons_eq_if_modifyHead, same]
    rw [grown] at cut
    cases cut
    have dropped : ('.' :: '.' :: text).drop dots.length = text := rfl
    rw [Text.segmentation_delimiter leads, dropped, ih same, parts_dots]
    rfl
  | case3 c text other ih =>
    obtain ⟨front, rest, same⟩ := List.exists_cons_of_ne_nil (List.splitOn_ne_nil ',' text)
    by_cases separator : c = ','
    · subst separator
      have leads : Text.leading? [comma, dots] (',' :: text) = some comma := by
        simp [Text.leading?, comma, dots]
      have grown : (',' :: text).splitOn ',' = [] :: front :: rest := by
        simp [List.splitOn_cons_eq_if_modifyHead, same]
      rw [grown] at cut
      cases cut
      have dropped : (',' :: text).drop comma.length = text := rfl
      rw [Text.segmentation_delimiter leads, dropped, ih same]
      rfl
    · have single : c = '.' → text.head? ≠ some '.' := by
        intro point begins
        obtain ⟨behind, rfl⟩ := List.head?_eq_some_iff.mp begins
        exact other behind point rfl
      have alone : c = '.' → front.head? ≠ some '.' := by
        intro point begins
        obtain ⟨behind, rfl⟩ := List.head?_eq_some_iff.mp begins
        obtain ⟨tail, rfl⟩ := splitOn_head same
        exact single point rfl
      have grown : (c :: text).splitOn ',' = (c :: front) :: rest := by
        simp [List.splitOn_cons_eq_if_modifyHead, same, separator]
      rw [grown] at cut
      cases cut
      obtain ⟨field, others, begun⟩ := List.exists_cons_of_ne_nil (parts_ne_nil front)
      rw [Text.segmentation_other (leading?_plain separator single), ih same, parts_cons alone, begun]
      rfl

theorem fields_plain {text : List Char} (plain : '.' ∉ text) : fields text = [text] := by
  induction text with
  | nil => rfl
  | cons c text ih =>
    obtain ⟨head, tail⟩ := List.ne_and_not_mem_of_not_mem_cons plain
    rw [fields_cons fun point => (head point.symm).elim, ih tail]
    rfl

theorem intercalate_blank (text : List Char) (texts : List (List Char)) :
    [',', ' '].intercalate (text :: texts) = [','].intercalate (text :: texts.map (' ' :: ·)) := by
  rw [intercalate_cons, intercalate_cons, List.flatMap_map]
  rfl

private theorem reads_written {width : Width} (limit : Nat) {number : Int}
    (held : width.Holds number) {before : List Char} (blank : ∀ c ∈ before, Text.isBlank c) :
    Segment.Reads width limit (before ++ writeInteger number) ⟨number, []⟩ := by
  have numeral := numeral_writeInteger number
  have trimmed := Text.trim_padded (writeInteger number) blank Text.blank_nil
  rw [List.append_nil, numeral.trimmed] at trimmed
  have plain : '.' ∉ before ++ writeInteger number := by
    intro member
    rcases List.mem_append.mp member with padding | inside
    · exact absurd (blank _ padding) (by decide)
    · rcases numeral.mem inside with sign | digit <;> contradiction
  refine ⟨?_, by simp⟩
  rw [fields_plain plain]
  exact .cons ⟨by rwa [trimmed], held⟩ .nil

private theorem listing_trimmed (number : Int) (numbers : List Int) :
    Text.trim ([',', ' '].intercalate ((number :: numbers).map writeInteger)) =
      [',', ' '].intercalate ((number :: numbers).map writeInteger) := by
  induction numbers generalizing number with
  | nil => simpa using (numeral_writeInteger number).trimmed
  | cons next numbers ih =>
    have numeral := numeral_writeInteger number
    have present : [',', ' '].intercalate ((next :: numbers).map writeInteger) ≠ [] := by
      rw [List.map_cons, intercalate_cons]
      simp [(numeral_writeInteger next).ne_nil]
    rw [List.map_cons, List.intercalate_cons_of_ne_nil (by simp), List.append_assoc]
    exact Text.trim_between numeral.ne_nil present numeral.trimmed (ih next) [',', ' ']

theorem meaning_listing {width : Width} (limit : Nat) {numbers : List Int}
    (held : ∀ number ∈ numbers, width.Holds number) {before after : List Char}
    (blankBefore : ∀ c ∈ before, Text.isBlank c) (blankAfter : ∀ c ∈ after, Text.isBlank c) :
    Meaning width limit (before ++ ([',', ' '].intercalate (numbers.map writeInteger) ++ after))
      numbers := by
  have trimmed := Text.trim_padded ([',', ' '].intercalate (numbers.map writeInteger))
    blankBefore blankAfter
  cases numbers with
  | nil => exact .empty trimmed
  | cons number numbers =>
    rw [listing_trimmed] at trimmed
    have alone : ∀ other, ',' ∉ writeInteger other := by
      intro other member
      rcases (numeral_writeInteger other).mem member with sign | digit <;> contradiction
    have pieces : ([',', ' '].intercalate ((number :: numbers).map writeInteger)).splitOn ',' =
        writeInteger number :: (numbers.map writeInteger).map (' ' :: ·) := by
      rw [List.map_cons, intercalate_blank, List.splitOn_intercalate]
      · simp [alone]
      · simp
    obtain ⟨first, later⟩ := List.forall_mem_cons.mp held
    have each : List.Forall₂ (Segment.Reads width limit)
        (writeInteger number :: (numbers.map writeInteger).map (' ' :: ·))
        ((number :: numbers).map fun other => ⟨other, []⟩) := by
      refine .cons (reads_written limit first Text.blank_nil) ?_
      rw [List.map_map, List.forall₂_map_left_iff, List.forall₂_map_right_iff, List.forall₂_same]
      exact fun other member => reads_written limit (later other member) Text.blank_space
    rw [← pieces, ← trimmed] at each
    have meaning := Meaning.segments each
    simpa [List.flatMap_map, Segment.numbers] using meaning

end TypedLiteral.Literal.Sequence
