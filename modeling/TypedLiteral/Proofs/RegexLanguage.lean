import Mathlib.Computability.Language
import TypedLiteral.Proofs.Numerals
import TypedLiteral.Shape.Pattern
import TypedLiteral.Value.Notation

/-! The texts that a regular expression matches from end to end, as a language over characters.
Groups only hold an expression together. The patterns of literals are taken apart here once, so
that nothing behind this module looks at how they are composed. -/
namespace TypedLiteral.Regex

open scoped Computability

def oneOf (belongs : Char → Prop) : Language Char :=
  {word | ∃ c, belongs c ∧ word = [c]}

def language : Regex → Language Char
  | .empty => 1
  | .char c | .escaped c => oneOf (· = c)
  | .eitherOf a b => oneOf fun c => c = a ∨ c = b
  | .digit => oneOf fun c => c.isDigit
  | .blank => oneOf fun c => Text.isBlank c
  | .anyChar => oneOf (· ≠ '\n')
  | .andThen first second => first.language * second.language
  | .orElse first second => first.language + second.language
  | .optional body => 1 + body.language
  | .star body => body.language∗
  | .plus body => body.language * body.language∗
  | .group body | .plainGroup body => body.language

variable {word : List Char}

@[simp] theorem mem_empty : word ∈ language .empty ↔ word = [] := Iff.rfl

@[simp] theorem mem_char {c : Char} : word ∈ language (.char c) ↔ word = [c] := by
  constructor
  · rintro ⟨_, rfl, rfl⟩
    rfl
  · exact fun same => ⟨c, rfl, same⟩

@[simp] theorem mem_escaped {c : Char} : word ∈ language (.escaped c) ↔ word = [c] :=
  mem_char

@[simp] theorem mem_eitherOf {a b : Char} :
    word ∈ language (.eitherOf a b) ↔ ∃ c, (c = a ∨ c = b) ∧ word = [c] := Iff.rfl

@[simp] theorem mem_andThen {first second : Regex} : word ∈ language (.andThen first second) ↔
    ∃ front ∈ first.language, ∃ back ∈ second.language, front ++ back = word :=
  Language.mem_mul

@[simp] theorem mem_orElse {first second : Regex} :
    word ∈ language (.orElse first second) ↔ word ∈ first.language ∨ word ∈ second.language :=
  Iff.rfl

@[simp] theorem mem_optional {body : Regex} :
    word ∈ language (.optional body) ↔ word = [] ∨ word ∈ body.language := Iff.rfl

@[simp] theorem mem_group {body : Regex} : word ∈ language (.group body) ↔ word ∈ body.language :=
  Iff.rfl

@[simp] theorem mem_plainGroup {body : Regex} :
    word ∈ language (.plainGroup body) ↔ word ∈ body.language := Iff.rfl

theorem mem_star_oneOf {belongs : Char → Prop} :
    word ∈ (oneOf belongs)∗ ↔ ∀ c ∈ word, belongs c := by
  rw [Language.mem_kstar]
  constructor
  · intro known c member
    obtain ⟨singles, rfl, each⟩ := known
    obtain ⟨single, listed, inside⟩ := List.mem_flatten.mp member
    obtain ⟨d, belonging, rfl⟩ := each single listed
    rwa [List.mem_singleton.mp inside]
  · intro each
    refine ⟨word.map ([·]), by simp [← List.flatMap_def], ?_⟩
    intro single listed
    obtain ⟨c, member, rfl⟩ := List.mem_map.mp listed
    exact ⟨c, each c member, rfl⟩

@[simp] theorem mem_star_blank :
    word ∈ language (.star .blank) ↔ ∀ c ∈ word, Text.isBlank c :=
  mem_star_oneOf

@[simp] theorem mem_plus_digit :
    word ∈ language (.plus .digit) ↔ word ≠ [] ∧ ∀ c ∈ word, c.isDigit := by
  have parted : word ∈ language (.plus .digit) ↔ ∃ front ∈ oneOf fun c => c.isDigit,
      ∃ back ∈ (oneOf fun c => c.isDigit)∗, front ++ back = word := Language.mem_mul
  simp only [parted, mem_star_oneOf]
  constructor
  · intro known
    obtain ⟨_, ⟨c, first, rfl⟩, back, later, rfl⟩ := known
    exact ⟨List.cons_ne_nil c back, List.forall_mem_cons.mpr ⟨first, later⟩⟩
  · intro known
    obtain ⟨present, each⟩ := known
    obtain ⟨c, back, rfl⟩ := List.exists_cons_of_ne_nil present
    obtain ⟨first, later⟩ := List.forall_mem_cons.mp each
    exact ⟨[c], ⟨c, first, rfl⟩, back, later, rfl⟩

theorem mem_any : word ∈ any.language ↔ '\n' ∉ word := by
  have characters : word ∈ any.language ↔ ∀ c ∈ word, c ≠ '\n' := mem_star_oneOf
  rw [characters]
  exact ⟨fun each feed => each '\n' feed rfl, fun absent c member same => absent (same ▸ member)⟩

theorem language_chain (parts : List Regex) :
    (chain parts).language = (parts.map language).prod := by
  induction parts with
  | nil => rfl
  | cons part parts ih =>
    cases parts with
    | nil => simp [chain]
    | cons next parts =>
      rw [List.map_cons, List.prod_cons, ← ih]
      rfl

theorem mem_choice {parts : List Regex} (present : parts ≠ []) :
    word ∈ (choice parts).language ↔ ∃ part ∈ parts, word ∈ part.language := by
  obtain ⟨first, parts, rfl⟩ := List.exists_cons_of_ne_nil present
  clear present
  induction parts generalizing first with
  | nil => simp [choice]
  | cons next parts ih =>
    rw [List.exists_mem_cons_iff, ← ih next]
    exact mem_orElse

/-- A row of single characters, each of a class of its own. -/
theorem mem_chain_oneOf {parts : List Regex} {classes : List (Char → Prop)}
    (each : parts.map language = classes.map oneOf) :
    word ∈ (chain parts).language ↔
      List.Forall₂ (fun belongs c => belongs c) classes word := by
  rw [language_chain, each]
  clear each
  induction classes generalizing word with
  | nil => exact List.forall₂_nil_left_iff.symm
  | cons belongs classes ih =>
    rw [List.map_cons, List.prod_cons, Language.mem_mul, List.forall₂_cons_left_iff]
    constructor
    · rintro ⟨_, ⟨c, belonging, rfl⟩, rest, matched, rfl⟩
      exact ⟨c, rest, belonging, ih.mp matched, rfl⟩
    · rintro ⟨c, rest, belonging, matched, rfl⟩
      exact ⟨[c], ⟨c, belonging, rfl⟩, rest, ih.mpr matched, rfl⟩

theorem mem_literal {text : List Char} : word ∈ (literal text).language ↔ word = text := by
  have each : (text.map fun c => if special.contains c then Regex.escaped c else .char c).map
      language = (text.map fun c d => d = c).map oneOf := by
    rw [List.map_map, List.map_map]
    apply List.map_congr_left
    intro c _
    rw [Function.comp_apply, apply_ite language]
    exact ite_self _
  rw [literal, mem_chain_oneOf each, List.forall₂_map_left_iff, ← List.forall₂_eq_eq_eq]
  exact ⟨fun same => same.flip, fun same => same.flip⟩

theorem mem_integer : word ∈ integer.language ↔ ∃ number, Numeral word number := by
  constructor
  · intro known
    simp only [integer, chain, mem_andThen, mem_optional, mem_char, mem_plus_digit] at known
    obtain ⟨_, rfl | rfl, digits, ⟨present, each⟩, rfl⟩ := known
    · exact ⟨_, .plain present each⟩
    · exact ⟨_, .negative present each⟩
  · intro known
    obtain ⟨number, numeral⟩ := known
    simp only [integer, chain, mem_andThen, mem_optional, mem_char, mem_plus_digit]
    cases numeral with
    | plain present each => exact ⟨[], Or.inl rfl, word, ⟨present, each⟩, rfl⟩
    | @negative digits present each => exact ⟨['-'], Or.inr rfl, digits, ⟨present, each⟩, rfl⟩

/-- A letter matches in either case. -/
theorem mem_boolean : word ∈ boolean.language ↔ ∃ flag,
    List.Forall₂ (fun letter c => c = letter ∨ c = letter.toUpper) (Value.boolText flag) word := by
  have spelled (flag : Bool) {parts : List Regex} (each : parts.map language =
      ((Value.boolText flag).map fun letter c => c = letter ∨ c = letter.toUpper).map oneOf) :
      word ∈ (chain parts).language ↔ List.Forall₂ (fun letter c => c = letter ∨ c = letter.toUpper)
        (Value.boolText flag) word := by
    rw [mem_chain_oneOf each, List.forall₂_map_left_iff]
  rw [boolean, mem_orElse, spelled true rfl, spelled false rfl, Bool.exists_bool, or_comm]

/-- A sign and digits in front of anything are an integer in front of it. -/
theorem language_signed (tail : Regex) :
    (chain [.optional (.char '-'), .plus .digit, tail]).language =
      integer.language * tail.language := by
  simp only [integer, chain, language, mul_assoc]

theorem mem_double : word ∈ double.language ↔ Fractional word := by
  have tail : ∀ back, back ∈ language (.optional (.group (chain [.escaped '.', .plus .digit]))) ↔
      back = [] ∨ ∃ fraction, Decimal.areDigits fraction = true ∧ '.' :: fraction = back := by
    intro back
    simp [chain, areDigits_iff]
  rw [double, language_signed, Language.mem_mul]
  simp only [tail, mem_integer]
  constructor
  · rintro ⟨front, ⟨number, numeral⟩, back, rfl | ⟨fraction, digits, rfl⟩, rfl⟩
    · rw [List.append_nil]
      exact .whole numeral
    · exact .pointed numeral digits
  · rintro (@⟨word, number, numeral⟩ | @⟨front, fraction, number, numeral, digits⟩)
    · exact ⟨_, ⟨_, numeral⟩, [], Or.inl rfl, List.append_nil _⟩
    · exact ⟨_, ⟨_, numeral⟩, _, Or.inr ⟨_, digits, rfl⟩, rfl⟩

/-- A number alone, or a range between two of them. -/
inductive Interval : List Char → Prop
  | point {only : List Char} {number} (numeral : Numeral only number) : Interval only
  | range {first last before after : List Char} {low high} (begins : Numeral first low)
      (blankBefore : ∀ c ∈ before, Text.isBlank c) (blankAfter : ∀ c ∈ after, Text.isBlank c)
      (ends : Numeral last high) :
      Interval (first ++ (before ++ '.' :: '.' :: (after ++ last)))

theorem mem_segment : word ∈ segment.language ↔ Interval word := by
  have tail : ∀ back, back ∈ language (.optional (.group (chain [.star .blank, .escaped '.',
      .escaped '.', .star .blank, .optional (.char '-'), .plus .digit]))) ↔
      back = [] ∨ ∃ before, (∀ c ∈ before, Text.isBlank c) ∧ ∃ after,
        (∀ c ∈ after, Text.isBlank c) ∧ ∃ last ∈ integer.language,
          before ++ '.' :: '.' :: (after ++ last) = back := by
    intro back
    simp [chain, integer]
  rw [segment, language_signed, Language.mem_mul]
  simp only [tail, mem_integer]
  constructor
  · intro known
    obtain ⟨first, ⟨low, begins⟩, back, rfl | range, rfl⟩ := known
    · rw [List.append_nil]
      exact .point begins
    · obtain ⟨before, blankBefore, after, blankAfter, last, ⟨high, ends⟩, rfl⟩ := range
      exact .range begins blankBefore blankAfter ends
  · intro interval
    cases interval with
    | point numeral => exact ⟨word, ⟨_, numeral⟩, [], Or.inl rfl, List.append_nil word⟩
    | @range first last before after low high begins blankBefore blankAfter ends =>
      exact ⟨first, ⟨low, begins⟩, _, Or.inr ⟨before, blankBefore, after, blankAfter, last,
        ⟨high, ends⟩, rfl⟩, rfl⟩

inductive Listed (element : Language Char) : List Char → Prop
  | last {core : List Char} (matched : core ∈ element) : Listed element core
  | more {core before after rest : List Char} (matched : core ∈ element)
      (blankBefore : ∀ c ∈ before, Text.isBlank c) (blankAfter : ∀ c ∈ after, Text.isBlank c)
      (later : Listed element rest) : Listed element (core ++ (before ++ ',' :: (after ++ rest)))

/-- Elements in brackets, either of which may be missing. -/
inductive Separated (element : Language Char) : List Char → Prop
  | intro {opening before inner after closing : List Char}
      (opens : opening = [] ∨ opening = ['[']) (blankBefore : ∀ c ∈ before, Text.isBlank c)
      (listed : inner = [] ∨ Listed element inner) (blankAfter : ∀ c ∈ after, Text.isBlank c)
      (closes : closing = [] ∨ closing = [']']) :
      Separated element (opening ++ (before ++ (inner ++ (after ++ closing))))

private theorem append_mem_kstar {element : Language Char} {front back : List Char}
    (head : front ∈ element) (tail : back ∈ element∗) : front ++ back ∈ element∗ := by
  rw [← Language.one_add_self_mul_kstar_eq_kstar]
  exact Or.inr (Language.append_mem_mul head tail)

private theorem mem_listed {element : Regex} :
    word ∈ language (chain [.plainGroup element,
      .star (.group (chain [.star .blank, .char ',', .star .blank, .plainGroup element]))]) ↔
    Listed element.language word := by
  have next : ∀ back, back ∈ language (.group (chain [.star .blank, .char ',', .star .blank,
      .plainGroup element])) ↔ ∃ before, (∀ c ∈ before, Text.isBlank c) ∧ ∃ after,
        (∀ c ∈ after, Text.isBlank c) ∧ ∃ core ∈ element.language,
          before ++ ',' :: (after ++ core) = back := by
    intro back
    simp [chain]
  constructor
  · intro known
    obtain ⟨core, first, tail, later, rfl⟩ := mem_andThen.mp known
    obtain ⟨pieces, rfl, each⟩ := Language.mem_kstar.mp later
    clear later known
    induction pieces generalizing core with
    | nil =>
      rw [List.flatten_nil, List.append_nil]
      exact .last first
    | cons piece pieces ih =>
      obtain ⟨head, tail⟩ := List.forall_mem_cons.mp each
      obtain ⟨before, blankBefore, after, blankAfter, second, inside, rfl⟩ := (next piece).mp head
      have grown := Listed.more (mem_plainGroup.mp first) blankBefore blankAfter
        (ih second inside tail)
      simpa using grown
  · intro listed
    induction listed with
    | last core => exact mem_andThen.mpr ⟨_, core, [], Language.nil_mem_kstar _, by simp⟩
    | @more core before after rest first blankBefore blankAfter later ih =>
      obtain ⟨second, inside, tail, behind, rfl⟩ := mem_andThen.mp ih
      have piece := (next _).mpr ⟨before, blankBefore, after, blankAfter, second, inside, rfl⟩
      exact mem_andThen.mpr ⟨core, first, _, append_mem_kstar piece behind, by simp⟩

theorem mem_separated {element : Regex} :
    word ∈ (separated element).language ↔ Separated element.language word := by
  constructor
  · intro known
    obtain ⟨opening, opens, _, ⟨before, blankBefore, _, ⟨inner, listed, _, ⟨after, blankAfter,
      closing, closes, rfl⟩, rfl⟩, rfl⟩, rfl⟩ := known
    refine .intro ?_ (mem_star_blank.mp blankBefore) ?_ (mem_star_blank.mp blankAfter) ?_
    · exact (mem_optional.mp opens).imp_right mem_escaped.mp
    · exact (mem_optional.mp listed).imp_right mem_listed.mp
    · exact (mem_optional.mp closes).imp_right mem_escaped.mp
  · rintro ⟨opens, blankBefore, listed, blankAfter, closes⟩
    refine Language.append_mem_mul ?_ (Language.append_mem_mul (mem_star_blank.mpr blankBefore)
      (Language.append_mem_mul ?_ (Language.append_mem_mul (mem_star_blank.mpr blankAfter) ?_)))
    · exact opens.imp_right mem_escaped.mpr
    · exact listed.imp_right mem_listed.mpr
    · exact closes.imp_right mem_escaped.mpr

end TypedLiteral.Regex
