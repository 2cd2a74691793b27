import TypedLiteral.Proofs.RegexLanguage
import TypedLiteral.Reader

/-! Reading regular expressions back from their text. A repetition belongs to the one character or
group in front of it, parts in a row belong together before `|` parts them, and only groups hold
anything else together. The forms known here are those that patterns use. A pattern reads back as
the expression that it was written from, so its text means what the expression means. -/
namespace TypedLiteral

namespace Regex

/-- The characters that do not stand for themselves unless a backslash is in front. -/
def operators : List Char :=
  ['\\', '.', '+', '*', '?', '(', ')', '|', '[', ']', '\x7b', '\x7d', '^', '$']

def isRepeated : Regex → Bool
  | .optional _ | .star _ | .plus _ => true
  | _ => false

/-- What is read of one group, newest first: the alternatives in front of the last `|`, and the
parts behind it. -/
structure Level where
  alternatives : List Regex := []
  parts : List Regex := []

namespace Level

def push (level : Level) (part : Regex) : Level :=
  { level with parts := part :: level.parts }

def bar (level : Level) : Level :=
  ⟨chain level.parts.reverse :: level.alternatives, []⟩

def close (level : Level) : Regex :=
  choice level.bar.alternatives.reverse

/-- Repeats the latest part, unless it is repeated already. -/
def repeat? (level : Level) (repetition : Regex → Regex) : Option Level :=
  match level.parts with
  | [] => none
  | part :: parts =>
    if part.isRepeated then none else some ⟨level.alternatives, repetition part :: parts⟩

end Level

/-- Reads on behind what is read of the group at hand and of those around it, innermost first. With
each of these stands what becomes of the group inside. -/
def readFrom : List ((Regex → Regex) × Level) → Level → List Char → Option Regex
  | [], level, [] => some level.close
  | _ :: _, _, [] => none
  | outer, level, '(' :: '?' :: ':' :: text => readFrom ((.plainGroup, level) :: outer) {} text
  | outer, level, '(' :: text => readFrom ((.group, level) :: outer) {} text
  | (made, around) :: outer, level, ')' :: text =>
    readFrom outer (around.push (made level.close)) text
  | outer, level, '|' :: text => readFrom outer level.bar text
  | outer, level, '?' :: text => do readFrom outer (← level.repeat? .optional) text
  | outer, level, '*' :: text => do readFrom outer (← level.repeat? .star) text
  | outer, level, '+' :: text => do readFrom outer (← level.repeat? .plus) text
  | outer, level, '.' :: text => readFrom outer (level.push .anyChar) text
  | outer, level, '[' :: '0' :: '-' :: '9' :: ']' :: text => readFrom outer (level.push .digit) text
  | outer, level, '[' :: a :: b :: ']' :: text =>
    if a.isAlpha ∧ b.isAlpha then readFrom outer (level.push (.eitherOf a b)) text else none
  | outer, level, '\\' :: 's' :: text => readFrom outer (level.push .blank) text
  | outer, level, '\\' :: c :: text =>
    if special.contains c then readFrom outer (level.push (.escaped c)) text else none
  | outer, level, c :: text =>
    if operators.contains c then none else readFrom outer (level.push (.char c)) text

def ofText? (text : List Char) : Option Regex :=
  readFrom [] {} text

end Regex

/-- The text as a whole is one that the pattern matches. -/
def Matches (pattern text : String) : Prop :=
  ∃ regex, Regex.ofText? pattern.toList = some regex ∧ text.toList ∈ regex.language

namespace Regex

/-- How closely an expression holds together: one character or group, that with or without a
repetition, some of these in a row, or none of them, and a choice between such rows. -/
inductive Tightness
  | atom
  | part
  | row
  | alternative
  | choice

inductive Written : Tightness → Regex → Prop
  | char {c : Char} (plain : c ∉ operators) : Written .atom (.char c)
  | escaped {c : Char} (listed : c ∈ special) : Written .atom (.escaped c)
  | eitherOf {a b : Char} (letters : a.isAlpha ∧ b.isAlpha) : Written .atom (.eitherOf a b)
  | digit : Written .atom .digit
  | blank : Written .atom .blank
  | anyChar : Written .atom .anyChar
  | group {body : Regex} (whole : Written .choice body) : Written .atom (.group body)
  | plainGroup {body : Regex} (whole : Written .choice body) : Written .atom (.plainGroup body)
  | once {body : Regex} (atom : Written .atom body) : Written .part body
  | optional {body : Regex} (atom : Written .atom body) : Written .part (.optional body)
  | star {body : Regex} (atom : Written .atom body) : Written .part (.star body)
  | plus {body : Regex} (atom : Written .atom body) : Written .part (.plus body)
  | last {body : Regex} (part : Written .part body) : Written .row body
  | andThen {first second : Regex} (part : Written .part first) (row : Written .row second) :
      Written .row (.andThen first second)
  | empty : Written .alternative .empty
  | full {body : Regex} (row : Written .row body) : Written .alternative body
  | only {body : Regex} (alternative : Written .alternative body) : Written .choice body
  | orElse {first second : Regex} (alternative : Written .alternative first)
      (choice : Written .choice second) : Written .choice (.orElse first second)

theorem written_chain {parts : List Regex} (each : ∀ part ∈ parts, Written .part part) :
    Written .alternative (chain parts) := by
  cases parts with
  | nil => exact .empty
  | cons part parts =>
    apply Written.full
    induction parts generalizing part with
    | nil => exact .last (each part List.mem_cons_self)
    | cons next parts ih =>
      obtain ⟨head, tail⟩ := List.forall_mem_cons.mp each
      exact .andThen head (ih next tail)

theorem written_choice {alternatives : List Regex}
    (each : ∀ alternative ∈ alternatives, Written .alternative alternative) :
    Written .choice (choice alternatives) := by
  cases alternatives with
  | nil => exact .only .empty
  | cons first alternatives =>
    induction alternatives generalizing first with
    | nil => exact .only (each first List.mem_cons_self)
    | cons next alternatives ih =>
      obtain ⟨head, tail⟩ := List.forall_mem_cons.mp each
      exact .orElse head (ih next tail)

theorem Written.not_isRepeated {regex : Regex} (atom : Written .atom regex) :
    regex.isRepeated = false := by
  cases atom <;> rfl

theorem Written.atom_head {regex : Regex} (atom : Written .atom regex) :
    ∃ c text, regex.write = c :: text ∧ c ≠ '?' := by
  cases atom with
  | char plain => exact ⟨_, _, rfl, by rintro rfl; exact plain (by decide)⟩
  | _ => exact ⟨_, _, rfl, by decide⟩

/-- No expression begins with a repetition. -/
theorem Written.head {tightness : Tightness} {regex : Regex} (written : Written tightness regex)
    (rest : List Char) (other : rest.head? ≠ some '?') :
    (regex.write ++ rest).head? ≠ some '?' := by
  have atomic {body : Regex} (atom : Written .atom body) (behind : List Char) :
      (body.write ++ behind).head? ≠ some '?' := by
    obtain ⟨c, text, begun, unlike⟩ := atom.atom_head
    simpa [begun] using unlike
  induction written generalizing rest with
  | once atom ih => exact ih rest other
  | optional atom => simpa [write] using atomic atom ('?' :: rest)
  | star atom => simpa [write] using atomic atom ('*' :: rest)
  | plus atom => simpa [write] using atomic atom ('+' :: rest)
  | last part ih => exact ih rest other
  | andThen part row first second =>
    rw [write, List.append_assoc]
    exact first _ (second rest other)
  | empty => exact other
  | full row ih => exact ih rest other
  | only alternative ih => exact ih rest other
  | orElse alternative choice first second =>
    rw [write, List.append_assoc]
    exact first _ (by simp)
  | char plain => exact atomic (.char plain) rest
  | escaped listed => exact atomic (.escaped listed) rest
  | eitherOf letters => exact atomic (.eitherOf letters) rest
  | digit => exact atomic .digit rest
  | blank => exact atomic .blank rest
  | anyChar => exact atomic .anyChar rest
  | group whole => exact atomic (.group whole) rest
  | plainGroup whole => exact atomic (.plainGroup whole) rest

variable {outer : List ((Regex → Regex) × Level)} {level : Level} {text : List Char}

theorem readFrom_char {c : Char} (plain : c ∉ operators) :
    readFrom outer level (c :: text) = readFrom outer (level.push (.char c)) text := by
  have different : ∀ d ∈ operators, c ≠ d := fun d listed same => plain (same ▸ listed)
  simp only [operators, List.forall_mem_cons] at different
  rw [readFrom]
  · simp [plain]
  all_goals simp_all

theorem readFrom_escaped {c : Char} (listed : c ∈ special) :
    readFrom outer level ('\\' :: c :: text) = readFrom outer (level.push (.escaped c)) text := by
  rw [readFrom]
  · simp [listed]
  · rintro rfl
    exact absurd listed (by decide)

theorem readFrom_eitherOf {a b : Char} (letters : a.isAlpha ∧ b.isAlpha) :
    readFrom outer level ('[' :: a :: b :: ']' :: text) =
      readFrom outer (level.push (.eitherOf a b)) text := by
  rw [readFrom, if_pos letters]

theorem readFrom_group (plain : text.head? ≠ some '?') :
    readFrom outer level ('(' :: text) = readFrom ((.group, level) :: outer) {} text := by
  rw [readFrom]
  rintro rest rfl
  exact plain rfl

/-- What reading the text of an expression adds to the level at hand. -/
def Reads (regex : Regex) : Tightness → Prop
  | .atom | .part => ∀ outer level text,
      readFrom outer level (regex.write ++ text) = readFrom outer (level.push regex) text
  | .row => ∃ part parts, chain (part :: parts) = regex ∧ ∀ outer alternatives earlier text,
      readFrom outer ⟨alternatives, earlier⟩ (regex.write ++ text) =
        readFrom outer ⟨alternatives, parts.reverse ++ part :: earlier⟩ text
  | .alternative => ∃ parts, chain parts = regex ∧ ∀ outer alternatives text,
      readFrom outer ⟨alternatives, []⟩ (regex.write ++ text) =
        readFrom outer ⟨alternatives, parts.reverse⟩ text
  | .choice => ∃ before parts, choice (before ++ [chain parts]) = regex ∧
      ∀ outer alternatives text,
        readFrom outer ⟨alternatives, []⟩ (regex.write ++ text) =
          readFrom outer ⟨before.reverse ++ alternatives, parts.reverse⟩ text

theorem Reads.group {body : Regex} (reads : body.Reads .choice)
    (outer : List ((Regex → Regex) × Level)) (level : Level) (made : Regex → Regex)
    (text : List Char) :
    readFrom ((made, level) :: outer) {} (body.write ++ ')' :: text) =
      readFrom outer (level.push (made body)) text := by
  obtain ⟨before, parts, whole, read⟩ := reads
  rw [read, readFrom]
  simp [Level.close, Level.bar, whole]

theorem Written.reads {tightness : Tightness} {regex : Regex} (written : Written tightness regex) :
    regex.Reads tightness := by
  induction written with
  | char plain => exact fun outer level text => readFrom_char plain
  | escaped listed => exact fun outer level text => readFrom_escaped listed
  | eitherOf letters => exact fun outer level text => readFrom_eitherOf letters
  | digit => exact fun outer level text => by simp [write, readFrom]
  | blank => exact fun outer level text => by simp [write, readFrom]
  | anyChar => exact fun outer level text => by simp [write, readFrom]
  | @group body whole ih =>
    intro outer level text
    have plain := whole.head (')' :: text) (by simp)
    rw [← ih.group outer level .group text, ← readFrom_group plain]
    simp [write]
  | @plainGroup body whole ih =>
    intro outer level text
    rw [← ih.group outer level .plainGroup text]
    simp [write, readFrom]
  | once atom ih => exact ih
  | optional atom ih =>
    intro outer level text
    rw [write, List.append_assoc, ih]
    simp [readFrom, Level.repeat?, Level.push, atom.not_isRepeated]
  | star atom ih =>
    intro outer level text
    rw [write, List.append_assoc, ih]
    simp [readFrom, Level.repeat?, Level.push, atom.not_isRepeated]
  | plus atom ih =>
    intro outer level text
    rw [write, List.append_assoc, ih]
    simp [readFrom, Level.repeat?, Level.push, atom.not_isRepeated]
  | @last body part ih => exact ⟨body, [], rfl, fun _ _ _ _ => ih _ _ _⟩
  | @andThen first second part row atFirst atSecond =>
    obtain ⟨next, parts, whole, read⟩ := atSecond
    refine ⟨first, next :: parts, by rw [chain, whole]; simp, fun _ _ _ _ => ?_⟩
    rw [write, List.append_assoc, atFirst, Level.push, read]
    simp
  | empty => exact ⟨[], rfl, fun _ _ _ => rfl⟩
  | full row ih =>
    obtain ⟨part, parts, whole, read⟩ := ih
    refine ⟨part :: parts, whole, fun _ _ _ => ?_⟩
    rw [read, List.reverse_cons]
  | only alternative ih =>
    obtain ⟨parts, whole, read⟩ := ih
    exact ⟨[], parts, whole, fun _ _ _ => read _ _ _⟩
  | @orElse first second alternative choice atFirst atSecond =>
    obtain ⟨parts, wholeFirst, readFirst⟩ := atFirst
    obtain ⟨before, later, wholeSecond, readSecond⟩ := atSecond
    refine ⟨first :: before, later, ?_, fun _ _ _ => ?_⟩
    · rw [List.cons_append, Regex.choice, wholeSecond]
      simp
    · rw [write, List.append_assoc, List.cons_append, readFirst, readFrom, Level.bar,
        List.reverse_reverse, wholeFirst, readSecond]
      simp

/-- An expression that groups whatever needs it is what its text reads back as. -/
theorem ofText?_write {regex : Regex} (written : Written .choice regex) :
    ofText? regex.write = some regex := by
  obtain ⟨before, parts, whole, read⟩ := written.reads
  have ended := read [] [] []
  rw [List.append_nil] at ended
  rw [ofText?, ended, readFrom]
  simp [Level.close, Level.bar, whole]

example : ofText? "-?[0-9]+|(?:a)*".toList =
    some (.orElse integer (.star (.plainGroup (.char 'a')))) := by rfl

theorem written_literal (text : List Char) : Written .alternative (literal text) := by
  have plain : ∀ c ∈ operators, c ∈ special := by simp [operators, special]
  apply written_chain
  intro part listed
  obtain ⟨c, -, rfl⟩ := List.mem_map.mp listed
  split
  · rename_i known
    exact .once (.escaped (List.contains_iff_mem.mp known))
  · rename_i unknown
    exact .once (.char fun operator => unknown (List.contains_iff_mem.mpr (plain c operator)))

private theorem written_dash : Written .atom (.char '-') := .char (by decide)

private theorem written_point : Written .part (.escaped '.') := .once (.escaped (by decide))

theorem written_any : Written .choice any :=
  .only (.full (.last (.star .anyChar)))

theorem written_integer : Written .choice integer :=
  .only (.full (.andThen (.optional written_dash) (.last (.plus .digit))))

theorem written_boolean : Written .choice boolean := by
  have word (pairs : List (Char × Char))
      (letters : ∀ pair ∈ pairs, pair.1.isAlpha ∧ pair.2.isAlpha) :
      Written .alternative (chain (pairs.map fun pair => .eitherOf pair.1 pair.2)) := by
    apply written_chain
    intro part listed
    obtain ⟨pair, member, rfl⟩ := List.mem_map.mp listed
    exact .once (.eitherOf (letters pair member))
  exact .orElse (word [('t', 'T'), ('r', 'R'), ('u', 'U'), ('e', 'E')] (by decide))
    (.only (word [('f', 'F'), ('a', 'A'), ('l', 'L'), ('s', 'S'), ('e', 'E')] (by decide)))

theorem written_double : Written .choice double := by
  have fraction : Written .choice (chain [.escaped '.', .plus .digit]) :=
    .only (.full (.andThen written_point (.last (.plus .digit))))
  exact .only (.full (.andThen (.optional written_dash) (.andThen (.plus .digit)
    (.last (.optional (.group fraction))))))

theorem written_segment : Written .choice segment := by
  have range : Written .choice (chain [.star .blank, .escaped '.', .escaped '.', .star .blank,
      .optional (.char '-'), .plus .digit]) :=
    .only (.full (.andThen (.star .blank) (.andThen written_point (.andThen written_point
      (.andThen (.star .blank) (.andThen (.optional written_dash) (.last (.plus .digit))))))))
  exact .only (.full (.andThen (.optional written_dash) (.andThen (.plus .digit)
    (.last (.optional (.group range))))))

theorem written_separated {element : Regex} (written : Written .choice element) :
    Written .choice (separated element) := by
  have core : Written .part (.plainGroup element) := .once (.plainGroup written)
  have comma : Written .part (.char ',') := .once (.char (by decide))
  have further : Written .choice (chain [.star .blank, .char ',', .star .blank,
      .plainGroup element]) :=
    .only (.full (.andThen (.star .blank) (.andThen comma (.andThen (.star .blank)
      (.last core)))))
  have listing : Written .choice (chain [.plainGroup element, .star (.group (chain
      [.star .blank, .char ',', .star .blank, .plainGroup element]))]) :=
    .only (.full (.andThen core (.last (.star (.group further)))))
  exact .only (.full (.andThen (.optional (.escaped (by decide))) (.andThen (.star .blank)
    (.andThen (.optional (.group listing)) (.andThen (.star .blank)
      (.last (.optional (.escaped (by decide)))))))))

theorem written_collection {element : Regex} (written : Written .choice element) :
    Written .choice (collection element) := by
  unfold collection
  split
  · exact written_any
  · exact written_separated written

end Regex

theorem Shape.written_pattern (shape : Shape) : Regex.Written .choice shape.pattern := by
  induction shape with
  | member type members =>
    apply Regex.written_choice
    intro alternative listed
    obtain ⟨name, -, rfl⟩ := List.mem_map.mp listed
    exact Regex.written_literal name.toList
  | scalar kind =>
    cases kind with
    | text => exact Regex.written_any
    | integer width => exact Regex.written_integer
    | boolean => exact Regex.written_boolean
    | double => exact Regex.written_double
  | sequence form width => exact Regex.written_collection Regex.written_segment
  | collection form element ih => exact Regex.written_collection ih
  | unsupported type => exact Regex.written_any
  | misapplied type found => exact Regex.written_any

/-- The pattern of a type as text matches what the expression behind it matches. -/
theorem Reader.matches_pattern_iff {reader : Reader} {type : TypeExpr} {text : String} :
    Matches (reader.pattern type) text ↔ text.toList ∈ (reader.shape type).pattern.language := by
  have read : Regex.ofText? (reader.pattern type).toList = some (reader.shape type).pattern := by
    rw [Reader.pattern, String.toList_ofList]
    exact Regex.ofText?_write (reader.shape type).written_pattern
  rw [Matches, read]
  simp

/-- Whether an element may be anything can be told from the text of its pattern. -/
theorem Shape.pattern_eq_any_iff {shape : Shape} :
    shape.pattern = .any ↔ shape.pattern.write = ['.', '*'] := by
  constructor
  · intro anything
    rw [anything]
    rfl
  · intro same
    have read := Regex.ofText?_write shape.written_pattern
    rw [same] at read
    exact (Option.some.inj read).symm

end TypedLiteral
