import TypedLiteral.Proofs.InnermostType
import TypedLiteral.Proofs.TypeNames

/-! Types are shown without ambiguity as long as their names are not empty and have none of the
characters that stand between names. The last character tells the form of a type, `<` ends the name
in front of it, and of several elements the first one ends at the first comma outside `<` and `>`.
So whoever is told which type cannot be read knows the type. -/
namespace TypedLiteral

/-- The characters that stand between names where a type is shown. -/
def TypeExpr.marks : List Char := ['<', '>', ',', '[', ']']

structure TypeIdent.Legible (name : TypeIdent) : Prop where
  present : name.text ≠ ""
  unmarked : ∀ c ∈ name.text.toList, c ∉ TypeExpr.marks

theorem TypeIdent.legible_iff {name : TypeIdent} : name.Legible ↔
    name.text ≠ "" ∧ name.text.toList.all (fun c => c ∉ TypeExpr.marks) = true := by
  simp only [List.all_eq_true, decide_eq_true_eq]
  exact ⟨fun legible => ⟨legible.present, legible.unmarked⟩,
    fun ⟨present, unmarked⟩ => ⟨present, unmarked⟩⟩

instance (name : TypeIdent) : Decidable name.Legible :=
  decidable_of_iff' _ name.legible_iff

theorem TypeIdent.eq_of_toList {name other : TypeIdent}
    (same : name.text.toList = other.text.toList) : name = other :=
  congrArg TypeIdent.mk (String.toList_inj.mp same)

namespace TypeExpr

def Legible (type : TypeExpr) : Prop := ∀ name ∈ type.names, name.Legible

instance (type : TypeExpr) : Decidable type.Legible :=
  inferInstanceAs (Decidable (∀ name ∈ type.names, name.Legible))

variable {type element : TypeExpr} {elements others : List TypeExpr} {name other : TypeIdent}

theorem Legible.of_named (legible : (named name).Legible) : name.Legible :=
  legible name (List.mem_singleton_self name)

theorem Legible.of_applied (legible : (applied name elements).Legible) : name.Legible :=
  legible name List.mem_cons_self

theorem Legible.of_mem (legible : (applied name elements).Legible) (listed : element ∈ elements) :
    element.Legible :=
  fun inner mentioned =>
    legible inner (List.mem_cons_of_mem name (mem_namesAll.mpr ⟨element, listed, mentioned⟩))

/-- What is left of a text from the first comma on that is outside all `<` and `>`, `depth` of which
are open at the start. -/
def afterFirst (depth : Nat) : List Char → List Char
  | [] => []
  | c :: rest =>
    if c = ',' ∧ depth = 0 then c :: rest
    else if c = '<' then afterFirst (depth + 1) rest
    else if c = '>' then afterFirst (depth - 1) rest
    else afterFirst depth rest

/-- The part has no comma that could end the first element, and closes all that it opens. -/
def Skipped (depth : Nat) (part : List Char) : Prop :=
  ∀ rest, afterFirst depth (part ++ rest) = afterFirst depth rest

variable {depth : Nat} {part next : List Char}

theorem Skipped.append (first : Skipped depth part) (second : Skipped depth next) :
    Skipped depth (part ++ next) := by
  intro rest
  rw [List.append_assoc, first, second]

theorem skipped_of_plain (plain : ∀ c ∈ part, c ≠ ',' ∧ c ≠ '<' ∧ c ≠ '>') :
    Skipped depth part := by
  intro rest
  induction part with
  | nil => rfl
  | cons c part ih =>
    obtain ⟨⟨comma, left, right⟩, plain⟩ := List.forall_mem_cons.mp plain
    rw [List.cons_append, afterFirst, if_neg fun outside => comma outside.1, if_neg left,
      if_neg right, ih plain]

theorem Skipped.enclosed (inner : Skipped (depth + 1) part) :
    Skipped depth ('<' :: (part ++ ['>'])) := by
  intro rest
  rw [List.cons_append, List.append_assoc, afterFirst, if_neg (by simp), if_pos rfl, inner,
    List.singleton_append, afterFirst, if_neg (by simp), if_neg (by decide), if_pos rfl,
    Nat.add_sub_cancel]

theorem skipped_separator : Skipped (depth + 1) [',', ' '] := by
  intro rest
  simp [afterFirst]

theorem skipped_displayTail
    (each : ∀ element ∈ elements, Skipped (depth + 1) (display element)) :
    Skipped (depth + 1) (displayTail elements) := by
  induction elements with
  | nil => exact fun rest => rfl
  | cons element elements ih =>
    obtain ⟨first, each⟩ := List.forall_mem_cons.mp each
    exact skipped_separator.append (first.append (ih each))

theorem skipped_displayAll
    (each : ∀ element ∈ elements, Skipped (depth + 1) (display element)) :
    Skipped (depth + 1) (displayAll elements) := by
  cases elements with
  | nil => exact fun rest => rfl
  | cons element elements =>
    obtain ⟨first, each⟩ := List.forall_mem_cons.mp each
    exact first.append (skipped_displayTail each)

theorem skipped_name (legible : name.Legible) : Skipped depth name.text.toList := by
  refine skipped_of_plain fun c letter => ?_
  have unmarked := legible.unmarked c letter
  refine ⟨?_, ?_, ?_⟩ <;>
    · rintro rfl
      exact unmarked (by decide)

theorem skipped_display (legible : type.Legible) : Skipped depth (display type) := by
  induction type using induction_on_elements generalizing depth with
  | named name => exact skipped_name legible.of_named
  | applied name elements ih =>
    refine (skipped_name legible.of_applied).append (.enclosed (skipped_displayAll ?_))
    exact fun element listed => ih element listed (legible.of_mem listed)
  | array element ih =>
    exact (ih legible).append (skipped_of_plain (by simp))

theorem afterFirst_display (legible : type.Legible) :
    afterFirst 0 (display type ++ displayTail elements) = displayTail elements := by
  rw [skipped_display legible]
  cases elements with
  | nil => rfl
  | cons element elements => rfl

theorem getLast?_display_applied : (display (applied name elements)).getLast? = some '>' := by
  rw [display, ← List.cons_append, ← List.append_assoc, List.getLast?_concat]

theorem getLast?_display_array : (display (array element)).getLast? = some ']' := by
  rw [display, List.append_cons, List.getLast?_concat]

theorem getLast?_display_named (legible : (named name).Legible) {c : Char} (mark : c ∈ marks) :
    (display (named name)).getLast? ≠ some c := fun last =>
  legible.of_named.unmarked c (List.mem_of_getLast? last) mark

theorem display_ne_nil (legible : type.Legible) : display type ≠ [] := by
  cases type with
  | named name =>
    intro empty
    exact legible.of_named.present (String.toList_eq_nil_iff.mp empty)
  | applied name elements => exact List.append_ne_nil_of_right_ne_nil _ (List.cons_ne_nil _ _)
  | array element => exact List.append_ne_nil_of_right_ne_nil _ (List.cons_ne_nil _ _)

theorem displayAll_of_displayTail (same : displayTail elements = displayTail others) :
    displayAll elements = displayAll others := by
  cases elements with
  | nil =>
    cases others with
    | nil => rfl
    | cons => contradiction
  | cons =>
    cases others with
    | nil => contradiction
    | cons => exact (List.cons.inj (List.cons.inj same).2).2

theorem displayAll_injective (legible : ∀ element ∈ elements, element.Legible)
    (otherLegible : ∀ element ∈ others, element.Legible)
    (each : ∀ element ∈ elements, ∀ other : TypeExpr, other.Legible →
      display element = display other → element = other)
    (same : displayAll elements = displayAll others) : elements = others := by
  induction elements generalizing others with
  | nil =>
    cases others with
    | nil => rfl
    | cons other others =>
      obtain ⟨readable, -⟩ := List.forall_mem_cons.mp otherLegible
      exact absurd (List.append_eq_nil_iff.mp same.symm).1 (display_ne_nil readable)
  | cons element elements ih =>
    obtain ⟨legible, behind⟩ := List.forall_mem_cons.mp legible
    cases others with
    | nil => exact absurd (List.append_eq_nil_iff.mp same).1 (display_ne_nil legible)
    | cons other others =>
      obtain ⟨otherLegible, otherBehind⟩ := List.forall_mem_cons.mp otherLegible
      obtain ⟨first, each⟩ := List.forall_mem_cons.mp each
      have tails : displayTail elements = displayTail others := by
        have rests := congrArg (afterFirst 0) same
        rwa [displayAll, displayAll, afterFirst_display legible,
          afterFirst_display otherLegible] at rests
      have heads : display element = display other := by
        rw [displayAll, displayAll, tails] at same
        exact List.append_cancel_right same
      rw [first other otherLegible heads,
        ih behind otherBehind each (displayAll_of_displayTail tails)]

theorem takeWhile_name (legible : name.Legible) (rest : List Char) :
    (name.text.toList ++ '<' :: rest).takeWhile (· ≠ '<') = name.text.toList := by
  rw [List.takeWhile_append_of_pos, List.takeWhile_cons_of_neg (by simp), List.append_nil]
  intro c letter
  refine decide_eq_true fun mark => ?_
  exact legible.unmarked c letter (mark ▸ by decide)

theorem display_injective {first second : TypeExpr} (legible : first.Legible)
    (otherLegible : second.Legible) (same : display first = display second) : first = second := by
  -- Types of two forms end in different characters, so only pairs of one form are left.
  induction first using induction_on_elements generalizing second with
  | named name =>
    have last := congrArg List.getLast? same
    cases second with
    | named other => rw [TypeIdent.eq_of_toList same]
    | applied =>
      rw [getLast?_display_applied] at last
      exact absurd last (getLast?_display_named legible (by decide))
    | array =>
      rw [getLast?_display_array] at last
      exact absurd last (getLast?_display_named legible (by decide))
  | applied name elements ih =>
    have last := congrArg List.getLast? same
    rw [getLast?_display_applied] at last
    cases second with
    | named other => exact absurd last.symm (getLast?_display_named otherLegible (by decide))
    | applied other others =>
      have names : name.text.toList = other.text.toList := by
        have starts := congrArg (List.takeWhile (· ≠ '<')) same
        rwa [display, display, takeWhile_name legible.of_applied,
          takeWhile_name otherLegible.of_applied] at starts
      obtain rfl := TypeIdent.eq_of_toList names
      have inside : displayAll elements = displayAll others :=
        List.append_cancel_right (List.cons.inj (List.append_cancel_left same)).2
      have listed : elements = others := displayAll_injective (fun _ => legible.of_mem)
        (fun _ => otherLegible.of_mem)
        (fun element member _ => ih element member (legible.of_mem member)) inside
      rw [listed]
    | array =>
      rw [getLast?_display_array] at last
      contradiction
  | array element ih =>
    have last := congrArg List.getLast? same
    rw [getLast?_display_array] at last
    cases second with
    | named other => exact absurd last.symm (getLast?_display_named otherLegible (by decide))
    | applied =>
      rw [getLast?_display_applied] at last
      contradiction
    | array other =>
      have readable : other.Legible := otherLegible
      rw [ih legible readable (List.append_cancel_right same)]

end TypeExpr

theorem Reader.Innermost.legible {reader : Reader} {type core : TypeExpr}
    (innermost : reader.Innermost type core) (legible : type.Legible) : core.Legible := by
  induction innermost with
  | here => exact legible
  | inside collects inner ih =>
    cases collects with
    | array => exact ih legible
    | list | set => exact ih (legible.of_mem (List.mem_singleton_self _))

/-- Legible types that are shown alike are the same. So the type that is shown where a literal is
turned down for its type is known from that: it is the innermost one. -/
theorem display_determines_type :
    (∀ first second : TypeExpr, first.Legible → second.Legible →
      first.display = second.display → first = second) ∧
    ∀ (reader : Reader) (type : TypeExpr) (text : String) (failure : Failure) (shown : String),
      type.Legible → reader.read text type = .error failure → failure.Rejects shown →
      ∃ core, reader.Innermost type core ∧ shown = String.ofList core.display ∧
        ∀ other : TypeExpr, other.Legible → String.ofList other.display = shown → other = core := by
  refine ⟨fun first second => TypeExpr.display_injective, ?_⟩
  intro reader type text failure shown legible failed rejects
  obtain ⟨core, innermost⟩ := reader.exists_innermost type
  obtain ⟨named, -⟩ := innermost.rejected (Shape.read_failure failed) rejects
  refine ⟨core, innermost, named, fun other readable same => ?_⟩
  exact TypeExpr.display_injective readable (innermost.legible legible)
    (String.ofList_injective (same.trans named))

theorem display_determines_type_nested :
    let string : TypeExpr := .named .string
    let table : TypeExpr := .applied ⟨"Map"⟩ [.applied ⟨"Pair"⟩ [string, .array string],
      .array (.applied ⟨"Nil"⟩ [])]
    let tables : TypeExpr := .array (.applied .list [table])
    let shown := "Map<Pair<String, String[]>, Nil<>[]>"
    let failure : Failure := .unsupportedType shown "b"
    (table.Legible ∧ String.ofList table.display = shown ∧
      ∀ other : TypeExpr, other.Legible → other.display = table.display → other = table) ∧
    tables.Legible ∧ Reader.read {} "[[b]]" tables = .error failure ∧ failure.Rejects shown ∧
      Reader.Innermost {} tables table := by
  intro string table tables shown failure
  have legible : table.Legible := by decide +kernel
  have display : String.ofList table.display = shown := by decide +kernel
  have readable : tables.Legible := by decide +kernel
  have failed : Reader.read {} "[[b]]" tables = .error failure := by decide +kernel
  have rejects : failure.Rejects shown := .unsupported shown "b"
  obtain ⟨core, innermost, -, only⟩ :=
    display_determines_type.2 {} tables "[[b]]" failure shown readable failed rejects
  obtain rfl := only table legible display
  exact ⟨⟨legible, display, fun other otherLegible =>
    display_determines_type.1 other table otherLegible legible⟩, readable, failed, rejects, innermost⟩

end TypedLiteral
