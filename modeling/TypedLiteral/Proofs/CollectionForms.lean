import TypedLiteral.Proofs.Conformance

/-! One literal read as a list, as an array and as a set. The three readings fail together, and
where they succeed, they differ in the form and in what a set leaves out: every element that is the
same as one in front of it. Which elements these are does not depend on the order in which a set is
built up, because sameness is transitive. -/
namespace TypedLiteral

namespace Value

/-- The values that are the same neither as an earlier one nor as one in front of them. -/
def firstOccurrences (earlier : List Value) : List Value → List Value
  | [] => []
  | value :: values =>
    if earlier.any value.same then firstOccurrences (value :: earlier) values
    else value :: firstOccurrences (value :: earlier) values

theorem firstOccurrences_append (earlier front : List Value) (value : Value) :
    firstOccurrences earlier (front ++ [value]) =
      firstOccurrences earlier front ++
        if (front.reverse ++ earlier).any value.same then [] else [value] := by
  induction front generalizing earlier with
  | nil =>
    rw [List.nil_append, firstOccurrences, firstOccurrences, firstOccurrences]
    rfl
  | cons first front ih =>
    rw [List.cons_append, firstOccurrences, firstOccurrences, ih, List.reverse_cons,
      List.append_assoc, List.singleton_append]
    split <;> rfl

private theorem new_or_new {first second third : Value} (new : New first third) :
    New first second ∨ New second third := by
  by_contra both
  obtain ⟨front, back⟩ := not_or.mp both
  have joined := same_trans (Bool.of_not_eq_false front) (Bool.of_not_eq_false back)
  rw [new] at joined
  contradiction

/-- What is new after the elements kept so far is new after all of them. -/
theorem forall_new_pwFilter {value : Value} {values : List Value} :
    (∀ earlier ∈ values.pwFilter New, New value earlier) ↔
      ∀ earlier ∈ values, New value earlier :=
  List.forall_mem_pwFilter @new_or_new value values

theorem distinct_eq_firstOccurrences (values : List Value) :
    distinct values = firstOccurrences [] values := by
  induction values using List.reverseRecOn with
  | nil => rfl
  | append_singleton front value ih =>
    rw [distinct_eq] at ih ⊢
    rw [firstOccurrences_append, ← ih, List.reverse_concat, List.append_nil]
    by_cases new : ∀ earlier ∈ front.reverse, New value earlier
    · have absent : ¬front.reverse.any value.same := by simpa [New] using new
      rw [List.pwFilter_cons_of_pos (forall_new_pwFilter.mpr new), if_neg absent,
        List.reverse_cons]
    · have present : front.reverse.any value.same := by simpa [New] using new
      rw [List.pwFilter_cons_of_neg (forall_new_pwFilter.not.mpr new), if_pos present,
        List.append_nil]

/-- How the elements of a set come from those of a list. -/
structure Collapses (all kept : List Value) : Prop where
  firsts : kept = firstOccurrences [] all
  ordered : kept.Sublist all
  apart : Apart kept
  covered : ∀ value ∈ all, kept.countP value.same = 1

private theorem exists_same_distinct {value : Value} {values : List Value}
    (member : value ∈ values) : ∃ kept ∈ distinct values, value.same kept = true := by
  by_contra missing
  have new : ∀ earlier ∈ values.reverse.pwFilter New, New value earlier := by
    intro earlier kept
    by_contra same
    refine missing ⟨earlier, ?_, Bool.of_not_eq_false same⟩
    rw [distinct_eq]
    exact List.mem_reverse.mpr kept
  have itself : New value value := forall_new_pwFilter.mp new value (List.mem_reverse.mpr member)
  rw [New, same_refl] at itself
  contradiction

private theorem countP_eq_one {value : Value} (proper : value.Proper) {kept : List Value}
    (apart : Apart kept) (found : ∃ other ∈ kept, value.same other = true) :
    kept.countP value.same = 1 := by
  obtain ⟨other, member, same⟩ := found
  obtain ⟨before, after, rfl⟩ := List.append_of_mem member
  obtain ⟨-, behind, across⟩ := List.pairwise_append.mp apart
  -- A second match would be the same as the first one.
  have unmatched (third : Value) (differ : other.same third = false) :
      ¬value.same third = true := by
    intro again
    have joined := same_trans (proper.same_symm same) again
    rw [differ] at joined
    contradiction
  have front : before.countP value.same = 0 := List.countP_eq_zero.mpr fun third early =>
    unmatched third (across third early other List.mem_cons_self).2
  have back : after.countP value.same = 0 := List.countP_eq_zero.mpr fun third late =>
    unmatched third ((List.pairwise_cons.mp behind).1 third late).1
  rw [List.countP_append, List.countP_cons_of_pos same, front, back]

theorem collapses_distinct {values : List Value} (proper : ∀ value ∈ values, value.Proper) :
    Collapses values (distinct values) where
  firsts := distinct_eq_firstOccurrences values
  ordered := distinct_sublist values
  apart := apart_distinct proper
  covered value member :=
    countP_eq_one (proper value member) (apart_distinct proper) (exists_same_distinct member)

end Value

open Literal

/-- A literal has the same elements under every form, or fails under every form in the same way. -/
theorem Reader.exists_elements (reader : Reader) (element : TypeExpr) (depth : Nat)
    (text : List Char) :
    ∃ outcome : Except Failure (List Value), ∀ type form, reader.Collects type form element →
      (reader.shape type).read reader.limits depth text = outcome.map (Value.ofElements form) := by
  cases entered : Shape.enter reader.limits depth text with
  | error failure =>
    refine ⟨.error failure, fun type form collects => ?_⟩
    exact Shape.read_of_enter_error collects.levels_pos entered
  | ok body =>
    obtain ⟨shallow, unwrapped⟩ := Shape.enter_eq_ok_iff.mp entered
    cases integral : element.width? with
    | some width =>
      refine ⟨(readSequence width reader.limits.maxRangeLength body).map (·.map width.value), ?_⟩
      intro type form collects
      rw [collects.shape_of_width integral, Shape.read_sequence shallow unwrapped]
      cases readSequence width reader.limits.maxRangeLength body <;> rfl
    | none =>
      obtain ⟨texts, division⟩ := exists_division (body?_balanced unwrapped)
      refine ⟨texts.mapM ((reader.shape element).read reader.limits (depth + 1)), ?_⟩
      intro type form collects
      rw [collects.shape_of_plain integral, Shape.read_collection shallow unwrapped division]

/-- Reading a literal as a list, as an array and as a set of one element type gives the same
failure three times, or the same elements, of which the set keeps the first occurrences. -/
theorem read_forms (reader : Reader) {list set : TypeIdent}
    (lists : reader.strategies.get? list = some .list)
    (sets : reader.strategies.get? set = some .set) (element : TypeExpr) (text : String) :
    (∃ failure, reader.read text (.applied list [element]) = .error failure ∧
      reader.read text (.array element) = .error failure ∧
      reader.read text (.applied set [element]) = .error failure) ∨
    ∃ all kept, reader.read text (.applied list [element]) = .ok (.collection .list all) ∧
      reader.read text (.array element) = .ok (.collection .array all) ∧
      reader.read text (.applied set [element]) = .ok (.collection .set kept) ∧
      Value.Collapses all kept := by
  obtain ⟨outcome, same⟩ := reader.exists_elements element 0 text.toList
  have asList := same _ _ (.list lists)
  have asArray := same _ _ .array
  have asSet := same _ _ (.set sets)
  cases outcome with
  | error failure => exact Or.inl ⟨failure, asList, asArray, asSet⟩
  | ok all =>
    have proper : (Value.collection .list all).Proper :=
      (Reader.conforms_of_read (reader.resolves _) asList).proper
    refine Or.inr ⟨all, Value.distinct all, asList, asArray, asSet, ?_⟩
    cases proper with
    | scalar scalar => contradiction
    | collection each apart => exact Value.collapses_distinct each

/-- Two sets of one size are one element when they differ in nothing but their order. -/
theorem read_forms_inherited :
    let chain : TypeIdent := ⟨"Chain"⟩
    let hierarchy := Hierarchy.standard.declare .list (.interface [chain])
    let reader : Reader := { hierarchy }
    let words : TypeExpr := .applied .iterable [.named .string]
    let text := "[a, b], [], [b, a, b], [c], []"
    let set (texts : List String) : Value := .collection .set (texts.map .text)
    (reader.strategies.get? chain = some .list ∧
      reader.strategies.get? .collection = some .set ∧
      reader.read text (.array words) =
        .ok (.collection .array [set ["a", "b"], set [], set ["b", "a"], set ["c"], set []]) ∧
      reader.read text (.applied .collection [words]) =
        .ok (.collection .set [set ["a", "b"], set [], set ["c"]])) ∧
    ∃ all kept, reader.read text (.applied chain [words]) = .ok (.collection .list all) ∧
      reader.read text (.array words) = .ok (.collection .array all) ∧
      reader.read text (.applied .collection [words]) = .ok (.collection .set kept) ∧
      Value.Collapses all kept := by
  intro chain hierarchy reader words text set
  have lists : reader.strategies.get? chain = some .list := by decide +kernel
  have sets : reader.strategies.get? .collection = some .set := by decide +kernel
  have asArray : reader.read text (.array words) =
      .ok (.collection .array [set ["a", "b"], set [], set ["b", "a"], set ["c"], set []]) := by
    decide +kernel
  have asSet : reader.read text (.applied .collection [words]) =
      .ok (.collection .set [set ["a", "b"], set [], set ["c"]]) := by decide +kernel
  refine ⟨⟨lists, sets, asArray, asSet⟩, (read_forms reader lists sets words text).resolve_left ?_⟩
  rintro ⟨failure, -, failed, -⟩
  rw [asArray] at failed
  contradiction

end TypedLiteral
