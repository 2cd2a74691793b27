import TypedLiteral.Proofs.Resolution
import TypedLiteral.Proofs.RoundTrip

/-! One element without anything around it. A list of a named type reads it as the named type does,
unless the name is one of the integers' and belongs to an enumeration: then the list takes it as a
number, and the type on its own as a member. -/
namespace TypedLiteral

open Literal

variable {text : List Char}

theorem Plain.balanced (plain : Plain text) : Balanced text :=
  balanced_of_plain plain.bare

theorem Plain.division (plain : Plain text) : Division text [text] := by
  simpa using Division.written plain.written (by simp) .nil

theorem Plain.body (plain : Plain text) : body? text = some text := by
  refine body?_of_open plain.balanced fun inner encloses => ?_
  have opened : '[' ∈ text := by
    rw [← plain.trimmed, encloses.group]
    exact List.mem_cons_self
  exact plain.bare '[' opened (Or.inr (Or.inl rfl))

theorem tokens_of_clear {delimiters : List (List Char)} (clear : Text.Clear delimiters text [])
    (present : text ≠ []) : tokens text delimiters true = [text] := by
  rw [tokens_eq_filter, Text.segmentation_whole (Text.cut?_eq_none_iff.mpr clear)]
  simp [present]

namespace Literal.Sequence

theorem clear_of_single (alone : ',' ∉ text) (undotted : ¬dots <:+: text) :
    Text.Clear [comma, dots] text [] := by
  intro tail inside _ delimiter begins
  have within : delimiter <:+: text := by
    have front := begins.inFront
    rw [List.append_nil] at front
    exact front.isInfix.trans inside.isInfix
  rcases List.mem_pair.mp begins.listed with rfl | rfl
  · exact alone (within.subset List.mem_cons_self)
  · exact undotted within

end Literal.Sequence

/-- A sequence of one number is read as that number is, or fails as it does. -/
theorem readSequence_single {width : Width} {limit : Nat} (plain : Plain text)
    (undotted : ¬Sequence.dots <:+: text) :
    readSequence width limit text = (readInteger width text).map fun number => [number] := by
  have alone : ',' ∉ text := fun member => plain.bare ',' member (Or.inl rfl)
  have single := tokens_of_clear (Sequence.clear_of_single alone undotted) plain.present
  have notComma : text ≠ Sequence.comma := by
    rintro rfl
    exact alone List.mem_cons_self
  have notDots : text ≠ Sequence.dots := by
    rintro rfl
    exact undotted List.infix_rfl
  have taken : Sequence.State.step width limit text {} text =
      (readInteger width text).bind (Sequence.State.number {} limit) := by
    simp [Sequence.State.step, notComma, notDots, plain.trimmed, plain.present]
  rw [readSequence, plain.trimmed, single, List.foldlM_cons, taken]
  cases readInteger width text <;> rfl

namespace Reader

variable {reader : Reader} {type : TypeExpr} {form : Form} {name : TypeIdent}

theorem Collects.read_plain (collects : reader.Collects type form (.named name))
    (ordinary : name.width?.isSome → reader.hierarchy.members? name = none)
    (deep : 1 ≤ reader.limits.maxDepth) (plain : Plain text)
    (undotted : ¬Sequence.dots <:+: text) :
    (reader.shape type).read reader.limits 0 text =
      ((reader.shape (.named name)).read reader.limits 0 text).map
        fun value => .collection form [value] := by
  have kept (value : Value) : Value.ofElements form [value] = .collection form [value] :=
    Value.ofElements_differ fun _ => List.pairwise_singleton _ value
  cases integral : name.width? with
  | some width =>
    have unlisted := ordinary (by rw [integral]; rfl)
    have scalar : reader.Scalar (.named name) (.integer width) :=
      .named unlisted (strategies_of_width integral)
    rw [collects.shape_of_width integral, scalar.shape, Shape.read_sequence deep plain.body,
      readSequence_single plain undotted, Shape.read, readScalar]
    cases readInteger width text with
    | error failure => rfl
    | ok number => exact congrArg Except.ok (kept _)
  | none =>
    have level := reader.levels_named name
    have deeper : (reader.shape (.named name)).read reader.limits 1 text =
        (reader.shape (.named name)).read reader.limits 0 text := by
      unfold Reader.levels at level
      exact Shape.read_depth (by omega) (by omega) text
    rw [collects.shape_of_plain integral, Shape.read_collection deep plain.body plain.division,
      List.mapM_cons, deeper]
    cases (reader.shape (.named name)).read reader.limits 0 text with
    | error failure => rfl
    | ok value => exact congrArg Except.ok (kept value)

end Reader

/-- A list of a named type reads one element as the named type reads it, and fails as it does. The
name of an integer must not be that of an enumeration. -/
theorem read_single_element (reader : Reader) {name : TypeIdent}
    (ordinary : name.width?.isSome → reader.hierarchy.members? name = none)
    (deep : 1 ≤ reader.limits.maxDepth) {text : String} (plain : Plain text.toList)
    (undotted : ¬Sequence.dots <:+: text.toList) :
    (∀ value, reader.read text (.applied .list [.named name]) = .ok (.collection .list [value]) ↔
      reader.read text (.named name) = .ok value) ∧
    ∀ failure, reader.read text (.applied .list [.named name]) = .error failure ↔
      reader.read text (.named name) = .error failure := by
  have lists : reader.Collects (.applied .list [.named name]) .list (.named name) :=
    .list reader.strategies_list
  have same : reader.read text (.applied .list [.named name]) =
      (reader.read text (.named name)).map fun value => .collection .list [value] :=
    lists.read_plain ordinary deep plain undotted
  refine ⟨fun value => ?_, fun failure => ?_⟩
  · rw [same, map_eq_ok_iff]
    simp
  · rw [same, map_eq_error_iff]

theorem read_single_element_redeclared :
    let reader : Reader := { hierarchy := Hierarchy.standard.declare .boxedLong (.ordinary none []) }
    let text := "-9223372036854775808"
    let least : Value := .long (-9223372036854775808)
    ((TypeIdent.boxedLong.width?.isSome → reader.hierarchy.members? .boxedLong = none) ∧
      1 ≤ reader.limits.maxDepth ∧ Plain text.toList ∧ ¬Sequence.dots <:+: text.toList ∧
      reader.read text (.named .boxedLong) = .ok least) ∧
    reader.read text (.applied .list [.named .boxedLong]) = .ok (.collection .list [least]) := by
  intro reader text least
  have ordinary : TypeIdent.boxedLong.width?.isSome → reader.hierarchy.members? .boxedLong = none :=
    fun _ => by decide +kernel
  have deep : 1 ≤ reader.limits.maxDepth := by decide
  have plain : Plain text.toList := ⟨by decide, by decide, by simp [text, IsSeparator, IsBracket]⟩
  have pointless : '.' ∉ text.toList := by decide
  have undotted : ¬Sequence.dots <:+: text.toList :=
    fun dotted => pointless (dotted.subset List.mem_cons_self)
  have read : reader.read text (.named .boxedLong) = .ok least := by decide +kernel
  exact ⟨⟨ordinary, deep, plain, undotted, read⟩,
    ((read_single_element reader ordinary deep plain undotted).1 least).mpr read⟩

/-- As an element, a member of an enumeration that bears the name of an integer is no number. -/
theorem read_enumerated_integer :
    let reader : Reader :=
      { hierarchy := Hierarchy.standard.declare .boxedInt (.enumeration ["ONE"]) }
    let one : Value := .member .boxedInt "ONE"
    (1 ≤ reader.limits.maxDepth ∧ Plain "ONE".toList ∧ ¬Sequence.dots <:+: "ONE".toList) ∧
    reader.read "ONE" (.named .boxedInt) = .ok one ∧
    reader.read "ONE" (.applied .list [.named .boxedInt]) = .error (.numberFormat "ONE" "int") ∧
    reader.read "ONE" (.applied .list [.named .boxedInt]) ≠ .ok (.collection .list [one]) := by
  have plain : Plain "ONE".toList := ⟨by decide, by decide, by simp [IsSeparator, IsBracket]⟩
  refine ⟨⟨by decide, plain, by decide⟩, ?_, ?_, ?_⟩
  all_goals decide +kernel

end TypedLiteral
