import TypedLiteral.Proofs.Conformance
import TypedLiteral.Proofs.Reports
import TypedLiteral.Proofs.SingleElement

/-! The limit on nesting. A type nests as many collections as its shape has levels, and no value of
it is higher. Literals are cut off exactly where the type nests deeper than the limit allows: then
already a single word is, because an element without brackets is read at every level down to the
innermost one. -/
namespace TypedLiteral

open Literal

namespace Value

mutual

/-- How deep collections lie in one another. A scalar has no height. -/
def height : Value → Nat
  | .collection _ elements => tallest elements + 1
  | _ => 0

def tallest : List Value → Nat
  | [] => 0
  | value :: values => max (height value) (tallest values)

end

theorem tallest_le_iff {values : List Value} {bound : Nat} :
    tallest values ≤ bound ↔ ∀ value ∈ values, value.height ≤ bound := by
  induction values with
  | nil => simp [tallest]
  | cons value values ih => rw [tallest, Nat.max_le, ih, List.forall_mem_cons]

theorem height_of_scalar {value : Value} (scalar : value.elements? = none) : value.height = 0 := by
  cases value <;> simp_all [height, elements?]

theorem height_ofElements_le {form : Form} {elements : List Value} {bound : Nat}
    (each : ∀ part ∈ elements, part.height ≤ bound) :
    (ofElements form elements).height ≤ bound + 1 := by
  rw [ofElements, height]
  refine Nat.succ_le_succ (tallest_le_iff.mpr fun part member => ?_)
  split at member
  · exact each part ((distinct_sublist elements).subset member)
  · exact each part member

end Value

/-- The type is a collection type around so many others, each the element type of the one before. -/
inductive Reader.Nests (reader : Reader) : TypeExpr → Nat → Prop
  | flat {type} (single : ∀ form element, ¬reader.Collects type form element) : Nests reader type 0
  | deeper {type form element count} (collects : reader.Collects type form element)
      (inside : Nests reader element count) : Nests reader type (count + 1)

theorem Reader.nests_iff {reader : Reader} {type : TypeExpr} {count : Nat} :
    reader.Nests type count ↔ count = reader.levels type := by
  constructor
  · intro nests
    induction nests with
    | @flat type single =>
      by_contra nested
      obtain ⟨form, element, collects⟩ := Reader.exists_collects (Nat.pos_of_ne_zero (Ne.symm nested))
      exact single form element collects
    | deeper collects inside ih => rw [collects.levels, ih]
  · intro same
    induction count generalizing type with
    | zero =>
      refine .flat fun form element collects => ?_
      rw [collects.levels] at same
      contradiction
    | succ count ih =>
      have nested : 0 < reader.levels type := by omega
      obtain ⟨form, element, collects⟩ := Reader.exists_collects nested
      rw [collects.levels] at same
      exact .deeper collects (ih (Nat.succ.inj same))

/-- The value is at most so high, and where it lies within the limit, all that it holds does. -/
structure Value.Bounded (limits : Limits) (depth levels : Nat) (value : Value) : Prop where
  levels : value.height ≤ levels
  limit : depth ≤ limits.maxDepth → depth + value.height ≤ limits.maxDepth

namespace Shape

variable {limits : Limits} {shape : Shape} {depth : Nat} {text : List Char}

theorem bounded_of_scalar {value : Value} (scalar : value.elements? = none) (depth levels : Nat) :
    value.Bounded limits depth levels := by
  have flat := Value.height_of_scalar scalar
  constructor <;> omega

theorem bounded_ofElements {form : Form} {elements : List Value} {levels : Nat}
    (shallow : depth < limits.maxDepth)
    (each : ∀ part ∈ elements, part.Bounded limits (depth + 1) levels) :
    (Value.ofElements form elements).Bounded limits depth (levels + 1) where
  levels := Value.height_ofElements_le fun part member => (each part member).levels
  limit := by
    intro _
    have room : (Value.ofElements form elements).height ≤ limits.maxDepth - (depth + 1) + 1 :=
      Value.height_ofElements_le fun part member =>
        Nat.le_sub_of_add_le' ((each part member).limit shallow)
    omega

theorem bounded_of_read {value : Value} (succeeded : shape.read limits depth text = .ok value) :
    value.Bounded limits depth shape.levels := by
  induction shape generalizing depth text value with
  | member type members =>
    obtain ⟨-, rfl⟩ := readMember_eq_ok_iff.mp succeeded
    exact bounded_of_scalar rfl depth _
  | scalar kind => exact bounded_of_scalar (variant_of_readScalar succeeded).scalar depth _
  | unsupported type => contradiction
  | misapplied type found => contradiction
  | sequence form width =>
    have nested : 0 < (sequence form width).levels := Nat.one_pos
    obtain ⟨shallow, -⟩ := exists_body_of_read nested succeeded
    obtain ⟨-, numbers, -, -, rfl⟩ := exists_of_read_sequence succeeded
    refine bounded_ofElements shallow fun part member => ?_
    obtain ⟨number, -, rfl⟩ := List.mem_map.mp member
    exact bounded_of_scalar (width.variant_value number).scalar _ 0
  | collection form element ih =>
    have nested : 0 < (collection form element).levels := Nat.succ_pos _
    obtain ⟨shallow, -⟩ := exists_body_of_read nested succeeded
    obtain ⟨-, texts, values, -, -, each, rfl⟩ := exists_of_read_collection succeeded
    exact bounded_ofElements shallow (forall_mem_of_forall₂ (each.imp fun _ _ read => ih read))

/-- The limit is reported only where levels are left that lie below it. -/
theorem Reports.of_tooDeep {limit : Nat} {shown : String}
    (reports : shape.Reports limits depth text (.nestingTooDeep limit shown)) :
    limit = limits.maxDepth ∧ limits.maxDepth < depth + shape.levels := by
  generalize same : Failure.nestingTooDeep limit shown = failure at reports
  induction reports with
  | tooDeep nested deep =>
    cases same
    exact ⟨rfl, by omega⟩
  | element shallow unwrapped division listed reports ih =>
    obtain ⟨named, beyond⟩ := ih same
    refine ⟨named, ?_⟩
    rw [levels]
    omega
  | scalar reports => cases reports <;> contradiction
  | sequence shallow unwrapped reports => cases reports <;> contradiction
  | _ => contradiction

theorem enter_deep (deep : limits.maxDepth ≤ depth) :
    enter limits depth text = .error (.nestingTooDeep limits.maxDepth (String.ofList text)) := by
  rw [enter, if_pos deep]

/-- A single element is taken down to the level at which the limit stops it. -/
theorem read_plain_deep (plain : Plain text) (reached : depth ≤ limits.maxDepth)
    (beyond : limits.maxDepth < depth + shape.levels) :
    shape.read limits depth text =
      .error (.nestingTooDeep limits.maxDepth (String.ofList text)) := by
  induction shape generalizing depth with
  | sequence form width =>
    rw [levels] at beyond
    exact read_of_enter_error Nat.one_pos (enter_deep (by omega))
  | collection form element ih =>
    rw [levels] at beyond
    by_cases deep : limits.maxDepth ≤ depth
    · exact read_of_enter_error (Nat.succ_pos _) (enter_deep deep)
    · have inside := @ih (depth + 1) (by omega) (by omega)
      rw [read_collection (by omega) plain.body plain.division, List.mapM_cons, inside]
      rfl
  | _ => exact absurd beyond (Nat.not_lt_of_le reached)

end Shape

/-- The limit bounds how high values are, and it cuts off no literal of a type that keeps to it.
Of a type that does not, even single words are cut off. -/
theorem read_nesting_limit (reader : Reader) (type : TypeExpr) :
    (∀ count, reader.Nests type count ↔ count = reader.levels type) ∧
    (∀ text value, reader.read text type = .ok value →
      value.height ≤ reader.limits.maxDepth ∧ value.height ≤ reader.levels type) ∧
    (reader.levels type ≤ reader.limits.maxDepth →
      ∀ text limit shown, reader.read text type ≠ .error (.nestingTooDeep limit shown)) ∧
    (∀ text limit shown, reader.read text type = .error (.nestingTooDeep limit shown) →
      limit = reader.limits.maxDepth ∧ reader.limits.maxDepth < reader.levels type) ∧
    (reader.limits.maxDepth < reader.levels type → ∀ text : String, Plain text.toList →
      reader.read text type = .error (.nestingTooDeep reader.limits.maxDepth text)) := by
  have reported (text : String) (limit : Nat) (shown : String)
      (failed : reader.read text type = .error (.nestingTooDeep limit shown)) :
      limit = reader.limits.maxDepth ∧ reader.limits.maxDepth < reader.levels type := by
    obtain ⟨named, beyond⟩ := (Shape.read_failure failed).of_tooDeep
    rw [Nat.zero_add] at beyond
    exact ⟨named, beyond⟩
  refine ⟨fun count => Reader.nests_iff, fun text value succeeded => ?_, ?_, reported, ?_⟩
  · have bounded := Shape.bounded_of_read succeeded
    have low := bounded.limit (Nat.zero_le _)
    rw [Nat.zero_add] at low
    exact ⟨low, bounded.levels⟩
  · intro fits text limit shown failed
    exact absurd fits (Nat.not_le_of_lt (reported text limit shown failed).2)
  · intro beyond text plain
    rw [← Nat.zero_add (reader.levels type)] at beyond
    have cut := Shape.read_plain_deep plain (Nat.zero_le _) beyond
    rw [String.ofList_toList] at cut
    exact cut

theorem read_nesting_limit_rows :
    let reader : Reader := { limits := { maxDepth := 2 } }
    let rows : TypeExpr := .array (.applied .list [.named .string])
    let pages : TypeExpr := .applied .set [rows]
    let row (texts : List String) : Value := .collection .list (texts.map .text)
    let value : Value := .collection .array [row ["a"], row ["b", "c"]]
    (reader.read "[[a], [b, c]]" rows = .ok value ∧ reader.levels rows ≤ reader.limits.maxDepth ∧
      reader.limits.maxDepth < reader.levels pages ∧ Plain "x".toList) ∧
    (reader.Nests rows (reader.levels rows) ∧ value.height ≤ reader.levels rows) ∧
    (∀ limit shown, reader.read "[[[a]]]" rows ≠ .error (.nestingTooDeep limit shown)) ∧
    reader.read "x" pages = .error (.nestingTooDeep 2 "x") ∧
    reader.limits.maxDepth < reader.levels pages := by
  intro reader rows pages row value
  have read : reader.read "[[a], [b, c]]" rows = .ok value := by decide +kernel
  have fits : reader.levels rows ≤ reader.limits.maxDepth := by decide +kernel
  have beyond : reader.limits.maxDepth < reader.levels pages := by decide +kernel
  have plain : Plain "x".toList := ⟨by decide, by decide, by simp [IsSeparator, IsBracket]⟩
  obtain ⟨nests, heights, whole, -, -⟩ := read_nesting_limit reader rows
  obtain ⟨-, -, -, reported, cut⟩ := read_nesting_limit reader pages
  have stopped := cut beyond "x" plain
  exact ⟨⟨read, fits, beyond, plain⟩, ⟨(nests _).mpr rfl, (heights _ value read).2⟩,
    whole fits "[[[a]]]", stopped, (reported "x" _ _ stopped).2⟩

end TypedLiteral
