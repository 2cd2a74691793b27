import Mathlib.Logic.Relation
import TypedLiteral.Proofs.DistinctElements
import TypedLiteral.Proofs.Listing
import TypedLiteral.Proofs.SequenceReading

/-! Collections written and read again. Every collection is written as a bracketed listing of its
elements. An element in brackets is read by what is between them, and that is read as its own
elements unless it is one bracketed group: the reason why a collection of just one collection can
be written at the root only. -/
namespace TypedLiteral

open Literal

/-- A text that stands for itself wherever it is an element. -/
structure Plain (text : List Char) : Prop where
  present : text ≠ []
  trimmed : Text.trim text = text
  bare : ∀ c ∈ text, ¬IsSeparator c

theorem Plain.written {text : List Char} (plain : Plain text) : Written text text := by
  have present : Text.trim text ≠ [] := by
    rw [plain.trimmed]
    exact plain.present
  have written := Written.run present plain.bare
  rwa [plain.trimmed] at written

namespace Value

def listing (elements : List Value) : List Char :=
  ' ' :: (renderAll elements ++ [' '])

/-- What is left of a value as an element of a literal. -/
def inner : Value → List Char
  | .collection _ elements => listing elements
  | value => value.render

theorem render_collection (form : Form) (elements : List Value) :
    render (.collection form elements) = bracketed (listing elements) := by
  simp [render, bracketed, listing]

theorem renderAll_eq_intercalate (elements : List Value) :
    renderAll elements = [',', ' '].intercalate (elements.map render) := by
  have tail (later : List Value) (first : Value) :
      first.render ++ renderTail later = [',', ' '].intercalate ((first :: later).map render) := by
    induction later generalizing first with
    | nil => simp [renderTail]
    | cons next later ih => simp [renderTail, ih next]
  cases elements with
  | nil => rfl
  | cons first later => exact tail later first

theorem listing_eq (elements : List Value) :
    listing elements = [' '] ++ ([',', ' '].intercalate (elements.map render) ++ [' ']) := by
  rw [listing, renderAll_eq_intercalate]
  rfl

def ElementOf (part value : Value) : Prop := part ∈ value.elements

/-- A collection of exactly one element, which is again a collection. -/
def Lone (value : Value) : Prop :=
  ∃ part, value.elements? = some [part] ∧ part.elements?.isSome

/-- No collection strictly inside is lone. -/
def Spread (value : Value) : Prop :=
  ∀ part, Relation.TransGen ElementOf part value → ¬part.Lone

theorem Spread.element {value part : Value} (spread : value.Spread) (member : part ∈ value.elements) :
    part.Spread ∧ ¬part.Lone :=
  ⟨fun other inside => spread other (inside.tail member), spread part (.single member)⟩

theorem spread_of_elements {value : Value}
    (each : ∀ part ∈ value.elements, part.Spread ∧ ¬part.Lone) : value.Spread := by
  intro part inside
  cases inside with
  | single member => exact (each part member).2
  | tail deeper member => exact (each _ member).1 part deeper

end Value

namespace Reader

/-- The value is of the shape of the type: collections of their form, and sets of elements that all
differ; integers of the width of the element type; and any other scalar reads back by itself. -/
inductive Fits (reader : Reader) : TypeExpr → Value → Prop
  | leaf {type value} (scalar : value.elements? = none) (plain : Plain value.render)
      (read : reader.read value.toText type = .ok value) : Fits reader type value
  | integers {type element form width numbers elements}
      (collects : reader.Collects type form element) (integral : element.width? = some width)
      (each : List.Forall₂ width.Represents numbers elements)
      (differ : form = .set → Value.AllDiffer elements) : Fits reader type (.collection form elements)
  | elements {type element form elements} (collects : reader.Collects type form element)
      (other : element.width? = none) (each : ∀ part ∈ elements, Fits reader element part)
      (differ : form = .set → Value.AllDiffer elements) : Fits reader type (.collection form elements)

end Reader

theorem Width.Represents.render {width : Width} {number : Int} {value : Value}
    (represents : width.Represents number value) : value.render = writeInteger number := by
  cases represents <;> rfl

namespace Value

theorem ofElements_differ {form : Form} {elements : List Value}
    (differ : form = .set → AllDiffer elements) :
    ofElements form elements = .collection form elements := by
  unfold ofElements
  split
  · rename_i set
    rw [distinct_of_allDiffer (differ set)]
  · rfl

theorem inner_of_scalar {value : Value} (scalar : value.elements? = none) :
    value.inner = value.render := by
  cases value <;> simp_all [elements?, inner]

theorem written_of_represents {width : Width} {number : Int} {value : Value}
    (represents : width.Represents number value) : Written value.render value.inner := by
  have numeral := numeral_writeInteger number
  have scalar : value.elements? = none := by cases represents <;> rfl
  rw [inner_of_scalar scalar, represents.render]
  refine Plain.written ⟨numeral.ne_nil, numeral.trimmed, fun c member separator => ?_⟩
  rcases separator with rfl | rfl | rfl <;>
    rcases numeral.mem member with sign | digit <;> contradiction

theorem integers_written {width : Width} {numbers : List Int} {elements : List Value}
    (each : List.Forall₂ width.Represents numbers elements) :
    ∀ part ∈ elements, Written part.render part.inner :=
  forall_mem_of_forall₂ (each.imp fun _ _ => written_of_represents)

section Listings

variable {elements : List Value} (written : ∀ part ∈ elements, Written part.render part.inner)
include written

theorem division_inner : Division (listing elements) (elements.map inner) := by
  have each : List.Forall₂ Written (elements.map render) (elements.map inner) := by
    rw [List.forall₂_map_left_iff, List.forall₂_map_right_iff, List.forall₂_same]
    exact written
  rw [listing_eq]
  exact division_listing each Text.blank_space Text.blank_space

theorem written_collection (form : Form) :
    Written (render (.collection form elements)) (inner (.collection form elements)) := by
  rw [render_collection]
  exact .group (encloses_bracketed (division_inner written).balanced)

theorem listing_open {form : Form} (many : ¬Lone (.collection form elements)) (group : List Char) :
    ¬Encloses (listing elements) group := by
  intro encloses
  have single : Division (listing elements) [group] := by
    simpa using Division.written (.group encloses) (by simp) .nil
  have same := (division_inner written).unique single
  obtain ⟨part, rfl, rfl⟩ := List.map_eq_singleton_iff.mp same
  cases kind : part.elements? with
  | some others => exact many ⟨part, rfl, by simp [kind]⟩
  | none =>
    -- A scalar is too short to be its own text in brackets.
    have whole := encloses.group
    rw [listing_eq, List.map_singleton, List.intercalate_singleton,
      Text.trim_padded _ Text.blank_space Text.blank_space, inner_of_scalar kind] at whole
    have shorter := Text.trim_length_le part.render
    rw [whole] at shorter
    simp only [bracketed, List.length_cons, List.length_append, List.length_nil] at shorter
    omega

end Listings

/-- A text that the value is read from: a scalar as it is written, and a collection in brackets or
without them. -/
def Shown (text : List Char) (value : Value) : Prop :=
  match value.elements? with
  | none => text = value.render
  | some elements => body? text = some (listing elements)

theorem shown_render {value : Value} (written : Written value.render value.inner) :
    Shown value.render value := by
  cases value with
  | collection form elements =>
    have balanced : Balanced (listing elements) := written.balanced
    rw [render_collection]
    exact body?_of_encloses (encloses_bracketed balanced)
  | _ => rfl

end Value

namespace Reader

variable {reader : Reader} {type : TypeExpr} {value : Value}

theorem Fits.written (fits : reader.Fits type value) : Written value.render value.inner := by
  induction fits with
  | leaf scalar plain read =>
    rw [Value.inner_of_scalar scalar]
    exact plain.written
  | integers collects integral each differ =>
    exact Value.written_collection (Value.integers_written each) _
  | elements collects other each differ ih => exact Value.written_collection ih _

theorem Fits.elements_written {form : Form} {elements : List Value}
    (fits : reader.Fits type (.collection form elements)) :
    ∀ part ∈ elements, Written part.render part.inner := by
  cases fits with
  | leaf scalar plain read => contradiction
  | integers collects integral each differ =>
    exact Value.integers_written each
  | elements collects other each differ => exact fun part member => (each part member).written

theorem Fits.shown_inner (fits : reader.Fits type value) (many : ¬value.Lone) :
    Value.Shown value.inner value := by
  cases value with
  | collection form elements =>
    exact body?_of_open fits.written.balanced (Value.listing_open fits.elements_written many)
  | _ => rfl

end Reader

theorem Shape.levels_of_scalar {limits : Limits} {shape : Shape} {depth : Nat} {text : List Char}
    {value : Value} (read : shape.read limits depth text = .ok value)
    (scalar : value.elements? = none) : shape.levels = 0 := by
  cases shape with
  | sequence form width =>
    obtain ⟨-, numbers, -, -, rfl⟩ := exists_of_read_sequence read
    contradiction
  | collection form element =>
    obtain ⟨-, -, elements, -, -, -, rfl⟩ := exists_of_read_collection read
    contradiction
  | _ => rfl

/-- Every text that shows the value is read as the value, wherever its levels fit. -/
theorem Reader.Fits.read_shown {reader : Reader} {type : TypeExpr} {value : Value}
    (fits : reader.Fits type value) (spread : value.Spread) {depth : Nat}
    (deep : depth + reader.levels type ≤ reader.limits.maxDepth) {text : List Char}
    (shown : value.Shown text) :
    (reader.shape type).read reader.limits depth text = .ok value := by
  induction fits generalizing depth text with
  | @leaf type value scalar plain read =>
    simp only [Value.Shown, scalar] at shown
    simp only [Reader.read, Value.toText, String.toList_ofList] at read
    have flat : (reader.shape type).levels = 0 := Shape.levels_of_scalar read scalar
    rw [shown, ← read]
    apply Shape.read_depth
    all_goals
      change _ + reader.levels type ≤ _ at deep
      rw [flat]
      omega
  | @integers type element form width numbers elements collects integral represents differ =>
    have levels := collects.levels
    have shallow : depth < reader.limits.maxDepth := by omega
    have held : ∀ number ∈ numbers, width.Holds number :=
      forall_mem_of_forall₂ (represents.flip.imp fun _ _ => Width.Represents.holds)
    have texts : elements.map Value.render = numbers.map writeInteger := by
      rw [← List.forall₂_eq_eq_eq, List.forall₂_map_left_iff, List.forall₂_map_right_iff]
      exact represents.flip.imp fun _ _ => Width.Represents.render
    have means : Sequence.Meaning width reader.limits.maxRangeLength (Value.listing elements)
        numbers := by
      rw [Value.listing_eq, texts]
      exact Sequence.meaning_listing _ held Text.blank_space Text.blank_space
    have found := readSequence_eq_ok_iff.mpr ⟨numbers, means, rfl⟩
    rw [collects.shape_of_width integral, Shape.read_sequence shallow shown, found,
      ← Value.ofElements_differ differ, (Width.forall₂_represents_iff held).mp represents]
    rfl
  | @elements type element form elements collects other each differ ih =>
    have levels := collects.levels
    have shallow : depth < reader.limits.maxDepth := by omega
    have written := (Fits.elements collects other each differ).elements_written
    rw [collects.shape_of_plain other,
      Shape.read_collection_eq_ok_iff shallow shown (Value.division_inner written)]
    refine ⟨elements, ?_, Value.ofElements_differ differ⟩
    rw [List.forall₂_map_left_iff, List.forall₂_same]
    intro part member
    obtain ⟨inside, many⟩ := spread.element member
    exact ih part member inside (by omega) ((each part member).shown_inner many)

/-- A value that fits a type reads back from its own text, the order inside of sets included, if
its levels fit below the limit and no collection strictly inside of it is lone. -/
theorem read_toText (reader : Reader) {type : TypeExpr} {value : Value}
    (fits : reader.Fits type value) (spread : value.Spread)
    (deep : reader.levels type ≤ reader.limits.maxDepth) :
    reader.read value.toText type = .ok value ∧ value.same value = true := by
  refine ⟨?_, value.same_refl⟩
  rw [Reader.read, Value.toText, String.toList_ofList]
  exact fits.read_shown spread (by omega) (Value.shown_render fits.written)

theorem read_toText_sets :
    let words : TypeExpr := .applied .set [.named .string]
    let value : Value := .collection .list [.collection .array
      [.collection .set [.text "b c", .text "a"], .collection .set []]]
    (Reader.Fits {} (.applied .list [.array words]) value ∧ value.Spread ∧
      Reader.levels {} (.applied .list [.array words]) ≤ Limits.maxDepth {}) ∧
    Reader.read {} "[ [ [ b c, a ], [  ] ] ]" (.applied .list [.array words]) = .ok value := by
  have sets : Reader.Collects {} (.applied .set [.named .string]) .set (.named .string) :=
    .set (by decide +kernel)
  have leaf (content : String) (plain : Plain content.toList)
      (read : Reader.read {} content (.named .string) = .ok (.text content)) :
      Reader.Fits {} (.named .string) (.text content) := by
    refine .leaf rfl plain ?_
    simpa [Value.toText, Value.render] using read
  have filled : Reader.Fits {} (.applied .set [.named .string])
      (.collection .set [.text "b c", .text "a"]) := by
    refine .elements sets rfl ?_ fun _ => by simp [Value.AllDiffer, Value.same]
    refine List.forall_mem_cons.mpr ⟨leaf "b c" ?_ ?_, List.forall_mem_singleton.mpr (leaf "a" ?_ ?_)⟩
    · exact ⟨by decide, by decide, by simp [IsSeparator, IsBracket]⟩
    · decide +kernel
    · exact ⟨by decide, by decide, by simp [IsSeparator, IsBracket]⟩
    · decide +kernel
  have empty : Reader.Fits {} (.applied .set [.named .string]) (.collection .set []) :=
    .elements sets rfl (by simp) fun _ => .nil
  have fits : Reader.Fits {} (.applied .list [.array (.applied .set [.named .string])])
      (.collection .list [.collection .array
        [.collection .set [.text "b c", .text "a"], .collection .set []]]) := by
    refine .elements (.list (Reader.strategies_list {})) rfl ?_ (by simp)
    refine List.forall_mem_singleton.mpr (.elements .array rfl ?_ (by simp))
    exact List.forall_mem_cons.mpr ⟨filled, List.forall_mem_singleton.mpr empty⟩
  have words (content : String) : (Value.text content).Spread :=
    Value.spread_of_elements (by simp [Value.elements, Value.elements?])
  have sets : (Value.collection .array
      [.collection .set [.text "b c", .text "a"], .collection .set []]).Spread := by
    apply Value.spread_of_elements
    refine List.forall_mem_cons.mpr ⟨⟨?_, ?_⟩, List.forall_mem_singleton.mpr ⟨?_, ?_⟩⟩
    · exact Value.spread_of_elements (by simp [Value.elements, Value.elements?, words, Value.Lone])
    · simp [Value.Lone, Value.elements?]
    · exact Value.spread_of_elements (by simp [Value.elements, Value.elements?])
    · simp [Value.Lone, Value.elements?]
  have spread : Value.Spread (.collection .list [.collection .array
      [.collection .set [.text "b c", .text "a"], .collection .set []]]) := by
    apply Value.spread_of_elements
    refine List.forall_mem_singleton.mpr ⟨sets, ?_⟩
    simp [Value.Lone, Value.elements?]
  have deep : Reader.levels {} (.applied .list [.array (.applied .set [.named .string])]) ≤
      Limits.maxDepth {} := by decide +kernel
  exact ⟨⟨fits, spread, deep⟩, (read_toText {} fits spread deep).1⟩

end TypedLiteral
