import TypedLiteral.Proofs.CollectionGrammar
import TypedLiteral.Proofs.Listing
import TypedLiteral.Proofs.ValueIdentity

/-! Literals inside of literals. An element in brackets is read without them, so it means what its
inside means on its own. That is what the bracketed literal means, too, unless the inside is again
one bracketed group: then a second pair comes off that belongs to the element. -/
namespace TypedLiteral

open Literal

def joined (literals : List (List Char)) : List Char :=
  [',', ' '].intercalate literals

theorem division_joined {literals insides : List (List Char)}
    (enclosed : List.Forall₂ Encloses literals insides) : Division (joined literals) insides := by
  have written : List.Forall₂ Written literals insides := enclosed.imp fun _ _ => .group
  simpa [joined] using division_listing written Text.blank_nil Text.blank_nil

variable {reader : Reader} {element inner : TypeExpr} {form : Form}

theorem read_joined (collects : reader.Collects element form inner)
    (deep : reader.levels (.applied .list [element]) ≤ reader.limits.maxDepth)
    {literals insides : List (List Char)} {values : List Value}
    (enclosed : List.Forall₂ Encloses literals insides) :
    reader.read (String.ofList (bracketed (joined literals))) (.applied .list [element]) =
        .ok (.collection .list values) ↔
      List.Forall₂ (fun inside value => reader.read (String.ofList inside) element = .ok value)
        insides values := by
  have lists : reader.Collects (.applied .list [element]) .list element :=
    .list reader.strategies_list
  have division := division_joined enclosed
  have unwrapped := body?_of_encloses (encloses_bracketed division.balanced)
  have levels := lists.levels
  have shallow : 0 < reader.limits.maxDepth := by omega
  have deeper (inside : List Char) : (reader.shape element).read reader.limits 1 inside =
      (reader.shape element).read reader.limits 0 inside := by
    apply Shape.read_depth
    all_goals
      change _ + reader.levels element ≤ _
      omega
  simp only [Reader.read, String.toList_ofList, lists.shape_of_plain collects.width?_eq_none]
  rw [Shape.read_collection_eq_ok_iff shallow unwrapped division]
  simp [deeper, Value.ofElements]

/-- The brackets of a literal make no difference unless its inside is one bracketed group, too. -/
theorem read_enclosed (collects : reader.Collects element form inner)
    (deep : 0 < reader.limits.maxDepth) {literal inside : List Char}
    (encloses : Encloses literal inside) (bare : ∀ group, ¬Encloses inside group) :
    reader.read (String.ofList literal) element = reader.read (String.ofList inside) element := by
  simp only [Reader.read, String.toList_ofList]
  exact collects.read_congr deep (body?_of_encloses encloses) (body?_of_open encloses.balanced bare)

/-- Literals in brackets compose to the list of their values exactly when those of them that
enclose one more group have their value without the outer brackets, too. -/
theorem read_bracketed_elements (reader : Reader) {element inner : TypeExpr} {form : Form}
    (collects : reader.Collects element form inner)
    (deep : reader.levels (.applied .list [element]) ≤ reader.limits.maxDepth)
    {literals insides : List (List Char)} {values : List Value}
    (enclosed : List.Forall₂ Encloses literals insides)
    (alone : List.Forall₂ (fun literal value =>
      reader.read (String.ofList literal) element = .ok value) literals values) :
    reader.read (String.ofList (bracketed (joined literals))) (.applied .list [element]) =
        .ok (.collection .list values) ↔
      List.Forall₂ (fun inside value => (∃ group, Encloses inside group) →
        reader.read (String.ofList inside) element = .ok value) insides values := by
  have lists : reader.Collects (.applied .list [element]) .list element :=
    .list reader.strategies_list
  have levels := lists.levels
  rw [read_joined collects deep enclosed]
  constructor
  · intro each
    apply List.Forall₂.imp _ each
    exact fun inside value read _ => read
  · intro enclosing
    induction enclosed generalizing values with
    | nil =>
      cases enclosing
      exact .nil
    | @cons literal inside literals insides encloses _ ih =>
      obtain ⟨value, values, head, tail, rfl⟩ := List.forall₂_cons_left_iff.mp alone
      obtain ⟨within, later⟩ := List.forall₂_cons.mp enclosing
      refine .cons ?_ (ih tail later)
      by_cases group : ∃ group, Encloses inside group
      · exact within group
      · rw [← read_enclosed collects (by omega) encloses (not_exists.mp group)]
        exact head

private def strings : TypeExpr := .applied .list [.named .string]

private def words (texts : List String) : Value := .collection .list (texts.map .text)

theorem read_bracketed_elements_mixed :
    let literals := ["[[a], [b, c]]".toList, " []".toList, "[ [d] ]\t".toList]
    let insides := ["[a], [b, c]".toList, [], " [d] ".toList]
    let values := [Value.collection .list [words ["a"], words ["b", "c"]], .collection .list [],
      .collection .list [words ["d"]]]
    (Reader.Collects {} (.applied .list [strings]) .list strings ∧
      Reader.levels {} (.applied .list [.applied .list [strings]]) ≤ Limits.maxDepth {} ∧
      List.Forall₂ Encloses literals insides ∧
      List.Forall₂ (fun literal value =>
        Reader.read {} (String.ofList literal) (.applied .list [strings]) = .ok value)
        literals values) ∧
    Reader.read {} "[[[a], [b, c]],  [], [ [d] ]\t]" (.applied .list [.applied .list [strings]]) =
      .ok (.collection .list values) := by
  have collects : Reader.Collects {} (.applied .list [strings]) .list strings :=
    .list (Reader.strategies_list {})
  have deep : Reader.levels {} (.applied .list [.applied .list [strings]]) ≤ Limits.maxDepth {} := by
    decide +kernel
  have enclosed : List.Forall₂ Encloses
      ["[[a], [b, c]]".toList, " []".toList, "[ [d] ]\t".toList]
      ["[a], [b, c]".toList, [], " [d] ".toList] := by
    refine .cons ?_ (.cons ?_ (.cons ?_ .nil)) <;>
      exact inside?_eq_some_iff.mp (by decide)
  refine ⟨⟨collects, deep, enclosed, ?_⟩, ?_⟩
  · refine .cons ?_ (.cons ?_ (.cons ?_ .nil)) <;> decide +kernel
  · refine (read_bracketed_elements {} collects deep enclosed ?_).mpr ?_
    · refine .cons ?_ (.cons ?_ (.cons ?_ .nil)) <;> decide +kernel
    · refine .cons ?_ (.cons ?_ (.cons ?_ .nil)) <;> exact fun _ => by decide +kernel

/-- One list of two words becomes two lists when it is an element in brackets of its own. -/
theorem read_double_brackets :
    let lines : TypeExpr := .applied .list [strings]
    let literal := "[[a, b]]".toList
    (Reader.Collects {} lines .list strings ∧
      Reader.levels {} (.applied .list [lines]) ≤ Limits.maxDepth {} ∧
      Encloses literal "[a, b]".toList ∧
      Reader.read {} (String.ofList literal) lines =
        .ok (.collection .list [words ["a", "b"]])) ∧
    Reader.read {} (String.ofList (bracketed (joined [literal]))) (.applied .list [lines]) =
      .ok (.collection .list [.collection .list [words ["a"], words ["b"]]]) ∧
    Reader.read {} (String.ofList (bracketed (joined [literal]))) (.applied .list [lines]) ≠
      .ok (.collection .list [.collection .list [words ["a", "b"]]]) := by
  refine ⟨⟨.list (Reader.strategies_list {}), ?_, inside?_eq_some_iff.mp (by decide), ?_⟩, ?_, ?_⟩
  all_goals decide +kernel

end TypedLiteral
