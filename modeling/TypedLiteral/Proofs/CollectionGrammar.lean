import TypedLiteral.Proofs.CollectionType
import TypedLiteral.Proofs.Division

/-! Collections of anything but integers. Reading one divides its body and reads the elements of
the division in order, one level deeper. -/
namespace TypedLiteral

open Literal

instance (text : List Char) : Decidable (Balanced text) :=
  decidable_of_iff (isBalanced text = true) isBalanced_iff

theorem Shape.read_collection {limits : Limits} {form : Form} {element : Shape} {depth : Nat}
    {text body : List Char} {texts : List (List Char)} (shallow : depth < limits.maxDepth)
    (unwrapped : body? text = some body) (division : Division body texts) :
    (Shape.collection form element).read limits depth text =
      (texts.mapM (element.read limits (depth + 1))).map (Value.ofElements form) := by
  have entered := enter_eq_ok_iff.mpr ⟨shallow, unwrapped⟩
  simp only [read, entered, bind, Except.bind, elements?_of_division division]
  cases texts.mapM (element.read limits (depth + 1)) <;> rfl

theorem Shape.read_collection_eq_ok_iff {limits : Limits} {form : Form} {element : Shape}
    {depth : Nat} {text body : List Char} {texts : List (List Char)} {value : Value}
    (shallow : depth < limits.maxDepth) (unwrapped : body? text = some body)
    (division : Division body texts) :
    (Shape.collection form element).read limits depth text = .ok value ↔
      ∃ values, List.Forall₂ (fun part value => element.read limits (depth + 1) part = .ok value)
        texts values ∧ Value.ofElements form values = value := by
  simp only [← mapM_eq_ok_iff]
  rw [read_collection shallow unwrapped division, map_eq_ok_iff]

/-- Where the elements of a collection that was read come from. -/
theorem Shape.exists_of_read_collection {limits : Limits} {form : Form} {element : Shape}
    {depth : Nat} {text : List Char} {value : Value}
    (succeeded : (Shape.collection form element).read limits depth text = .ok value) :
    ∃ body texts values, body? text = some body ∧ Division body texts ∧
      List.Forall₂ (fun part value => element.read limits (depth + 1) part = .ok value)
        texts values ∧
      Value.ofElements form values = value := by
  have nested : 0 < (Shape.collection form element).levels := Nat.succ_pos _
  obtain ⟨shallow, body, unwrapped⟩ := exists_body_of_read nested succeeded
  obtain ⟨texts, division⟩ := exists_division (body?_balanced unwrapped)
  obtain ⟨values, each, same⟩ :=
    (read_collection_eq_ok_iff shallow unwrapped division).mp succeeded
  exact ⟨body, texts, values, unwrapped, division, each, same⟩

/-- What a balanced literal of a collection type means is settled by its body. -/
theorem Reader.Collects.read_congr {reader : Reader} {type element : TypeExpr} {form : Form}
    (collects : reader.Collects type form element) {depth : Nat}
    (shallow : depth < reader.limits.maxDepth) {text other body : List Char}
    (first : body? text = some body) (second : body? other = some body) :
    (reader.shape type).read reader.limits depth text =
      (reader.shape type).read reader.limits depth other := by
  cases integral : element.width? with
  | some width =>
    rw [collects.shape_of_width integral, Shape.read_sequence shallow first,
      Shape.read_sequence shallow second]
  | none =>
    obtain ⟨texts, division⟩ := exists_division (body?_balanced first)
    rw [collects.shape_of_plain integral, Shape.read_collection shallow first division,
      Shape.read_collection shallow second division]

/-- A balanced literal is read through the only division of its body. The scan of the tokens finds
that division for every balanced body, so it neither meets a bracket that closes nothing nor ends
inside a group. -/
theorem read_division_in_order (reader : Reader) {type element : TypeExpr} {form : Form}
    (collects : reader.Collects type form element) (plain : element.width? = none) {depth : Nat}
    (shallow : depth < reader.limits.maxDepth) {text : List Char} (balanced : Balanced text) :
    ∃ body texts outcome, Unwraps text body ∧ Division body texts ∧
      (∀ others, Division body others → others = texts) ∧ elements? body = some texts ∧
      InOrder ((reader.shape element).read reader.limits (depth + 1)) texts outcome ∧
      (reader.shape type).read reader.limits depth text = outcome.map (Value.ofElements form) := by
  obtain ⟨body, unwrapped⟩ := exists_body? balanced
  obtain ⟨texts, division⟩ := exists_division (body?_balanced unwrapped)
  refine ⟨body, texts, _, (body?_eq_some_iff.mp unwrapped).2, division,
    fun others other => other.unique division, elements?_of_division division,
    mapM_inOrder _ texts, ?_⟩
  rw [collects.shape_of_plain plain]
  exact Shape.read_collection shallow unwrapped division

theorem read_division_in_order_groups :
    let reader : Reader := {}
    let lines : TypeExpr := .array (.named .string)
    let text := " [a, [b]]x,, [], [ c ]".toList
    (reader.Collects (.applied .list [lines]) .list lines ∧ lines.width? = none ∧
      2 < reader.limits.maxDepth ∧ Balanced text) ∧
    ∃ body texts outcome, Unwraps text body ∧ Division body texts ∧
      (∀ others, Division body others → others = texts) ∧ elements? body = some texts ∧
      InOrder ((reader.shape lines).read reader.limits 3) texts outcome ∧
      (reader.shape (.applied .list [lines])).read reader.limits 2 text =
        outcome.map (Value.ofElements .list) := by
  have collects : Reader.Collects {} (.applied .list [.array (.named .string)]) .list
      (.array (.named .string)) := .list (by decide +kernel)
  have balanced : Balanced " [a, [b]]x,, [], [ c ]".toList := by decide
  exact ⟨⟨collects, rfl, by decide, balanced⟩,
    read_division_in_order {} collects rfl (by decide) balanced⟩

end TypedLiteral
