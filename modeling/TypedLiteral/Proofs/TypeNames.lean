import TypedLiteral.Type.Expr

/-! The names in a type expression, and induction over its element types at every depth. -/
namespace TypedLiteral.TypeExpr

@[elab_as_elim]
theorem induction_on_elements {holds : TypeExpr → Prop} (named : ∀ name, holds (.named name))
    (applied : ∀ name elements, (∀ element ∈ elements, holds element) →
      holds (.applied name elements))
    (array : ∀ element, holds element → holds (.array element)) : ∀ type, holds type
  | .named name => named name
  | .applied name elements =>
    applied name elements fun element _ => induction_on_elements named applied array element
  | .array element => array element (induction_on_elements named applied array element)

mutual

/-- All names that the expression is made of, those of its elements included. -/
def names : TypeExpr → List TypeIdent
  | .named name => [name]
  | .applied name elements => name :: namesAll elements
  | .array element => names element

def namesAll : List TypeExpr → List TypeIdent
  | [] => []
  | element :: elements => names element ++ namesAll elements

end

theorem mem_namesAll {name : TypeIdent} {elements : List TypeExpr} :
    name ∈ namesAll elements ↔ ∃ element ∈ elements, name ∈ element.names := by
  induction elements with
  | nil => simp [namesAll]
  | cons element elements ih => simp [namesAll, ih]

end TypedLiteral.TypeExpr
