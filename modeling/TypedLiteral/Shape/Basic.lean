import TypedLiteral.Type.Expr
import TypedLiteral.Type.StrategyTable
import TypedLiteral.Value.Basic

/-! What a type expression asks of a literal, once its names are looked up. Enumerations go before
strategies. An element of integer type makes its collection a sequence, whatever else the name of
that type is declared as. A collection type is misapplied unless it has exactly one element
type. -/
namespace TypedLiteral

inductive Shape
  | member (type : TypeIdent) (members : List String)
  | scalar (kind : ScalarKind)
  | sequence (form : Form) (width : Width)
  | collection (form : Form) (element : Shape)
  | unsupported (type : TypeExpr)
  | misapplied (type : TypeExpr) (found : Nat)

namespace Shape

def ofElement (form : Form) (element : TypeExpr) (shape : Shape) : Shape :=
  match element.width? with
  | some width => .sequence form width
  | none => .collection form shape

/-- The only shape of a list that has just one. -/
def only (type : TypeExpr) : List Shape → Shape
  | [shape] => shape
  | shapes => .misapplied type shapes.length

mutual

def ofExpr (hierarchy : Hierarchy) (table : StrategyTable) : TypeExpr → Shape
  | .named name =>
    match hierarchy.members? name with
    | some members => .member name members
    | none =>
      match table.get? name with
      | none => .unsupported (.named name)
      | some (.scalar kind) => .scalar kind
      | some .set | some .list => .misapplied (.named name) 0
  | .applied name elements =>
    match table.get? name with
    | none => .unsupported (.applied name elements)
    | some (.scalar kind) => .scalar kind
    | some .set => only (.applied name elements) (ofElements hierarchy table .set elements)
    | some .list => only (.applied name elements) (ofElements hierarchy table .list elements)
  | .array element => ofElement .array element (ofExpr hierarchy table element)

def ofElements (hierarchy : Hierarchy) (table : StrategyTable) (form : Form) :
    List TypeExpr → List Shape
  | [] => []
  | element :: elements =>
    ofElement form element (ofExpr hierarchy table element) ::
      ofElements hierarchy table form elements

end

end Shape
end TypedLiteral
