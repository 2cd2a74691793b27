import TypedLiteral.Type.Ident

/-! Type expressions: a name, a name applied to element types, or an array of an element type. Any
number of element types may be given; whether it is the right one shows when a literal is read. -/
namespace TypedLiteral

inductive TypeExpr
  | named (name : TypeIdent)
  | applied (name : TypeIdent) (elements : List TypeExpr)
  | array (element : TypeExpr)

namespace TypeExpr

def name? : TypeExpr → Option TypeIdent
  | .named name => some name
  | _ => none

/-- The integer width, of a bare name only. -/
def width? : TypeExpr → Option Width
  | .named name => name.width?
  | _ => none

def isIntegral (type : TypeExpr) : Bool :=
  type.width?.isSome

mutual

/-- The expression as text: `Name`, `Name<A, B>` or `Element[]`. -/
def display : TypeExpr → List Char
  | .named name => name.text.toList
  | .applied name elements => name.text.toList ++ '<' :: (displayAll elements ++ ['>'])
  | .array element => display element ++ ['[', ']']

def displayAll : List TypeExpr → List Char
  | [] => []
  | element :: elements => display element ++ displayTail elements

def displayTail : List TypeExpr → List Char
  | [] => []
  | element :: elements => ',' :: ' ' :: (display element ++ displayTail elements)

end

end TypeExpr
end TypedLiteral
