import TypedLiteral.Shape.Pattern
import TypedLiteral.Shape.Reading
import TypedLiteral.Value.Notation

/-! Reading literals of a type, and showing what they look like. A reader knows the declared types
and the limits. -/
namespace TypedLiteral

structure Reader where
  hierarchy : Hierarchy := .standard
  limits : Limits := {}

namespace Reader

def strategies (reader : Reader) : StrategyTable :=
  .ofHierarchy reader.hierarchy

def shape (reader : Reader) (type : TypeExpr) : Shape :=
  .ofExpr reader.hierarchy reader.strategies type

def read (reader : Reader) (text : String) (type : TypeExpr) : Except Failure Value :=
  (reader.shape type).read reader.limits 0 text.toList

/-- The hint for literals of the type, as a regular expression. -/
def pattern (reader : Reader) (type : TypeExpr) : String :=
  String.ofList (reader.shape type).pattern.write

end Reader
end TypedLiteral
