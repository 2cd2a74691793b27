import TypedLiteral.Limits
import TypedLiteral.Literal.Brackets
import TypedLiteral.Literal.Elements
import TypedLiteral.Literal.Sequence
import TypedLiteral.Shape.Basic
import TypedLiteral.Value.Equality

/-! Reading a literal of a known shape. A collection first checks how deep it lies, then takes the
brackets off, then reads its elements in order; the first failure is the outcome. -/
namespace TypedLiteral.Shape

open Literal

def enter (limits : Limits) (depth : Nat) (text : List Char) : Except Failure (List Char) :=
  if limits.maxDepth ≤ depth then
    .error (.nestingTooDeep limits.maxDepth (String.ofList text))
  else
    match body? text with
    | none => .error (.unbalancedBrackets (String.ofList text))
    | some body => .ok body

def read (limits : Limits) : Shape → Nat → List Char → Except Failure Value
  | .member type members, _, text => readMember type members text
  | .scalar kind, _, text => readScalar kind text
  | .sequence form width, depth, text => do
    let body ← enter limits depth text
    let numbers ← readSequence width limits.maxRangeLength body
    .ok (.ofElements form (numbers.map width.value))
  | .collection form element, depth, text => do
    let body ← enter limits depth text
    match elements? body with
    | none => .error (.unbalancedBrackets (String.ofList text))
    | some texts =>
      let elements ← texts.mapM (read limits element (depth + 1))
      .ok (.ofElements form elements)
  | .unsupported type, _, text =>
    .error (.unsupportedType (String.ofList type.display) (String.ofList text))
  | .misapplied type found, _, _ => .error (.arity (String.ofList type.display) found)

end TypedLiteral.Shape
