import TypedLiteral.Failure
import TypedLiteral.Text.Blank
import TypedLiteral.Type.StrategyTable
import TypedLiteral.Value.Basic

/-! Scalar literals. Blanks at the ends do not count, except in a text, which is taken as it
stands. -/
namespace TypedLiteral

namespace Width

def typeName : Width → TypeIdent
  | .int => .int
  | .long => .long

def bounds : Width → Int × Int
  | .int => (-0x80000000, 0x7FFFFFFF)
  | .long => (-0x8000000000000000, 0x7FFFFFFFFFFFFFFF)

/-- A number of the width as a value. What lies outside of it wraps around. -/
def value (width : Width) (number : Int64) : Value :=
  match width with
  | .int => .int number.toInt32
  | .long => .long number

end Width

namespace Literal

def invalidNumber (token : List Char) (type : TypeIdent) : Failure :=
  .numberFormat (String.ofList token) type.text

def readInteger (width : Width) (text : List Char) : Except Failure Int64 :=
  let token := Text.trim text
  match integer? token with
  | none => .error (invalidNumber token width.typeName)
  | some number =>
    if width.bounds.1 ≤ number ∧ number ≤ width.bounds.2 then .ok (Int64.ofInt number)
    else .error (invalidNumber token width.typeName)

def readBoolean (text : List Char) : Except Failure Bool :=
  let token := Text.trim text
  if token.map Char.toLower = "true".toList then .ok true
  else if token.map Char.toLower = "false".toList then .ok false
  else .error (.invalidBoolean (String.ofList token))

def readDouble (text : List Char) : Except Failure Binary64 :=
  let token := Text.trim text
  match Decimal.ofText? token with
  | none => .error (invalidNumber token .double)
  | some number => .ok (Binary64.ofDecimal number)

def readScalar (kind : ScalarKind) (text : List Char) : Except Failure Value :=
  match kind with
  | .text => .ok (.text (String.ofList text))
  | .integer width => (readInteger width text).map width.value
  | .boolean => (readBoolean text).map .bool
  | .double => (readDouble text).map .double

def readMember (type : TypeIdent) (members : List String) (text : List Char) :
    Except Failure Value :=
  let name := String.ofList (Text.trim text)
  if members.contains name then .ok (.member type name)
  else .error (.unknownMember type.text name)

end Literal
end TypedLiteral
