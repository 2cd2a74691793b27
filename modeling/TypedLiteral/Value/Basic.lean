import TypedLiteral.Binary.Number
import TypedLiteral.Type.Ident

/-! Values that literals denote, and the views of them that do not depend on their kind. -/
namespace TypedLiteral

/-- The three forms of collections. They differ in equality and in nothing else that is written. -/
inductive Form
  | list
  | set
  | array
deriving DecidableEq

inductive Value
  | text (content : String)
  | int (number : Int32)
  | long (number : Int64)
  | bool (flag : Bool)
  | double (number : Binary64)
  | member (type : TypeIdent) (name : String)
  /-- The elements of a set stand in the order of their first occurrence. -/
  | collection (form : Form) (elements : List Value)

namespace Value

def string? : Value → Option String
  | .text content => some content
  | .member _ name => some name
  | _ => none

def integer? : Value → Option Int64
  | .int number => some number.toInt64
  | .long number => some number
  | _ => none

/-- A double as it is, an integer as the double nearest to it. -/
def double? : Value → Option Binary64
  | .double number => some number
  | .int number => some (Binary64.ofInt number.toInt)
  | .long number => some (Binary64.ofInt number.toInt)
  | _ => none

def flag? : Value → Option Bool
  | .bool flag => some flag
  | _ => none

def elements? : Value → Option (List Value)
  | .collection _ elements => some elements
  | _ => none

def elements (value : Value) : List Value :=
  value.elements?.getD []

def size? (value : Value) : Option Nat :=
  value.elements?.map List.length

end Value
end TypedLiteral
