import TypedLiteral.Binary.Number

/-! Shapes that a value can be extracted into, and what comes out. -/
namespace TypedLiteral

structure IntegerRange where
  name : String
  least : Int
  greatest : Int

/-- How a fixed number of positions is called. -/
inductive Product
  | array
  | tuple
  | tupleStruct (name : String)
  | record (name : String) (fields : List String)

/-- How the content of a variant is laid out. -/
inductive Payload
  | newtype
  | tuple
  | record

structure Variant where
  name : String
  payload? : Option Payload := none

inductive Target
  | integer (range : IntegerRange)
  | single
  | double
  | boolean
  | character
  | string
  | unit
  | unitStruct (name : String)
  /-- Takes any value and keeps nothing of it. -/
  | ignored
  | option (body : Target)
  | sequence (element : Target)
  | set (element : Target)
  /-- Values have no keys, so none fits. -/
  | map
  | product (kind : Product) (positions : List Target)
  | choice (variants : List Variant)

inductive Extracted
  | integer (number : Int)
  | single (number : Binary32)
  | double (number : Binary64)
  | boolean (flag : Bool)
  | character (c : Char)
  | string (content : String)
  | ignored
  | present (body : Extracted)
  | sequence (elements : List Extracted)
  | set (elements : List Extracted)
  | product (kind : Product) (positions : List Extracted)
  | choice (variant : String)

namespace Target

def signed (name : String) (width : Nat) : Target :=
  .integer ⟨name, -(Nat.pow 2 (width - 1) : Nat), (Nat.pow 2 (width - 1) : Nat) - 1⟩

def unsigned (name : String) (width : Nat) : Target :=
  .integer ⟨name, 0, (Nat.pow 2 width : Nat) - 1⟩

end Target

end TypedLiteral
