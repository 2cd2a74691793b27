import TypedLiteral.Extraction.Misfit
import TypedLiteral.Extraction.Order
import TypedLiteral.Reader

/-! Extracting plain data from values. Elements are extracted in order, and the first misfit is
the outcome. -/
namespace TypedLiteral

namespace Product

private def count (number : Nat) (noun : String) : String :=
  String.ofList (Nat.toDigits 10 number) ++ " " ++ (if number = 1 then noun else noun ++ "s")

def description (size : Nat) : Product → String
  | .array =>
    if size = 0 then "an empty array"
    else "an array of length " ++ String.ofList (Nat.toDigits 10 size)
  | .tuple => "a tuple of size " ++ String.ofList (Nat.toDigits 10 size)
  | .tupleStruct name => "tuple struct " ++ name
  | .record name _ => "struct " ++ name

def fullDescription (size : Nat) : Product → String
  | .array => description size .array
  | .tuple => description size .tuple
  | .tupleStruct name => description size (.tupleStruct name) ++ " with " ++ count size "element"
  | .record name fields =>
    description size (.record name fields) ++ " with " ++ count size "element"

end Product

namespace Target

def elementsOf (expected : String) : Content → Except Misfit (List Value)
  | .sequence elements => .ok elements
  | found => .error (.wrongKind found expected)

def extractInteger (range : IntegerRange) : Content → Except Misfit Extracted
  | .integer number =>
    if range.least ≤ number ∧ number ≤ range.greatest then .ok (.integer number)
    else .error (.wrongValue (.integer number) range.name)
  | found => .error (.wrongKind found range.name)

/-- An integer becomes the single nearest to it at once, not by way of a double. -/
def extractSingle : Content → Except Misfit Extracted
  | .double number => .ok (.single (Binary32.ofDouble number))
  | .integer number => .ok (.single (Binary32.ofInt number))
  | found => .error (.wrongKind found "f32")

def extractDouble : Content → Except Misfit Extracted
  | .double number => .ok (.double number)
  | .integer number => .ok (.double (Binary64.ofInt number))
  | found => .error (.wrongKind found "f64")

def extractBoolean : Content → Except Misfit Extracted
  | .boolean flag => .ok (.boolean flag)
  | found => .error (.wrongKind found "a boolean")

def extractCharacter : Content → Except Misfit Extracted
  | .text content =>
    match content.toList with
    | [c] => .ok (.character c)
    | _ => .error (.wrongValue (.text content) "a character")
  | found => .error (.wrongKind found "a character")

def extractString : Content → Except Misfit Extracted
  | .text content => .ok (.string content)
  | found => .error (.wrongKind found "a string")

def extractVariant (variants : List Variant) (name : String) : Except Misfit Extracted :=
  match variants.find? (·.name == name) with
  | none => .error (.unknownVariant name (variants.map (·.name)))
  | some variant =>
    match variant.payload? with
    | none => .ok (.choice name)
    | some payload => .error (.missingContent payload)

def extractChoice (variants : List Variant) (value : Value) : Except Misfit Extracted :=
  match value.content with
  | .text name => extractVariant variants name
  | _ => .error (.notName value)

mutual

def extract : Target → Value → Except Misfit Extracted
  | .integer range, value => extractInteger range value.content
  | .single, value => extractSingle value.content
  | .double, value => extractDouble value.content
  | .boolean, value => extractBoolean value.content
  | .character, value => extractCharacter value.content
  | .string, value => extractString value.content
  | .unit, value => .error (.wrongKind value.content "unit")
  | .unitStruct name, value => .error (.wrongKind value.content ("unit struct " ++ name))
  | .ignored, _ => .ok .ignored
  | .option body, value => (extract body value).map .present
  | .sequence element, value => do
    let elements ← elementsOf "a sequence" value.content
    .ok (.sequence (← elements.mapM (extract element)))
  | .set element, value => do
    let elements ← elementsOf "a sequence" value.content
    .ok (.set (element.ascending (← elements.mapM (extract element))))
  | .map, value => .error (.wrongKind value.content "a map")
  | .product kind positions, value => do
    let elements ← elementsOf (kind.description positions.length) value.content
    let parts ← extractPositions (kind.fullDescription positions.length) positions 0 elements
    .ok (.product kind parts)
  | .choice variants, value => extractChoice variants value

/-- Extracts the leading elements one by one, `taken` of them before these, and leaves the elements
behind the last position alone. -/
def extractPositions (expected : String) :
    List Target → Nat → List Value → Except Misfit (List Extracted)
  | [], _, _ => .ok []
  | _ :: _, taken, [] => .error (.tooShort taken expected)
  | position :: positions, taken, value :: values => do
    let part ← extract position value
    let parts ← extractPositions expected positions (taken + 1) values
    .ok (part :: parts)

end

end Target

def Value.extract (target : Target) (value : Value) : Except Failure Extracted :=
  (target.extract value).mapError Misfit.failure

def Reader.extract (reader : Reader) (text : String) (type : TypeExpr) (target : Target) :
    Except Failure Extracted := do
  (← reader.read text type).extract target

end TypedLiteral
