import TypedLiteral.Decimal.Basic

/-! Why a literal cannot be read or a value cannot be extracted. Each cause carries the fragment of
the literal at fault, and `message` words it. -/
namespace TypedLiteral

inductive Failure
  | unsupportedType (type text : String)
  /-- A collection type has some number of element types other than one. -/
  | arity (type : String) (found : Nat)
  | unknownMember (type text : String)
  /-- A closing bracket has no partner, or an opening one has none. -/
  | unbalancedBrackets (text : String)
  /-- A comma or `..` stands in a sequence of integers where a number belongs. -/
  | unexpectedToken (token text : String)
  /-- A `..` has no number directly in front of it. -/
  | rangeWithoutStart (text : String)
  | numberFormat (token type : String)
  | invalidBoolean (token : String)
  | nestingTooDeep (limit : Nat) (text : String)
  | rangeTooLarge (first last : Int64) (limit : Nat)
  /-- A value does not fit the shape that was asked for. -/
  | custom (text : String)
deriving DecidableEq

namespace Failure

private def decimal (number : Int) : String :=
  String.ofList (writeInteger number)

def message : Failure → String
  | .unsupportedType type text => "Unable to parse '" ++ text ++ "' as type " ++ type
  | .arity type found =>
    "Type " ++ type ++ " expects exactly one element type, found " ++ decimal found
  | .unknownMember type text => "'" ++ text ++ "' is not a member of enum " ++ type
  | .unbalancedBrackets text => "Unbalanced brackets in '" ++ text ++ "'"
  | .unexpectedToken token text => "Unexpected '" ++ token ++ "': " ++ text
  | .rangeWithoutStart text => "Cannot generate range: " ++ text
  | .numberFormat token type => "Invalid number '" ++ token ++ "' for type " ++ type
  | .invalidBoolean token => "Invalid boolean '" ++ token ++ "', expected true or false"
  | .nestingTooDeep limit text =>
    "Nesting deeper than " ++ decimal limit ++ " levels in '" ++ text ++ "'"
  | .rangeTooLarge first last limit =>
    "Range " ++ decimal first.toInt ++ ".." ++ decimal last.toInt ++ " expands to more than " ++
      decimal limit ++ " values"
  | .custom text => "Error: " ++ text

end Failure
end TypedLiteral
