import TypedLiteral.Extraction.Content
import TypedLiteral.Extraction.Target
import TypedLiteral.Failure

/-! How a value can fail to fit a target, and the words for it. -/
namespace TypedLiteral

def Payload.description : Payload → String
  | .newtype => "newtype variant"
  | .tuple => "tuple variant"
  | .record => "struct variant"

inductive Misfit
  | wrongKind (found : Content) (expected : String)
  /-- The kind is the expected one, but not the number or the length of the text. -/
  | wrongValue (found : Content) (expected : String)
  | tooShort (count : Nat) (expected : String)
  | unknownVariant (name : String) (variants : List String)
  /-- A choice needs the name of a variant, and the value is none. -/
  | notName (value : Value)
  /-- A bare name stands for a variant with content. -/
  | missingContent (payload : Payload)

namespace Misfit

def alternatives : List String → String
  | [] => "there are no variants"
  | [only] => "expected `" ++ only ++ "`"
  | [first, second] => "expected `" ++ first ++ "` or `" ++ second ++ "`"
  | many => "expected one of " ++ ", ".intercalate (many.map fun name => "`" ++ name ++ "`")

def message : Misfit → String
  | .wrongKind found expected => "invalid type: " ++ found.description ++ ", expected " ++ expected
  | .wrongValue found expected =>
    "invalid value: " ++ found.description ++ ", expected " ++ expected
  | .tooShort count expected =>
    "invalid length " ++ String.ofList (Nat.toDigits 10 count) ++ ", expected " ++ expected
  | .unknownVariant name variants => "unknown variant `" ++ name ++ "`, " ++ alternatives variants
  | .notName value => "expected an enum member name, found '" ++ value.toText ++ "'"
  | .missingContent payload => "invalid type: unit variant, expected " ++ payload.description

def failure (misfit : Misfit) : Failure :=
  .custom misfit.message

end Misfit
end TypedLiteral
