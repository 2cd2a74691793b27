import TypedLiteral.Binary.Notation
import TypedLiteral.Text.Quoted
import TypedLiteral.Value.Basic

/-! Values as text: in the notation of literals, and as compact JSON. -/
namespace TypedLiteral.Value

def boolText (flag : Bool) : List Char :=
  if flag then "true".toList else "false".toList

mutual

/-- Collections of every form are written `[ a, b ]`, the empty ones with two blanks. -/
def render : Value → List Char
  | .text content => content.toList
  | .int number => writeInteger number.toInt
  | .long number => writeInteger number.toInt
  | .bool flag => boolText flag
  | .double number => number.literalText
  | .member _ name => name.toList
  | .collection _ elements => '[' :: ' ' :: (renderAll elements ++ [' ', ']'])

def renderAll : List Value → List Char
  | [] => []
  | element :: elements => render element ++ renderTail elements

def renderTail : List Value → List Char
  | [] => []
  | element :: elements => ',' :: ' ' :: (render element ++ renderTail elements)

end

mutual

/-- A member is written as the string of its name, and a collection of any form as an array. -/
def json : Value → List Char
  | .text content => Text.jsonQuoted content.toList
  | .int number => writeInteger number.toInt
  | .long number => writeInteger number.toInt
  | .bool flag => boolText flag
  | .double number => number.jsonText
  | .member _ name => Text.jsonQuoted name.toList
  | .collection _ elements => '[' :: (jsonAll elements ++ [']'])

def jsonAll : List Value → List Char
  | [] => []
  | element :: elements => json element ++ jsonTail elements

def jsonTail : List Value → List Char
  | [] => []
  | element :: elements => ',' :: (json element ++ jsonTail elements)

end

def toText (value : Value) : String :=
  String.ofList value.render

def toJson (value : Value) : String :=
  String.ofList value.json

end TypedLiteral.Value
