import TypedLiteral.Text.Quoted
import TypedLiteral.Value.Notation

/-! What extraction sees of a value. A member shows as the text of its name, an integer of either
width as its number, and a collection of any form as its elements in order. -/
namespace TypedLiteral

inductive Content
  | text (content : String)
  | integer (number : Int)
  | boolean (flag : Bool)
  | double (number : Binary64)
  | sequence (elements : List Value)

def Value.content : Value → Content
  | .text content => .text content
  | .int number => .integer number.toInt
  | .long number => .integer number.toInt
  | .bool flag => .boolean flag
  | .double number => .double number
  | .member _ name => .text name
  | .collection _ elements => .sequence elements

/-- What the content is called in a message about it. -/
def Content.description : Content → String
  | .text content => "string " ++ String.ofList (Text.messageQuoted content.toList)
  | .integer number => "integer `" ++ String.ofList (writeInteger number) ++ "`"
  | .boolean flag => "boolean `" ++ (if flag then "true" else "false") ++ "`"
  | .double number => "floating point `" ++ String.ofList number.messageText ++ "`"
  | .sequence _ => "sequence"

end TypedLiteral
