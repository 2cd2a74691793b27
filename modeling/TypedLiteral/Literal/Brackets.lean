import TypedLiteral.Text.Blank

/-! The brackets around a literal. A literal is balanced when every closing bracket has a partner
in front of it and every opening one behind it. One pair that encloses all of a balanced literal is
taken off; `[a], [b]` has none, because its first bracket closes before the end. -/
namespace TypedLiteral.Literal

/-- The nesting depth behind a text that begins at the given depth, unless a bracket in it closes
nothing. -/
def depthAfter? : Nat → List Char → Option Nat
  | depth, [] => some depth
  | depth, '[' :: text => depthAfter? (depth + 1) text
  | 0, ']' :: _ => none
  | depth + 1, ']' :: text => depthAfter? depth text
  | depth, _ :: text => depthAfter? depth text

def isBalanced (text : List Char) : Bool :=
  depthAfter? 0 text == some 0

/-- Parts a text at the bracket that closes the group it begins in; `depth` further groups are
open. -/
def group? : Nat → List Char → Option (List Char × List Char)
  | _, [] => none
  | depth, '[' :: text => (group? (depth + 1) text).map fun (inner, rest) => ('[' :: inner, rest)
  | 0, ']' :: text => some ([], text)
  | depth + 1, ']' :: text => (group? depth text).map fun (inner, rest) => (']' :: inner, rest)
  | depth, c :: text => (group? depth text).map fun (inner, rest) => (c :: inner, rest)

/-- The inside of a text that is one bracketed group, blanks around it aside. -/
def inside? (text : List Char) : Option (List Char) :=
  match Text.trim text with
  | '[' :: rest =>
    match group? 0 rest with
    | some (inner, []) => some inner
    | _ => none
  | _ => none

/-- The literal without its enclosing pair of brackets. A literal without one stays as it is, with
its blanks, and an unbalanced one has no body. -/
def body? (text : List Char) : Option (List Char) :=
  if isBalanced text then some ((inside? text).getD text) else none

end TypedLiteral.Literal
