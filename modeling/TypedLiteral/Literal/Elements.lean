import TypedLiteral.Text.Blank
import TypedLiteral.Text.TokenStream

/-! The elements of a collection literal. A bracketed group is one element, the text between its
brackets as it stands. Outside of groups, elements are what commas and brackets separate, without
the blanks at their ends; nothing but blanks is no element. -/
namespace TypedLiteral.Literal

namespace Elements

def delimiters : List (List Char) :=
  [[','], ['['], [']']]

structure Scan where
  depth : Nat := 0
  group : List (List Char) := []
  /-- The elements found so far, newest first. -/
  found : List (List Char) := []

/-- Takes one token in. There is no way on from a bracket that closes nothing. -/
def Scan.step (scan : Scan) (token : List Char) : Option Scan :=
  if token = ['['] then
    some { scan with
      depth := scan.depth + 1
      group := if scan.depth = 0 then [] else token :: scan.group }
  else if token = [']'] then
    match scan.depth with
    | 0 => none
    | 1 => some { depth := 0, group := [], found := scan.group.reverse.flatten :: scan.found }
    | depth + 1 => some { scan with depth, group := token :: scan.group }
  else if 0 < scan.depth then some { scan with group := token :: scan.group }
  else if token = [','] then some scan
  else
    let element := Text.trim token
    some (if element.isEmpty then scan else { scan with found := element :: scan.found })

end Elements

def elements? (body : List Char) : Option (List (List Char)) := do
  let scan ← (tokens body Elements.delimiters true).foldlM Elements.Scan.step {}
  if scan.depth = 0 then some scan.found.reverse else none

end TypedLiteral.Literal
