import TypedLiteral.Extraction.Target

/-! The order of what a target yields: numbers by size, characters and texts by code points, choices
as they are declared, and groups by their first difference. Floating-point numbers have no order of
their own and stand in the order of their words. -/
namespace TypedLiteral

namespace Extracted

/-- The number that a scalar other than a text is placed by. -/
def weight : Extracted → Int
  | .integer number => number
  | .single number => number.bits.toNat
  | .double number => number.bits.toNat
  | .boolean flag => flag.toNat
  | .character c => c.toNat
  | _ => 0

def word : Extracted → String
  | .string content => content
  | .choice variant => variant
  | _ => ""

def parts : Extracted → List Extracted
  | .present body => [body]
  | .sequence elements => elements
  | .set elements => elements
  | .product _ positions => positions
  | _ => []

/-- Leaves one of neighbours that are the same. -/
def dropRepeats (order : Extracted → Extracted → Ordering) : List Extracted → List Extracted
  | [] => []
  | [element] => [element]
  | element :: next :: elements =>
    if order element next = .eq then dropRepeats order (next :: elements)
    else element :: dropRepeats order (next :: elements)

end Extracted

namespace Target

mutual

def order : Target → Extracted → Extracted → Ordering
  | .string => compareOn Extracted.word
  | .choice variants => compareOn fun choice => variants.findIdx (·.name == choice.word)
  | .option body | .sequence body | .set body => fun a b =>
    List.compareLex (order body) a.parts b.parts
  | .product _ positions => fun a b => orderPositions positions a.parts b.parts
  | _ => compareOn Extracted.weight

def orderPositions : List Target → List Extracted → List Extracted → Ordering
  | [] => fun _ _ => .eq
  | position :: positions =>
    compareLex (fun xs ys => order position (xs.headD .ignored) (ys.headD .ignored))
      fun xs ys => orderPositions positions xs.tail ys.tail

end

/-- The distinct elements in ascending order. -/
def ascending (target : Target) (elements : List Extracted) : List Extracted :=
  Extracted.dropRepeats target.order (elements.mergeSort fun a b => (target.order a b).isLE)

end Target
end TypedLiteral
