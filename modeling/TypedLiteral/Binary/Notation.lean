import TypedLiteral.Binary.Shortest
import TypedLiteral.Decimal.Notation

/-! The three written forms of a double: as a literal, inside a message and as a JSON number. -/
namespace TypedLiteral.Binary64

def nonFiniteText (number : Binary64) : List Char :=
  if number.isNaN then "NaN".toList
  else Decimal.signed number.isNegative "inf".toList

/-- As a literal a whole number shows all its digits, any other one the fewest that read back. -/
def literalText (number : Binary64) : List Char :=
  if number.isIntegral then number.exact.positional
  else if number.isFinite then (number.shortest .up).positional
  else number.nonFiniteText

/-- In a message every finite number shows the fewest digits that read back. -/
def messageText (number : Binary64) : List Char :=
  if number.isFinite then (number.shortest .up).positional else number.nonFiniteText

/-- JSON has no words for the numbers that are not finite. -/
def jsonText (number : Binary64) : List Char :=
  if number.isFinite then (number.shortest .toEven).compact else "null".toList

end TypedLiteral.Binary64
