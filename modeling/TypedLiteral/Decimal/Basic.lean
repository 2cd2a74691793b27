/-! Plain decimal numerals. A numeral is an optional minus sign and ASCII digits, and if it may be
fractional, a point with digits on both sides of it. There is no plus sign and no exponent. -/
namespace TypedLiteral

/-- The number `significand / 10 ^ places`, negated or not. Zero keeps its sign. -/
structure Decimal where
  negative : Bool
  significand : Nat
  places : Nat
deriving DecidableEq

namespace Decimal

def areDigits (text : List Char) : Bool :=
  !text.isEmpty && text.all Char.isDigit

def splitSign : List Char → Bool × List Char
  | '-' :: text => (true, text)
  | text => (false, text)

def ofText? (text : List Char) : Option Decimal :=
  let unsigned := (splitSign text).2
  let whole := unsigned.takeWhile (· != '.')
  match unsigned.dropWhile (· != '.') with
  | [] =>
    if areDigits whole then
      some ⟨(splitSign text).1, Nat.ofDigitChars 10 whole 0, 0⟩
    else none
  | _ :: fraction =>
    if areDigits whole && areDigits fraction then
      some ⟨(splitSign text).1, Nat.ofDigitChars 10 (whole ++ fraction) 0, fraction.length⟩
    else none

end Decimal

def integer? (text : List Char) : Option Int :=
  let digits := (Decimal.splitSign text).2
  if Decimal.areDigits digits then
    let size := Nat.ofDigitChars 10 digits 0
    some (if (Decimal.splitSign text).1 then -(size : Int) else size)
  else none

/-- Whole numbers are written without padding, negative ones with a minus sign. -/
def writeInteger (number : Int) : List Char :=
  if number < 0 then '-' :: Nat.toDigits 10 number.natAbs else Nat.toDigits 10 number.natAbs

end TypedLiteral
