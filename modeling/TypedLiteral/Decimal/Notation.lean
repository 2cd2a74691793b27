import TypedLiteral.Decimal.Basic

/-! Writing decimal numbers, positionally or with an exponent. Neither form pads: a fraction ends
with a digit other than zero unless it is the single zero that a positional form must have. -/
namespace TypedLiteral.Decimal

def trimZeros (digits : List Char) : List Char :=
  (digits.reverse.dropWhile (· == '0')).reverse

def wholeDigits (number : Decimal) : List Char :=
  Nat.toDigits 10 (number.significand / Nat.pow 10 number.places)

def fractionDigits (number : Decimal) : List Char :=
  let digits := Nat.toDigits 10 (number.significand % Nat.pow 10 number.places)
  trimZeros (List.replicate (number.places - digits.length) '0' ++ digits)

def signed (negative : Bool) (text : List Char) : List Char :=
  if negative then '-' :: text else text

/-- The positional form, with at least one digit on each side of the point. -/
def positional (number : Decimal) : List Char :=
  let fraction := number.fractionDigits
  signed number.negative
    (number.wholeDigits ++ '.' :: (if fraction.isEmpty then ['0'] else fraction))

def exponent (number : Decimal) : Int :=
  (Nat.toDigits 10 number.significand).length - 1 - number.places

/-- The form with one digit in front of the point and a signed exponent. The point is left out
when no digit would follow it. -/
def scientific (number : Decimal) : List Char :=
  let digits := trimZeros (Nat.toDigits 10 number.significand)
  let sign := if number.exponent < 0 then '-' else '+'
  signed number.negative
    (digits.take 1 ++ (if digits.length ≤ 1 then [] else '.' :: digits.drop 1) ++
      'e' :: sign :: Nat.toDigits 10 number.exponent.natAbs)

/-- Positional for zero and for exponents from -5 to 15, otherwise scientific. -/
def compact (number : Decimal) : List Char :=
  if number.significand = 0 ∨ (-5 ≤ number.exponent ∧ number.exponent ≤ 15) then number.positional
  else number.scientific

end TypedLiteral.Decimal
