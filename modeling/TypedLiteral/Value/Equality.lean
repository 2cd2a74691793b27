import Std.Data.TreeMap
import TypedLiteral.Value.Basic

/-! Sameness of values, and sets made of lists. Values of different kinds are never the same.
Doubles are compared as words, lists and arrays element by element, and sets without regard to
order. A set keeps the first of all elements that are the same. -/
namespace TypedLiteral.Value

mutual

def same : Value → Value → Bool
  | .text a, .text b => a == b
  | .int a, .int b => a == b
  | .long a, .long b => a == b
  | .bool a, .bool b => a == b
  | .double a, .double b => a == b
  | .member t a, .member u b => t == u && a == b
  | .collection .list xs, .collection .list ys => sameElements xs ys
  | .collection .array xs, .collection .array ys => sameElements xs ys
  | .collection .set xs, .collection .set ys => xs.length == ys.length && included xs ys
  | _, _ => false

def sameElements : List Value → List Value → Bool
  | [], [] => true
  | x :: xs, y :: ys => same x y && sameElements xs ys
  | _, _ => false

/-- Every element of the first list is the same as some element of the second. -/
def included : List Value → List Value → Bool
  | [], _ => true
  | x :: xs, ys => ys.any (same x) && included xs ys

end

def mix (a b : UInt64) : UInt64 :=
  a * 0x9E3779B97F4A7C15 + b

def mixText (start : UInt64) (text : String) : UInt64 :=
  text.toList.foldl (fun total c => mix total c.val.toUInt64) start

mutual

/-- A number that values have in common when they are the same. The elements of a set do not
enter it, because their order does not matter. -/
def fingerprint : Value → UInt64
  | .text content => mixText 1 content
  | .int number => mix 2 number.toUInt32.toUInt64
  | .long number => mix 3 number.toUInt64
  | .bool flag => if flag then 4 else 5
  | .double number => mix 6 number.bits
  | .member type name => mixText (mixText 7 type.text) name
  | .collection .set elements => mix 8 (UInt64.ofNat elements.length)
  | .collection .list elements => fingerprintAll 9 elements
  | .collection .array elements => fingerprintAll 10 elements

def fingerprintAll (start : UInt64) : List Value → UInt64
  | [] => start
  | x :: xs => fingerprintAll (mix start (fingerprint x)) xs

end

/-- The values kept so far, newest first, and the same values by fingerprint. -/
structure Kept where
  values : List Value
  byFingerprint : Std.TreeMap UInt64 (List Value)

def Kept.add (kept : Kept) (value : Value) : Kept :=
  let rivals := kept.byFingerprint.getD value.fingerprint []
  if rivals.any value.same then kept
  else ⟨value :: kept.values, kept.byFingerprint.insert value.fingerprint (value :: rivals)⟩

def distinct (values : List Value) : List Value :=
  (values.foldl Kept.add ⟨[], ∅⟩).values.reverse

/-- A collection of the given elements. A set drops the repeated ones. -/
def ofElements (form : Form) (elements : List Value) : Value :=
  .collection form (if form = .set then distinct elements else elements)

end TypedLiteral.Value
