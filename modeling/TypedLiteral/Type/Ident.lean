/-! Names of types. A name is an opaque token: two types are the same when their names are, and
names are ordered by their code points. -/
namespace TypedLiteral

structure TypeIdent where
  text : String
deriving DecidableEq

inductive Width
  | int
  | long
deriving DecidableEq

namespace TypeIdent

def object : TypeIdent := ⟨"Object"⟩
def number : TypeIdent := ⟨"Number"⟩
def comparable : TypeIdent := ⟨"Comparable"⟩
def serializable : TypeIdent := ⟨"Serializable"⟩
def charSequence : TypeIdent := ⟨"CharSequence"⟩
def string : TypeIdent := ⟨"String"⟩
def int : TypeIdent := ⟨"int"⟩
def boxedInt : TypeIdent := ⟨"Integer"⟩
def long : TypeIdent := ⟨"long"⟩
def boxedLong : TypeIdent := ⟨"Long"⟩
def boolean : TypeIdent := ⟨"boolean"⟩
def boxedBoolean : TypeIdent := ⟨"Boolean"⟩
def double : TypeIdent := ⟨"double"⟩
def boxedDouble : TypeIdent := ⟨"Double"⟩
def iterable : TypeIdent := ⟨"Iterable"⟩
def collection : TypeIdent := ⟨"Collection"⟩
def set : TypeIdent := ⟨"Set"⟩
def list : TypeIdent := ⟨"List"⟩

/-- The predefined names, roots of the hierarchy first, then scalars, then collections. -/
def predefined : List TypeIdent :=
  [object, number, comparable, serializable, charSequence, string, int, boxedInt, long, boxedLong,
    boolean, boxedBoolean, double, boxedDouble, iterable, collection, set, list]

/-- The width of the integer types, plain and boxed. No other type has one, whatever its
ancestors are. -/
def width? (name : TypeIdent) : Option Width :=
  if name = int ∨ name = boxedInt then some .int
  else if name = long ∨ name = boxedLong then some .long
  else none

def sorted (names : List TypeIdent) : List TypeIdent :=
  names.mergeSort fun a b => decide (a.text ≤ b.text)

end TypeIdent
end TypedLiteral
