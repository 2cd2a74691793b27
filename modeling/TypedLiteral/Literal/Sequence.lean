import TypedLiteral.Literal.Scalar
import TypedLiteral.Text.TokenStream

/-! Sequences of integers, such as `1, 3..5, 9`. Numbers are separated by commas. A `..` and a
number behind one append every number above the anchor up to that number, which appends nothing
unless it is greater. The anchor is the latest number that no `..` precedes, so `1..3..5` is
`1, 2, 3, 2, 3, 4, 5`. Brackets mean nothing here. -/
namespace TypedLiteral.Literal

namespace Sequence

def comma : List Char := [',']

def dots : List Char := ['.', '.']

inductive Phase
  | start
  | afterNumber
  | afterComma
  | afterDots
deriving DecidableEq

structure State where
  phase : Phase := .start
  anchor : Option Int64 := none
  /-- The numbers found so far in runs, newest run first. -/
  runs : List (List Int64) := []

/-- The distance between two numbers, the first being the smaller one. -/
def distance (first last : Int64) : Nat :=
  (last.toUInt64 - first.toUInt64).toNat

def above (first : Int64) (count : Nat) : List Int64 :=
  (List.range count).map fun offset => first + 1 + Int64.ofNat offset

/-- Takes a number in, as a range end if it stands behind `..`. -/
def State.number (state : State) (limit : Nat) (number : Int64) : Except Failure State :=
  match state.phase, state.anchor with
  | .afterDots, some anchor =>
    if number ≤ anchor then .ok { state with phase := .afterNumber }
    else if limit < distance anchor number then .error (.rangeTooLarge anchor number limit)
    else .ok { state with
      phase := .afterNumber, runs := above anchor (distance anchor number) :: state.runs }
  | _, _ => .ok ⟨.afterNumber, some number, [number] :: state.runs⟩

/-- Takes one token in. A failure shows the whole sequence, except for the numbers. -/
def State.step (width : Width) (limit : Nat) (body : List Char) (state : State)
    (token : List Char) : Except Failure State :=
  if token = comma then
    if state.phase = .afterNumber then .ok { state with phase := .afterComma }
    else .error (.unexpectedToken (String.ofList token) (String.ofList body))
  else if token = dots then
    match state.phase with
    | .afterNumber => .ok { state with phase := .afterDots }
    | .start => .error (.unexpectedToken (String.ofList token) (String.ofList body))
    | .afterComma | .afterDots => .error (.rangeWithoutStart (String.ofList body))
  else if (Text.trim token).isEmpty then .ok state
  else (readInteger width token).bind (state.number limit)

/-- A sequence ends behind a number, or has none. -/
def State.finish (body : List Char) (state : State) : Except Failure (List Int64) :=
  match state.phase with
  | .afterComma => .error (.unexpectedToken (String.ofList comma) (String.ofList body))
  | .afterDots => .error (.unexpectedToken (String.ofList dots) (String.ofList body))
  | .start | .afterNumber => .ok state.runs.reverse.flatten

end Sequence

/-- The numbers of a sequence of the given width, whose ranges each add at most `limit` of them. -/
def readSequence (width : Width) (limit : Nat) (body : List Char) : Except Failure (List Int64) :=
  ((tokens (Text.trim body) [Sequence.comma, Sequence.dots] true).foldlM
    (Sequence.State.step width limit body) {}).bind (Sequence.State.finish body)

end TypedLiteral.Literal
