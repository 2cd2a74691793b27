import TypedLiteral.Proofs.SequenceSteps

/-! Sequences without words. The same machine runs over whole numbers, which have no size to
overflow, and the machine over words does step by step what it does: no successor, no distance and
no number of a range wraps around, up to both ends of the 64 bits. -/
namespace TypedLiteral.Literal.Sequence

/-- What is reported of a sequence, with the ends of a range as whole numbers. -/
inductive Refusal
  | excess (first last : Int) (limit : Nat)
  | other (failure : Failure)
deriving DecidableEq

/-- The state of the machine over whole numbers. -/
structure Unbounded where
  phase : Phase := .start
  anchor : Option Int := none
  /-- The numbers found so far in runs, newest run first. -/
  runs : List (List Int) := []
deriving DecidableEq

/-- A number that the width holds, though not as a word. -/
def readNumber (width : Width) (text : List Char) : Except Refusal Int :=
  let token := Text.trim text
  match integer? token with
  | none => .error (.other (invalidNumber token width.typeName))
  | some number =>
    if width.bounds.1 ≤ number ∧ number ≤ width.bounds.2 then .ok number
    else .error (.other (invalidNumber token width.typeName))

namespace Unbounded

def number (state : Unbounded) (limit : Nat) (number : Int) : Except Refusal Unbounded :=
  match state.phase, state.anchor with
  | .afterDots, some anchor =>
    if number ≤ anchor then .ok { state with phase := .afterNumber }
    else if (limit : Int) < number - anchor then .error (.excess anchor number limit)
    else .ok { state with phase := .afterNumber, runs := span anchor number :: state.runs }
  | _, _ => .ok ⟨.afterNumber, some number, [number] :: state.runs⟩

def step (width : Width) (limit : Nat) (body : List Char) (state : Unbounded)
    (token : List Char) : Except Refusal Unbounded :=
  if token = comma then
    if state.phase = .afterNumber then .ok { state with phase := .afterComma }
    else .error (.other (.unexpectedToken (String.ofList token) (String.ofList body)))
  else if token = dots then
    match state.phase with
    | .afterNumber => .ok { state with phase := .afterDots }
    | .start => .error (.other (.unexpectedToken (String.ofList token) (String.ofList body)))
    | .afterComma | .afterDots => .error (.other (.rangeWithoutStart (String.ofList body)))
  else if (Text.trim token).isEmpty then .ok state
  else (readNumber width token).bind (state.number limit)

def finish (body : List Char) (state : Unbounded) : Except Refusal (List Int) :=
  match state.phase with
  | .afterComma =>
    .error (.other (.unexpectedToken (String.ofList comma) (String.ofList body)))
  | .afterDots => .error (.other (.unexpectedToken (String.ofList dots) (String.ofList body)))
  | .start | .afterNumber => .ok state.runs.reverse.flatten

/-- The numbers of a sequence, were it read without words. -/
def read (width : Width) (limit : Nat) (body : List Char) : Except Refusal (List Int) :=
  ((tokens (Text.trim body) [comma, dots] true).foldlM (step width limit body) {}).bind
    (finish body)

end Unbounded

/-- A failure over words, told in whole numbers. -/
def Refusal.ofFailure : Failure → Refusal
  | .rangeTooLarge first last limit => .excess first.toInt last.toInt limit
  | failure => .other failure

def restate {α β : Type} (value : α → β) (outcome : Except Failure α) : Except Refusal β :=
  (outcome.mapError Refusal.ofFailure).map value

def State.unbounded (state : State) : Unbounded where
  phase := state.phase
  anchor := state.anchor.map Int64.toInt
  runs := state.runs.map (List.map Int64.toInt)

@[simp] theorem State.unbounded_phase (state : State) : state.unbounded.phase = state.phase := rfl

section Restate

variable {α β γ δ : Type} {value : α → β} {result : γ → δ}

theorem restate_bind {outcome : Except Failure α} {next : α → Except Failure γ}
    {further : β → Except Refusal δ}
    (each : ∀ item, restate result (next item) = further (value item)) :
    restate result (outcome.bind next) = (restate value outcome).bind further := by
  cases outcome with
  | error failure => rfl
  | ok item => exact each item

theorem restate_foldlM {step : α → γ → Except Failure α} {further : β → γ → Except Refusal β}
    (each : ∀ state item, restate value (step state item) = further (value state) item)
    (items : List γ) (start : α) :
    restate value (items.foldlM step start) = items.foldlM further (value start) := by
  induction items generalizing start with
  | nil => rfl
  | cons item items ih =>
    rw [List.foldlM_cons, List.foldlM_cons, ← each]
    exact restate_bind ih

end Restate

variable {width : Width} {limit : Nat} {body : List Char}

theorem restate_readInteger (token : List Char) :
    restate Int64.toInt (readInteger width token) = readNumber width token := by
  dsimp only [readInteger, readNumber]
  cases integer? (Text.trim token) with
  | none => rfl
  | some number =>
    dsimp only
    split
    · rename_i inside
      exact congrArg Except.ok (Width.holds_iff_bounds.mpr inside).toInt
    · rfl

theorem restate_number (state : State) (word : Int64) :
    restate State.unbounded (state.number limit word) =
      state.unbounded.number limit word.toInt := by
  unfold State.number Unbounded.number State.unbounded
  cases phase : state.phase with
  | afterDots =>
    cases anchor : state.anchor with
    | none => rfl
    | some first =>
      dsimp only [Option.map_some]
      by_cases descending : word ≤ first
      · rw [if_pos descending, if_pos (Int64.le_iff_toInt_le.mp descending)]
        rfl
      · -- Any two words will do here: the narrower width only matters for the values.
        have range : ExactRange .long first word :=
          exactRange (Width.holds_long first) (Width.holds_long word) (Int64.not_le.mp descending)
        rw [if_neg descending, if_neg (mt Int64.le_iff_toInt_le.mpr descending),
          ← range.gap, ← range.numbers]
        by_cases far : limit < distance first word
        · rw [if_pos far, if_pos (Int.ofNat_lt.mpr far)]
          rfl
        · rw [if_neg far, if_neg (mt Int.ofNat_lt.mp far)]
          rfl
  | _ => rfl

theorem restate_step (state : State) (token : List Char) :
    restate State.unbounded (state.step width limit body token) =
      state.unbounded.step width limit body token := by
  unfold State.step Unbounded.step
  split
  · split
    · rename_i numbered
      rw [State.unbounded_phase, if_pos numbered]
      rfl
    · rename_i other
      rw [State.unbounded_phase, if_neg other]
      rfl
  split
  · rw [State.unbounded_phase]
    cases state.phase <;> rfl
  split
  · rfl
  · rw [restate_bind (restate_number state), restate_readInteger]

theorem restate_finish (state : State) :
    restate (List.map Int64.toInt) (state.finish body) = state.unbounded.finish body := by
  unfold State.finish Unbounded.finish State.unbounded
  cases phase : state.phase <;> simp [restate, Except.mapError, Except.map, Refusal.ofFailure]

theorem restate_readSequence (width : Width) (limit : Nat) (body : List Char) :
    restate (List.map Int64.toInt) (readSequence width limit body) =
      Unbounded.read width limit body := by
  rw [readSequence, Unbounded.read, restate_bind restate_finish, restate_foldlM restate_step]
  rfl

end TypedLiteral.Literal.Sequence
