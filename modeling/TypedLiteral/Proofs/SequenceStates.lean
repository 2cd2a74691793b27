import Mathlib.Data.List.DropRight
import TypedLiteral.Proofs.UnboundedSequence

/-! The states of a sequence between its tokens. Two pieces never stand next to each other, so no
number is met directly behind a number, and what stands behind a `..` has the first number of its
segment to begin above. That anchor fits into the width, and with it all that a range adds. -/
namespace TypedLiteral

namespace Literal

namespace Sequence

/-- The first number behind the latest comma. -/
def firstNumber? (taken : List (List Char)) : Option (List Char) :=
  (taken.rtakeWhile (· != comma)).find? isNumber

/-- The machine comes to a state: it has taken some of the tokens in, and the others are left. -/
inductive Arrives (width : Width) (limit : Nat) (body : List Char) :
    List (List Char) → List (List Char) → State → Prop
  | start : Arrives width limit body [] (tokens (Text.trim body) [comma, dots] true) {}
  | step {taken token left state next}
      (arrives : Arrives width limit body taken (token :: left) state)
      (stepped : state.step width limit body token = .ok next) :
      Arrives width limit body (taken ++ [token]) left next

namespace State

/-- How many numbers were found so far. -/
def size (state : State) : Nat :=
  state.runs.flatten.length

/-- What a state has of the tokens that led to it. -/
structure Settled (width : Width) (taken : List (List Char)) (state : State) : Prop where
  awaits : state.phase = .start ∨ state.phase = .afterComma → firstNumber? taken = none
  anchored : state.phase = .afterNumber ∨ state.phase = .afterDots →
    ∃ token first, firstNumber? taken = some token ∧ state.anchor = some first ∧
      width.Denotes token first.toInt
  behindPiece : state.phase = .afterNumber → ∃ last ∈ taken.getLast?, last ∉ [comma, dots]
  anchorHeld : ∀ first ∈ state.anchor, width.Holds first.toInt
  runsHeld : ∀ word ∈ state.runs.flatten, width.Holds word.toInt

end State

variable {width : Width} {limit : Nat} {body token : List Char} {taken left : List (List Char)}

theorem firstNumber?_comma (taken : List (List Char)) : firstNumber? (taken ++ [comma]) = none := by
  rw [firstNumber?, List.rtakeWhile_concat_neg _ _ _ (by simp)]
  rfl

private theorem firstNumber?_append (other : token ≠ comma) :
    firstNumber? (taken ++ [token]) =
      (firstNumber? taken).or (if isNumber token then some token else none) := by
  rw [firstNumber?, List.rtakeWhile_concat_pos _ _ _ (by simpa using other), List.find?_append,
    List.find?_singleton]
  rfl

theorem firstNumber?_idle (other : token ≠ comma) (idle : isNumber token = false) :
    firstNumber? (taken ++ [token]) = firstNumber? taken := by
  simp [firstNumber?_append other, idle]

theorem firstNumber?_begun (other : token ≠ comma) (numeric : isNumber token = true)
    (awaited : firstNumber? taken = none) : firstNumber? (taken ++ [token]) = some token := by
  rw [firstNumber?_append other, awaited, Option.none_or, if_pos numeric]

theorem firstNumber?_kept {first : List Char} (other : token ≠ comma)
    (found : firstNumber? taken = some first) : firstNumber? (taken ++ [token]) = some first := by
  rw [firstNumber?_append other, found, Option.some_or]

namespace State

variable {state next : State}

theorem Takes.size_le {word : Int64} (takes : state.Takes limit word next) :
    next.size ≤ state.size + max 1 limit := by
  cases takes with
  | anchor free =>
    simp only [size, List.flatten_cons, List.length_append, List.length_singleton]
    omega
  | passed behind anchor descending => exact Nat.le_add_right _ _
  | range behind anchor ascending near =>
    simp only [size, above, List.flatten_cons, List.length_append, List.length_map,
      List.length_range]
    omega

theorem Moves.size_le (moves : state.Moves width limit token next) :
    next.size ≤ state.size + if isNumber token then max 1 limit else 0 := by
  cases moves with
  | comma numbered => exact Nat.le_add_right _ _
  | dots numbered => exact Nat.le_add_right _ _
  | blank plain blank => exact Nat.le_add_right _ _
  | number numeric denotes counted =>
    rw [if_pos numeric]
    exact (takes_of_number counted).size_le

namespace Settled

theorem nothing : Settled width [] {} :=
  ⟨fun _ => rfl, by simp, by simp, by simp, by simp⟩

/-- A number that neither follows a number nor ends a range is the first one of its segment. -/
private theorem awaited (settled : state.Settled width taken) (fresh : state.phase ≠ .afterNumber)
    (free : state.phase = .afterDots → state.anchor = none) : firstNumber? taken = none := by
  refine settled.awaits ?_
  cases phase : state.phase with
  | start => exact Or.inl rfl
  | afterComma => exact Or.inr rfl
  | afterNumber => exact (fresh phase).elim
  | afterDots =>
    obtain ⟨-, first, -, anchor, -⟩ := settled.anchored (Or.inr phase)
    rw [free phase] at anchor
    contradiction

private theorem kept (settled : state.Settled width taken) (behind : state.phase = .afterDots)
    (other : token ≠ comma) :
    ∃ earlier first, firstNumber? (taken ++ [token]) = some earlier ∧ state.anchor = some first ∧
      width.Denotes earlier first.toInt := by
  obtain ⟨earlier, first, found, anchor, begins⟩ := settled.anchored (Or.inr behind)
  exact ⟨earlier, first, firstNumber?_kept other found, anchor, begins⟩

private theorem takes (settled : state.Settled width taken) (numeric : isNumber token = true)
    (fresh : state.phase ≠ .afterNumber) {number : Int} (denotes : width.Denotes token number)
    (takes : state.Takes limit (Int64.ofInt number) next) : next.Settled width (taken ++ [token]) := by
  have plain := (isNumber_iff.mp numeric).1
  have other : token ≠ comma := List.ne_of_not_mem_cons plain
  have last : ∃ last ∈ (taken ++ [token]).getLast?, last ∉ [comma, dots] := ⟨token, by simp, plain⟩
  have word : width.Denotes token (Int64.ofInt number).toInt := by rwa [denotes.held.toInt]
  cases takes with
  | anchor free =>
    have begun := firstNumber?_begun other numeric (settled.awaited fresh free)
    refine ⟨by simp, fun _ => ⟨token, _, begun, rfl, word⟩, fun _ => last, ?_, ?_⟩
    · intro first same
      cases same
      exact word.held
    · intro found member
      rcases List.mem_cons.mp member with rfl | earlier
      · exact word.held
      · exact settled.runsHeld found earlier
  | passed behind anchor descending =>
    exact ⟨by simp, fun _ => settled.kept behind other, fun _ => last, settled.anchorHeld,
      settled.runsHeld⟩
  | range behind anchor ascending near =>
    -- Between two numbers of the width there are only numbers of the width.
    have range := exactRange (settled.anchorHeld _ anchor) word.held ascending
    refine ⟨by simp, fun _ => settled.kept behind other, fun _ => last, settled.anchorHeld, ?_⟩
    intro found member
    rcases List.mem_append.mp member with added | earlier
    · exact (range.values found added).holds
    · exact settled.runsHeld found earlier

theorem moves (settled : state.Settled width taken)
    (apart : ∀ last ∈ taken.getLast?, last ∈ [comma, dots] ∨ token ∈ [comma, dots])
    (moves : state.Moves width limit token next) : next.Settled width (taken ++ [token]) := by
  cases moves with
  | comma numbered =>
    exact ⟨fun _ => firstNumber?_comma taken, by simp, by simp, settled.anchorHeld,
      settled.runsHeld⟩
  | dots numbered =>
    have same : firstNumber? (taken ++ [dots]) = firstNumber? taken :=
      firstNumber?_idle (by decide) (isNumber_delimiter (by simp))
    have anchored := settled.anchored (Or.inl numbered)
    rw [← same] at anchored
    exact ⟨by simp, fun _ => anchored, by simp, settled.anchorHeld, settled.runsHeld⟩
  | blank plain blank =>
    have same : firstNumber? (taken ++ [token]) = firstNumber? taken :=
      firstNumber?_idle (List.ne_of_not_mem_cons plain) (isNumber_blank blank)
    refine ⟨?_, ?_, fun _ => ⟨token, by simp, plain⟩, settled.anchorHeld, settled.runsHeld⟩
    · rw [same]
      exact settled.awaits
    · rw [same]
      exact settled.anchored
  | number numeric denotes counted =>
    -- Behind a number the latest token is a piece, and no piece follows that one.
    refine settled.takes numeric (fun numbered => ?_) denotes (takes_of_number counted)
    obtain ⟨last, behind, piece⟩ := settled.behindPiece numbered
    exact (apart last behind).elim piece (isNumber_iff.mp numeric).1

end Settled

end State

namespace Arrives

variable {state : State}

theorem tokens_eq (arrives : Arrives width limit body taken left state) :
    tokens (Text.trim body) [comma, dots] true = taken ++ left := by
  induction arrives with
  | start => rfl
  | step arrives stepped ih => rw [ih, List.append_assoc, List.singleton_append]

theorem apart (arrives : Arrives width limit body taken left state) :
    ∀ last ∈ taken.getLast?, ∀ token ∈ left.head?,
      last ∈ [comma, dots] ∨ token ∈ [comma, dots] := by
  have chain := tokens_isChain (Text.trim body) [comma, dots]
  rw [arrives.tokens_eq] at chain
  exact (List.isChain_append.mp chain).2.2

theorem settled (arrives : Arrives width limit body taken left state) :
    state.Settled width taken := by
  induction arrives with
  | start => exact .nothing
  | step arrives stepped ih =>
    exact ih.moves (fun last behind => arrives.apart last behind _ rfl)
      (State.moves_of_step stepped)

theorem size_le (arrives : Arrives width limit body taken left state) :
    state.size ≤ taken.countP isNumber * max 1 limit := by
  induction arrives with
  | start => exact Nat.zero_le _
  | step arrives stepped ih =>
    have grown := (State.moves_of_step stepped).size_le
    rw [List.countP_append, Nat.add_mul]
    refine Nat.le_trans grown (Nat.add_le_add ih ?_)
    cases numeric : isNumber _ <;> simp [numeric]

theorem run {ahead : List (List Char)} {next : State}
    (arrives : Arrives width limit body taken (ahead ++ left) state)
    (passed : ahead.foldlM (State.step width limit body) state = .ok next) :
    Arrives width limit body (taken ++ ahead) left next := by
  induction ahead generalizing taken state with
  | nil =>
    cases passed
    rwa [List.append_nil]
  | cons token ahead ih =>
    rw [List.foldlM_cons, bind_eq_ok_iff] at passed
    obtain ⟨middle, stepped, later⟩ := passed
    have further := ih (arrives.step stepped) later
    rwa [List.append_assoc] at further

end Arrives

/-- What is read is what the last state has found. -/
theorem exists_arrives_of_readSequence {words : List Int64}
    (read : readSequence width limit body = .ok words) :
    ∃ state, Arrives width limit body (tokens (Text.trim body) [comma, dots] true) [] state ∧
      words = state.runs.reverse.flatten := by
  obtain ⟨state, passed, ended⟩ := bind_eq_ok_iff.mp read
  have fresh : Arrives width limit body []
      (tokens (Text.trim body) [comma, dots] true ++ []) {} := by
    rw [List.append_nil]
    exact .start
  exact ⟨state, fresh.run passed, (State.finish_eq_ok_iff.mp ended).2⟩

end Sequence

open Sequence

/-- A sequence is read in words as it would be read in whole numbers. Wherever the machine stands
between two tokens, no number follows a number, and behind a number or a `..` there is an anchor: the
first number of the segment, held by the width. A range above it is exact, and every value is the
number that was found. A number adds one value, or at most as many as the limit allows a range. -/
theorem readSequence_exact (width : Width) (limit : Nat) (body : List Char) :
    (∀ taken left state, Arrives width limit body taken left state →
      (state.phase = .afterDots → ∃ first, state.anchor = some first) ∧
      (state.phase = .afterNumber → ∀ token ∈ left.head?, isNumber token = false) ∧
      (∀ first ∈ state.anchor, width.Holds first.toInt) ∧
      (state.phase = .afterNumber ∨ state.phase = .afterDots →
        ∃ token first, firstNumber? taken = some token ∧ state.anchor = some first ∧
          width.Denotes token first.toInt) ∧
      (state.phase = .afterDots → ∀ first ∈ state.anchor, ∀ token ∈ left.head?, ∀ last,
        readInteger width token = .ok last → first < last → ExactRange width first last) ∧
      (∀ word ∈ state.runs.flatten, width.Represents word.toInt (width.value word)) ∧
      ∀ token ∈ left.head?, ∀ next, state.step width limit body token = .ok next →
        next.size ≤ state.size + if isNumber token then max 1 limit else 0) ∧
    restate (List.map Int64.toInt) (readSequence width limit body) =
      Unbounded.read width limit body ∧
    ∀ words, readSequence width limit body = .ok words →
      List.Forall₂ width.Represents (words.map Int64.toInt) (words.map width.value) ∧
      words.length ≤
        (tokens (Text.trim body) [comma, dots] true).countP isNumber * max 1 limit := by
  refine ⟨fun taken left state arrives => ?_, restate_readSequence width limit body,
    fun words read => ?_⟩
  · have settled := arrives.settled
    refine ⟨fun behind => ?_, fun numbered token ahead => ?_, settled.anchorHeld, settled.anchored,
      fun behind first anchor token ahead last reads ascending => ?_,
      fun word member => (settled.runsHeld word member).represents_word,
      fun token ahead next stepped => (State.moves_of_step stepped).size_le⟩
    · obtain ⟨-, first, -, anchor, -⟩ := settled.anchored (Or.inr behind)
      exact ⟨first, anchor⟩
    · obtain ⟨last, behind, piece⟩ := settled.behindPiece numbered
      exact isNumber_delimiter ((arrives.apart last behind token ahead).resolve_left piece)
    · obtain ⟨number, denotes, rfl⟩ := readInteger_eq_ok_iff.mp reads
      refine exactRange (settled.anchorHeld first anchor) ?_ ascending
      rw [denotes.held.toInt]
      exact denotes.held
  · obtain ⟨state, arrives, rfl⟩ := exists_arrives_of_readSequence read
    refine ⟨?_, ?_⟩
    · rw [List.forall₂_map_left_iff, List.forall₂_map_right_iff, List.forall₂_same]
      intro word member
      have found : word ∈ state.runs.flatten := by simpa using member
      exact (arrives.settled.runsHeld word found).represents_word
    · have counted : state.runs.reverse.flatten.length = state.size := by
        simp [State.size, List.length_flatten, List.sum_reverse]
      rw [counted]
      exact arrives.size_le

/-- The widest range of all has one number too many for the limit, and is refused as such. -/
theorem readSequence_exact_extremes :
    let body := "-9223372036854775808 .. 9223372036854775807".toList
    let limit := 18446744073709551614
    let state : State := ⟨.afterDots, some Int64.minValue, [[Int64.minValue]]⟩
    (Arrives .long limit body ["-9223372036854775808 ".toList, dots]
        [" 9223372036854775807".toList] state ∧
      readInteger .long " 9223372036854775807".toList = .ok Int64.maxValue ∧
      readSequence .long limit body =
        .error (.rangeTooLarge Int64.minValue Int64.maxValue limit)) ∧
    ExactRange .long Int64.minValue Int64.maxValue ∧
    Unbounded.read .long limit body =
      .error (.excess (-9223372036854775808) 9223372036854775807 limit) := by
  intro body limit state
  have cut : tokens (Text.trim body) [comma, dots] true =
      ["-9223372036854775808 ".toList, dots] ++ [" 9223372036854775807".toList] := by
    decide +kernel
  have fresh : Arrives .long limit body []
      (["-9223372036854775808 ".toList, dots] ++ [" 9223372036854775807".toList]) {} :=
    cut ▸ .start
  have arrives : Arrives .long limit body ["-9223372036854775808 ".toList, dots]
      [" 9223372036854775807".toList] state := fresh.run rfl
  have reads : readInteger .long " 9223372036854775807".toList = .ok Int64.maxValue := by
    decide +kernel
  have refused : readSequence .long limit body =
      .error (.rangeTooLarge Int64.minValue Int64.maxValue limit) := by decide +kernel
  obtain ⟨states, same, -⟩ := readSequence_exact .long limit body
  obtain ⟨-, -, -, -, ranges, -⟩ := states _ _ state arrives
  refine ⟨⟨arrives, reads, refused⟩, ranges rfl _ rfl _ rfl _ reads (by decide), ?_⟩
  rw [← same, refused]
  rfl

end Literal

end TypedLiteral
