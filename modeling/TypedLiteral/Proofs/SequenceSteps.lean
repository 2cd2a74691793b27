import TypedLiteral.Proofs.SequenceGrammar

/-! What a token does to the state of a sequence. The machine over words goes on in few ways, and
each of them is told in terms of the numbers that the words are. -/
namespace TypedLiteral.Literal.Sequence

theorem distance_ofInt {first last : Int} (low : Width.long.Holds first)
    (high : Width.long.Holds last) (ascending : first ≤ last) :
    distance (Int64.ofInt first) (Int64.ofInt last) = (last - first).toNat := by
  have word : (Int64.ofInt last).toUInt64 - (Int64.ofInt first).toUInt64 =
      (Int64.ofInt (last - first)).toUInt64 := by
    rw [Int64.ofInt_sub, Int64.toUInt64_sub]
  have bits : (Int64.ofInt (last - first)).toUInt64.toNat = (BitVec.ofInt 64 (last - first)).toNat :=
    rfl
  simp only [Width.Holds] at low high
  rw [distance, word, bits, BitVec.toNat_ofInt]
  omega

theorem distance_toInt {first last : Int64} (ascending : first.toInt ≤ last.toInt) :
    distance first last = (last.toInt - first.toInt).toNat := by
  have span := distance_ofInt (Width.holds_long first) (Width.holds_long last) ascending
  rwa [Int64.ofInt_toInt, Int64.ofInt_toInt] at span

theorem above_ofInt (first last : Int) :
    above (Int64.ofInt first) (last - first).toNat = (span first last).map Int64.ofInt := by
  rw [above, span, List.map_map]
  apply List.map_congr_left
  intro offset _
  simp [Int64.ofInt_add, Int64.ofInt_eq_ofNat]

/-- The range from one word up to another is the range of the numbers that they are. -/
structure ExactRange (width : Width) (first last : Int64) : Prop where
  successor : (first + 1).toInt = first.toInt + 1
  gap : (distance first last : Int) = last.toInt - first.toInt
  numbers : (above first (distance first last)).map Int64.toInt = span first.toInt last.toInt
  values : ∀ word ∈ above first (distance first last),
    width.Represents word.toInt (width.value word)

theorem above_eq {first last : Int64} (ascending : first.toInt ≤ last.toInt) :
    above first (distance first last) = (span first.toInt last.toInt).map Int64.ofInt := by
  have counted := above_ofInt first.toInt last.toInt
  rwa [Int64.ofInt_toInt, ← distance_toInt ascending] at counted

theorem exactRange {width : Width} {first last : Int64} (low : width.Holds first.toInt)
    (high : width.Holds last.toInt) (ascending : first < last) : ExactRange width first last := by
  have below := Int64.lt_iff_toInt_lt.mp ascending
  have held (number : Int) (member : number ∈ span first.toInt last.toInt) :
      width.Holds number := by
    obtain ⟨above, within⟩ := mem_span.mp member
    exact low.between high (by omega) within
  have words := above_eq (Int.le_of_lt below)
  refine ⟨?_, ?_, ?_, ?_⟩
  · have next : first + 1 = Int64.ofInt (first.toInt + 1) := by
      rw [Int64.ofInt_add, Int64.ofInt_toInt]
      rfl
    rw [next, (low.between high (by omega) (by omega)).toInt]
  · rw [distance_toInt (by omega)]
    omega
  · rw [words, List.map_map]
    calc (span first.toInt last.toInt).map (Int64.toInt ∘ Int64.ofInt)
        = (span first.toInt last.toInt).map id :=
          List.map_congr_left fun number member => (held number member).toInt
      _ = span first.toInt last.toInt := List.map_id _
  · intro word member
    rw [words] at member
    obtain ⟨number, listed, rfl⟩ := List.mem_map.mp member
    rw [(held number listed).toInt]
    exact (held number listed).represents

def rangeRuns (first last : Int) : List (List Int64) :=
  if first < last then [(span first last).map Int64.ofInt] else []

theorem rangeRuns_flatten (first last : Int) :
    (rangeRuns first last).flatten = (span first last).map Int64.ofInt := by
  unfold rangeRuns
  split
  · simp
  · rename_i descending
    rw [span_eq_nil (by omega)]
    rfl

theorem rangeRuns_reverse (first last : Int) :
    (rangeRuns first last).reverse = rangeRuns first last := by
  unfold rangeRuns
  split <;> rfl

/-- The token is read as a number: it is no delimiter and not blank. -/
def isNumber (token : List Char) : Bool :=
  token != comma && token != dots && !(Text.trim token).isEmpty

theorem isNumber_iff {token : List Char} :
    isNumber token = true ↔ token ∉ [comma, dots] ∧ Text.trim token ≠ [] := by
  simp [isNumber, and_assoc]

theorem isNumber_delimiter {token : List Char} (listed : token ∈ [comma, dots]) :
    isNumber token = false := by
  rw [← Bool.not_eq_true, isNumber_iff]
  exact fun known => known.1 listed

theorem isNumber_blank {token : List Char} (blank : Text.trim token = []) :
    isNumber token = false := by
  rw [← Bool.not_eq_true, isNumber_iff]
  exact fun known => known.2 blank

namespace State

/-- How a state goes on by a number. -/
inductive Takes (limit : Nat) (state : State) (word : Int64) : State → Prop
  | anchor (free : state.phase = .afterDots → state.anchor = none) :
      Takes limit state word ⟨.afterNumber, some word, [word] :: state.runs⟩
  | passed {first} (behind : state.phase = .afterDots) (anchor : state.anchor = some first)
      (descending : word ≤ first) : Takes limit state word { state with phase := .afterNumber }
  | range {first} (behind : state.phase = .afterDots) (anchor : state.anchor = some first)
      (ascending : first < word) (near : distance first word ≤ limit) :
      Takes limit state word { state with
        phase := .afterNumber, runs := above first (distance first word) :: state.runs }

/-- How a state goes on by any token. -/
inductive Moves (width : Width) (limit : Nat) (state : State) : List Char → State → Prop
  | comma (numbered : state.phase = .afterNumber) :
      Moves width limit state comma { state with phase := .afterComma }
  | dots (numbered : state.phase = .afterNumber) :
      Moves width limit state dots { state with phase := .afterDots }
  | blank {token} (plain : token ∉ [Sequence.comma, Sequence.dots])
      (blank : Text.trim token = []) : Moves width limit state token state
  | number {token number next} (numeric : isNumber token = true)
      (denotes : width.Denotes token number)
      (counted : state.number limit (Int64.ofInt number) = .ok next) :
      Moves width limit state token next

variable {width : Width} {limit : Nat} {body : List Char} {state next : State}

theorem number_of_anchor (anchors : state.phase ≠ .afterDots) (word : Int64) :
    state.number limit word = .ok ⟨.afterNumber, some word, [word] :: state.runs⟩ := by
  unfold number
  split
  · contradiction
  · rfl

theorem number_of_range {first last : Int} (low : width.Holds first) (high : width.Holds last)
    (runs : List (List Int64)) :
    (State.mk .afterDots (some (Int64.ofInt first)) runs).number limit (Int64.ofInt last) =
        .ok next ↔
      (first < last → last - first ≤ limit) ∧
        next = ⟨.afterNumber, some (Int64.ofInt first), rangeRuns first last ++ runs⟩ := by
  have order : Int64.ofInt last ≤ Int64.ofInt first ↔ last ≤ first := by
    rw [Int64.le_iff_toInt_le, low.toInt, high.toInt]
  simp only [number, order]
  split
  · rename_i descending
    have stays : ¬first < last := by omega
    simp [rangeRuns, stays, eq_comm]
  · rename_i ascending
    have rises : first < last := by omega
    rw [distance_ofInt low.long high.long (by omega), above_ofInt]
    split
    · rename_i far
      have excess : ¬last - first ≤ limit := by omega
      simp [rises, excess]
    · rename_i near
      have inside : last - first ≤ limit := by omega
      simp [rangeRuns, rises, inside, eq_comm]

theorem step_comma :
    state.step width limit body comma = .ok next ↔
      state.phase = .afterNumber ∧ next = { state with phase := .afterComma } := by
  unfold step
  rw [if_pos rfl]
  split <;> simp_all [eq_comm]

theorem step_dots :
    state.step width limit body dots = .ok next ↔
      state.phase = .afterNumber ∧ next = { state with phase := .afterDots } := by
  have other : dots ≠ comma := by decide
  unfold step
  rw [if_neg other, if_pos rfl]
  cases state.phase <;> simp [eq_comm]

theorem step_blank {token : List Char} (blank : Text.trim token = []) :
    state.step width limit body token = .ok state := by
  have notComma : token ≠ comma := by rintro rfl; contradiction
  have notDots : token ≠ dots := by rintro rfl; contradiction
  simp [step, notComma, notDots, blank]

theorem step_field {field : List Char} (notComma : field ≠ comma) (notDots : field ≠ dots)
    (present : Text.trim field ≠ []) :
    state.step width limit body field = .ok next ↔
      ∃ number, width.Denotes field number ∧ state.number limit (Int64.ofInt number) = .ok next := by
  have taken : state.step width limit body field =
      (readInteger width field).bind (state.number limit) := by
    simp [step, notComma, notDots, present]
  rw [taken]
  constructor
  · intro read
    cases found : readInteger width field with
    | error failure =>
      rw [found] at read
      contradiction
    | ok word =>
      rw [found] at read
      obtain ⟨number, denotes, rfl⟩ := readInteger_eq_ok_iff.mp found
      exact ⟨number, denotes, read⟩
  · intro known
    obtain ⟨number, denotes, read⟩ := known
    rw [readInteger_eq_ok_iff.mpr ⟨number, denotes, rfl⟩]
    exact read

theorem finish_eq_ok_iff {words : List Int64} :
    state.finish body = .ok words ↔
      (state.phase = .start ∨ state.phase = .afterNumber) ∧ words = state.runs.reverse.flatten := by
  unfold finish
  cases state.phase <;> simp [eq_comm]

theorem takes_of_number {word : Int64} (taken : state.number limit word = .ok next) :
    state.Takes limit word next := by
  unfold number at taken
  split at taken
  · rename_i first behind anchor
    split at taken
    · rename_i descending
      cases taken
      exact .passed behind anchor descending
    · rename_i ascending
      split at taken
      · contradiction
      · rename_i near
        cases taken
        exact .range behind anchor (Int64.not_le.mp ascending) (Nat.le_of_not_lt near)
  · rename_i free
    cases taken
    exact .anchor fun behind => Option.eq_none_iff_forall_ne_some.mpr fun first => free first behind

theorem number_phase {word : Int64} (taken : state.number limit word = .ok next) :
    next.phase = .afterNumber := by
  cases takes_of_number taken <;> rfl

theorem moves_of_step {token : List Char} (stepped : state.step width limit body token = .ok next) :
    state.Moves width limit token next := by
  by_cases isComma : token = Sequence.comma
  · subst isComma
    obtain ⟨numbered, rfl⟩ := step_comma.mp stepped
    exact .comma numbered
  by_cases isDots : token = Sequence.dots
  · subst isDots
    obtain ⟨numbered, rfl⟩ := step_dots.mp stepped
    exact .dots numbered
  have plain : token ∉ [Sequence.comma, Sequence.dots] := by simp [isComma, isDots]
  by_cases blank : Text.trim token = []
  · rw [step_blank blank] at stepped
    cases stepped
    exact .blank plain blank
  · obtain ⟨number, denotes, counted⟩ := (step_field isComma isDots blank).mp stepped
    exact .number (isNumber_iff.mpr ⟨plain, blank⟩) denotes counted

end State

end TypedLiteral.Literal.Sequence
