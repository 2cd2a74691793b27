import TypedLiteral.Proofs.SequenceReading

/-! Malformed sequences. A token that is not blank is judged by those in front of it, and a sequence
fails by the first one at fault. Where none is, only a delimiter at the end makes it fail. -/
namespace TypedLiteral

namespace Literal.Sequence

/-- The tokens of a body that are not blank. -/
def present (body : List Char) : List (List Char) :=
  (tokens (Text.trim body) [comma, dots] true).filter fun token => Text.trim token ≠ []

/-- The number is the latest one among the tokens that does not stand directly behind `..`. -/
inductive Anchors (width : Width) : List (List Char) → Int → Prop
  | here {before token number} (free : before.getLast? ≠ some dots)
      (denotes : width.Denotes token number) : Anchors width (before ++ [token]) number
  | earlier {before token number} (anchors : Anchors width before number)
      (passed : before.getLast? = some dots ∨ ∀ other, ¬width.Denotes token other) :
      Anchors width (before ++ [token]) number

/-- How a token is at fault behind the tokens before it, and what is reported of it. -/
inductive Fault (width : Width) (limit : Nat) (body : List Char) (before : List (List Char)) :
    List Char → Failure → Prop
  | comma (unnumbered : ∀ last ∈ before.getLast?, ∀ number, ¬width.Denotes last number) :
      Fault width limit body before comma (.unexpectedToken "," (String.ofList body))
  | begins (first : before = []) :
      Fault width limit body before dots (.unexpectedToken ".." (String.ofList body))
  | unstarted (behind : before.getLast? = some Sequence.comma ∨ before.getLast? = some dots) :
      Fault width limit body before dots (.rangeWithoutStart (String.ofList body))
  | number {token} (notComma : token ≠ Sequence.comma) (notDots : token ≠ dots)
      (none : ∀ number, ¬width.Denotes token number) :
      Fault width limit body before token (invalidNumber (Text.trim token) width.typeName)
  | tooLarge {token} {first last : Int64} (behind : before.getLast? = some dots)
      (anchors : Anchors width before first.toInt) (denotes : width.Denotes token last.toInt)
      (far : first.toInt + limit < last.toInt) :
      Fault width limit body before token (.rangeTooLarge first last limit)

/-- None of the tokens is at fault behind those before it. -/
def Sound (width : Width) (limit : Nat) (body : List Char) (tokens : List (List Char)) : Prop :=
  ∀ before token after, tokens = before ++ token :: after →
    ∀ failure, ¬Fault width limit body before token failure

/-- What is reported of a body: its first token at fault or, where all are sound, the delimiter that
it ends with. -/
inductive FirstFault (width : Width) (limit : Nat) (body : List Char) : Failure → Prop
  | token {before token after failure} (parts : present body = before ++ token :: after)
      (earlier : Sound width limit body before)
      (fault : Fault width limit body before token failure) : FirstFault width limit body failure
  | trailing {delimiter} (ends : (present body).getLast? = some delimiter)
      (either : delimiter = comma ∨ delimiter = dots)
      (sound : Sound width limit body (present body)) :
      FirstFault width limit body
        (.unexpectedToken (String.ofList delimiter) (String.ofList body))

variable {width : Width} {limit : Nat} {body token : List Char} {before : List (List Char)}
  {failure : Failure}

theorem not_denotes_delimiter {delimiter : List Char} (listed : delimiter ∈ [comma, dots])
    (number : Int) : ¬width.Denotes delimiter number := by
  have strange : ∀ delimiter ∈ [comma, dots],
      (Text.trim delimiter).all (fun c => c = '-' ∨ c.isDigit) = false := by decide
  intro denotes
  have plain : (Text.trim delimiter).all (fun c => c = '-' ∨ c.isDigit) = true :=
    List.all_eq_true.mpr fun c inside => decide_eq_true (denotes.numeral.mem inside)
  rw [strange delimiter listed] at plain
  contradiction

theorem ne_of_denotes {delimiter : List Char} {number : Int} (listed : delimiter ∈ [comma, dots])
    (denotes : width.Denotes token number) : token ≠ delimiter := by
  rintro rfl
  exact not_denotes_delimiter listed number denotes

theorem anchors_append_iff {number : Int} :
    Anchors width (before ++ [token]) number ↔
      before.getLast? ≠ some dots ∧ width.Denotes token number ∨
        Anchors width before number ∧
          (before.getLast? = some dots ∨ ∀ other, ¬width.Denotes token other) := by
  constructor
  · intro anchors
    generalize same : before ++ [token] = tokens at anchors
    cases anchors with
    | here free denotes =>
      obtain ⟨rfl, alone⟩ := List.append_inj' same rfl
      cases alone
      exact Or.inl ⟨free, denotes⟩
    | earlier anchors passed =>
      obtain ⟨rfl, alone⟩ := List.append_inj' same rfl
      cases alone
      exact Or.inr ⟨anchors, passed⟩
  · intro either
    rcases either with ⟨free, denotes⟩ | ⟨anchors, passed⟩
    · exact .here free denotes
    · exact .earlier anchors passed

theorem not_anchors_nil (number : Int) : ¬Anchors width [] number := by
  intro anchors
  generalize same : ([] : List (List Char)) = tokens at anchors
  cases anchors <;> simp at same

theorem sound_nil : Sound width limit body [] := by
  intro front token after parts
  simp at parts

theorem sound_append_iff {tokens : List (List Char)} :
    Sound width limit body (tokens ++ [token]) ↔
      Sound width limit body tokens ∧ ∀ failure, ¬Fault width limit body tokens token failure := by
  constructor
  · intro sound
    refine ⟨fun front other after parts => ?_, sound tokens token [] rfl⟩
    exact sound front other (after ++ [token]) (by simp [parts])
  · intro both front other after parts
    obtain ⟨sound, fair⟩ := both
    rcases List.eq_nil_or_concat' after with rfl | ⟨rest, last, rfl⟩
    · obtain ⟨rfl, alone⟩ := List.append_inj' parts rfl
      cases alone
      exact fair
    · rw [← List.cons_append, ← List.append_assoc] at parts
      obtain ⟨parts, -⟩ := List.append_inj' parts rfl
      exact sound front other rest parts

/-- Where the machine stands, by the latest token. -/
inductive Stands (width : Width) : List (List Char) → Phase → Prop
  | start : Stands width [] .start
  | number {earlier token number} (denotes : width.Denotes token number) :
      Stands width (earlier ++ [token]) .afterNumber
  | comma (earlier) : Stands width (earlier ++ [comma]) .afterComma
  | dots (earlier) : Stands width (earlier ++ [dots]) .afterDots

/-- The state is what the tokens before it leave behind: where the latest of them stands, and which
number a range would begin above. -/
structure State.Behind (width : Width) (before : List (List Char)) (state : State) : Prop where
  stands : Stands width before state.phase
  anchored : state.phase ≠ .start → ∃ first, state.anchor = some first
  anchors : ∀ first, state.anchor = some first ↔ Anchors width before first.toInt

theorem Stands.numbered_iff {phase : Phase} (stands : Stands width before phase) :
    phase = .afterNumber ↔ ∃ last ∈ before.getLast?, ∃ number, width.Denotes last number := by
  cases stands with
  | start => simp
  | number denotes => simpa using ⟨_, denotes⟩
  | comma earlier => simp [not_denotes_delimiter]
  | dots earlier => simp [not_denotes_delimiter]

theorem Stands.start_iff {phase : Phase} (stands : Stands width before phase) :
    phase = .start ↔ before = [] := by
  cases stands <;> simp

theorem Stands.comma_iff {phase : Phase} (stands : Stands width before phase) :
    phase = .afterComma ↔ before.getLast? = some Sequence.comma := by
  cases stands with
  | start => simp
  | number denotes => simpa using ne_of_denotes (by simp) denotes
  | comma earlier => simp
  | dots earlier => simp [Sequence.comma, Sequence.dots]

theorem Stands.dots_iff {phase : Phase} (stands : Stands width before phase) :
    phase = .afterDots ↔ before.getLast? = some Sequence.dots := by
  cases stands with
  | start => simp
  | number denotes => simpa using ne_of_denotes (by simp) denotes
  | comma earlier => simp [Sequence.comma, Sequence.dots]
  | dots earlier => simp

namespace State

variable {state next : State}

/-- Only a range can be too large. -/
theorem number_eq_error_iff {word : Int64} :
    state.number limit word = .error failure ↔
      state.phase = .afterDots ∧ ∃ first, state.anchor = some first ∧
        first.toInt + limit < word.toInt ∧ failure = .rangeTooLarge first word limit := by
  unfold number
  split
  · rename_i first phase anchor
    by_cases descending : word ≤ first
    · have below := Int64.le_iff_toInt_le.mp descending
      have near : ¬first.toInt + limit < word.toInt := by omega
      simp [descending, phase, anchor, near]
    · have above : first.toInt ≤ word.toInt := by
        rw [Int64.le_iff_toInt_le] at descending
        omega
      have far : limit < distance first word ↔ first.toInt + limit < word.toInt := by
        rw [distance_toInt above]
        omega
      rw [if_neg descending]
      by_cases excess : first.toInt + limit < word.toInt
      · simp [phase, anchor, far.mpr excess, excess, eq_comm]
      · simp [phase, anchor, far.not.mpr excess, excess]
  · rename_i other
    simp only [reduceCtorEq, false_iff, not_and, not_exists]
    intro phase first anchor
    exact (other first phase anchor).elim

theorem anchor_of_range {first word : Int64} (behind : state.phase = .afterDots)
    (anchor : state.anchor = some first) (taken : state.number limit word = .ok next) :
    next.anchor = some first := by
  cases takes_of_number taken with
  | anchor free =>
    rw [free behind] at anchor
    contradiction
  | passed _ _ descending => exact anchor
  | range _ _ ascending near => exact anchor

theorem step_comma_eq_error_iff :
    state.step width limit body comma = .error failure ↔
      state.phase ≠ .afterNumber ∧ failure = .unexpectedToken "," (String.ofList body) := by
  unfold step
  rw [if_pos rfl]
  split <;> simp_all [comma, eq_comm]

theorem step_dots_eq_error_iff :
    state.step width limit body dots = .error failure ↔
      state.phase = .start ∧ failure = .unexpectedToken ".." (String.ofList body) ∨
        (state.phase = .afterComma ∨ state.phase = .afterDots) ∧
          failure = .rangeWithoutStart (String.ofList body) := by
  have other : dots ≠ comma := by decide
  unfold step
  rw [if_neg other, if_pos rfl]
  cases state.phase <;> simp [dots, eq_comm]

theorem step_field_eq_error_iff (notComma : token ≠ comma) (notDots : token ≠ dots)
    (shown : Text.trim token ≠ []) :
    state.step width limit body token = .error failure ↔
      (∀ number, ¬width.Denotes token number) ∧
          failure = invalidNumber (Text.trim token) width.typeName ∨
        ∃ number, width.Denotes token number ∧
          state.number limit (Int64.ofInt number) = .error failure := by
  have taken : state.step width limit body token =
      (readInteger width token).bind (state.number limit) := by
    simp [step, notComma, notDots, shown]
  rw [taken]
  cases read : readInteger width token with
  | error other =>
    obtain ⟨none, rfl⟩ := readInteger_eq_error_iff.mp read
    simp [Except.bind, none, eq_comm]
  | ok word =>
    obtain ⟨number, denotes, rfl⟩ := readInteger_eq_ok_iff.mp read
    constructor
    · exact fun failed => Or.inr ⟨number, denotes, failed⟩
    · intro either
      rcases either with ⟨none, -⟩ | ⟨other, again, failed⟩
      · exact (none number denotes).elim
      · rw [denotes.unique again]
        exact failed

end State

theorem fault_comma_iff :
    Fault width limit body before comma failure ↔
      (∀ last ∈ before.getLast?, ∀ number, ¬width.Denotes last number) ∧
        failure = .unexpectedToken "," (String.ofList body) := by
  constructor
  · intro fault
    generalize same : comma = token at fault
    cases fault with
    | comma unnumbered => exact ⟨unnumbered, rfl⟩
    | begins first => contradiction
    | unstarted behind => contradiction
    | number notComma notDots none => exact (notComma same.symm).elim
    | tooLarge behind anchors denotes far =>
      exact (ne_of_denotes (by simp) denotes same.symm).elim
  · intro known
    obtain ⟨unnumbered, rfl⟩ := known
    exact .comma unnumbered

theorem fault_dots_iff :
    Fault width limit body before dots failure ↔
      before = [] ∧ failure = .unexpectedToken ".." (String.ofList body) ∨
        (before.getLast? = some comma ∨ before.getLast? = some dots) ∧
          failure = .rangeWithoutStart (String.ofList body) := by
  constructor
  · intro fault
    generalize same : dots = token at fault
    cases fault with
    | comma unnumbered => contradiction
    | begins first => exact Or.inl ⟨first, rfl⟩
    | unstarted behind => exact Or.inr ⟨behind, rfl⟩
    | number notComma notDots none => exact (notDots same.symm).elim
    | tooLarge behind anchors denotes far =>
      exact (ne_of_denotes (by simp) denotes same.symm).elim
  · intro either
    rcases either with ⟨first, rfl⟩ | ⟨behind, rfl⟩
    · exact .begins first
    · exact .unstarted behind

theorem fault_field_iff (notComma : token ≠ comma) (notDots : token ≠ dots) :
    Fault width limit body before token failure ↔
      (∀ number, ¬width.Denotes token number) ∧
          failure = invalidNumber (Text.trim token) width.typeName ∨
        ∃ first last : Int64, before.getLast? = some dots ∧ Anchors width before first.toInt ∧
          width.Denotes token last.toInt ∧ first.toInt + limit < last.toInt ∧
          failure = .rangeTooLarge first last limit := by
  constructor
  · intro fault
    cases fault with
    | comma unnumbered => exact (notComma rfl).elim
    | begins first => exact (notDots rfl).elim
    | unstarted behind => exact (notDots rfl).elim
    | number _ _ none => exact Or.inl ⟨none, rfl⟩
    | tooLarge behind anchors denotes far =>
      exact Or.inr ⟨_, _, behind, anchors, denotes, far, rfl⟩
  · intro either
    rcases either with ⟨none, rfl⟩ | ⟨first, last, behind, anchors, denotes, far, rfl⟩
    · exact .number notComma notDots none
    · exact .tooLarge behind anchors denotes far

namespace State.Behind

variable {state next : State}

theorem nothing : State.Behind width [] {} :=
  ⟨.start, fun moved => (moved rfl).elim, fun first => by simp [not_anchors_nil]⟩

private theorem delimiter (behind : state.Behind width before) (numbered : state.phase = .afterNumber)
    (listed : token ∈ [Sequence.comma, dots]) {phase : Phase}
    (stands : Stands width (before ++ [token]) phase) :
    State.Behind width (before ++ [token]) { state with phase } where
  stands := stands
  anchored _ := behind.anchored (by simp [numbered])
  anchors first := by simp [behind.anchors, anchors_append_iff, not_denotes_delimiter listed]

private theorem number {number : Int} (behind : state.Behind width before)
    (denotes : width.Denotes token number)
    (taken : state.number limit (Int64.ofInt number) = .ok next) :
    next.Behind width (before ++ [token]) := by
  have stands : Stands width (before ++ [token]) next.phase := by
    rw [number_phase taken]
    exact .number denotes
  by_cases dotted : state.phase = .afterDots
  · obtain ⟨first, anchor⟩ := behind.anchored (by simp [dotted])
    have kept := anchor_of_range dotted anchor taken
    refine ⟨stands, fun _ => ⟨first, kept⟩, fun other => ?_⟩
    rw [kept, ← anchor, behind.anchors]
    simp [anchors_append_iff, behind.stands.dots_iff.mp dotted]
  · have free := behind.stands.dots_iff.not.mp dotted
    rw [number_of_anchor dotted] at taken
    cases taken
    refine ⟨stands, fun _ => ⟨_, rfl⟩, fun other => ?_⟩
    rw [anchors_append_iff]
    constructor
    · intro same
      cases same
      exact Or.inl ⟨free, by rwa [denotes.held.toInt]⟩
    · intro either
      rcases either with ⟨-, again⟩ | ⟨-, dotted | none⟩
      · rw [denotes.unique again, Int64.ofInt_toInt]
      · exact (free dotted).elim
      · exact (none number denotes).elim

/-- A step leads behind its token. -/
theorem step (behind : state.Behind width before) (shown : Text.trim token ≠ [])
    (taken : state.step width limit body token = .ok next) :
    next.Behind width (before ++ [token]) := by
  cases moves_of_step taken with
  | comma numbered => exact behind.delimiter numbered (by simp) (.comma before)
  | dots numbered => exact behind.delimiter numbered (by simp) (.dots before)
  | blank plain blank => contradiction
  | number numeric denotes counted => exact behind.number denotes counted

/-- A step fails exactly on a token at fault, and then as the fault is reported. -/
theorem step_eq_error_iff (behind : state.Behind width before) (shown : Text.trim token ≠ []) :
    state.step width limit body token = .error failure ↔
      Fault width limit body before token failure := by
  by_cases isComma : token = Sequence.comma
  · subst isComma
    rw [step_comma_eq_error_iff, fault_comma_iff, Ne, behind.stands.numbered_iff]
    simp
  by_cases isDots : token = Sequence.dots
  · subst isDots
    rw [step_dots_eq_error_iff, fault_dots_iff, behind.stands.start_iff, behind.stands.comma_iff,
      behind.stands.dots_iff]
  rw [step_field_eq_error_iff isComma isDots shown, fault_field_iff isComma isDots]
  refine or_congr_right ?_
  simp only [number_eq_error_iff, behind.stands.dots_iff, behind.anchors]
  constructor
  · intro known
    obtain ⟨number, denotes, dotted, first, anchors, far, rfl⟩ := known
    exact ⟨first, _, dotted, anchors, by rwa [denotes.held.toInt], far, rfl⟩
  · intro known
    obtain ⟨first, last, dotted, anchors, denotes, far, rfl⟩ := known
    rw [← Int64.ofInt_toInt last] at far ⊢
    exact ⟨last.toInt, denotes, dotted, first, anchors, far, rfl⟩

theorem finish_eq_error_iff (behind : state.Behind width before) :
    state.finish body = .error failure ↔
      ∃ delimiter, before.getLast? = some delimiter ∧
        (delimiter = Sequence.comma ∨ delimiter = Sequence.dots) ∧
        failure = .unexpectedToken (String.ofList delimiter) (String.ofList body) := by
  have ended : state.finish body = .error failure ↔
      state.phase = .afterComma ∧
          failure = .unexpectedToken (String.ofList Sequence.comma) (String.ofList body) ∨
        state.phase = .afterDots ∧
          failure = .unexpectedToken (String.ofList Sequence.dots) (String.ofList body) := by
    unfold finish
    cases state.phase <;> simp [eq_comm]
  rw [ended, behind.stands.comma_iff, behind.stands.dots_iff]
  constructor
  · intro either
    rcases either with ⟨last, rfl⟩ | ⟨last, rfl⟩
    · exact ⟨_, last, Or.inl rfl, rfl⟩
    · exact ⟨_, last, Or.inr rfl, rfl⟩
  · intro known
    obtain ⟨_, last, rfl | rfl, rfl⟩ := known
    · exact Or.inl ⟨last, rfl⟩
    · exact Or.inr ⟨last, rfl⟩

end State.Behind

/-- Tokens are taken in one after the other, up to the first one at fault. -/
inductive Run (width : Width) (limit : Nat) (body : List Char) (tokens : List (List Char)) :
    Except Failure State → Prop
  | through {state} (behind : state.Behind width tokens) (sound : Sound width limit body tokens) :
      Run width limit body tokens (.ok state)
  | stopped {before token after failure} (parts : tokens = before ++ token :: after)
      (earlier : Sound width limit body before)
      (fault : Fault width limit body before token failure) :
      Run width limit body tokens (.error failure)

theorem run_foldlM {tokens : List (List Char)} (shown : ∀ token ∈ tokens, Text.trim token ≠ []) :
    Run width limit body tokens (tokens.foldlM (State.step width limit body) {}) := by
  -- A fault looks at the tokens in front of it only, so they are added at the end.
  induction tokens using List.reverseRecOn with
  | nil => exact .through .nothing sound_nil
  | append_singleton tokens token ih =>
    obtain ⟨former, last⟩ := List.forall_mem_append.mp shown
    have run := ih former
    rw [List.foldlM_append]
    generalize tokens.foldlM (State.step width limit body) {} = outcome at run
    cases run with
    | @through state behind sound =>
      have present := last token List.mem_cons_self
      change Run width limit body (tokens ++ [token])
        ([token].foldlM (State.step width limit body) state)
      rw [List.foldlM_cons]
      cases stepped : state.step width limit body token with
      | error failure =>
        exact .stopped rfl sound ((behind.step_eq_error_iff present).mp stepped)
      | ok next =>
        refine .through (behind.step present stepped) (sound_append_iff.mpr ⟨sound, ?_⟩)
        intro failure fault
        rw [(behind.step_eq_error_iff present).mpr fault] at stepped
        contradiction
    | @stopped before other after failure parts earlier fault =>
      have longer : tokens ++ [token] = before ++ other :: (after ++ [token]) := by simp [parts]
      exact .stopped longer earlier fault

theorem Sound.exists_state {tokens : List (List Char)} (sound : Sound width limit body tokens)
    (shown : ∀ token ∈ tokens, Text.trim token ≠ []) :
    ∃ state, tokens.foldlM (State.step width limit body) {} = .ok state ∧
      state.Behind width tokens := by
  have run : Run width limit body tokens _ := run_foldlM shown
  generalize tokens.foldlM (State.step width limit body) {} = outcome at run
  cases run with
  | through behind _ => exact ⟨_, rfl, behind⟩
  | stopped parts earlier fault => exact (sound _ _ _ parts _ fault).elim

theorem readSequence_eq_present :
    readSequence width limit body =
      ((present body).foldlM (State.step width limit body) {}).bind (State.finish body) := by
  have steps : (fun (state : State) (token : List Char) =>
      if decide (Text.trim token ≠ []) = true then state.step width limit body token
      else pure state) = State.step width limit body := by
    funext state token
    by_cases blank : Text.trim token = []
    · simp [blank, State.step_blank blank, pure, Except.pure]
    · simp [blank]
  rw [readSequence, present, List.foldlM_filter, steps]

theorem trim_ne_nil_of_mem_present (member : token ∈ present body) : Text.trim token ≠ [] := by
  simpa using (List.mem_filter.mp member).2

/-- A sequence is at fault if one of its tokens is or if it ends with a delimiter. -/
theorem exists_firstFault_iff :
    (∃ failure, FirstFault width limit body failure) ↔
      (∃ before token after failure, present body = before ++ token :: after ∧
        Fault width limit body before token failure) ∨
      ∃ delimiter, (present body).getLast? = some delimiter ∧
        (delimiter = comma ∨ delimiter = dots) := by
  constructor
  · intro known
    obtain ⟨failure, first⟩ := known
    cases first with
    | token parts earlier fault => exact Or.inl ⟨_, _, _, _, parts, fault⟩
    | trailing ends either sound => exact Or.inr ⟨_, ends, either⟩
  · intro known
    have run : Run width limit body (present body) _ :=
      run_foldlM fun token => trim_ne_nil_of_mem_present
    generalize (present body).foldlM (State.step width limit body) {} = outcome at run
    cases run with
    | stopped parts earlier fault => exact ⟨_, .token parts earlier fault⟩
    | through behind sound =>
      rcases known with ⟨before, token, after, failure, parts, fault⟩ | ⟨delimiter, ends, either⟩
      · exact (sound before token after parts failure fault).elim
      · exact ⟨_, .trailing ends either sound⟩

end Literal.Sequence

open Literal Sequence

/-- A sequence fails exactly as its first fault is reported. -/
theorem readSequence_eq_error_iff {width : Width} {limit : Nat} {body : List Char}
    {failure : Failure} :
    readSequence width limit body = .error failure ↔ FirstFault width limit body failure := by
  have shown : ∀ token ∈ present body, Text.trim token ≠ [] :=
    fun token => trim_ne_nil_of_mem_present
  rw [readSequence_eq_present]
  constructor
  · intro failed
    have run : Run width limit body (present body) _ := run_foldlM shown
    generalize (present body).foldlM (State.step width limit body) {} = outcome at failed run
    cases run with
    | through behind sound =>
      obtain ⟨delimiter, ends, either, rfl⟩ := behind.finish_eq_error_iff.mp failed
      exact .trailing ends either sound
    | stopped parts earlier fault =>
      cases failed
      exact .token parts earlier fault
  · intro first
    cases first with
    | @token before token after _ parts earlier fault =>
      rw [parts] at shown ⊢
      obtain ⟨former, latter⟩ := List.forall_mem_append.mp shown
      obtain ⟨state, run, behind⟩ := earlier.exists_state former
      have stepped := (behind.step_eq_error_iff (latter token List.mem_cons_self)).mpr fault
      rw [List.foldlM_append, run]
      change Except.bind ((token :: after).foldlM _ state) _ = _
      rw [List.foldlM_cons, stepped]
      rfl
    | trailing ends either sound =>
      obtain ⟨state, run, behind⟩ := sound.exists_state shown
      rw [run]
      exact behind.finish_eq_error_iff.mpr ⟨_, ends, either, rfl⟩

/-- A balanced literal of an integer collection type is rejected exactly when one of its tokens is
at fault or it ends with a delimiter, and what is reported is the first of these. -/
theorem read_first_fault (reader : Reader) {type element : TypeExpr} {form : Form} {width : Width}
    (collects : reader.Collects type form element) (integral : element.width? = some width)
    (deep : 1 ≤ reader.limits.maxDepth) {text : String} (balanced : Balanced text.toList) :
    ∃ body, Unwraps text.toList body ∧
      (∀ failure, reader.read text type = .error failure ↔
        FirstFault width reader.limits.maxRangeLength body failure) ∧
      ((∃ failure, reader.read text type = .error failure) ↔
        (∃ before token after failure, present body = before ++ token :: after ∧
          Fault width reader.limits.maxRangeLength body before token failure) ∨
        ∃ delimiter, (present body).getLast? = some delimiter ∧
          (delimiter = comma ∨ delimiter = dots)) := by
  obtain ⟨body, unwrapped⟩ := exists_body? balanced
  have fails (failure : Failure) : reader.read text type = .error failure ↔
      FirstFault width reader.limits.maxRangeLength body failure := by
    rw [Reader.read, collects.shape_of_width integral, Shape.read_sequence deep unwrapped,
      map_eq_error_iff, readSequence_eq_error_iff]
  refine ⟨body, (body?_eq_some_iff.mp unwrapped).2, fails, ?_⟩
  simp only [fails]
  exact exists_firstFault_iff

theorem read_first_fault_range :
    let integers : TypeExpr := .applied .set [.named .boxedInt]
    let reader : Reader := { limits := { maxRangeLength := 4 } }
    let text := "[-1..3, 7 .. 5..12, x, , 1..]"
    (reader.Collects integers .set (.named .boxedInt) ∧
      TypeExpr.width? (.named .boxedInt) = some .int ∧ 1 ≤ reader.limits.maxDepth ∧
      Balanced text.toList) ∧
    ∃ body, Unwraps text.toList body ∧
      FirstFault .int reader.limits.maxRangeLength body (.rangeTooLarge 7 12 4) := by
  intro integers reader text
  have collects : reader.Collects integers .set (.named .boxedInt) := .set (by decide +kernel)
  have balanced : Balanced text.toList := by decide
  obtain ⟨body, unwraps, fails, -⟩ := read_first_fault reader collects rfl (by decide) balanced
  exact ⟨⟨collects, rfl, by decide, balanced⟩, body, unwraps,
    (fails (.rangeTooLarge 7 12 4)).mp (by decide +kernel)⟩

end TypedLiteral
