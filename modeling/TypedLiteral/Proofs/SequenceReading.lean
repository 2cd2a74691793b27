import TypedLiteral.Proofs.CollectionGrammar
import TypedLiteral.Proofs.SequenceSteps
import TypedLiteral.Proofs.ValueIdentity

/-! Integer sequences as they are read. The machine that takes the tokens in succeeds on exactly
the bodies that the grammar gives a meaning, and finds the numbers of that meaning. -/
namespace TypedLiteral

namespace Literal

namespace Sequence

/-- The tokens lead from one state to another, which stands behind a number. -/
def Reaches (width : Width) (limit : Nat) (body : List Char) (state : State)
    (tokens : List (List Char)) (next : State) : Prop :=
  tokens.foldlM (State.step width limit body) state = .ok next ∧ next.phase = .afterNumber

section Runs

variable {width : Width} {limit : Nat} {body : List Char} {state next : State}

theorem reaches_field {field : List Char} (awaits : state.phase ≠ .afterNumber)
    (notComma : field ≠ comma) (notDots : field ≠ dots) :
    Reaches width limit body state [field] next ↔
      ∃ number, width.Denotes field number ∧ state.number limit (Int64.ofInt number) = .ok next := by
  rw [Reaches, List.foldlM_cons, bind_eq_ok_iff]
  by_cases blank : Text.trim field = []
  · constructor
    · intro known
      obtain ⟨⟨after, stayed, ended⟩, behind⟩ := known
      rw [State.step_blank blank] at stayed
      cases stayed
      cases ended
      exact (awaits behind).elim
    · intro known
      obtain ⟨number, denotes, -⟩ := known
      exact (denotes.numeral.ne_nil blank).elim
  · simp only [State.step_field notComma notDots blank]
    constructor
    · intro known
      obtain ⟨⟨after, taken, ended⟩, -⟩ := known
      cases ended
      exact taken
    · intro known
      obtain ⟨number, denotes, taken⟩ := known
      exact ⟨⟨next, ⟨number, denotes, taken⟩, rfl⟩, State.number_phase taken⟩

/-- Delimiters are only taken in behind a number, so what stands in front of them reaches one. -/
theorem reaches_append (front : List (List Char)) {back : List (List Char)}
    (stops : ∀ token ∈ back.head?, token = comma ∨ token = dots) :
    Reaches width limit body state (front ++ back) next ↔
      ∃ middle, Reaches width limit body state front middle ∧
        Reaches width limit body middle back next := by
  simp only [Reaches, List.foldlM_append, bind_eq_ok_iff]
  constructor
  · intro known
    obtain ⟨⟨middle, fronted, backed⟩, ended⟩ := known
    refine ⟨middle, ⟨fronted, ?_⟩, backed, ended⟩
    cases back with
    | nil =>
      cases backed
      exact ended
    | cons token back =>
      obtain ⟨after, stepped, -⟩ := bind_eq_ok_iff.mp backed
      rcases stops token rfl with same | same
      · rw [same] at stepped
        exact (State.step_comma.mp stepped).1
      · rw [same] at stepped
        exact (State.step_dots.mp stepped).1
  · intro known
    obtain ⟨middle, ⟨fronted, -⟩, backed, ended⟩ := known
    exact ⟨⟨middle, fronted, backed⟩, ended⟩

theorem reaches_cons {middle : State} {token : List Char} {back : List (List Char)}
    (stepped : state.step width limit body token = .ok middle) :
    Reaches width limit body state (token :: back) next ↔
      Reaches width limit body middle back next := by
  rw [Reaches, List.foldlM_cons, stepped]
  rfl

theorem reaches_nil (numbered : state.phase = .afterNumber) :
    Reaches width limit body state [] next ↔ next = state := by
  constructor
  · intro reached
    cases reached.1
    rfl
  · intro same
    subst same
    exact ⟨rfl, numbered⟩

private theorem stops_fields (fields : List (List Char)) :
    ∀ token ∈ (fields.flatMap fun field => [dots, field]).head?, token = comma ∨ token = dots := by
  cases fields <;> simp

private theorem reaches_ranges {first : Int} (held : width.Holds first) {others : List (List Char)}
    (plain : ∀ field ∈ others, field ≠ comma ∧ field ≠ dots) (runs : List (List Int64)) :
    Reaches width limit body ⟨.afterNumber, some (Int64.ofInt first), runs⟩
        (others.flatMap fun field => [dots, field]) next ↔
      ∃ ends, List.Forall₂ width.Denotes others ends ∧
        (∀ last ∈ ends, first < last → last - first ≤ limit) ∧
        next = ⟨.afterNumber, some (Int64.ofInt first),
          (ends.flatMap (rangeRuns first)).reverse ++ runs⟩ := by
  induction others generalizing runs with
  | nil => simp [reaches_nil]
  | cons field others ih =>
    obtain ⟨⟨notComma, notDots⟩, later⟩ := List.forall_mem_cons.mp plain
    have parted : ((field :: others).flatMap fun field => [dots, field]) =
        dots :: ([field] ++ others.flatMap fun field => [dots, field]) := rfl
    rw [parted, reaches_cons (State.step_dots.mpr ⟨rfl, rfl⟩),
      reaches_append [field] (stops_fields others)]
    constructor
    · intro known
      obtain ⟨middle, fronted, backed⟩ := known
      obtain ⟨last, denotes, taken⟩ := (reaches_field (by simp) notComma notDots).mp fronted
      obtain ⟨within, rfl⟩ := (State.number_of_range held denotes.held runs).mp taken
      obtain ⟨ends, each, inside, rfl⟩ := (ih later _).mp backed
      refine ⟨last :: ends, .cons denotes each, List.forall_mem_cons.mpr ⟨within, inside⟩, ?_⟩
      simp [rangeRuns_reverse]
    · intro known
      obtain ⟨ends, each, within, rfl⟩ := known
      obtain ⟨last, ends, denotes, rest, rfl⟩ := List.forall₂_cons_left_iff.mp each
      obtain ⟨inside, within⟩ := List.forall_mem_cons.mp within
      have taken := (State.number_of_range held denotes.held runs).mpr ⟨inside, rfl⟩
      refine ⟨_, (reaches_field (by simp) notComma notDots).mpr ⟨last, denotes, taken⟩, ?_⟩
      refine (ih later _).mpr ⟨ends, rest, within, ?_⟩
      simp [rangeRuns_reverse]

def Segment.after (segment : Segment) (state : State) : State :=
  ⟨.afterNumber, some (Int64.ofInt segment.first),
    (segment.ends.flatMap (rangeRuns segment.first)).reverse ++
      [Int64.ofInt segment.first] :: state.runs⟩

private theorem reaches_segment {text : List Char} (single : ',' ∉ text)
    (awaits : state.phase ≠ .afterNumber) (anchors : state.phase ≠ .afterDots) :
    Reaches width limit body state (parts text) next ↔
      ∃ segment, Segment.Reads width limit text segment ∧ next = segment.after state := by
  have plain : ∀ field ∈ fields text, field ≠ comma ∧ field ≠ dots := by
    intro field member
    refine ⟨?_, ?_⟩
    · intro same
      subst same
      exact single (mem_fields member List.mem_cons_self)
    · intro same
      subst same
      exact dots_notMem_fields text member
  obtain ⟨field, others, same⟩ := List.exists_cons_of_ne_nil (fields_ne_nil text)
  rw [same] at plain
  obtain ⟨⟨notComma, notDots⟩, later⟩ := List.forall_mem_cons.mp plain
  have begun (number : Int) : state.number limit (Int64.ofInt number) =
      .ok ⟨.afterNumber, some (Int64.ofInt number), [Int64.ofInt number] :: state.runs⟩ :=
    State.number_of_anchor anchors _
  rw [parts_eq same, ← List.singleton_append, reaches_append [field] (stops_fields others)]
  constructor
  · intro known
    obtain ⟨middle, fronted, backed⟩ := known
    obtain ⟨number, denotes, taken⟩ := (reaches_field awaits notComma notDots).mp fronted
    rw [begun number] at taken
    cases taken
    obtain ⟨ends, each, within, rfl⟩ := (reaches_ranges denotes.held later _).mp backed
    exact ⟨⟨number, ends⟩, ⟨by rw [same]; exact .cons denotes each, within⟩, rfl⟩
  · intro known
    obtain ⟨⟨number, ends⟩, ⟨each, within⟩, rfl⟩ := known
    rw [same] at each
    obtain ⟨denotes, rest⟩ := List.forall₂_cons.mp each
    refine ⟨_, (reaches_field awaits notComma notDots).mpr ⟨number, denotes, begun number⟩, ?_⟩
    exact (reaches_ranges denotes.held later _).mpr ⟨ends, rest, within, rfl⟩

def afterAll (segments : List Segment) (state : State) : State :=
  segments.foldl (fun before segment => segment.after before) state

private theorem reaches_first {text : List Char} {texts : List (List Char)} (single : ',' ∉ text)
    (awaits : state.phase ≠ .afterNumber) (anchors : state.phase ≠ .afterDots)
    (rest : ∀ middle : State, middle.phase = .afterNumber →
      (Reaches width limit body middle (texts.flatMap fun text => comma :: parts text) next ↔
        ∃ segments, List.Forall₂ (Segment.Reads width limit) texts segments ∧
          next = afterAll segments middle)) :
    Reaches width limit body state
        (parts text ++ texts.flatMap fun text => comma :: parts text) next ↔
      ∃ segments, List.Forall₂ (Segment.Reads width limit) (text :: texts) segments ∧
        next = afterAll segments state := by
  have stops : ∀ token ∈ (texts.flatMap fun text => comma :: parts text).head?,
      token = comma ∨ token = dots := by
    cases texts <;> simp
  rw [reaches_append _ stops]
  constructor
  · intro known
    obtain ⟨middle, fronted, backed⟩ := known
    obtain ⟨segment, reads, rfl⟩ := (reaches_segment single awaits anchors).mp fronted
    obtain ⟨segments, each, rfl⟩ := (rest _ rfl).mp backed
    exact ⟨segment :: segments, .cons reads each, rfl⟩
  · intro known
    obtain ⟨segments, each, rfl⟩ := known
    obtain ⟨segment, segments, reads, later, rfl⟩ := List.forall₂_cons_left_iff.mp each
    refine ⟨_, (reaches_segment single awaits anchors).mpr ⟨segment, reads, rfl⟩, ?_⟩
    exact (rest _ rfl).mpr ⟨segments, later, rfl⟩

private theorem reaches_rest {texts : List (List Char)} (single : ∀ text ∈ texts, ',' ∉ text)
    (numbered : state.phase = .afterNumber) :
    Reaches width limit body state (texts.flatMap fun text => comma :: parts text) next ↔
      ∃ segments, List.Forall₂ (Segment.Reads width limit) texts segments ∧
        next = afterAll segments state := by
  induction texts generalizing state with
  | nil => simp [reaches_nil numbered, afterAll]
  | cons text texts ih =>
    obtain ⟨alone, later⟩ := List.forall_mem_cons.mp single
    have parted : ((text :: texts).flatMap fun text => comma :: parts text) =
        comma :: (parts text ++ texts.flatMap fun text => comma :: parts text) := rfl
    rw [parted, reaches_cons (State.step_comma.mpr ⟨numbered, rfl⟩),
      reaches_first alone (by simp) (by simp) fun middle behind => ih later behind]
    -- A segment begins the same way whatever the phase in front of it is.
    refine exists_congr fun segments => and_congr_right fun each => ?_
    cases each
    exact Iff.rfl

private theorem reaches_body :
    Reaches width limit body {} (Text.segmentation [comma, dots] (Text.trim body)) next ↔
      ∃ segments, List.Forall₂ (Segment.Reads width limit) ((Text.trim body).splitOn ',') segments ∧
        next = afterAll segments {} := by
  have single : ∀ text ∈ (Text.trim body).splitOn ',', ',' ∉ text := fun _ => notMem_splitOn
  obtain ⟨text, texts, cut⟩ := List.exists_cons_of_ne_nil (List.splitOn_ne_nil ',' (Text.trim body))
  rw [segmentation_eq_parts cut]
  rw [cut] at single ⊢
  obtain ⟨alone, later⟩ := List.forall_mem_cons.mp single
  exact reaches_first alone (by simp) (by simp) fun middle behind => reaches_rest later behind

theorem Segment.after_runs (segment : Segment) :
    (segment.after state).runs.reverse.flatten =
      state.runs.reverse.flatten ++ segment.numbers.map Int64.ofInt := by
  have ranges (ends : List Int) : (ends.flatMap (rangeRuns segment.first)).flatten =
      (ends.flatMap (span segment.first)).map Int64.ofInt := by
    induction ends with
    | nil => rfl
    | cons last ends ih => simp [rangeRuns_flatten, ih]
  simp [Segment.after, Segment.numbers, ranges]

private theorem afterAll_runs (segments : List Segment) :
    (afterAll segments state).runs.reverse.flatten =
      state.runs.reverse.flatten ++ (segments.flatMap Segment.numbers).map Int64.ofInt := by
  induction segments generalizing state with
  | nil => simp [afterAll]
  | cons segment segments ih =>
    change (afterAll segments (segment.after state)).runs.reverse.flatten = _
    simp [ih, Segment.after_runs]

private theorem step_start {token : List Char}
    (taken : state.step width limit body token = .ok next) (unmoved : next.phase = .start) :
    next = state ∧ Text.trim token = [] := by
  cases State.moves_of_step taken with
  | comma numbered => contradiction
  | dots numbered => contradiction
  | blank plain blank => exact ⟨rfl, blank⟩
  | number numeric denotes counted =>
    rw [State.number_phase counted] at unmoved
    contradiction

private theorem run_start {tokens : List (List Char)}
    (taken : tokens.foldlM (State.step width limit body) state = .ok next)
    (unmoved : next.phase = .start) :
    next = state ∧ ∀ token ∈ tokens, Text.trim token = [] := by
  induction tokens generalizing state with
  | nil =>
    cases taken
    exact ⟨rfl, by simp⟩
  | cons token tokens ih =>
    rw [List.foldlM_cons, bind_eq_ok_iff] at taken
    obtain ⟨middle, stepped, rest⟩ := taken
    obtain ⟨rfl, blanks⟩ := ih rest
    obtain ⟨rfl, blank⟩ := step_start stepped unmoved
    exact ⟨rfl, List.forall_mem_cons.mpr ⟨blank, blanks⟩⟩

private theorem trim_of_blank_segmentation
    (blanks : ∀ token ∈ Text.segmentation [comma, dots] (Text.trim body), Text.trim token = []) :
    Text.trim body = [] := by
  rw [← Text.trim_trim, Text.trim_eq_nil_iff]
  intro c inside
  rw [← Text.segmentation_flatten [comma, dots] (Text.trim body)] at inside
  obtain ⟨token, member, within⟩ := List.mem_flatten.mp inside
  exact Text.trim_eq_nil_iff.mp (blanks token member) c within

private theorem run_eq_segmentation (text : List Char) :
    (tokens text [comma, dots] true).foldlM (State.step width limit body) state =
      (Text.segmentation [comma, dots] text).foldlM (State.step width limit body) state := by
  have steps : (fun (before : State) (token : List Char) =>
      if (!token.isEmpty) = true then before.step width limit body token else pure before) =
      State.step width limit body := by
    funext before token
    cases token with
    | nil => exact (State.step_blank rfl).symm
    | cons c token => rfl
  rw [tokens_eq_filter, List.foldlM_filter, steps]

end Runs

end Sequence

open Sequence in
/-- A body is read exactly when it has a meaning, and then as the numbers of that meaning. -/
theorem readSequence_eq_ok_iff {width : Width} {limit : Nat} {body : List Char}
    {words : List Int64} :
    readSequence width limit body = .ok words ↔
      ∃ numbers, Meaning width limit body numbers ∧ words = numbers.map Int64.ofInt := by
  have finished : readSequence width limit body = .ok words ↔
      ∃ last, (Text.segmentation [comma, dots] (Text.trim body)).foldlM
        (State.step width limit body) {} = .ok last ∧ last.finish body = .ok words := by
    rw [readSequence, run_eq_segmentation, ← bind_eq_ok_iff]
    rfl
  rw [finished]
  constructor
  · intro known
    obtain ⟨last, run, ended⟩ := known
    obtain ⟨unmoved | behind, rfl⟩ := State.finish_eq_ok_iff.mp ended
    · obtain ⟨rfl, blanks⟩ := run_start run unmoved
      exact ⟨[], .empty (trim_of_blank_segmentation blanks), rfl⟩
    · obtain ⟨segments, each, rfl⟩ := reaches_body.mp ⟨run, behind⟩
      exact ⟨_, .segments each, by simp [afterAll_runs]⟩
  · intro known
    obtain ⟨numbers, meaning, rfl⟩ := known
    cases meaning with
    | empty blank =>
      refine ⟨{}, ?_, rfl⟩
      rw [blank, Text.segmentation_whole rfl, List.foldlM_cons, State.step_blank rfl]
      rfl
    | segments each =>
      obtain ⟨run, behind⟩ := reaches_body.mpr ⟨_, each, rfl⟩
      exact ⟨_, run, State.finish_eq_ok_iff.mpr ⟨Or.inr behind, by simp [afterAll_runs]⟩⟩

end Literal

open Literal

/-- An integer collection is read exactly when its body has a meaning as a sequence, and then as
the collection of the values that represent the numbers of that meaning. -/
theorem read_sequence_meaning (reader : Reader) {type element : TypeExpr} {form : Form}
    {width : Width} (collects : reader.Collects type form element)
    (integral : element.width? = some width) (deep : 0 < reader.limits.maxDepth) {text : String}
    (balanced : Balanced text.toList) :
    ∃ body, Unwraps text.toList body ∧
      ∀ value, reader.read text type = .ok value ↔ ∃ numbers elements,
        Sequence.Meaning width reader.limits.maxRangeLength body numbers ∧
        List.Forall₂ width.Represents numbers elements ∧
        value = Value.ofElements form elements := by
  obtain ⟨body, unwrapped⟩ := exists_body? balanced
  refine ⟨body, (body?_eq_some_iff.mp unwrapped).2, fun value => ?_⟩
  have read : reader.read text type =
      (readSequence width reader.limits.maxRangeLength body).map
        fun numbers => Value.ofElements form (numbers.map width.value) := by
    rw [Reader.read, collects.shape_of_width integral, Shape.read_sequence deep unwrapped]
  rw [read]
  constructor
  · intro succeeded
    cases found : readSequence width reader.limits.maxRangeLength body with
    | error failure =>
      rw [found] at succeeded
      contradiction
    | ok words =>
      rw [found] at succeeded
      cases succeeded
      obtain ⟨numbers, meaning, rfl⟩ := readSequence_eq_ok_iff.mp found
      exact ⟨numbers, _, meaning, (Width.forall₂_represents_iff meaning.held).mpr rfl, rfl⟩
  · intro known
    obtain ⟨numbers, elements, meaning, represents, rfl⟩ := known
    rw [readSequence_eq_ok_iff.mpr ⟨numbers, meaning, rfl⟩,
      (Width.forall₂_represents_iff meaning.held).mp represents]
    rfl

theorem read_sequence_meaning_chained :
    let integers : TypeExpr := .applied .list [.named .int]
    let text := " [ 1..3..-1, -2 .. 0 ,\t7,2147483646..2147483647]"
    (Reader.Collects {} integers .list (.named .int) ∧
      TypeExpr.width? (.named .int) = some .int ∧ 0 < Limits.maxDepth {} ∧ Balanced text.toList) ∧
    ∃ body numbers elements, Unwraps text.toList body ∧
      Sequence.Meaning .int (Limits.maxRangeLength {}) body numbers ∧
      List.Forall₂ Width.int.Represents numbers elements ∧
      .collection .list ([1, 2, 3, -2, -1, 0, 7, 2147483646, 2147483647].map .int) =
        Value.ofElements .list elements := by
  have collects : Reader.Collects {} (.applied .list [.named .int]) .list (.named .int) :=
    .list (Reader.strategies_list {})
  have balanced : Balanced " [ 1..3..-1, -2 .. 0 ,\t7,2147483646..2147483647]".toList := by decide
  refine ⟨⟨collects, rfl, by decide, balanced⟩, ?_⟩
  obtain ⟨body, unwraps, meaning⟩ :=
    read_sequence_meaning {} collects rfl (by decide) balanced
  refine ⟨body, ?_⟩
  obtain ⟨numbers, elements, known⟩ := (meaning (.collection .list
    ([1, 2, 3, -2, -1, 0, 7, 2147483646, 2147483647].map .int))).mp (by decide +kernel)
  exact ⟨numbers, elements, unwraps, known⟩

end TypedLiteral
