import Mathlib.Data.List.ReduceOption
import TypedLiteral.Proofs.TokenSequence

/-! A stream used step by step. Between two tokens the switches may change, and the stream may start
over. What was passed on the way is a beginning of the parts of the text: each of its parts was
returned at its turn or left out, and a piece that is not empty is never left out. -/
namespace TypedLiteral

namespace Text

def Part.isFullPiece : Part → Bool
  | .piece text => !text.isEmpty
  | .delimiter _ => false

/-- The tokens are some of the parts in order, and every piece that is not empty is among them. -/
def Delivers (passed : List Part) (tokens : List (List Char)) : Prop :=
  ∃ kept : List Part, kept.Sublist passed ∧ kept.map Part.text = tokens ∧
    kept.filter Part.isFullPiece = passed.filter Part.isFullPiece

theorem delivers_part (part : Part) : Delivers [part] [part.text] :=
  ⟨[part], .refl _, rfl, rfl⟩

theorem delivers_nil {passed : List Part} (spare : ∀ part ∈ passed, part.isFullPiece = false) :
    Delivers passed [] := by
  refine ⟨[], List.nil_sublist passed, rfl, ?_⟩
  rw [List.filter_nil, eq_comm, List.filter_eq_nil_iff]
  exact fun part member => by simp [spare part member]

theorem Delivers.append {front back : List Part} {tokens others : List (List Char)}
    (first : Delivers front tokens) (second : Delivers back others) :
    Delivers (front ++ back) (tokens ++ others) := by
  obtain ⟨kept, within, rfl, full⟩ := first
  obtain ⟨more, inside, rfl, filled⟩ := second
  refine ⟨kept ++ more, within.append inside, List.map_append, ?_⟩
  rw [List.filter_append, List.filter_append, full, filled]

end Text

namespace TokenStream

open Text

inductive Step
  | next
  | returnDelimiters (flag : Bool)
  | collapse (flag : Bool)
  | reset
deriving DecidableEq

/-- Asking for the next token is the only step that is answered. -/
def step (stream : TokenStream) : Step → List (Option (List Char)) × TokenStream
  | .next => ([stream.next.1], stream.next.2)
  | .returnDelimiters flag => ([], { stream with returnDelimiters := flag })
  | .collapse flag => ([], { stream with collapse := flag })
  | .reset => ([], stream.reset)

/-- The answers to some steps in a row, and the stream behind the last one. -/
def run : TokenStream → List Step → List (Option (List Char)) × TokenStream
  | stream, [] => ([], stream)
  | stream, action :: steps =>
    let (answers, after) := stream.step action
    (answers ++ (after.run steps).1, (after.run steps).2)

/-- The parts that the stream has not passed yet: a delimiter that waits comes first, and a stream
at its end has none. -/
inductive Faces : TokenStream → List Part → Prop
  | unfinished {stream ahead} (unfinished : stream.exhausted = false)
      (segments : Segments stream.delimiters stream.rest ahead) :
      Faces stream (stream.pending.toList.map Part.delimiter ++ ahead)
  | finished {stream} (clear : stream.pending = none) (finished : stream.exhausted = true)
      (nothing : stream.rest = []) : Faces stream []

variable {stream : TokenStream} {parts : List Part}

theorem faces_ofText {text : List Char} {delimiters : List (List Char)}
    (segments : Segments delimiters text parts) (returnDelimiters collapse : Bool) :
    Faces (ofText text delimiters returnDelimiters collapse) parts := by
  refine .unfinished rfl (segments.congr fun delimiter present => ?_)
  simp [ofText, present]

theorem Faces.text (faces : Faces stream parts) :
    (parts.map Part.text).flatten = stream.pending.getD [] ++ stream.rest := by
  cases faces with
  | unfinished unfinished segments =>
    rw [List.map_append, List.flatten_append, segments.map_text, segmentation_flatten]
    cases stream.pending <;> simp
  | finished clear finished nothing => rw [clear, nothing]; rfl

/-- A stream in front of a piece passes it, and the delimiter behind it unless that one waits. -/
private theorem faces_advance (idle : stream.Idle)
    (segments : Segments stream.delimiters stream.rest parts) :
    ∃ spare ahead, parts = .piece stream.advance.1 :: (spare ++ ahead) ∧
      (∀ part ∈ spare, part.isFullPiece = false) ∧ Faces stream.advance.2 ahead := by
  generalize left : stream.rest = text at segments
  cases segments with
  | whole clear =>
    rw [advance_whole (by rw [left]; exact cut?_eq_none_iff.mpr clear), left]
    exact ⟨[], [], rfl, by simp, .finished rfl rfl rfl⟩
  | @cut piece delimiter rest behind clear leads segments =>
    rw [advance_cut (by rw [left]; exact cut?_eq_some_iff.mpr ⟨rfl, clear, leads⟩)]
    cases returned : stream.returnDelimiters &&
        !(stream.collapse && (stream.afterDelimiter && piece.isEmpty)) with
    | true =>
      have faces : Faces { stream with
          rest, pending := some delimiter, afterDelimiter := true } (.delimiter delimiter :: behind) :=
        .unfinished idle.unfinished segments
      exact ⟨[], .delimiter delimiter :: behind, rfl, by simp, faces⟩
    | false =>
      have faces : Faces { stream with rest, pending := none, afterDelimiter := true } behind :=
        .unfinished idle.unfinished segments
      exact ⟨[.delimiter delimiter], behind, rfl, by simp [Part.isFullPiece], faces⟩

theorem Faces.next (faces : Faces stream parts) :
    ∃ passed ahead, parts = passed ++ ahead ∧ Delivers passed stream.next.1.toList ∧
      Faces stream.next.2 ahead ∧ (stream.next.1 = none → ahead = []) := by
  fun_induction TokenStream.next stream generalizing parts with
  | case1 stream delimiter waiting =>
    cases faces with
    | finished clear => simp [waiting] at clear
    | @unfinished ahead unfinished segments =>
      rw [waiting]
      exact ⟨[.delimiter delimiter], ahead, rfl, delivers_part _, .unfinished unfinished segments,
        by simp⟩
  | case2 stream clear unfinished returned =>
    cases faces with
    | finished _ finished => simp [unfinished] at finished
    | unfinished _ segments =>
      obtain ⟨spare, ahead, rfl, left, behind⟩ := faces_advance ⟨clear, unfinished⟩ segments
      rw [clear]
      exact ⟨.piece stream.advance.1 :: spare, ahead, rfl,
        (delivers_part (.piece stream.advance.1)).append (delivers_nil left), behind, by simp⟩
  | case3 stream clear unfinished skipped shorter ih =>
    cases faces with
    | finished _ finished => simp [unfinished] at finished
    | unfinished _ segments =>
      obtain ⟨spare, behind, rfl, left, further⟩ := faces_advance ⟨clear, unfinished⟩ segments
      obtain ⟨passed, ahead, rfl, delivers, faces, ended⟩ := ih further
      have empty : (Part.piece stream.advance.1).isFullPiece = false := by
        simp_all [Part.isFullPiece]
      have omitted := delivers_nil (List.forall_mem_cons.mpr ⟨empty, left⟩)
      rw [clear]
      exact ⟨.piece stream.advance.1 :: spare ++ passed, ahead, by simp, omitted.append delivers,
        faces, ended⟩
  | case4 stream clear finished =>
    cases faces with
    | unfinished unfinished => exact (finished unfinished).elim
    | finished clear finished nothing =>
      exact ⟨[], [], rfl, delivers_nil (by simp), .finished clear finished nothing, fun _ => rfl⟩

/-- Switches change nothing about where the stream stands. -/
theorem Faces.step (faces : Faces stream parts) {action : Step} (onwards : action ≠ .reset) :
    ∃ passed ahead, parts = passed ++ ahead ∧
      Delivers passed (stream.step action).1.reduceOption ∧ Faces (stream.step action).2 ahead ∧
      (none ∈ (stream.step action).1 → ahead = []) := by
  have unmoved {other : TokenStream} (same : Faces other parts) :
      ∃ passed ahead, parts = passed ++ ahead ∧ Delivers passed [] ∧ Faces other ahead ∧
        (none ∈ ([] : List (Option (List Char))) → ahead = []) :=
    ⟨[], parts, rfl, delivers_nil (by simp), same, by simp⟩
  cases action with
  | reset => contradiction
  | returnDelimiters flag =>
    apply unmoved
    cases faces with
    | unfinished unfinished segments => exact .unfinished unfinished segments
    | finished clear finished nothing => exact .finished clear finished nothing
  | collapse flag =>
    apply unmoved
    cases faces with
    | unfinished unfinished segments => exact .unfinished unfinished segments
    | finished clear finished nothing => exact .finished clear finished nothing
  | next =>
    obtain ⟨passed, ahead, whole, delivers, behind, ended⟩ := faces.next
    refine ⟨passed, ahead, whole, ?_, behind, fun none => ended ?_⟩
    · cases answer : stream.next.1 <;> simpa [TokenStream.step, answer] using delivers
    · simpa [TokenStream.step, eq_comm] using none

theorem Faces.run (faces : Faces stream parts) {steps : List Step} (onwards : .reset ∉ steps) :
    ∃ passed ahead, parts = passed ++ ahead ∧ Delivers passed (stream.run steps).1.reduceOption ∧
      Faces (stream.run steps).2 ahead ∧ (none ∈ (stream.run steps).1 → ahead = []) := by
  induction steps generalizing stream parts with
  | nil => exact ⟨[], parts, rfl, delivers_nil (by simp), faces, by simp [TokenStream.run]⟩
  | cons action steps ih =>
    obtain ⟨first, later⟩ := List.ne_and_not_mem_of_not_mem_cons onwards
    obtain ⟨passed, behind, rfl, delivers, faces, ended⟩ := faces.step first.symm
    obtain ⟨further, ahead, rfl, delivered, faces, closed⟩ := ih faces later
    refine ⟨passed ++ further, ahead, by simp, ?_, faces, fun none => ?_⟩
    · simpa [TokenStream.run, List.reduceOption_append] using delivers.append delivered
    · rcases List.mem_append.mp none with early | late
      · exact (List.append_eq_nil_iff.mp (ended early)).2
      · exact closed late

/-- Where no part is left there is no token any more, whatever the switches are. -/
theorem Faces.run_nil (faces : Faces stream []) {steps : List Step} (onwards : .reset ∉ steps) :
    ∀ answer ∈ (stream.run steps).1, answer = none := by
  obtain ⟨passed, ahead, whole, ⟨kept, within, same, -⟩, -⟩ := faces.run onwards
  obtain ⟨rfl, -⟩ := List.append_eq_nil_iff.mp whole.symm
  rw [List.sublist_nil.mp within, List.map_nil, eq_comm] at same
  obtain ⟨count, nothing⟩ := (List.reduceOption_eq_nil_iff _).mp same
  rw [nothing]
  exact fun answer => List.eq_of_mem_replicate

theorem Faces.run_pairwise (faces : Faces stream parts) {steps : List Step}
    (onwards : .reset ∉ steps) :
    (stream.run steps).1.Pairwise fun first later => first = none → later = none := by
  induction steps generalizing stream parts with
  | nil => exact .nil
  | cons action steps ih =>
    obtain ⟨first, later⟩ := List.ne_and_not_mem_of_not_mem_cons onwards
    obtain ⟨passed, behind, rfl, delivers, faces, ended⟩ := faces.step first.symm
    refine List.pairwise_append.mpr ⟨?_, ih faces later, ?_⟩
    · cases action <;> simp
    · intro answer early other late stopped
      rw [stopped] at early
      have finished := ended early
      subst finished
      exact faces.run_nil later other late

theorem next_fixed (stream : TokenStream) :
    stream.next.2.source = stream.source ∧ stream.next.2.delimiters = stream.delimiters := by
  have advance_fixed (stream : TokenStream) :
      stream.advance.2.source = stream.source ∧ stream.advance.2.delimiters = stream.delimiters := by
    unfold advance
    split <;> exact ⟨rfl, rfl⟩
  fun_induction TokenStream.next stream with
  | case1 stream delimiter waiting => exact ⟨rfl, rfl⟩
  | case2 stream clear unfinished returned => exact advance_fixed stream
  | case3 stream clear unfinished skipped shorter ih =>
    exact ⟨ih.1.trans (advance_fixed stream).1, ih.2.trans (advance_fixed stream).2⟩
  | case4 stream clear finished => exact ⟨rfl, rfl⟩

theorem run_fixed (stream : TokenStream) (steps : List Step) :
    (stream.run steps).2.source = stream.source ∧
      (stream.run steps).2.delimiters = stream.delimiters := by
  induction steps generalizing stream with
  | nil => exact ⟨rfl, rfl⟩
  | cons action steps ih =>
    have unmoved : (stream.step action).2.source = stream.source ∧
        (stream.step action).2.delimiters = stream.delimiters := by
      cases action with
      | next => exact next_fixed stream
      | _ => exact ⟨rfl, rfl⟩
    exact ⟨(ih _).1.trans unmoved.1, (ih _).2.trans unmoved.2⟩

/-- A stream that starts over is a new stream under the switches that it has by then. -/
theorem reset_run (text : List Char) (delimiters : List (List Char))
    (returnDelimiters collapse : Bool) (steps : List Step) :
    let last := ((ofText text delimiters returnDelimiters collapse).run steps).2
    last.reset = ofText text delimiters last.returnDelimiters last.collapse := by
  intro last
  obtain ⟨source, same⟩ := run_fixed (ofText text delimiters returnDelimiters collapse) steps
  change last.source = text at source
  change last.delimiters = delimiters.filter (!·.isEmpty) at same
  rw [reset, ofText, source, same]

theorem run_append (stream : TokenStream) (steps others : List Step) :
    stream.run (steps ++ others) =
      ((stream.run steps).1 ++ ((stream.run steps).2.run others).1,
        ((stream.run steps).2.run others).2) := by
  induction steps generalizing stream with
  | nil => rfl
  | cons action steps ih => simp [run, ih]

end TokenStream

open Text TokenStream in
/-- Whatever happens between two tokens, a stream returns parts of its text in order, each at most
once. Of the parts that it has passed it left out empty pieces and delimiters only. Where it has no
token there is no part left, and it has none later. One that starts over goes on like a new stream
with the switches that it has by then. -/
theorem stream_in_order (text : List Char) (delimiters : List (List Char)) :
    ∃ parts, Segments delimiters text parts ∧
      (∀ returnDelimiters collapse steps, Step.reset ∉ steps →
        let outcome := (ofText text delimiters returnDelimiters collapse).run steps
        ∃ passed ahead, parts = passed ++ ahead ∧
          (ahead.map Part.text).flatten = outcome.2.pending.getD [] ++ outcome.2.rest ∧
          Delivers passed outcome.1.reduceOption ∧ (none ∈ outcome.1 → ahead = []) ∧
          outcome.1.Pairwise fun first later => first = none → later = none) ∧
      ∀ returnDelimiters collapse earlier later,
        let stream := ofText text delimiters returnDelimiters collapse
        let before := stream.run earlier
        let fresh := ofText text delimiters before.2.returnDelimiters before.2.collapse
        stream.run (earlier ++ .reset :: later) =
          (before.1 ++ (fresh.run later).1, (fresh.run later).2) := by
  obtain ⟨parts, segments⟩ := exists_segments delimiters text
  refine ⟨parts, segments, ?_, ?_⟩
  · intro returnDelimiters collapse steps onwards
    have faces := faces_ofText segments returnDelimiters collapse
    obtain ⟨passed, ahead, whole, delivers, behind, ended⟩ := faces.run onwards
    exact ⟨passed, ahead, whole, behind.text, delivers, ended, faces.run_pairwise onwards⟩
  · intro returnDelimiters collapse earlier later
    have again := reset_run text delimiters returnDelimiters collapse earlier
    dsimp only at again ⊢
    rw [run_append, run, step, again]
    rfl

open Text TokenStream in
/-- A delimiter that waits is returned although delimiters are no tokens any more. -/
theorem stream_in_order_switched :
    let text := "a,,b,".toList
    let steps : List Step := [.returnDelimiters true, .next, .returnDelimiters false, .next,
      .collapse true, .next, .next, .returnDelimiters true, .next]
    (Step.reset ∉ steps ∧ ((ofText text [[',']]).run steps).1 =
      [some ['a'], some [','], some ['b'], none, none]) ∧
    ∃ parts, Segments [[',']] text parts ∧ Delivers parts [['a'], [','], ['b']] := by
  intro text steps
  have onwards : Step.reset ∉ steps := by decide
  have answers : ((ofText text [[',']]).run steps).1 =
      [some ['a'], some [','], some ['b'], none, none] := by decide +kernel
  refine ⟨⟨onwards, answers⟩, ?_⟩
  obtain ⟨parts, segments, stretch, -⟩ := stream_in_order text [[',']]
  obtain ⟨passed, ahead, rfl, -, delivers, ended, -⟩ := stretch false false steps onwards
  rw [answers] at delivers ended
  rw [ended (by decide), List.append_nil] at segments
  exact ⟨passed, segments, delivers⟩

end TypedLiteral
