import Mathlib.Data.List.Chain
import TypedLiteral.Proofs.Segments
import TypedLiteral.Text.TokenStream

/-! The tokens of a text as one list. A stream goes through the parts of its text, and its switches
say which of them are tokens. One that returns its delimiters and collapses none of them yields
exactly the parts that are not empty, in order. -/
namespace TypedLiteral

namespace TokenStream

open Text

/-- The stream is in front of its next piece. -/
structure Idle (stream : TokenStream) : Prop where
  clear : stream.pending = none
  unfinished : stream.exhausted = false

/-- The tokens that parts give under the switches. `repeated` says whether nothing but empty pieces
lies between the first part and a delimiter in front of it. -/
def shown (returnDelimiters collapse repeated : Bool) : List Part → List (List Char)
  | [] => []
  | .piece text :: parts =>
    (if !text.isEmpty || !(returnDelimiters || collapse) then [text] else []) ++
      shown returnDelimiters collapse (repeated && text.isEmpty) parts
  | .delimiter text :: parts =>
    (if returnDelimiters && !(collapse && repeated) then [text] else []) ++
      shown returnDelimiters collapse true parts

variable {stream after : TokenStream} {token : List Char}

theorem next_pending {delimiter : List Char} (waiting : stream.pending = some delimiter) :
    stream.next = (some delimiter, { stream with pending := none }) := by
  rw [next]
  split
  · rename_i other same
    rw [waiting] at same
    cases same
    rfl
  · rename_i idle
    rw [waiting] at idle
    contradiction

theorem next_exhausted (clear : stream.pending = none) (finished : stream.exhausted = true) :
    stream.next = (none, stream) := by
  rw [next]
  split
  · rename_i waiting
    rw [clear] at waiting
    contradiction
  · simp [finished]

private theorem next_idle (idle : stream.Idle) :
    stream.next =
      if !stream.advance.1.isEmpty || !(stream.returnDelimiters || stream.collapse) then
        (some stream.advance.1, stream.advance.2)
      else stream.advance.2.next := by
  rw [next]
  split
  · rename_i waiting
    rw [idle.clear] at waiting
    contradiction
  · simp only [idle.unfinished, dif_pos]

theorem drain_token (taken : stream.next = (some token, after)) :
    stream.drain.1 = token :: after.drain.1 := by
  rw [drain]
  split
  · rename_i found
    rw [taken] at found
    contradiction
  · rename_i other found
    rw [taken] at found
    cases found
    simp only [taken]

theorem drain_end (ended : stream.next = (none, after)) : stream.drain.1 = [] := by
  rw [drain]
  split
  · rfl
  · rename_i other found
    rw [ended] at found
    contradiction

private theorem drain_idle (idle : stream.Idle) :
    stream.drain.1 =
      (if !stream.advance.1.isEmpty || !(stream.returnDelimiters || stream.collapse) then
        [stream.advance.1] else []) ++ stream.advance.2.drain.1 := by
  have step := next_idle idle
  split at step
  · rename_i kept
    rw [drain_token step, if_pos kept]
    rfl
  · rename_i skipped
    rw [if_neg skipped, List.nil_append]
    cases following : stream.advance.2.next with
    | mk token after =>
      rw [following] at step
      cases token with
      | none => rw [drain_end step, drain_end following]
      | some token => rw [drain_token step, drain_token following]

private theorem drain_pending (stream : TokenStream) (returned : Bool) (delimiter : List Char) :
    ({ stream with pending := if returned then some delimiter else none } : TokenStream).drain.1 =
      (if returned then [delimiter] else []) ++
        ({ stream with pending := none } : TokenStream).drain.1 := by
  cases returned with
  | false => rfl
  | true => exact drain_token (next_pending rfl)

theorem advance_whole (uncut : cut? stream.delimiters stream.rest = none) :
    stream.advance = (stream.rest,
      { stream with rest := [], pending := none, afterDelimiter := false, exhausted := true }) := by
  rw [advance, uncut]

theorem advance_cut {cut : Cut} (found : cut? stream.delimiters stream.rest = some cut) :
    stream.advance = (cut.piece, { stream with
      rest := cut.rest
      pending :=
        if stream.returnDelimiters &&
            !(stream.collapse && (stream.afterDelimiter && cut.piece.isEmpty)) then
          some cut.delimiter
        else none
      afterDelimiter := true }) := by
  rw [advance, found, Bool.and_comm stream.afterDelimiter, ← Bool.and_assoc]

/-- A stream in front of its parts yields those of them that are tokens. -/
theorem drain_eq_shown {delimiters : List (List Char)} {text : List Char} {parts : List Part}
    (segments : Segments delimiters text parts) (idle : stream.Idle)
    (same : stream.delimiters = delimiters) (left : stream.rest = text) :
    stream.drain.1 =
      shown stream.returnDelimiters stream.collapse stream.afterDelimiter parts := by
  induction segments generalizing stream with
  | @whole text clear =>
    have uncut : cut? stream.delimiters stream.rest = none := by
      rw [same, left]
      exact cut?_eq_none_iff.mpr clear
    rw [drain_idle idle, advance_whole uncut, drain_end (next_exhausted rfl rfl), left]
    rfl
  | @cut piece delimiter rest parts clear leads behind ih =>
    have found : cut? stream.delimiters stream.rest = some ⟨piece, delimiter, rest⟩ := by
      rw [same, left]
      exact cut?_eq_some_iff.mpr ⟨rfl, clear, leads⟩
    have later := @ih { stream with rest := rest, pending := none, afterDelimiter := true }
      ⟨rfl, idle.unfinished⟩ same rfl
    rw [drain_idle idle, advance_cut found, shown, shown, ← later]
    exact congrArg _ (drain_pending { stream with rest := rest, afterDelimiter := true } _ delimiter)

private theorem next_ended {stream : TokenStream} (ended : stream.next.1 = none) :
    stream.next.2.next = (none, stream.next.2) := by
  fun_induction next stream with
  | case1 stream delimiter waiting => contradiction
  | case2 stream clear unfinished kept => contradiction
  | case3 stream clear unfinished skipped shorter ih => exact ih ended
  | case4 stream clear finished => exact next_exhausted clear (by simpa using finished)

/-- A drained stream is at its end and stays there. -/
theorem next_drained (stream : TokenStream) :
    stream.drain.2.next = (none, stream.drain.2) := by
  fun_induction drain stream with
  | case1 stream ended => exact next_ended ended
  | case2 stream token found shorter ih => exact ih

end TokenStream

open Text

theorem tokens_eq_shown {text : List Char} {delimiters : List (List Char)} {parts : List Part}
    (segments : Segments delimiters text parts) (returnDelimiters collapse : Bool) :
    tokens text delimiters returnDelimiters collapse =
      TokenStream.shown returnDelimiters collapse false parts := by
  have kept : Segments (delimiters.filter (!·.isEmpty)) text parts := by
    refine segments.congr fun delimiter present => ?_
    simp [present]
  exact TokenStream.drain_eq_shown kept ⟨rfl, rfl⟩ rfl rfl

theorem TokenStream.shown_return {parts : List Part} (full : .delimiter [] ∉ parts)
    (repeated : Bool) :
    shown true false repeated parts = (parts.filter Part.isPresent).map Part.text := by
  induction parts generalizing repeated with
  | nil => rfl
  | cons part parts ih =>
    obtain ⟨first, later⟩ := not_or.mp (mt List.mem_cons.mpr full)
    cases part with
    | piece text => cases text <;> simp [shown, ih later]
    | delimiter text =>
      cases text with
      | nil => exact (first rfl).elim
      | cons c text => simp [shown, ih later]

theorem tokens_eq_filter (text : List Char) (delimiters : List (List Char)) :
    tokens text delimiters true =
      (Text.segmentation delimiters text).filter (!·.isEmpty) := by
  obtain ⟨parts, segments⟩ := exists_segments delimiters text
  rw [tokens_eq_shown segments, TokenStream.shown_return segments.nil_notMem, ← segments.map_text,
    List.filter_map]
  rfl

theorem tokens_flatten (text : List Char) (delimiters : List (List Char)) :
    (tokens text delimiters true).flatten = text := by
  rw [tokens_eq_filter, List.flatten_filter_not_isEmpty, Text.segmentation_flatten]

/-- One of two parts in a row is a delimiter, even if the empty pieces are left out. -/
theorem Text.Segments.isChain {delimiters : List (List Char)} {text : List Char} {parts : List Part}
    (segments : Segments delimiters text parts) :
    (parts.filter Part.isPresent).IsChain fun first second =>
      first.text ∈ delimiters ∨ second.text ∈ delimiters := by
  induction segments with
  | @whole text clear =>
    cases shown : (Part.piece text).isPresent with
    | true => rw [List.filter_cons_of_pos shown]; exact .singleton _
    | false => rw [List.filter_cons_of_neg (by simp [shown])]; exact .nil
  | @cut piece delimiter rest parts clear leads behind ih =>
    have present : (Part.delimiter delimiter).isPresent = true := by simp [leads.present]
    rw [List.filter_cons, List.filter_cons_of_pos present]
    split
    · refine .cons (.cons ih fun second _ => Or.inl leads.listed) fun second member => ?_
      cases member
      exact Or.inr leads.listed
    · exact .cons ih fun second _ => Or.inl leads.listed

theorem tokens_isChain (text : List Char) (delimiters : List (List Char)) :
    (tokens text delimiters true).IsChain fun first second =>
      first ∈ delimiters ∨ second ∈ delimiters := by
  obtain ⟨parts, segments⟩ := exists_segments delimiters text
  rw [tokens_eq_shown segments, TokenStream.shown_return segments.nil_notMem, List.isChain_map]
  exact segments.isChain

end TypedLiteral
