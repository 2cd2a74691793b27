import TypedLiteral.Text.Segmentation

/-! A text read token by token. The stream cuts its text at the delimiters; two switches say which
parts become tokens, and both may change between two steps.
- `returnDelimiters`: delimiters are tokens too, and empty pieces are not;
- `collapse`: a run of adjacent delimiters counts as its first one, and empty pieces are no tokens.
With both off every piece is a token, the empty ones included. -/
namespace TypedLiteral

structure TokenStream where
  source : List Char
  delimiters : List (List Char)
  returnDelimiters : Bool := false
  collapse : Bool := false
  rest : List Char := source
  /-- A delimiter that was cut off and still has to be returned. -/
  pending : Option (List Char) := none
  afterDelimiter : Bool := false
  exhausted : Bool := false

namespace TokenStream

/-- Empty delimiters are dropped: they neither cut nor count as delimiters. -/
def ofText (text : List Char) (delimiters : List (List Char)) (returnDelimiters : Bool := false)
    (collapse : Bool := false) : TokenStream where
  source := text
  delimiters := delimiters.filter (!·.isEmpty)
  returnDelimiters
  collapse

/-- Back to the start of the source, under the present switches. -/
def reset (stream : TokenStream) : TokenStream :=
  { stream with
    rest := stream.source
    pending := none
    afterDelimiter := false
    exhausted := false }

def isDelimiter (stream : TokenStream) (token : List Char) : Bool :=
  stream.delimiters.contains token

def advance (stream : TokenStream) : List Char × TokenStream :=
  match Text.cut? stream.delimiters stream.rest with
  | none =>
    (stream.rest,
      { stream with rest := [], pending := none, afterDelimiter := false, exhausted := true })
  | some cut =>
    let repeated := stream.collapse && cut.piece.isEmpty && stream.afterDelimiter
    (cut.piece,
      { stream with
        rest := cut.rest
        pending := if stream.returnDelimiters && !repeated then some cut.delimiter else none
        afterDelimiter := true })

def weight (stream : TokenStream) : Nat :=
  2 * stream.rest.length + (if stream.pending.isSome then 1 else 0) +
    (if stream.exhausted then 0 else 1)

theorem weight_advance (stream : TokenStream) (idle : stream.pending = none)
    (unfinished : stream.exhausted = false) : stream.advance.2.weight < stream.weight := by
  unfold advance
  split
  · simp [weight, unfinished]
  · rename_i cut found
    have shorter := Text.cut?_rest_length found
    simp only [weight, idle, unfinished]
    split <;> simp <;> omega

def next (stream : TokenStream) : Option (List Char) × TokenStream :=
  match idle : stream.pending with
  | some delimiter => (some delimiter, { stream with pending := none })
  | none =>
    if unfinished : stream.exhausted = false then
      if !stream.advance.1.isEmpty || !(stream.returnDelimiters || stream.collapse) then
        (some stream.advance.1, stream.advance.2)
      else
        have := weight_advance stream idle unfinished
        stream.advance.2.next
    else (none, stream)
termination_by stream.weight

theorem weight_next {stream : TokenStream} {token : List Char}
    (found : stream.next.1 = some token) : stream.next.2.weight < stream.weight := by
  fun_induction next stream with
  | case1 stream delimiter waiting => simp [weight, waiting]
  | case2 stream idle unfinished returned => exact weight_advance stream idle unfinished
  | case3 stream idle unfinished skipped shorter ih => exact Nat.lt_trans (ih found) shorter
  | case4 stream idle finished => simp at found

def drain (stream : TokenStream) : List (List Char) × TokenStream :=
  match found : stream.next.1 with
  | none => ([], stream.next.2)
  | some token =>
    have := weight_next found
    (token :: stream.next.2.drain.1, stream.next.2.drain.2)
termination_by stream.weight

end TokenStream

def tokens (text : List Char) (delimiters : List (List Char)) (returnDelimiters : Bool := false)
    (collapse : Bool := false) : List (List Char) :=
  (TokenStream.ofText text delimiters returnDelimiters collapse).drain.1

end TypedLiteral
