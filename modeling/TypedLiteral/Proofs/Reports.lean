import TypedLiteral.Proofs.CollectionGrammar
import TypedLiteral.Proofs.SequenceFaults

/-! What reading reports when it fails: one judgement for each kind of literal. A collection reports
that it lies too deep or that its brackets are not balanced; behind that, it reports what its
sequence or one of its elements does. -/
namespace TypedLiteral

open Literal

/-- Texts are always read. -/
inductive ScalarKind.Reports : ScalarKind → List Char → Failure → Prop
  | integer (width : Width) (text : List Char) :
      Reports (.integer width) text (invalidNumber (Text.trim text) width.typeName)
  | boolean (text : List Char) :
      Reports .boolean text (.invalidBoolean (String.ofList (Text.trim text)))
  | double (text : List Char) : Reports .double text (invalidNumber (Text.trim text) .double)

/-- A sequence reports its whole body, or the one of its tokens that it cannot take in. -/
inductive Literal.Sequence.Reports (width : Width) (limit : Nat) (body : List Char) : Failure → Prop
  | unexpected {token} (delimiter : token = comma ∨ token = dots)
      (present : token ∈ tokens (Text.trim body) [comma, dots] true) :
      Reports width limit body (.unexpectedToken (String.ofList token) (String.ofList body))
  | unstarted : Reports width limit body (.rangeWithoutStart (String.ofList body))
  | number {token} (present : token ∈ tokens (Text.trim body) [comma, dots] true) :
      Reports width limit body (invalidNumber (Text.trim token) width.typeName)
  | tooLarge (first last : Int64) : Reports width limit body (.rangeTooLarge first last limit)

inductive Shape.Reports (limits : Limits) : Shape → Nat → List Char → Failure → Prop
  | member (type members depth text) : Reports limits (.member type members) depth text
      (.unknownMember type.text (String.ofList (Text.trim text)))
  | scalar {kind depth text failure} (reports : kind.Reports text failure) :
      Reports limits (.scalar kind) depth text failure
  | unsupported (type depth text) : Reports limits (.unsupported type) depth text
      (.unsupportedType (String.ofList type.display) (String.ofList text))
  | misapplied (type found depth text) : Reports limits (.misapplied type found) depth text
      (.arity (String.ofList type.display) found)
  | tooDeep {shape depth text} (nested : 0 < shape.levels) (deep : limits.maxDepth ≤ depth) :
      Reports limits shape depth text (.nestingTooDeep limits.maxDepth (String.ofList text))
  | unbalanced {shape depth text} (nested : 0 < shape.levels) (shallow : depth < limits.maxDepth)
      (unbalanced : ¬Balanced text) :
      Reports limits shape depth text (.unbalancedBrackets (String.ofList text))
  | sequence {form width depth text body failure} (shallow : depth < limits.maxDepth)
      (unwrapped : body? text = some body)
      (reports : Sequence.Reports width limits.maxRangeLength body failure) :
      Reports limits (.sequence form width) depth text failure
  | element {form element depth text body texts part failure} (shallow : depth < limits.maxDepth)
      (unwrapped : body? text = some body) (division : Division body texts) (listed : part ∈ texts)
      (reports : Reports limits element (depth + 1) part failure) :
      Reports limits (.collection form element) depth text failure

namespace Literal

variable {failure : Failure} {text : List Char}

theorem readBoolean_failure (failed : readBoolean text = .error failure) :
    failure = .invalidBoolean (String.ofList (Text.trim text)) := by
  unfold readBoolean at failed
  dsimp only at failed
  split at failed
  · contradiction
  · split at failed
    · contradiction
    · exact (Except.error.inj failed).symm

theorem readDouble_failure (failed : readDouble text = .error failure) :
    failure = invalidNumber (Text.trim text) .double := by
  unfold readDouble at failed
  dsimp only at failed
  split at failed
  · exact (Except.error.inj failed).symm
  · contradiction

theorem readScalar_failure {kind : ScalarKind} (failed : readScalar kind text = .error failure) :
    kind.Reports text failure := by
  cases kind with
  | text => contradiction
  | integer width =>
    rw [(readInteger_eq_error_iff.mp (map_eq_error_iff.mp failed)).2]
    exact .integer width text
  | boolean =>
    rw [readBoolean_failure (map_eq_error_iff.mp failed)]
    exact .boolean text
  | double =>
    rw [readDouble_failure (map_eq_error_iff.mp failed)]
    exact .double text

theorem readMember_failure {type : TypeIdent} {members : List String}
    (failed : readMember type members text = .error failure) :
    failure = .unknownMember type.text (String.ofList (Text.trim text)) := by
  unfold readMember at failed
  dsimp only at failed
  split at failed
  · contradiction
  · exact (Except.error.inj failed).symm

end Literal

open Sequence in
theorem readSequence_failure {width : Width} {limit : Nat} {body : List Char} {failure : Failure}
    (failed : readSequence width limit body = .error failure) :
    Sequence.Reports width limit body failure := by
  have listed {token : List Char} (member : token ∈ present body) :
      token ∈ tokens (Text.trim body) [comma, dots] true := List.mem_of_mem_filter member
  cases readSequence_eq_error_iff.mp failed with
  | trailing ends either sound => exact .unexpected either (listed (List.mem_of_getLast? ends))
  | token parts earlier fault =>
    have shown := listed (parts ▸ List.mem_append_right _ List.mem_cons_self)
    cases fault with
    | comma unnumbered => exact .unexpected (Or.inl rfl) shown
    | begins first => exact .unexpected (Or.inr rfl) shown
    | unstarted behind => exact .unstarted
    | number notComma notDots none => exact .number shown
    | tooLarge behind anchors denotes far => exact .tooLarge _ _

namespace Shape

variable {limits : Limits} {depth : Nat} {text : List Char} {failure : Failure}

theorem enter_unbalanced (shallow : depth < limits.maxDepth) (unbalanced : ¬Balanced text) :
    enter limits depth text = .error (.unbalancedBrackets (String.ofList text)) := by
  have bare : body? text = none := by
    rw [body?, if_neg (isBalanced_iff.not.mpr unbalanced)]
  rw [enter, if_neg (Nat.not_le_of_lt shallow), bare]

theorem enter_failure {shape : Shape} (nested : 0 < shape.levels)
    (stopped : enter limits depth text = .error failure) :
    shape.Reports limits depth text failure := by
  by_cases deep : limits.maxDepth ≤ depth
  · rw [enter, if_pos deep] at stopped
    cases stopped
    exact .tooDeep nested deep
  · have shallow : depth < limits.maxDepth := Nat.lt_of_not_le deep
    by_cases balanced : Balanced text
    · obtain ⟨body, unwrapped⟩ := exists_body? balanced
      rw [enter_eq_ok_iff.mpr ⟨shallow, unwrapped⟩] at stopped
      contradiction
    · rw [enter_unbalanced shallow balanced] at stopped
      cases stopped
      exact .unbalanced nested shallow balanced

theorem read_failure {shape : Shape} (failed : shape.read limits depth text = .error failure) :
    shape.Reports limits depth text failure := by
  induction shape generalizing depth text with
  | member type members =>
    rw [readMember_failure failed]
    exact .member type members depth text
  | scalar kind => exact .scalar (readScalar_failure failed)
  | unsupported type =>
    cases failed
    exact .unsupported type depth text
  | misapplied type found =>
    cases failed
    exact .misapplied type found depth text
  | sequence form width =>
    have nested : 0 < (sequence form width).levels := Nat.one_pos
    cases entered : enter limits depth text with
    | error other =>
      rw [read_of_enter_error nested entered] at failed
      cases failed
      exact enter_failure nested entered
    | ok body =>
      obtain ⟨shallow, unwrapped⟩ := enter_eq_ok_iff.mp entered
      rw [read_sequence shallow unwrapped, map_eq_error_iff] at failed
      exact .sequence shallow unwrapped (readSequence_failure failed)
  | collection form element ih =>
    have nested : 0 < (collection form element).levels := Nat.succ_pos _
    cases entered : enter limits depth text with
    | error other =>
      rw [read_of_enter_error nested entered] at failed
      cases failed
      exact enter_failure nested entered
    | ok body =>
      obtain ⟨shallow, unwrapped⟩ := enter_eq_ok_iff.mp entered
      obtain ⟨texts, division⟩ := exists_division (body?_balanced unwrapped)
      rw [read_collection shallow unwrapped division, map_eq_error_iff] at failed
      obtain ⟨part, listed, fails⟩ := exists_of_mapM_eq_error failed
      exact .element shallow unwrapped division listed (ih fails)

end Shape
end TypedLiteral
