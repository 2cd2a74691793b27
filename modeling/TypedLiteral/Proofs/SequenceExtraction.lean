import TypedLiteral.Proofs.ExtractedOrder
import TypedLiteral.Proofs.ScalarExtraction

/-! Collections as they are extracted. The elements are taken in order and the first one that does
not fit is the outcome; a set keeps the distinct results, and a product takes as many elements as it
has positions and leaves the others alone. -/
namespace TypedLiteral

theorem mapError_map {α β ε ε' : Type} (outcome : Except ε α) (f : α → β) (word : ε → ε') :
    (outcome.map f).mapError word = (outcome.mapError word).map f := by
  cases outcome <;> rfl

namespace Target

/-- What a set has of the outcome for its elements: the same failure, or the distinct results in
ascending order. -/
inductive Gathers (element : Target) :
    Except Failure (List Extracted) → Except Failure Extracted → Prop
  | error (failure : Failure) : Gathers element (.error failure) (.error failure)
  | ok {parts distinct : List Extracted} (ascending : distinct.Pairwise (element.order · · = .lt))
      (same : ∀ part, part ∈ distinct ↔ part ∈ parts) :
      Gathers element (.ok parts) (.ok (.set distinct))

theorem extract_inOrder (element : Target) (elements : List Value) :
    InOrder (Value.extract element) elements
      ((elements.mapM element.extract).mapError Misfit.failure) :=
  (mapM_inOrder element.extract elements).mapError Misfit.failure

theorem gathers_extract_set (element : Target) (form : Form) (elements : List Value) :
    Gathers element ((elements.mapM element.extract).mapError Misfit.failure)
      (Value.extract (.set element) (.collection form elements)) := by
  rw [Value.extract, extract_set]
  cases outcome : elements.mapM element.extract with
  | error misfit => exact .error misfit.failure
  | ok parts =>
    have fits := forall_mem_of_forall₂ ((mapM_eq_ok_iff.mp outcome).imp fun _ _ read =>
      extract_yields element read)
    exact .ok (pairwise_ascending element parts) fun part => mem_ascending fits

theorem extractPositions_eq (expected : String) (positions : List Target) (taken : Nat)
    (elements : List Value) :
    extractPositions expected positions taken elements =
      (positions.zip elements).mapM (fun part => part.1.extract part.2) >>= fun parts =>
        if elements.length < positions.length then
          .error (.tooShort (taken + elements.length) expected)
        else .ok parts := by
  induction positions generalizing taken elements with
  | nil => rfl
  | cons position positions ih =>
    cases elements with
    | nil => rfl
    | cons element elements =>
      rw [extractPositions, ih, List.zip_cons_cons, List.mapM_cons]
      cases position.extract element with
      | error misfit => rfl
      | ok part =>
        cases (positions.zip elements).mapM fun part => part.1.extract part.2 with
        | error misfit => rfl
        | ok parts =>
          have counted : taken + 1 + elements.length = taken + (element :: elements).length := by
            rw [List.length_cons]
            omega
          by_cases short : elements.length < positions.length
          · have shorter : (element :: elements).length < (position :: positions).length :=
              Nat.succ_lt_succ short
            simp only [bind, Except.bind, pure, Except.pure, if_pos short, if_pos shorter, counted]
          · have longer : ¬(element :: elements).length < (position :: positions).length :=
              fun shorter => short (Nat.lt_of_succ_lt_succ shorter)
            simp only [bind, Except.bind, pure, Except.pure, if_neg short, if_neg longer]

theorem extract_product_eq (kind : Product) (positions : List Target) (form : Form)
    (elements : List Value) :
    Value.extract (.product kind positions) (.collection form elements) =
      (((positions.zip elements).mapM fun part : Target × Value => part.1.extract part.2).mapError
        Misfit.failure).bind fun parts =>
          if elements.length < positions.length then
            .error (.custom ("invalid length " ++
              String.ofList (Nat.toDigits 10 elements.length) ++ ", expected " ++
              kind.fullDescription positions.length))
          else .ok (.product kind parts) := by
  rw [Value.extract, extract_product, extractPositions_eq, Nat.zero_add]
  cases (positions.zip elements).mapM fun part => part.1.extract part.2 with
  | error misfit => rfl
  | ok parts =>
    by_cases short : elements.length < positions.length
    · simp only [bind, Except.bind, Except.mapError, if_pos short]
      rfl
    · simp only [bind, Except.bind, Except.mapError, if_neg short]
      rfl

theorem zip_append_of_le {positions : List Target} {elements : List Value}
    (enough : positions.length ≤ elements.length) (more : List Value) :
    positions.zip (elements ++ more) = positions.zip elements := by
  induction positions generalizing elements with
  | nil => rfl
  | cons position positions ih =>
    cases elements with
    | nil => contradiction
    | cons element elements =>
      rw [List.cons_append, List.zip_cons_cons, List.zip_cons_cons,
        ih (Nat.le_of_succ_le_succ enough)]

theorem extract_product_append (kind : Product) {positions : List Target} (form : Form)
    {elements : List Value} (enough : positions.length ≤ elements.length) (more : List Value) :
    Value.extract (.product kind positions) (.collection form (elements ++ more)) =
      Value.extract (.product kind positions) (.collection form elements) := by
  have long : ¬(elements ++ more).length < positions.length := by
    rw [List.length_append]
    omega
  rw [extract_product_eq, extract_product_eq, zip_append_of_le enough]
  simp only [if_neg long, if_neg (Nat.not_lt.mpr enough)]

end Target

/-- A sequence holds the results of all elements in order or fails with the first element that does
not fit, a set fails in the same way and otherwise holds the distinct results, and a product takes
as many elements as it has positions, with the same failures before that of being too short. -/
theorem extract_elementwise (element : Target) (kind : Product) (positions : List Target) :
    (∀ form elements, ∃ outcome, InOrder (Value.extract element) elements outcome ∧
      Value.extract (.sequence element) (.collection form elements) = outcome.map .sequence ∧
      element.Gathers outcome (Value.extract (.set element) (.collection form elements))) ∧
    (∀ form elements, ∃ outcome,
      InOrder (fun part => Value.extract part.1 part.2) (positions.zip elements) outcome ∧
      Value.extract (.product kind positions) (.collection form elements) =
        outcome.bind fun parts =>
          if elements.length < positions.length then
            .error (.custom ("invalid length " ++
              String.ofList (Nat.toDigits 10 elements.length) ++ ", expected " ++
              kind.fullDescription positions.length))
          else .ok (.product kind parts)) ∧
    (∀ form elements more, positions.length ≤ elements.length →
      Value.extract (.product kind positions) (.collection form (elements ++ more)) =
        Value.extract (.product kind positions) (.collection form elements)) ∧
    ∀ value : Value, value.elements? = none →
      value.extract (.sequence element) = .error (value.refused "a sequence") ∧
      value.extract (.set element) = .error (value.refused "a sequence") ∧
      value.extract (.product kind positions) =
        .error (value.refused (kind.description positions.length)) := by
  refine ⟨fun form elements => ?_, fun form elements => ?_, ?_, ?_⟩
  · refine ⟨_, Target.extract_inOrder element elements, ?_,
      Target.gathers_extract_set element form elements⟩
    rw [Value.extract, Target.extract_sequence, mapError_map]
  · have ordered := mapM_inOrder (fun part : Target × Value => part.1.extract part.2)
      (positions.zip elements)
    exact ⟨_, ordered.mapError Misfit.failure,
      Target.extract_product_eq kind positions form elements⟩
  · exact fun form elements more enough => Target.extract_product_append kind form enough more
  · intro value scalar
    cases value with
    | collection form elements => contradiction
    | _ => exact ⟨rfl, rfl, rfl⟩

theorem extract_elementwise_pair :
    Value.extract (.product .tuple [.signed "i32" 32, .string])
        (.collection .set [.int 7, .text "port", .bool true]) =
      .ok (.product .tuple [.integer 7, .string "port"]) ∧
      Value.extract (.product .tuple [.signed "i32" 32, .string]) (.text "port") =
        .error ((Value.text "port").refused "a tuple of size 2") := by
  obtain ⟨-, -, ignored, refused⟩ :=
    extract_elementwise .string .tuple [.signed "i32" 32, .string]
  have pair := ignored .set [.int 7, .text "port"] [.bool true] (by decide)
  exact ⟨pair.trans rfl, (refused (.text "port") rfl).2.2⟩

end TypedLiteral
