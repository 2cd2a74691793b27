import TypedLiteral.Proofs.CollectionType
import TypedLiteral.Proofs.ValueIdentity

/-! One literal read under two sets of limits. The smaller limits either stop the reading, and then
the failure names the limit that did, or nothing of the outcome depends on them. The order of the
checks matters: up to the first limit that stops it, reading takes the same steps under both. -/
namespace TypedLiteral

open Literal

structure Limits.Within (small large : Limits) : Prop where
  depth : small.maxDepth ≤ large.maxDepth
  range : small.maxRangeLength ≤ large.maxRangeLength

inductive Failure.Exceeds (limits : Limits) : Failure → Prop
  | depth (text : String) : Exceeds limits (.nestingTooDeep limits.maxDepth text)
  | range (first last : Int64) : Exceeds limits (.rangeTooLarge first last limits.maxRangeLength)

/-- The first outcome is that of a limit, unless it is the second outcome as well. -/
inductive CutOff {α : Type} (limits : Limits) : Except Failure α → Except Failure α → Prop
  | stopped {failure : Failure} (exceeds : failure.Exceeds limits) (other : Except Failure α) :
      CutOff limits (.error failure) other
  | same (outcome : Except Failure α) : CutOff limits outcome outcome

namespace CutOff

variable {α β : Type} {limits : Limits}

theorem bind {first other : Except Failure α} {next further : α → Except Failure β}
    (cut : CutOff limits first other)
    (each : ∀ item, CutOff limits (next item) (further item)) :
    CutOff limits (first >>= next) (other >>= further) := by
  cases cut with
  | stopped exceeds other => exact .stopped exceeds _
  | same =>
    cases first with
    | error failure => exact .same (.error failure)
    | ok item => exact each item

theorem mapM {f g : α → Except Failure β} (each : ∀ item, CutOff limits (f item) (g item))
    (items : List α) : CutOff limits (items.mapM f) (items.mapM g) := by
  induction items with
  | nil => exact .same _
  | cons item items ih =>
    rw [List.mapM_cons, List.mapM_cons]
    exact (each item).bind fun value => ih.bind fun values => .same _

theorem foldlM {step further : β → α → Except Failure β}
    (each : ∀ state item, CutOff limits (step state item) (further state item))
    (items : List α) (start : β) :
    CutOff limits (items.foldlM step start) (items.foldlM further start) := by
  induction items generalizing start with
  | nil => exact .same _
  | cons item items ih =>
    rw [List.foldlM_cons, List.foldlM_cons]
    exact (each start item).bind ih

end CutOff

section Within

variable {small large : Limits} (within : small.Within large)
include within

namespace Literal.Sequence

theorem State.number_cutOff (state : State) (number : Int64) :
    CutOff small (state.number small.maxRangeLength number)
      (state.number large.maxRangeLength number) := by
  unfold State.number
  split
  · rename_i anchor _ _
    split
    · exact .same _
    · by_cases short : distance anchor number ≤ small.maxRangeLength
      · have allowed := Nat.le_trans short within.range
        rw [if_neg (Nat.not_lt.mpr short), if_neg (Nat.not_lt.mpr allowed)]
        exact .same _
      · rw [if_pos (Nat.lt_of_not_le short)]
        exact .stopped (.range anchor number) _
  · exact .same _

theorem State.step_cutOff (width : Width) (body : List Char) (state : State) (token : List Char) :
    CutOff small (state.step width small.maxRangeLength body token)
      (state.step width large.maxRangeLength body token) := by
  unfold State.step
  split
  · exact .same _
  split
  · exact .same _
  split
  · exact .same _
  · exact (CutOff.same (readInteger width token)).bind (state.number_cutOff within)

end Literal.Sequence

theorem readSequence_cutOff (width : Width) (body : List Char) :
    CutOff small (readSequence width small.maxRangeLength body)
      (readSequence width large.maxRangeLength body) := by
  have run := CutOff.foldlM (Sequence.State.step_cutOff within width body)
    (tokens (Text.trim body) [Sequence.comma, Sequence.dots] true) {}
  exact run.bind fun state => .same (state.finish body)

namespace Shape

theorem enter_cutOff (depth : Nat) (text : List Char) :
    CutOff small (enter small depth text) (enter large depth text) := by
  unfold enter
  by_cases deep : small.maxDepth ≤ depth
  · rw [if_pos deep]
    exact .stopped (.depth (String.ofList text)) _
  · have shallow : ¬large.maxDepth ≤ depth := fun deeper => deep (Nat.le_trans within.depth deeper)
    rw [if_neg deep, if_neg shallow]
    exact .same _

theorem read_cutOff (shape : Shape) (depth : Nat) (text : List Char) :
    CutOff small (shape.read small depth text) (shape.read large depth text) := by
  induction shape generalizing depth text with
  | sequence form width =>
    rw [read, read]
    refine (enter_cutOff within depth text).bind fun body => ?_
    exact (readSequence_cutOff within width body).bind fun numbers => .same _
  | collection form element ih =>
    rw [read, read]
    refine (enter_cutOff within depth text).bind fun body => ?_
    split
    · exact .same _
    · rename_i texts divided
      exact (CutOff.mapM (ih (depth + 1)) texts).bind fun elements => .same _
  | _ =>
    rw [read, read]
    exact .same _

end Shape

end Within

/-- Smaller limits only cut readings off. Where they do not, they change neither the value nor the
failure. -/
theorem read_within (hierarchy : Hierarchy) {small large : Limits} (within : small.Within large)
    (text : String) (type : TypeExpr) :
    (∃ failure, Reader.read ⟨hierarchy, small⟩ text type = .error failure ∧
        failure.Exceeds small) ∨
      Reader.read ⟨hierarchy, small⟩ text type = Reader.read ⟨hierarchy, large⟩ text type := by
  have cut : CutOff small (Reader.read ⟨hierarchy, small⟩ text type)
      (Reader.read ⟨hierarchy, large⟩ text type) :=
    Shape.read_cutOff within _ 0 text.toList
  generalize Reader.read ⟨hierarchy, small⟩ text type = outcome at cut ⊢
  cases cut with
  | stopped exceeds other => exact Or.inl ⟨_, rfl, exceeds⟩
  | same => exact Or.inr rfl

/-- The shorter limit on ranges stops a reading that fails further on under the longer one. -/
theorem read_within_ranges :
    let small : Limits := ⟨2, 3⟩
    let large : Limits := ⟨3, 4⟩
    let rows : TypeExpr := .applied .list [.array (.named .int)]
    let text := "[ [1, 2..6], [x] ]"
    (small.Within large ∧
      Reader.read ⟨.standard, large⟩ text rows = .error (.numberFormat "x" "int") ∧
      Reader.read ⟨.standard, small⟩ text rows ≠ Reader.read ⟨.standard, large⟩ text rows) ∧
    ∃ failure, Reader.read ⟨.standard, small⟩ text rows = .error failure ∧
      failure.Exceeds small := by
  intro small large rows text
  have within : small.Within large := ⟨by decide, by decide⟩
  have differ : Reader.read ⟨.standard, small⟩ text rows ≠
      Reader.read ⟨.standard, large⟩ text rows := by decide +kernel
  refine ⟨⟨within, by decide +kernel, differ⟩, ?_⟩
  exact (read_within .standard within text rows).resolve_right differ

end TypedLiteral
