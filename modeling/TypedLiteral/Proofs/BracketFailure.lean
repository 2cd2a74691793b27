import Mathlib.Logic.Relation
import TypedLiteral.Proofs.Reports
import TypedLiteral.Proofs.Resolution

/-! Where unbalanced brackets are reported. Only collections look at brackets. The body of a
balanced literal and the elements of that body are balanced again, so once the whole literal is
balanced, no check of brackets inside of it fails. -/
namespace TypedLiteral

open Literal

namespace Shape

variable {shape : Shape} {limits : Limits} {depth : Nat} {text : List Char} {shown : String}

/-- A report of unbalanced brackets is about the literal itself and never about a part of it. -/
theorem Reports.of_unbalanced
    (reports : shape.Reports limits depth text (.unbalancedBrackets shown)) :
    0 < shape.levels ∧ ¬Balanced text ∧ shown = String.ofList text := by
  generalize same : Failure.unbalancedBrackets shown = failure at reports
  induction reports with
  | unbalanced nested shallow unbalanced => exact ⟨nested, unbalanced, by cases same; rfl⟩
  | element shallow unwrapped division listed reports ih =>
    have balanced := division.elements_balanced _ listed
    exact ((ih same).2.1 balanced).elim
  | scalar reports => cases reports <;> contradiction
  | sequence shallow unwrapped reports => cases reports <;> contradiction
  | _ => contradiction

/-- Whatever the shape of a balanced literal is, how deep it lies and what the limits are. -/
theorem read_ne_unbalanced (balanced : Balanced text) :
    shape.read limits depth text ≠ .error (.unbalancedBrackets shown) :=
  fun failed => (read_failure failed).of_unbalanced.2.1 balanced

theorem read_unbalanced (nested : 0 < shape.levels) (shallow : depth < limits.maxDepth)
    (unbalanced : ¬Balanced text) :
    shape.read limits depth text = .error (.unbalancedBrackets (String.ofList text)) :=
  read_of_enter_error nested (enter_unbalanced shallow unbalanced)

end Shape

/-- One reading of a literal, at a depth. -/
structure Reading where
  type : TypeExpr
  depth : Nat
  text : List Char

namespace Reading

def outcome (reader : Reader) (reading : Reading) : Except Failure Value :=
  (reader.shape reading.type).read reader.limits reading.depth reading.text

/-- The second reading is of an element that the first one finds. -/
inductive Starts (reader : Reader) : Reading → Reading → Prop
  | element {type form element depth text body texts part}
      (collects : reader.Collects type form element) (plain : element.width? = none)
      (shallow : depth < reader.limits.maxDepth) (unwrapped : body? text = some body)
      (divided : elements? body = some texts) (listed : part ∈ texts) :
      Starts reader ⟨type, depth, text⟩ ⟨element, depth + 1, part⟩

variable {reader : Reader} {first second : Reading}

theorem Starts.balanced (starts : Starts reader first second) : Balanced second.text := by
  cases starts with
  | element collects plain shallow unwrapped divided listed =>
    obtain ⟨texts, division⟩ := exists_division (body?_balanced unwrapped)
    rw [elements?_of_division division] at divided
    cases divided
    exact division.elements_balanced _ listed

theorem balanced_of_transGen (nested : Relation.TransGen (Starts reader) first second) :
    Balanced second.text := by
  cases nested with
  | single starts => exact starts.balanced
  | tail _ starts => exact starts.balanced

end Reading

/-- Brackets are checked once, by the outermost reading. -/
theorem read_unbalanced_brackets (reader : Reader) (text : String) (type : TypeExpr) :
    (∀ form element, reader.Collects type form element → 1 ≤ reader.limits.maxDepth →
      ∀ shown, reader.read text type = .error (.unbalancedBrackets shown) ↔
        ¬Balanced text.toList ∧ shown = text) ∧
    ((∀ form element, ¬reader.Collects type form element) →
      ∀ shown, reader.read text type ≠ .error (.unbalancedBrackets shown)) ∧
    ∀ inner, Relation.TransGen (Reading.Starts reader) ⟨type, 0, text.toList⟩ inner →
      ∀ shown, inner.outcome reader ≠ .error (.unbalancedBrackets shown) := by
  refine ⟨?collection, ?other, ?nested⟩
  case collection =>
    intro form element collects deep shown
    constructor
    · intro failed
      obtain ⟨-, unbalanced, same⟩ := (Shape.read_failure failed).of_unbalanced
      exact ⟨unbalanced, by rw [same, String.ofList_toList]⟩
    · intro known
      obtain ⟨unbalanced, rfl⟩ := known
      rw [Reader.read, Shape.read_unbalanced collects.levels_pos deep unbalanced,
        String.ofList_toList]
  case other =>
    intro plain shown failed
    obtain ⟨nested, -, -⟩ := (Shape.read_failure failed).of_unbalanced
    obtain ⟨form, element, collects⟩ := Reader.exists_collects nested
    exact plain form element collects
  case nested =>
    intro inner nested shown
    exact Shape.read_ne_unbalanced (Reading.balanced_of_transGen nested)

theorem read_unbalanced_brackets_nested :
    let reader : Reader := {}
    let lines : TypeExpr := .array (.named .string)
    let grid : TypeExpr := .applied .list [lines]
    let stray := "[a], b] , [c"
    let outer : Reading := ⟨grid, 0, "[[a, [b]], c]".toList⟩
    let inner : Reading := ⟨.named .string, 2, "b".toList⟩
    (reader.Collects grid .list lines ∧ 1 ≤ reader.limits.maxDepth ∧ ¬Balanced stray.toList ∧
      Relation.TransGen (Reading.Starts reader) outer inner) ∧
    reader.read stray grid = .error (.unbalancedBrackets stray) ∧
      (∀ shown, reader.read "]" (.named .string) ≠ .error (.unbalancedBrackets shown)) ∧
      ∀ shown, inner.outcome reader ≠ .error (.unbalancedBrackets shown) := by
  have collects : Reader.Collects {} (.applied .list [.array (.named .string)]) .list
      (.array (.named .string)) := .list (Reader.strategies_list {})
  have unbalanced : ¬Balanced "[a], b] , [c".toList := by decide
  have grid : body? "[[a, [b]], c]".toList = some "[a, [b]], c".toList := by decide
  have rows : elements? "[a, [b]], c".toList = some ["a, [b]".toList, "c".toList] := by
    decide +kernel
  have line : body? "a, [b]".toList = some "a, [b]".toList := by decide
  have words : elements? "a, [b]".toList = some ["a".toList, "b".toList] := by decide +kernel
  have outward : Reading.Starts {} _ ⟨_, 1, "a, [b]".toList⟩ :=
    .element collects rfl (by decide) grid rows (by simp)
  have inward : Reading.Starts {} _ ⟨.named .string, 2, "b".toList⟩ :=
    .element .array rfl (by decide) line words (by simp)
  have nested := (Relation.TransGen.single outward).tail inward
  have deep : 1 ≤ ({} : Reader).limits.maxDepth := by decide
  refine ⟨⟨collects, deep, unbalanced, nested⟩, ?_, ?_, ?_⟩
  · exact ((read_unbalanced_brackets {} _ _).1 _ _ collects deep _).mpr ⟨unbalanced, rfl⟩
  · exact (read_unbalanced_brackets {} _ _).2.1 nofun
  · exact (read_unbalanced_brackets {} "[[a, [b]], c]" _).2.2 _ nested

end TypedLiteral
