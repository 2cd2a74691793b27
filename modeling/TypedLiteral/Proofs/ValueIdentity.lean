import Mathlib.Data.List.Forall2
import TypedLiteral.Failure
import TypedLiteral.Value.Equality

/-! Identity of values, which can be decided, and its place under sameness: every value is the same
as itself. -/
namespace TypedLiteral.Value

mutual

/-- Equal as data. Other than `same`, it pays attention to the order inside of sets. -/
def identical : Value → Value → Bool
  | .text a, .text b => a == b
  | .int a, .int b => a == b
  | .long a, .long b => a == b
  | .bool a, .bool b => a == b
  | .double a, .double b => a == b
  | .member t a, .member u b => t == u && a == b
  | .collection f xs, .collection g ys => f == g && identicalAll xs ys
  | _, _ => false

def identicalAll : List Value → List Value → Bool
  | [], [] => true
  | x :: xs, y :: ys => identical x y && identicalAll xs ys
  | _, _ => false

end

mutual

theorem identical_iff : ∀ a b : Value, identical a b = true ↔ a = b
  | .text _, b => by cases b <;> simp [identical]
  | .int _, b => by cases b <;> simp [identical]
  | .long _, b => by cases b <;> simp [identical]
  | .bool _, b => by cases b <;> simp [identical]
  | .double _, b => by cases b <;> simp [identical]
  | .member _ _, b => by cases b <;> simp [identical]
  | .collection _ xs, b => by cases b <;> simp [identical, identicalAll_iff xs]

theorem identicalAll_iff : ∀ xs ys : List Value, identicalAll xs ys = true ↔ xs = ys
  | [], ys => by cases ys <;> simp [identicalAll]
  | x :: xs, ys => by cases ys <;> simp [identicalAll, identical_iff x, identicalAll_iff xs]

end

instance : DecidableEq Value := fun a b => decidable_of_iff _ (identical_iff a b)

mutual

theorem same_refl : ∀ value : Value, same value value = true
  | .text _ | .int _ | .long _ | .bool _ | .double _ => by simp [same]
  | .member _ _ => by simp [same]
  | .collection .list elements => by simpa [same] using sameElements_refl elements
  | .collection .array elements => by simpa [same] using sameElements_refl elements
  | .collection .set elements => by simpa [same] using included_of_subset elements elements (by simp)

theorem sameElements_refl : ∀ elements : List Value, sameElements elements elements = true
  | [] => rfl
  | x :: xs => by simp [sameElements, same_refl x, sameElements_refl xs]

theorem included_of_subset : ∀ (xs ys : List Value), (∀ x ∈ xs, x ∈ ys) → included xs ys = true
  | [], _, _ => rfl
  | x :: xs, ys, within => by
    have head : ys.any (same x) = true :=
      List.any_eq_true.mpr ⟨x, within x List.mem_cons_self, same_refl x⟩
    have tail := included_of_subset xs ys fun y later => within y (List.mem_cons_of_mem x later)
    simp [included, head, tail]

end

/-- No element is the same as one in front of it. -/
def AllDiffer (elements : List Value) : Prop :=
  elements.Pairwise fun earlier later => later.same earlier = false

end TypedLiteral.Value
