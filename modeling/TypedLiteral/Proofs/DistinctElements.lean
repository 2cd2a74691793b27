import Mathlib.Data.List.Pairwise
import TypedLiteral.Proofs.Sameness

/-! The elements of a set. Filing the elements by fingerprint loses no rival, because the same
values have the same fingerprint, so a set keeps those elements that are new after all elements kept
in front of them. They stay in order, and they are apart. -/
namespace TypedLiteral.Value

def New (later earlier : Value) : Prop := later.same earlier = false

instance : DecidableRel New := fun later earlier =>
  inferInstanceAs (Decidable (later.same earlier = false))

/-- The values kept are filed under their fingerprints, and nothing else is. -/
def Kept.Filed (kept : Kept) : Prop :=
  ∀ key, kept.byFingerprint.getD key [] =
    kept.values.filter fun value => value.fingerprint = key

namespace Kept

variable {kept : Kept}

theorem Filed.rivals (filed : kept.Filed) (value : Value) :
    (kept.byFingerprint.getD value.fingerprint []).any value.same = false ↔
      ∀ earlier ∈ kept.values, New value earlier := by
  rw [filed, List.any_eq_false]
  constructor
  · intro differ earlier member
    by_contra same
    have alike : value.same earlier = true := by simpa [New] using same
    have listed : earlier ∈ kept.values.filter fun other => other.fingerprint = value.fingerprint := by
      simp [member, fingerprint_eq_of_same alike]
    exact differ earlier listed alike
  · intro differ rival member same
    have new := differ rival (List.mem_of_mem_filter member)
    rw [New, same] at new
    contradiction

theorem Filed.add_values (filed : kept.Filed) (value : Value) :
    (kept.add value).values =
      if ∀ earlier ∈ kept.values, New value earlier then value :: kept.values
      else kept.values := by
  simp only [← filed.rivals]
  unfold Kept.add
  dsimp only
  split <;> simp_all

theorem Filed.add (filed : kept.Filed) (value : Value) : (kept.add value).Filed := by
  unfold Kept.add
  dsimp only
  split
  · exact filed
  · intro key
    rw [Std.TreeMap.getD_insert, filed, filed]
    by_cases same : value.fingerprint = key
    · simp [same]
    · simp [same]

theorem Filed.foldl_add (filed : kept.Filed) {seen : List Value}
    (same : kept.values = seen.pwFilter New) (values : List Value) :
    (values.foldl Kept.add kept).values = (values.reverse ++ seen).pwFilter New := by
  induction values generalizing kept seen with
  | nil => exact same
  | cons value values ih =>
    have grown : (kept.add value).values = (value :: seen).pwFilter New := by
      rw [filed.add_values, same]
      split
      · rename_i new
        exact (List.pwFilter_cons_of_pos new).symm
      · rename_i known
        exact (List.pwFilter_cons_of_neg known).symm
    rw [List.foldl_cons, ih (filed.add value) grown, List.reverse_cons, List.append_assoc]
    rfl

end Kept

theorem distinct_eq (values : List Value) :
    distinct values = (values.reverse.pwFilter New).reverse := by
  have filed : Kept.Filed ⟨[], ∅⟩ := by
    intro key
    simp
  rw [distinct, filed.foldl_add List.pwFilter_nil.symm, List.append_nil]

theorem distinct_sublist (values : List Value) : (distinct values).Sublist values := by
  rw [distinct_eq, ← List.reverse_sublist, List.reverse_reverse]
  exact List.pwFilter_sublist _

theorem allDiffer_distinct (values : List Value) : AllDiffer (distinct values) := by
  rw [distinct_eq, AllDiffer, List.pairwise_reverse]
  exact List.pairwise_pwFilter _

theorem distinct_of_allDiffer {values : List Value} (differ : AllDiffer values) :
    distinct values = values := by
  have new : values.reverse.Pairwise New := List.pairwise_reverse.mpr differ
  rw [distinct_eq, List.pwFilter_eq_self.mpr new, List.reverse_reverse]

theorem apart_distinct {values : List Value} (proper : ∀ value ∈ values, value.Proper) :
    Apart (distinct values) := by
  refine apart_of_allDiffer (fun value kept => ?_) (allDiffer_distinct values)
  exact proper value ((distinct_sublist values).subset kept)

end TypedLiteral.Value
