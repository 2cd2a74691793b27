import TypedLiteral.Proofs.InOrder
import TypedLiteral.Proofs.ValueIdentity

/-! Sameness as a relation between values. It is transitive, and the same values have the same
fingerprint. Two sets of one size are the same when every element of the first one is found in the
second one; that this can be turned around rests on the elements of the first one being apart. -/
namespace TypedLiteral.Value

@[elab_as_elim]
theorem induction_on_elements {holds : Value → Prop}
    (scalar : ∀ value, value.elements? = none → holds value)
    (collection : ∀ form elements, (∀ part ∈ elements, holds part) →
      holds (.collection form elements)) : ∀ value, holds value
  | .text _ | .int _ | .long _ | .bool _ | .double _ | .member _ _ => scalar _ rfl
  | .collection form elements =>
    collection form elements fun part _ => induction_on_elements scalar collection part

theorem same_scalar_iff {first second : Value} (scalar : first.elements? = none) :
    first.same second = true ↔ first = second := by
  cases first <;> cases second <;> simp_all [same, elements?]

theorem sameElements_iff {firsts seconds : List Value} :
    sameElements firsts seconds = true ↔
      List.Forall₂ (fun first second => first.same second = true) firsts seconds := by
  induction firsts generalizing seconds with
  | nil => cases seconds <;> simp [sameElements]
  | cons first firsts ih => cases seconds <;> simp [sameElements, ih]

theorem included_iff {firsts seconds : List Value} :
    included firsts seconds = true ↔
      ∀ first ∈ firsts, ∃ second ∈ seconds, first.same second = true := by
  induction firsts with
  | nil => simp [included]
  | cons first firsts ih => simp [included, ih]

/-- How the elements of two collections of one form compare when the collections are the same. -/
def Agree (form : Form) (firsts seconds : List Value) : Prop :=
  match form with
  | .set => firsts.length = seconds.length ∧
      ∀ first ∈ firsts, ∃ second ∈ seconds, first.same second = true
  | .list | .array => List.Forall₂ (fun first second => first.same second = true) firsts seconds

theorem same_collection_iff {form : Form} {firsts : List Value} {value : Value} :
    same (.collection form firsts) value = true ↔
      ∃ seconds, value = .collection form seconds ∧ Agree form firsts seconds := by
  cases value with
  | collection other seconds =>
    cases form <;> cases other <;> simp [same, Agree, sameElements_iff, included_iff]
  | _ => cases form <;> simp [same]

private theorem inOrder_trans {firsts seconds thirds : List Value}
    (each : ∀ first ∈ firsts, ∀ second third : Value, first.same second = true →
      second.same third = true → first.same third = true)
    (front : List.Forall₂ (fun first second => first.same second = true) firsts seconds)
    (back : List.Forall₂ (fun second third => second.same third = true) seconds thirds) :
    List.Forall₂ (fun first third => first.same third = true) firsts thirds := by
  induction front generalizing thirds with
  | nil => exact back
  | cons head tail ih =>
    obtain ⟨third, thirds, next, rest, rfl⟩ := List.forall₂_cons_left_iff.mp back
    obtain ⟨atHead, later⟩ := List.forall_mem_cons.mp each
    exact .cons (atHead _ _ head next) (ih later rest)

theorem same_trans {first second third : Value} (front : first.same second = true)
    (back : second.same third = true) : first.same third = true := by
  induction first using induction_on_elements generalizing second third with
  | scalar first scalar =>
    obtain rfl := (same_scalar_iff scalar).mp front
    exact back
  | collection form firsts ih =>
    obtain ⟨seconds, rfl, agree⟩ := same_collection_iff.mp front
    obtain ⟨thirds, rfl, further⟩ := same_collection_iff.mp back
    have each : ∀ first ∈ firsts, ∀ second third : Value, first.same second = true →
        second.same third = true → first.same third = true :=
      fun first member second third => ih first member
    refine same_collection_iff.mpr ⟨thirds, rfl, ?_⟩
    cases form with
    | list => exact inOrder_trans each agree further
    | array => exact inOrder_trans each agree further
    | set =>
      refine ⟨agree.1.trans further.1, fun first member => ?_⟩
      obtain ⟨second, inside, same⟩ := agree.2 first member
      obtain ⟨third, within, next⟩ := further.2 second inside
      exact ⟨third, within, each first member second third same next⟩

private theorem fingerprintAll_eq {firsts seconds : List Value}
    (each : ∀ first ∈ firsts, ∀ second : Value, first.same second = true →
      first.fingerprint = second.fingerprint)
    (same : List.Forall₂ (fun first second => first.same second = true) firsts seconds)
    (start : UInt64) : fingerprintAll start firsts = fingerprintAll start seconds := by
  induction same generalizing start with
  | nil => rfl
  | cons head tail ih =>
    obtain ⟨atHead, later⟩ := List.forall_mem_cons.mp each
    rw [fingerprintAll, fingerprintAll, atHead _ head, ih later]

theorem fingerprint_eq_of_same {first second : Value} (same : first.same second = true) :
    first.fingerprint = second.fingerprint := by
  induction first using induction_on_elements generalizing second with
  | scalar first scalar => rw [(same_scalar_iff scalar).mp same]
  | collection form firsts ih =>
    obtain ⟨seconds, rfl, agree⟩ := same_collection_iff.mp same
    have each : ∀ first ∈ firsts, ∀ second : Value, first.same second = true →
        first.fingerprint = second.fingerprint :=
      fun first member second => ih first member
    cases form with
    | list => exact fingerprintAll_eq each agree 9
    | array => exact fingerprintAll_eq each agree 10
    | set => rw [fingerprint, fingerprint, agree.1]

/-- No two elements are the same, whichever of them is compared with the other. -/
def Apart (elements : List Value) : Prop :=
  elements.Pairwise fun first second => first.same second = false ∧ second.same first = false

/-- The elements of every set in the value, at any depth, are apart. -/
inductive Proper : Value → Prop
  | scalar {value} (scalar : value.elements? = none) : Proper value
  | collection {form elements} (each : ∀ part ∈ elements, Proper part)
      (apart : form = .set → Apart elements) : Proper (.collection form elements)

/-- Where no two items lead to one and the same image, images that are no more than the items can
be put in the order of the items that lead to them. -/
theorem exists_perm_of_matches {α β : Type} {leads : α → β → Prop} {items : List α}
    {images : List β} (few : images.length ≤ items.length)
    (apart : items.Pairwise fun first second => ∀ image, leads first image → ¬leads second image)
    (each : ∀ item ∈ items, ∃ image ∈ images, leads item image) :
    ∃ ordered, ordered.Perm images ∧ List.Forall₂ leads items ordered := by
  induction items generalizing images with
  | nil =>
    obtain rfl := List.length_eq_zero_iff.mp (Nat.le_zero.mp few)
    exact ⟨[], .nil, .nil⟩
  | cons item items ih =>
    obtain ⟨fromHead, apart⟩ := List.pairwise_cons.mp apart
    obtain ⟨⟨own, inside, leadsOwn⟩, later⟩ := List.forall_mem_cons.mp each
    obtain ⟨before, after, rfl⟩ := List.append_of_mem inside
    -- The other items lead elsewhere, so the image of the first one can be left out.
    have others : ∀ other ∈ items, ∃ image ∈ before ++ after, leads other image := by
      intro other member
      obtain ⟨image, within, leadsOther⟩ := later other member
      have different : image ≠ own := by
        rintro rfl
        exact fromHead other member image leadsOwn leadsOther
      exact ⟨image, by simp_all, leadsOther⟩
    have fewer : (before ++ after).length ≤ items.length := by
      simp at few ⊢
      omega
    obtain ⟨ordered, order, pairs⟩ := ih fewer apart others
    exact ⟨own :: ordered, (order.cons own).trans List.perm_middle.symm, .cons leadsOwn pairs⟩

/-- The elements of a set pair up with what is found for them, as no two find the same. -/
theorem Apart.exists_perm {firsts seconds : List Value} (apart : Apart firsts)
    (each : ∀ first ∈ firsts, ∀ second : Value, first.same second = true →
      second.same first = true)
    (sizes : firsts.length = seconds.length)
    (found : ∀ first ∈ firsts, ∃ second ∈ seconds, first.same second = true) :
    ∃ ordered, ordered.Perm seconds ∧
      List.Forall₂ (fun first second => first.same second = true) firsts ordered := by
  refine exists_perm_of_matches (Nat.le_of_eq sizes.symm) (apart.imp_of_mem ?_) found
  intro first other _ member differ second left right
  have joined := same_trans left (each other member second right)
  rw [differ.1] at joined
  contradiction

private theorem found_symm {firsts seconds : List Value}
    (each : ∀ first ∈ firsts, ∀ second : Value, first.same second = true →
      second.same first = true)
    (apart : Apart firsts) (sizes : firsts.length = seconds.length)
    (found : ∀ first ∈ firsts, ∃ second ∈ seconds, first.same second = true) :
    ∀ second ∈ seconds, ∃ first ∈ firsts, second.same first = true := by
  intro second member
  obtain ⟨ordered, order, pairs⟩ := apart.exists_perm each sizes found
  obtain ⟨first, listed, same⟩ := exists_mem_of_forall₂ pairs (order.mem_iff.mpr member)
  exact ⟨first, listed, each first listed second same⟩

theorem Proper.same_symm {first second : Value} (proper : first.Proper)
    (same : first.same second = true) : second.same first = true := by
  induction proper generalizing second with
  | scalar scalar =>
    obtain rfl := (same_scalar_iff scalar).mp same
    exact same
  | @collection form firsts _ apart ih =>
    obtain ⟨seconds, rfl, agree⟩ := same_collection_iff.mp same
    have each : ∀ first ∈ firsts, ∀ second : Value, first.same second = true →
        second.same first = true :=
      fun first member second => ih first member
    refine same_collection_iff.mpr ⟨firsts, rfl, ?_⟩
    cases form with
    | list => exact (forall₂_imp_of_mem each agree).flip
    | array => exact (forall₂_imp_of_mem each agree).flip
    | set => exact ⟨agree.1.symm, found_symm each (apart rfl) agree.1 agree.2⟩

theorem apart_of_allDiffer {elements : List Value} (proper : ∀ part ∈ elements, part.Proper)
    (differ : AllDiffer elements) : Apart elements := by
  refine List.Pairwise.imp_of_mem ?_ differ
  intro earlier later member _ other
  refine ⟨?_, other⟩
  cases same : earlier.same later with
  | false => rfl
  | true =>
    have turned := (proper earlier member).same_symm same
    rw [other] at turned
    contradiction

end TypedLiteral.Value
