import TypedLiteral.Proofs.Sameness

/-! Sameness as an equivalence. It never joins values of different kinds, and it compares lists and
arrays in order. Two sets are the same when each has all elements of the other, which makes the same
values those that differ in the order inside of sets, at whatever depth the sets lie. -/
namespace TypedLiteral.Value

inductive Kind
  | text
  | int
  | long
  | bool
  | double
  | member
  | collection (form : Form)
deriving DecidableEq

def kind : Value → Kind
  | .text _ => .text
  | .int _ => .int
  | .long _ => .long
  | .bool _ => .bool
  | .double _ => .double
  | .member _ _ => .member
  | .collection form _ => .collection form

theorem kind_eq_of_same {first second : Value} (same : first.same second = true) :
    first.kind = second.kind := by
  induction first using induction_on_elements with
  | scalar first scalar => rw [(same_scalar_iff scalar).mp same]
  | collection form firsts _ =>
    obtain ⟨seconds, rfl, -⟩ := same_collection_iff.mp same
    rfl

theorem agree_iff {form : Form} {firsts seconds : List Value} :
    same (.collection form firsts) (.collection form seconds) = true ↔
      Agree form firsts seconds := by
  simp [same_collection_iff]

/-- That the elements of the first set are found in the second one can be turned around. -/
theorem same_set_iff {firsts seconds : List Value}
    (proper : Proper (.collection .set firsts)) :
    same (.collection .set firsts) (.collection .set seconds) = true ↔
      firsts.length = seconds.length ∧
        (∀ first ∈ firsts, ∃ second ∈ seconds, first.same second = true) ∧
        ∀ second ∈ seconds, ∃ first ∈ firsts, second.same first = true := by
  constructor
  · intro same
    obtain ⟨sizes, forth⟩ := agree_iff.mp same
    exact ⟨sizes, forth, (agree_iff.mp (proper.same_symm same)).2⟩
  · intro both
    obtain ⟨sizes, forth, -⟩ := both
    exact agree_iff.mpr ⟨sizes, forth⟩

/-- Nothing but the order inside of sets is different, at whatever depth they lie. -/
inductive Rearranged : Value → Value → Prop
  | scalar {value} (scalar : value.elements? = none) : Rearranged value value
  | collection {form firsts ordered seconds} (each : List.Forall₂ Rearranged firsts ordered)
      (order : ordered.Perm seconds) (kept : form ≠ .set → ordered = seconds) :
      Rearranged (.collection form firsts) (.collection form seconds)

theorem Rearranged.same {first second : Value} (rearranged : first.Rearranged second) :
    first.same second = true := by
  induction first using induction_on_elements generalizing second with
  | scalar first scalar =>
    cases rearranged with
    | scalar _ => exact same_refl _
    | collection each order kept => contradiction
  | collection form firsts ih =>
    cases rearranged with
    | scalar scalar => contradiction
    | @collection _ _ ordered seconds each order kept =>
      have pairs : List.Forall₂ (fun first second => first.same second = true) firsts ordered :=
        forall₂_imp_of_mem (fun first member _ => ih first member) each
      refine agree_iff.mpr ?_
      cases form with
      | list => exact kept (by simp) ▸ pairs
      | array => exact kept (by simp) ▸ pairs
      | set =>
        refine ⟨pairs.length_eq.trans order.length_eq, fun first member => ?_⟩
        obtain ⟨second, inside, same⟩ := exists_mem_of_forall₂ pairs.flip member
        exact ⟨second, order.mem_iff.mp inside, same⟩

theorem Proper.rearranged {first second : Value} (proper : first.Proper)
    (same : first.same second = true) : first.Rearranged second := by
  induction proper generalizing second with
  | scalar scalar =>
    obtain rfl := (same_scalar_iff scalar).mp same
    exact .scalar scalar
  | @collection form firsts each apart ih =>
    obtain ⟨seconds, rfl, agree⟩ := same_collection_iff.mp same
    have further {others : List Value}
        (pairs : List.Forall₂ (fun first second => first.same second = true) firsts others) :
        List.Forall₂ Rearranged firsts others :=
      forall₂_imp_of_mem (fun first member _ => ih first member) pairs
    cases form with
    | list => exact .collection (further agree) (.refl seconds) fun _ => rfl
    | array => exact .collection (further agree) (.refl seconds) fun _ => rfl
    | set =>
      obtain ⟨ordered, order, pairs⟩ := (apart rfl).exists_perm
        (fun first member second => (each first member).same_symm) agree.1 agree.2
      exact .collection (further pairs) order fun other => (other rfl).elim

/-- Among values whose sets hold nothing twice, sameness is an equivalence that respects the order
of lists and arrays and disregards that of sets. -/
theorem same_equivalence :
    Equivalence (fun first second : {value : Value // value.Proper} =>
      first.val.same second.val = true) ∧
    (∀ firsts seconds, Proper (.collection .set firsts) → Proper (.collection .set seconds) →
      (same (.collection .set firsts) (.collection .set seconds) = true ↔
        firsts.length = seconds.length ∧
          (∀ first ∈ firsts, ∃ second ∈ seconds, first.same second = true) ∧
          ∀ second ∈ seconds, ∃ first ∈ firsts, second.same first = true)) ∧
    (∀ first second : Value, first.Proper → second.Proper →
      (first.same second = true ↔ first.Rearranged second)) ∧
    (∀ form firsts seconds, form ≠ .set →
      (same (.collection form firsts) (.collection form seconds) = true ↔
        List.Forall₂ (fun first second => first.same second = true) firsts seconds)) ∧
    ∀ first second : Value, first.kind ≠ second.kind → first.same second = false := by
  refine ⟨⟨fun value => same_refl value.val, fun {first _} => first.property.same_symm, same_trans⟩,
    fun firsts seconds proper _ => same_set_iff proper,
    fun first second proper _ => ⟨proper.rearranged, Rearranged.same⟩, ?_, ?_⟩
  · intro form firsts seconds ordered
    rw [agree_iff]
    cases form with
    | list => rfl
    | array => rfl
    | set => contradiction
  · intro first second differ
    by_contra joined
    exact differ (kind_eq_of_same (by simpa using joined))

theorem same_equivalence_nested :
    let pair (first second : Int32) : Value := .collection .set [.int first, .int second]
    let noNumber : Value := .double ⟨0x7FF8000000000000⟩
    let first : Value := .collection .set [.collection .list [pair 1 2], noNumber]
    let second : Value := .collection .set [noNumber, .collection .list [pair 2 1]]
    (first.Proper ∧ second.Proper ∧ first ≠ second ∧ noNumber.kind ≠ (pair 1 2).kind) ∧
    first.same second = true ∧ second.same first = true ∧ noNumber.same noNumber = true ∧
      noNumber.same (pair 1 2) = false := by
  intro pair noNumber first second
  have scalar : noNumber.Proper := .scalar rfl
  have whole (number : Int32) : (Value.int number).Proper := .scalar rfl
  have listed (a b : Int32) (apart : Apart [.int a, .int b]) :
      Proper (.collection .list [pair a b]) := by
    have inside : (pair a b).Proper := .collection (by simp [whole]) fun _ => apart
    exact .collection (by simp [inside]) (by simp)
  have former : first.Proper :=
    .collection (by simp [scalar, listed 1 2 (List.pairwise_pair.mpr (by decide))])
      fun _ => List.pairwise_pair.mpr (by decide)
  have latter : second.Proper :=
    .collection (by simp [scalar, listed 2 1 (List.pairwise_pair.mpr (by decide))])
      fun _ => List.pairwise_pair.mpr (by decide)
  have other : noNumber.kind ≠ (pair 1 2).kind := by decide
  obtain ⟨equivalence, -, rearranged, -, kinds⟩ := same_equivalence
  have turned : (pair 1 2).Rearranged (pair 2 1) :=
    .collection (.cons (.scalar rfl) (.cons (.scalar rfl) .nil)) (.swap _ _ _) (by simp)
  have joined : first.same second = true := by
    refine (rearranged first second former latter).mpr (.collection (.cons ?_ (.cons ?_ .nil))
      (.swap _ _ _) (by simp))
    · exact .collection (.cons turned .nil) (.refl _) fun _ => rfl
    · exact .scalar rfl
  exact ⟨⟨former, latter, by decide, other⟩, joined,
    equivalence.symm (x := ⟨first, former⟩) (y := ⟨second, latter⟩) joined,
    equivalence.refl ⟨noNumber, scalar⟩, kinds noNumber (pair 1 2) other⟩

end TypedLiteral.Value
