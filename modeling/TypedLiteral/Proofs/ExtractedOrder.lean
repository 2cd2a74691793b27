import TypedLiteral.Extraction
import TypedLiteral.Proofs.InOrder

/-! The order of a target is total on the data of its shape, and what comes out of an extraction
has that shape. So the parts of an extracted set are its distinct elements in ascending order. -/
namespace TypedLiteral

namespace Target

inductive Yields : Target → Extracted → Prop
  | integer {range : IntegerRange} {number : Int} (low : range.least ≤ number)
      (high : number ≤ range.greatest) : Yields (.integer range) (.integer number)
  | single (number : Binary32) : Yields .single (.single number)
  | double (number : Binary64) : Yields .double (.double number)
  | boolean (flag : Bool) : Yields .boolean (.boolean flag)
  | character (c : Char) : Yields .character (.character c)
  | string (content : String) : Yields .string (.string content)
  | ignored : Yields .ignored .ignored
  | option {body : Target} {inner : Extracted} (inside : Yields body inner) :
      Yields (.option body) (.present inner)
  | sequence {element : Target} {parts : List Extracted}
      (each : ∀ part ∈ parts, Yields element part) : Yields (.sequence element) (.sequence parts)
  | set {element : Target} {parts : List Extracted}
      (each : ∀ part ∈ parts, Yields element part) : Yields (.set element) (.set parts)
  | product (kind : Product) {positions : List Target} {parts : List Extracted}
      (each : List.Forall₂ Yields positions parts) :
      Yields (.product kind positions) (.product kind parts)
  | choice {variants : List Variant} {variant : Variant} (declared : variant ∈ variants) :
      Yields (.choice variants) (.choice variant.name)

theorem transCmp_same {α : Type} : Std.TransCmp fun _ _ : α => Ordering.eq where
  eq_swap := rfl
  isLE_trans := fun _ _ => rfl

theorem transCmp_on {α β : Type} (f : α → β) (order : β → β → Ordering) [Std.TransCmp order] :
    Std.TransCmp fun a b => order (f a) (f b) where
  eq_swap := Std.OrientedCmp.eq_swap
  isLE_trans := Std.TransCmp.isLE_trans

mutual

theorem transCmp_order : ∀ target : Target, Std.TransCmp target.order
  | .integer _ | .single | .double | .boolean | .character | .string | .unit | .unitStruct _
  | .ignored | .map | .choice _ => by
    unfold order
    infer_instance
  | .option body | .sequence body | .set body => by
    have := transCmp_order body
    unfold order
    exact transCmp_on Extracted.parts (List.compareLex body.order)
  | .product _ positions => by
    have := transCmp_orderPositions positions
    unfold order
    exact transCmp_on Extracted.parts (orderPositions positions)

theorem transCmp_orderPositions : ∀ positions : List Target, Std.TransCmp (orderPositions positions)
  | [] => by
    unfold orderPositions
    exact transCmp_same
  | position :: positions => by
    have := transCmp_order position
    have := transCmp_orderPositions positions
    have heads := transCmp_on (fun parts : List Extracted => parts.headD .ignored) position.order
    have tails := transCmp_on (List.tail (α := Extracted)) (orderPositions positions)
    unfold orderPositions
    infer_instance

end

theorem eq_of_compareOn_eq {α : Type} [Ord α] [Std.LawfulEqOrd α] {f : Extracted → α}
    {first second : Extracted} (same : compareOn f first second = .eq) : f first = f second :=
  Std.LawfulEqCmp.eq_of_compare same

theorem eq_of_compareLex_eq {order : Extracted → Extracted → Ordering} {fits : Extracted → Prop}
    (agree : ∀ first second, fits first → fits second → order first second = .eq → first = second)
    {firsts seconds : List Extracted} (formers : ∀ part ∈ firsts, fits part)
    (latters : ∀ part ∈ seconds, fits part)
    (same : List.compareLex order firsts seconds = .eq) : firsts = seconds := by
  induction firsts generalizing seconds with
  | nil =>
    cases seconds with
    | nil => rfl
    | cons second seconds => contradiction
  | cons first firsts ih =>
    cases seconds with
    | nil => contradiction
    | cons second seconds =>
      obtain ⟨former, formers⟩ := List.forall_mem_cons.mp formers
      obtain ⟨latter, latters⟩ := List.forall_mem_cons.mp latters
      rw [List.compareLex_cons_cons, Ordering.then_eq_eq] at same
      rw [agree first second former latter same.1, ih formers latters same.2]

theorem declared_findIdx {variants : List Variant} {variant : Variant}
    (declared : variant ∈ variants) :
    variants[variants.findIdx (·.name == variant.name)]?.map Variant.name = some variant.name := by
  have place : variants.findIdx (·.name == variant.name) < variants.length :=
    List.findIdx_lt_length_of_exists ⟨variant, declared, by rw [beq_self_eq_true]⟩
  have named := List.findIdx_getElem (p := fun other : Variant => other.name == variant.name)
    (w := place)
  rw [List.getElem?_eq_getElem place, Option.map_some, eq_of_beq named]

theorem eq_of_findIdx_eq {variants : List Variant} {first second : Variant}
    (declared : first ∈ variants) (other : second ∈ variants)
    (same : variants.findIdx (·.name == first.name) = variants.findIdx (·.name == second.name)) :
    first.name = second.name := by
  have former := declared_findIdx declared
  rw [same, declared_findIdx other] at former
  exact (Option.some.inj former).symm

mutual

theorem Yields.eq_of_order_eq : ∀ (target : Target) {first second : Extracted},
    target.Yields first → target.Yields second → target.order first second = .eq → first = second
  | .integer _, _, _, .integer _ _, .integer _ _, same =>
    congrArg Extracted.integer (eq_of_compareOn_eq same)
  | .single, _, _, .single first, .single second, same => by
    have words : (first.bits.toNat : Int) = second.bits.toNat := eq_of_compareOn_eq same
    exact congrArg (Extracted.single ⟨·⟩) (UInt32.toNat_inj.mp (Int.ofNat_inj.mp words))
  | .double, _, _, .double first, .double second, same => by
    have words : (first.bits.toNat : Int) = second.bits.toNat := eq_of_compareOn_eq same
    exact congrArg (Extracted.double ⟨·⟩) (UInt64.toNat_inj.mp (Int.ofNat_inj.mp words))
  | .boolean, _, _, .boolean first, .boolean second, same => by
    have numbers : (first.toNat : Int) = second.toNat := eq_of_compareOn_eq same
    cases first <;> cases second <;> simp_all
  | .character, _, _, .character first, .character second, same => by
    have numbers : (first.toNat : Int) = second.toNat := eq_of_compareOn_eq same
    exact congrArg Extracted.character (Char.toNat_inj.mp (Int.ofNat_inj.mp numbers))
  | .string, _, _, .string first, .string second, same =>
    congrArg Extracted.string (eq_of_compareOn_eq same)
  | .ignored, _, _, .ignored, .ignored, _ => rfl
  | .option body, _, _, @Yields.option _ first inside, @Yields.option _ second present, same => by
    unfold order at same
    obtain ⟨only, -⟩ := Ordering.then_eq_eq.mp (List.compareLex_cons_cons.symm.trans same)
    rw [eq_of_order_eq body inside present only]
  | .sequence element, _, _, .sequence firsts, .sequence seconds, same => by
    unfold order at same
    have agree := fun first second => @eq_of_order_eq element first second
    exact congrArg Extracted.sequence (eq_of_compareLex_eq agree firsts seconds same)
  | .set element, _, _, .set firsts, .set seconds, same => by
    unfold order at same
    have agree := fun first second => @eq_of_order_eq element first second
    exact congrArg Extracted.set (eq_of_compareLex_eq agree firsts seconds same)
  | .product kind positions, _, _, .product _ firsts, .product _ seconds, same => by
    unfold order at same
    exact congrArg (Extracted.product kind) (eq_of_orderPositions_eq positions firsts seconds same)
  | .choice variants, _, _, .choice first, .choice second, same =>
    congrArg Extracted.choice (eq_of_findIdx_eq first second (eq_of_compareOn_eq same))

theorem Yields.eq_of_orderPositions_eq : ∀ (positions : List Target)
    {firsts seconds : List Extracted}, List.Forall₂ Yields positions firsts →
    List.Forall₂ Yields positions seconds → orderPositions positions firsts seconds = .eq → firsts = seconds
  | [], _, _, .nil, .nil, _ => rfl
  | position :: positions, _, _, .cons first firsts, .cons second seconds, same => by
    unfold orderPositions at same
    obtain ⟨heads, tails⟩ := compareLex_eq_eq.mp same
    rw [eq_of_order_eq position first second heads,
      eq_of_orderPositions_eq positions firsts seconds tails]

end

theorem sorted_mergeSort (order : Extracted → Extracted → Ordering) [Std.TransCmp order]
    (elements : List Extracted) :
    (elements.mergeSort fun first second => (order first second).isLE).Pairwise
      fun first second => (order first second).isLE := by
  apply List.pairwise_mergeSort
  · exact fun _ _ _ => Std.TransCmp.isLE_trans
  · intro first second
    have swapped : order second first = (order first second).swap := Std.OrientedCmp.eq_swap
    rw [swapped]
    cases order first second <;> rfl

theorem dropRepeats_sublist (order : Extracted → Extracted → Ordering) (elements : List Extracted) :
    (Extracted.dropRepeats order elements).Sublist elements := by
  fun_induction Extracted.dropRepeats order elements with
  | case1 => exact .slnil
  | case2 element => exact .refl _
  | case3 element next elements same ih => exact ih.cons element
  | case4 element next elements differs ih => exact ih.cons_cons element

theorem pairwise_dropRepeats {order : Extracted → Extracted → Ordering} [Std.TransCmp order]
    {elements : List Extracted}
    (sorted : elements.Pairwise fun first second => (order first second).isLE) :
    (Extracted.dropRepeats order elements).Pairwise (order · · = .lt) := by
  fun_induction Extracted.dropRepeats order elements with
  | case1 => exact .nil
  | case2 element => exact List.pairwise_singleton _ _
  | case3 element next elements same ih => exact ih sorted.tail
  | case4 element next elements differs ih =>
    refine .cons (fun other member => ?_) (ih sorted.tail)
    have before : order element next = .lt :=
      (Ordering.isLE_iff_eq_lt_or_eq_eq.mp
        (List.rel_of_pairwise_cons sorted List.mem_cons_self)).resolve_right differs
    rcases List.mem_cons.mp ((dropRepeats_sublist order _).subset member) with rfl | later
    · exact before
    · exact Std.TransCmp.lt_of_lt_of_isLE before (List.rel_of_pairwise_cons sorted.tail later)

theorem mem_dropRepeats {target : Target} {elements : List Extracted} {part : Extracted}
    (fits : ∀ element ∈ elements, target.Yields element) :
    part ∈ Extracted.dropRepeats target.order elements ↔ part ∈ elements := by
  fun_induction Extracted.dropRepeats target.order elements with
  | case1 => rfl
  | case2 only => rfl
  | case3 element next elements same ih =>
    obtain ⟨former, later⟩ := List.forall_mem_cons.mp fits
    obtain rfl := Yields.eq_of_order_eq target former (later next List.mem_cons_self) same
    rw [ih later]
    simp
  | case4 element next elements differs ih =>
    obtain ⟨-, later⟩ := List.forall_mem_cons.mp fits
    rw [List.mem_cons, ih later, ← List.mem_cons]

theorem pairwise_ascending (target : Target) (elements : List Extracted) :
    (target.ascending elements).Pairwise (target.order · · = .lt) := by
  have := transCmp_order target
  exact pairwise_dropRepeats (sorted_mergeSort target.order elements)

theorem mem_ascending {target : Target} {elements : List Extracted} {part : Extracted}
    (fits : ∀ element ∈ elements, target.Yields element) :
    part ∈ target.ascending elements ↔ part ∈ elements := by
  refine (mem_dropRepeats fun element member => ?_).trans List.mem_mergeSort
  exact fits element (List.mem_mergeSort.mp member)

theorem extract_sequence (element : Target) (form : Form) (elements : List Value) :
    (sequence element).extract (.collection form elements) =
      (elements.mapM element.extract).map .sequence := by
  unfold extract
  rfl

theorem extract_set (element : Target) (form : Form) (elements : List Value) :
    (set element).extract (.collection form elements) =
      (elements.mapM element.extract).map fun parts => .set (element.ascending parts) := by
  unfold extract
  rfl

theorem extract_product (kind : Product) (positions : List Target) (form : Form)
    (elements : List Value) :
    (product kind positions).extract (.collection form elements) =
      (extractPositions (kind.fullDescription positions.length) positions 0 elements).map
        (.product kind) := by
  unfold extract
  rfl

theorem extractInteger_yields {range : IntegerRange} {content : Content} {result : Extracted}
    (extracted : extractInteger range content = .ok result) : (integer range).Yields result := by
  cases content with
  | integer number =>
    simp only [extractInteger] at extracted
    split at extracted
    · rename_i within
      cases extracted
      exact .integer within.1 within.2
    · contradiction
  | _ => contradiction

theorem extractCharacter_yields {content : Content} {result : Extracted}
    (extracted : extractCharacter content = .ok result) : character.Yields result := by
  cases content with
  | text content =>
    simp only [extractCharacter] at extracted
    split at extracted
    · cases extracted
      exact .character _
    · contradiction
  | _ => contradiction

theorem extractChoice_yields {variants : List Variant} {value : Value} {result : Extracted}
    (extracted : extractChoice variants value = .ok result) : (choice variants).Yields result := by
  unfold extractChoice at extracted
  split at extracted
  · rename_i name _
    unfold extractVariant at extracted
    split at extracted
    · contradiction
    · rename_i variant found
      have named := List.find?_some found
      split at extracted
      · cases extracted
        obtain rfl := eq_of_beq named
        exact .choice (List.mem_of_find?_eq_some found)
      · contradiction
  · contradiction

mutual

theorem extract_yields : ∀ (target : Target) {value : Value} {result : Extracted},
    target.extract value = .ok result → target.Yields result
  | .integer _, _, _, extracted => extractInteger_yields extracted
  | .single, value, _, extracted => by
    unfold extract at extracted
    cases value <;> cases extracted <;> exact .single _
  | .double, value, _, extracted => by
    unfold extract at extracted
    cases value <;> cases extracted <;> exact .double _
  | .boolean, value, _, extracted => by
    unfold extract at extracted
    cases value <;> cases extracted
    exact .boolean _
  | .character, _, _, extracted => extractCharacter_yields extracted
  | .string, value, _, extracted => by
    unfold extract at extracted
    cases value <;> cases extracted <;> exact .string _
  | .ignored, _, _, rfl => .ignored
  | .choice _, _, _, extracted => extractChoice_yields extracted
  | .option body, value, _, extracted => by
    unfold extract at extracted
    obtain ⟨inner, inside, rfl⟩ := map_eq_ok_iff.mp extracted
    exact .option (extract_yields body inside)
  | .sequence element, .collection form elements, _, extracted => by
    rw [extract_sequence] at extracted
    obtain ⟨parts, each, rfl⟩ := map_eq_ok_iff.mp extracted
    exact .sequence (forall_mem_of_forall₂ ((mapM_eq_ok_iff.mp each).imp fun _ _ read =>
      extract_yields element read))
  | .set element, .collection form elements, _, extracted => by
    rw [extract_set] at extracted
    obtain ⟨parts, each, rfl⟩ := map_eq_ok_iff.mp extracted
    have fits := forall_mem_of_forall₂ ((mapM_eq_ok_iff.mp each).imp fun _ _ read =>
      extract_yields element read)
    exact .set fun part member => fits part ((mem_ascending fits).mp member)
  | .product kind positions, .collection form elements, _, extracted => by
    rw [extract_product] at extracted
    obtain ⟨parts, each, rfl⟩ := map_eq_ok_iff.mp extracted
    exact .product kind (extractPositions_yields positions each)

theorem extractPositions_yields : ∀ (positions : List Target) {expected : String} {taken : Nat}
    {elements : List Value} {parts : List Extracted},
    extractPositions expected positions taken elements = .ok parts →
    List.Forall₂ Yields positions parts
  | [], _, _, _, _, rfl => .nil
  | position :: positions, _, _, element :: elements, _, extracted => by
    unfold extractPositions at extracted
    obtain ⟨part, head, rest⟩ := bind_eq_ok_iff.mp extracted
    obtain ⟨parts, tail, whole⟩ := bind_eq_ok_iff.mp rest
    cases whole
    exact .cons (extract_yields position head) (extractPositions_yields positions tail)

end

end Target
end TypedLiteral
