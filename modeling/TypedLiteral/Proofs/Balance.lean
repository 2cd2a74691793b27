import TypedLiteral.Literal.Brackets
import TypedLiteral.Proofs.Trimming

/-! Balance without a counter. A text is balanced when no beginning of it closes more brackets than
it opens and the whole closes as many as it opens. The depth counter, the group finder and the
removal of an enclosing pair are all characterised by it. -/
namespace TypedLiteral.Literal

structure Balanced (text : List Char) : Prop where
  covered : ∀ before, before <+: text → before.count ']' ≤ before.count '['
  closed : text.count ']' = text.count '['

def IsBracket (c : Char) : Prop := c = '[' ∨ c = ']'

instance (c : Char) : Decidable (IsBracket c) := inferInstanceAs (Decidable (_ ∨ _))

def bracketed (inner : List Char) : List Char := '[' :: (inner ++ [']'])

private theorem forall_prefix_cons {c : Char} {text : List Char} {holds : List Char → Prop} :
    (∀ before, before <+: c :: text → holds before) ↔
      holds [] ∧ ∀ before, before <+: text → holds (c :: before) := by
  simp only [List.prefix_cons_iff, forall_eq_or_imp]
  refine and_congr_right fun _ => ⟨fun all before inside => all _ ⟨before, rfl, inside⟩, ?_⟩
  rintro all _ ⟨before, rfl, inside⟩
  exact all before inside

theorem depthAfter?_eq_some_iff {depth last : Nat} {text : List Char} :
    depthAfter? depth text = some last ↔
      (∀ before, before <+: text → before.count ']' ≤ depth + before.count '[') ∧
        last + text.count ']' = depth + text.count '[' := by
  fun_induction depthAfter? depth text with
  | case1 depth => simp [eq_comm]
  | case2 depth text ih =>
    have other : '[' ≠ ']' := by decide
    rw [ih, forall_prefix_cons]
    simp only [List.count_cons_self, List.count_cons_of_ne other, List.count_nil]
    grind
  | case3 text =>
    rw [forall_prefix_cons]
    constructor
    · simp
    · intro known
      obtain ⟨⟨-, covered⟩, -⟩ := known
      have single := covered [] List.nil_prefix
      simp at single
  | case4 depth text ih =>
    have other : ']' ≠ '[' := by decide
    rw [ih, forall_prefix_cons]
    simp only [List.count_cons_self, List.count_cons_of_ne other, List.count_nil]
    grind
  | case5 depth c text notOpening notClosing notDeeper ih =>
    have opens : c ≠ '[' := notOpening
    have closes : c ≠ ']' := by
      cases depth with
      | zero => exact notClosing rfl
      | succ depth => exact notDeeper depth rfl
    rw [ih, forall_prefix_cons]
    simp [List.count_cons_of_ne opens, List.count_cons_of_ne closes]

theorem balanced_iff_depth {text : List Char} : Balanced text ↔ depthAfter? 0 text = some 0 := by
  rw [depthAfter?_eq_some_iff]
  simp only [Nat.zero_add]
  exact ⟨fun balanced => ⟨balanced.covered, balanced.closed⟩, fun h => ⟨h.1, h.2⟩⟩

theorem isBalanced_iff {text : List Char} : isBalanced text = true ↔ Balanced text := by
  rw [balanced_iff_depth, isBalanced, beq_iff_eq]

theorem depthAfter?_other {depth : Nat} {c : Char} {text : List Char} (plain : ¬IsBracket c) :
    depthAfter? depth (c :: text) = depthAfter? depth text := by
  rw [depthAfter?]
  · exact fun opening => plain (Or.inl opening)
  · exact fun _ closing => plain (Or.inr closing)
  · exact fun _ _ closing => plain (Or.inr closing)

theorem depthAfter?_append (depth : Nat) (front back : List Char) :
    depthAfter? depth (front ++ back) = (depthAfter? depth front).bind (depthAfter? · back) := by
  fun_induction depthAfter? depth front with
  | case1 depth => rfl
  | case2 depth text ih => simpa [depthAfter?] using ih
  | case3 text => simp [depthAfter?]
  | case4 depth text ih => simpa [depthAfter?] using ih
  | case5 depth c text notOpening notClosing notDeeper ih =>
    rw [List.cons_append, depthAfter?]
    · exact ih
    all_goals assumption

theorem depthAfter?_raise {depth last : Nat} {text : List Char} (extra : Nat)
    (nested : depthAfter? depth text = some last) :
    depthAfter? (depth + extra) text = some (last + extra) := by
  rw [depthAfter?_eq_some_iff] at nested ⊢
  obtain ⟨covered, counts⟩ := nested
  refine ⟨fun before inside => ?_, by omega⟩
  have enough := covered before inside
  omega

theorem Balanced.depth {text : List Char} (balanced : Balanced text) (depth : Nat) :
    depthAfter? depth text = some depth := by
  simpa using depthAfter?_raise depth (balanced_iff_depth.mp balanced)

theorem Balanced.append {front back : List Char} (first : Balanced front)
    (second : Balanced back) : Balanced (front ++ back) := by
  rw [balanced_iff_depth, depthAfter?_append, first.depth]
  exact second.depth 0

theorem Balanced.of_append {front back : List Char} (first : Balanced front)
    (whole : Balanced (front ++ back)) : Balanced back := by
  rw [balanced_iff_depth, depthAfter?_append, first.depth] at whole
  exact balanced_iff_depth.mpr whole

theorem Balanced.bracketed {inner : List Char} (balanced : Balanced inner) :
    Balanced (bracketed inner) := by
  rw [balanced_iff_depth, Literal.bracketed, depthAfter?, depthAfter?_append, balanced.depth]
  rfl

theorem balanced_plain {text : List Char} (plain : ∀ c ∈ text, ¬IsBracket c) :
    Balanced text := by
  have opens : text.count '[' = 0 := List.count_eq_zero.mpr fun member => plain _ member (Or.inl rfl)
  have closes : text.count ']' = 0 := List.count_eq_zero.mpr fun member => plain _ member (Or.inr rfl)
  refine ⟨fun before inside => ?_, by omega⟩
  have fewer := inside.sublist.count_le ']'
  omega

theorem not_isBracket_of_blank {c : Char} (blank : Text.isBlank c) : ¬IsBracket c := by
  rintro (rfl | rfl) <;> simp [Text.isBlank] at blank

theorem balanced_trim_iff {text : List Char} : Balanced (Text.trim text) ↔ Balanced text := by
  obtain ⟨before, after, parts, blankBefore, blankAfter⟩ := Text.trim_parts text
  have front : Balanced before :=
    balanced_plain fun c member => not_isBracket_of_blank (blankBefore c member)
  have back : Balanced after :=
    balanced_plain fun c member => not_isBracket_of_blank (blankAfter c member)
  constructor
  · intro middle
    rw [parts]
    exact front.append (middle.append back)
  · intro whole
    rw [parts] at whole
    have rest := front.of_append whole
    rw [balanced_iff_depth, depthAfter?_append] at rest
    obtain ⟨depth, inner, outer⟩ := Option.bind_eq_some_iff.mp rest
    rw [back.depth] at outer
    cases outer
    exact balanced_iff_depth.mpr inner

theorem group?_eq_some_iff {depth : Nat} {text inner rest : List Char} :
    group? depth text = some (inner, rest) ↔
      text = inner ++ ']' :: rest ∧ depthAfter? depth inner = some 0 := by
  fun_induction group? depth text generalizing inner with
  | case1 depth => simp
  | case2 depth text ih =>
    cases inner with
    | nil => simp
    | cons c inner =>
      have step := @ih inner
      simp only [Option.map_eq_some_iff, Prod.exists, Prod.mk.injEq, List.cons.injEq,
        List.cons_append]
      grind [depthAfter?]
  | case3 text =>
    cases inner with
    | nil => simp [depthAfter?, eq_comm]
    | cons c inner =>
      simp only [Option.some.injEq, Prod.mk.injEq, List.cons_append, List.cons.injEq]
      grind [depthAfter?]
  | case4 depth text ih =>
    cases inner with
    | nil => simp [depthAfter?]
    | cons c inner =>
      have step := @ih inner
      simp only [Option.map_eq_some_iff, Prod.exists, Prod.mk.injEq, List.cons.injEq,
        List.cons_append]
      grind [depthAfter?]
  | case5 depth c text notOpening notClosing notDeeper ih =>
    have opens : c ≠ '[' := notOpening
    have closes : c ≠ ']' := by
      cases depth with
      | zero => exact notClosing rfl
      | succ depth => exact notDeeper depth rfl
    cases inner with
    | nil => simp [closes]
    | cons d inner =>
      have step := @ih inner
      have skipped : depthAfter? depth (c :: inner) = depthAfter? depth inner :=
        depthAfter?_other (by simp [IsBracket, opens, closes])
      simp only [Option.map_eq_some_iff, Prod.exists, Prod.mk.injEq, List.cons.injEq,
        List.cons_append]
      grind

theorem exists_group {depth : Nat} {text : List Char} (closed : depthAfter? (depth + 1) text = some 0) :
    ∃ inner rest, text = inner ++ ']' :: rest ∧ depthAfter? depth inner = some 0 := by
  induction text generalizing depth with
  | nil => simp [depthAfter?] at closed
  | cons c text ih =>
    by_cases opening : c = '['
    · subst opening
      obtain ⟨inner, rest, parts, nested⟩ := ih closed
      exact ⟨'[' :: inner, rest, by rw [parts]; rfl, nested⟩
    · by_cases closing : c = ']'
      · subst closing
        cases depth with
        | zero => exact ⟨[], text, rfl, rfl⟩
        | succ depth =>
          obtain ⟨inner, rest, parts, nested⟩ := ih closed
          exact ⟨']' :: inner, rest, by rw [parts]; rfl, nested⟩
      · have plain : ¬IsBracket c := by simp [IsBracket, opening, closing]
        rw [depthAfter?_other plain] at closed
        obtain ⟨inner, rest, parts, nested⟩ := ih closed
        exact ⟨c :: inner, rest, by rw [parts]; rfl, by rwa [depthAfter?_other plain]⟩

/-- The text is one bracketed group, blanks around it aside. -/
structure Encloses (text inner : List Char) : Prop where
  group : Text.trim text = bracketed inner
  balanced : Balanced inner

theorem encloses_bracketed {inner : List Char} (balanced : Balanced inner) :
    Encloses (bracketed inner) inner where
  group := Text.trim_enclosed inner (by decide) (by decide)
  balanced := balanced

theorem Encloses.whole {text inner : List Char} (encloses : Encloses text inner) :
    Balanced text := by
  rw [← balanced_trim_iff, encloses.group]
  exact encloses.balanced.bracketed

theorem inside?_eq_some_iff {text inner : List Char} :
    inside? text = some inner ↔ Encloses text inner := by
  have parted (rest : List Char) : group? 0 rest = some (inner, []) ↔
      rest = inner ++ [']'] ∧ Balanced inner := by
    rw [group?_eq_some_iff, balanced_iff_depth]
  have grouped (rest : List Char) (trimmed : Text.trim text = '[' :: rest) :
      Encloses text inner ↔ group? 0 rest = some (inner, []) := by
    rw [parted]
    constructor
    · intro known
      obtain ⟨group, balanced⟩ := known
      rw [trimmed] at group
      exact ⟨(List.cons.inj group).2, balanced⟩
    · intro known
      obtain ⟨rfl, balanced⟩ := known
      exact ⟨trimmed, balanced⟩
  unfold inside?
  split
  · rename_i rest trimmed
    rw [grouped rest trimmed]
    split
    · rename_i found parts
      simp [parts]
    · rename_i other
      exact ⟨nofun, fun parts => (other inner parts).elim⟩
  · rename_i other
    exact ⟨nofun, fun encloses => (other _ encloses.group).elim⟩

/-- The body is the inside of the group that the text is, or else the text itself. -/
def Unwraps (text body : List Char) : Prop :=
  Encloses text body ∨ (body = text ∧ ∀ inner, ¬Encloses text inner)

theorem body?_eq_some_iff {text body : List Char} :
    body? text = some body ↔ Balanced text ∧ Unwraps text body := by
  simp only [Unwraps, ← inside?_eq_some_iff, ← isBalanced_iff]
  unfold body?
  split
  · rename_i balanced
    cases inside : inside? text with
    | none => simpa [balanced] using eq_comm
    | some inner => simp [balanced]
  · rename_i unbalanced
    simp [unbalanced]

theorem body?_of_encloses {text inner : List Char} (encloses : Encloses text inner) :
    body? text = some inner :=
  body?_eq_some_iff.mpr ⟨encloses.whole, Or.inl encloses⟩

theorem body?_of_open {text : List Char} (balanced : Balanced text)
    (bare : ∀ inner, ¬Encloses text inner) : body? text = some text :=
  body?_eq_some_iff.mpr ⟨balanced, Or.inr ⟨rfl, bare⟩⟩

theorem body?_balanced {text body : List Char} (found : body? text = some body) :
    Balanced body := by
  obtain ⟨balanced, encloses | ⟨rfl, -⟩⟩ := body?_eq_some_iff.mp found
  · exact encloses.balanced
  · exact balanced

theorem exists_body? {text : List Char} (balanced : Balanced text) :
    ∃ body, body? text = some body := by
  by_cases enclosed : ∃ inner, Encloses text inner
  · obtain ⟨inner, encloses⟩ := enclosed
    exact ⟨inner, body?_of_encloses encloses⟩
  · exact ⟨text, body?_of_open balanced (not_exists.mp enclosed)⟩

end TypedLiteral.Literal
