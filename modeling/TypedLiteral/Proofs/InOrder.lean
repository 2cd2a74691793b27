import Mathlib.Data.List.Forall2

/-! Taking the items of a list in order until one fails: either all of them succeed, or the outcome
is the failure of the first one that does not. -/
namespace TypedLiteral

theorem exists_mem_of_forall₂ {α β : Type} {related : α → β → Prop} {items : List α}
    {values : List β} (each : List.Forall₂ related items values) {value : β}
    (member : value ∈ values) : ∃ item ∈ items, related item value := by
  induction each with
  | nil => contradiction
  | cons head tail ih =>
    rcases List.mem_cons.mp member with rfl | later
    · exact ⟨_, List.mem_cons_self, head⟩
    · obtain ⟨item, inside, same⟩ := ih later
      exact ⟨item, List.mem_cons_of_mem _ inside, same⟩

theorem forall_mem_of_forall₂ {α β : Type} {holds : β → Prop} {items : List α}
    {values : List β} (each : List.Forall₂ (fun _ value => holds value) items values) :
    ∀ value ∈ values, holds value := by
  intro value member
  obtain ⟨item, -, held⟩ := exists_mem_of_forall₂ each member
  exact held

theorem forall₂_imp_of_mem {α β : Type} {related further : α → β → Prop} {items : List α}
    {values : List β} (each : ∀ item ∈ items, ∀ value, related item value → further item value)
    (pairs : List.Forall₂ related items values) : List.Forall₂ further items values :=
  ((List.forall₂_and_left _ _).mpr ⟨each, pairs⟩).imp fun _ _ both => both.1 _ both.2

theorem bind_eq_ok_iff {ε α β : Type} {first : Except ε α} {rest : α → Except ε β} {result : β} :
    (first >>= rest) = .ok result ↔ ∃ value, first = .ok value ∧ rest value = .ok result := by
  cases first <;> simp [bind, Except.bind]

theorem map_eq_ok_iff {α β ε : Type} {outcome : Except ε α} {f : α → β} {value : β} :
    outcome.map f = .ok value ↔ ∃ item, outcome = .ok item ∧ f item = value := by
  cases outcome <;> simp [Except.map]

theorem exists_map_eq_ok_iff {α β ε : Type} {outcome : Except ε α} {f : α → β} :
    (∃ value, outcome.map f = .ok value) ↔ ∃ item, outcome = .ok item := by
  cases outcome <;> simp [Except.map]

theorem map_eq_error_iff {α β ε : Type} {outcome : Except ε α} {f : α → β} {failure : ε} :
    outcome.map f = .error failure ↔ outcome = .error failure := by
  cases outcome <;> simp [Except.map]

inductive InOrder {α β ε : Type} (f : α → Except ε β) (items : List α) : Except ε (List β) → Prop
  | all {values : List β} (each : List.Forall₂ (fun item value => f item = .ok value) items values) :
      InOrder f items (.ok values)
  | first {before after : List α} {item : α} {failure : ε} (parts : items = before ++ item :: after)
      (earlier : ∀ other ∈ before, ∃ value, f other = .ok value) (fails : f item = .error failure) :
      InOrder f items (.error failure)

theorem mapM_inOrder {α β ε : Type} (f : α → Except ε β) (items : List α) :
    InOrder f items (items.mapM f) := by
  induction items with
  | nil => exact .all .nil
  | cons item items ih =>
    rw [List.mapM_cons]
    cases head : f item with
    | error failure => exact .first (List.nil_append (item :: items)).symm (by simp) head
    | ok value =>
      generalize items.mapM f = tail at ih
      cases ih with
      | all each => exact .all (.cons head each)
      | @first before after other failure parts earlier fails =>
        have grown : item :: items = (item :: before) ++ other :: after := by rw [parts]; rfl
        refine .first grown ?_ fails
        intro another member
        rcases List.mem_cons.mp member with rfl | later
        · exact ⟨value, head⟩
        · exact earlier another later

theorem InOrder.mapError {α β ε ε' : Type} {f : α → Except ε β} {items : List α}
    {outcome : Except ε (List β)} (ordered : InOrder f items outcome) (word : ε → ε') :
    InOrder (fun item => (f item).mapError word) items (outcome.mapError word) := by
  cases ordered with
  | all each =>
    exact .all (each.imp fun item value found => by rw [found, Except.mapError])
  | @first before after item failure parts earlier fails =>
    refine .first parts (fun other member => ?_) (by rw [fails, Except.mapError])
    obtain ⟨value, found⟩ := earlier other member
    exact ⟨value, by rw [found, Except.mapError]⟩

theorem InOrder.eq_mapM {α β ε : Type} {f : α → Except ε β} {items : List α}
    {outcome : Except ε (List β)} (ordered : InOrder f items outcome) :
    items.mapM f = outcome := by
  cases ordered with
  | all each =>
    induction each with
    | nil => rfl
    | cons head tail ih =>
      rw [List.mapM_cons, head, ih]
      rfl
  | @first before after item failure parts earlier fails =>
    subst parts
    induction before with
    | nil =>
      rw [List.nil_append, List.mapM_cons, fails]
      rfl
    | cons other before ih =>
      obtain ⟨value, head⟩ := earlier other List.mem_cons_self
      have rest := ih fun another later => earlier another (List.mem_cons_of_mem other later)
      rw [List.cons_append, List.mapM_cons, head, rest]
      rfl

theorem mapM_eq_ok_iff {α β ε : Type} {f : α → Except ε β} {items : List α} {values : List β} :
    items.mapM f = .ok values ↔
      List.Forall₂ (fun item value => f item = .ok value) items values := by
  constructor
  · intro succeeded
    have ordered := mapM_inOrder f items
    rw [succeeded] at ordered
    cases ordered with
    | all each => exact each
  · exact fun each => (InOrder.all each).eq_mapM

theorem exists_of_mapM_eq_error {α β ε : Type} {f : α → Except ε β} {items : List α} {failure : ε}
    (failed : items.mapM f = .error failure) : ∃ item ∈ items, f item = .error failure := by
  have ordered := mapM_inOrder f items
  rw [failed] at ordered
  cases ordered with
  | first parts earlier fails => exact ⟨_, by simp [parts], fails⟩

end TypedLiteral
