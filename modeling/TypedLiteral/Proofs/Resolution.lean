import TypedLiteral.Proofs.CollectionType

/-! What the names of a type resolve to. A type is an enumeration, a scalar or a collection type, or
else no literal has it. The shape of the type says which of them it is. -/
namespace TypedLiteral.Reader

/-- The type is read as a scalar of the given kind. Applied to elements, a name is no enumeration,
and the elements of a scalar do not matter. -/
inductive Scalar (reader : Reader) : TypeExpr → ScalarKind → Prop
  | named {name kind} (ordinary : reader.hierarchy.members? name = none)
      (strategy : reader.strategies.get? name = some (.scalar kind)) :
      Scalar reader (.named name) kind
  | applied {name elements kind} (strategy : reader.strategies.get? name = some (.scalar kind)) :
      Scalar reader (.applied name elements) kind

/-- The type is no enumeration, no scalar and no collection type. -/
structure Unreadable (reader : Reader) (type : TypeExpr) : Prop where
  ordinary : ∀ name, type = .named name → reader.hierarchy.members? name = none
  notScalar : ∀ kind, ¬reader.Scalar type kind
  notCollection : ∀ form element, ¬reader.Collects type form element

inductive Resolves (reader : Reader) : TypeExpr → Shape → Prop
  | member {name members} (enumerated : reader.hierarchy.members? name = some members) :
      Resolves reader (.named name) (.member name members)
  | scalar {type kind} (scalar : reader.Scalar type kind) : Resolves reader type (.scalar kind)
  | sequence {type form element width} (collects : reader.Collects type form element)
      (integral : element.width? = some width) : Resolves reader type (.sequence form width)
  | collection {type form element} (collects : reader.Collects type form element)
      (plain : element.width? = none) :
      Resolves reader type (.collection form (reader.shape element))
  | unsupported {type} (unreadable : reader.Unreadable type) :
      Resolves reader type (.unsupported type)
  | misapplied {type} (found : Nat) (unreadable : reader.Unreadable type) :
      Resolves reader type (.misapplied type found)

variable {reader : Reader} {type element : TypeExpr} {form : Form}

theorem shape_member {name : TypeIdent} {members : List String}
    (enumerated : reader.hierarchy.members? name = some members) :
    reader.shape (.named name) = .member name members := by
  simp [Reader.shape, Shape.ofExpr, enumerated]

theorem Scalar.shape {kind : ScalarKind} (scalar : reader.Scalar type kind) :
    reader.shape type = .scalar kind := by
  cases scalar with
  | named ordinary strategy => simp [Reader.shape, Shape.ofExpr, ordinary, strategy]
  | applied strategy => simp [Reader.shape, Shape.ofExpr, strategy]

/-- A bare name that is no enumeration needs the strategy of a scalar. -/
theorem unreadable_named {name : TypeIdent} (ordinary : reader.hierarchy.members? name = none)
    (unfit : ∀ kind, reader.strategies.get? name ≠ some (.scalar kind)) :
    reader.Unreadable (.named name) where
  ordinary := by
    intro other same
    cases same
    exact ordinary
  notScalar := by
    intro kind scalar
    cases scalar with
    | named _ strategy => exact unfit kind strategy
  notCollection := nofun

/-- An applied name needs the strategy of a scalar, or one of a collection and a single element. -/
theorem unreadable_applied {name : TypeIdent} {elements : List TypeExpr}
    (unfit : ∀ strategy, reader.strategies.get? name = some strategy →
      (∀ kind, strategy ≠ .scalar kind) ∧ elements.length ≠ 1) :
    reader.Unreadable (.applied name elements) where
  ordinary := nofun
  notScalar := by
    intro kind scalar
    cases scalar with
    | applied strategy => exact (unfit _ strategy).1 kind rfl
  notCollection := by
    intro form element collects
    cases collects with
    | list strategy => exact (unfit _ strategy).2 rfl
    | set strategy => exact (unfit _ strategy).2 rfl

theorem Collects.resolves (collects : reader.Collects type form element) :
    reader.Resolves type (reader.shape type) := by
  cases integral : element.width? with
  | some width =>
    rw [collects.shape_of_width integral]
    exact .sequence collects integral
  | none =>
    rw [collects.shape_of_plain integral]
    exact .collection collects integral

private theorem resolves_named (name : TypeIdent) :
    reader.Resolves (.named name) (reader.shape (.named name)) := by
  rw [Reader.shape, Shape.ofExpr]
  cases enumerated : reader.hierarchy.members? name with
  | some members => exact .member enumerated
  | none =>
    cases strategy : reader.strategies.get? name with
    | none => exact .unsupported (unreadable_named enumerated (by simp [strategy]))
    | some found =>
      cases found with
      | scalar kind => exact .scalar (.named enumerated strategy)
      | set => exact .misapplied 0 (unreadable_named enumerated (by simp [strategy]))
      | list => exact .misapplied 0 (unreadable_named enumerated (by simp [strategy]))

private theorem resolves_only {name : TypeIdent} {elements : List TypeExpr} {strategy : Strategy}
    (known : reader.strategies.get? name = some strategy)
    (collective : ∀ kind, strategy ≠ .scalar kind)
    (single : ∀ element, reader.Collects (.applied name [element]) form element) :
    reader.Resolves (.applied name elements) (Shape.only (.applied name elements)
      (Shape.ofElements reader.hierarchy reader.strategies form elements)) := by
  have unfit (several : elements.length ≠ 1) : reader.Unreadable (.applied name elements) := by
    apply unreadable_applied
    intro other found
    rw [known] at found
    cases found
    exact ⟨collective, several⟩
  match elements with
  | [] => exact .misapplied 0 (unfit (by simp))
  | [element] =>
    have resolved := (single element).resolves
    rw [(single element).shape] at resolved
    exact resolved
  | _ :: _ :: _ => exact .misapplied _ (unfit (by simp))

theorem resolves (reader : Reader) (type : TypeExpr) :
    reader.Resolves type (reader.shape type) := by
  cases type with
  | named name => exact resolves_named name
  | array element => exact Collects.array.resolves
  | applied name elements =>
    rw [Reader.shape, Shape.ofExpr]
    cases strategy : reader.strategies.get? name with
    | none => exact .unsupported (unreadable_applied (by simp [strategy]))
    | some found =>
      cases found with
      | scalar kind => exact .scalar (.applied strategy)
      | set => exact resolves_only strategy (by simp) fun element => .set strategy
      | list => exact resolves_only strategy (by simp) fun element => .list strategy

theorem Collects.levels_pos (collects : reader.Collects type form element) :
    0 < (reader.shape type).levels := by
  have levels := collects.levels
  unfold Reader.levels at levels
  omega

theorem exists_collects (nested : 0 < (reader.shape type).levels) :
    ∃ form element, reader.Collects type form element := by
  have resolved := reader.resolves type
  generalize reader.shape type = shape at nested resolved
  cases resolved with
  | sequence collects integral => exact ⟨_, _, collects⟩
  | collection collects plain => exact ⟨_, _, collects⟩
  | _ => simp [Shape.levels] at nested

end TypedLiteral.Reader
