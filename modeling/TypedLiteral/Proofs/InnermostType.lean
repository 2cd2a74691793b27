import TypedLiteral.Proofs.RegexReading
import TypedLiteral.Proofs.Reports
import TypedLiteral.Proofs.Resolution

/-! The innermost type of a collection type, on which both its pattern and what reading makes of it
depend. The pattern leaves everything open exactly when the innermost type is no enumeration and is
a text or cannot be read at all, and only then is a literal ever turned down for its type. -/
namespace TypedLiteral

/-- The first type on the way inwards through collection types that is no collection type itself. -/
inductive Reader.Innermost (reader : Reader) : TypeExpr → TypeExpr → Prop
  | here {type} (single : ∀ form element, ¬reader.Collects type form element) :
      Innermost reader type type
  | inside {type form element core} (collects : reader.Collects type form element)
      (inner : Innermost reader element core) : Innermost reader type core

/-- The name has no strategy, or one that does not tell what its literals look like: that of texts,
or that of a collection, which the name alone is not. -/
def Reader.Vague (reader : Reader) (name : TypeIdent) : Prop :=
  reader.strategies.get? name = none ∨ reader.strategies.get? name = some (.scalar .text) ∨
    reader.strategies.get? name = some .set ∨ reader.strategies.get? name = some .list

/-- The type is no enumeration and its name is vague. Applied to elements, a name is never one. -/
inductive Reader.Open (reader : Reader) : TypeExpr → Prop
  | named {name} (ordinary : reader.hierarchy.members? name = none) (vague : reader.Vague name) :
      Open reader (.named name)
  | applied {name elements} (vague : reader.Vague name) : Open reader (.applied name elements)

/-- The type is at fault and not the literal, and this is how the type is shown. -/
inductive Failure.Rejects : Failure → String → Prop
  | unsupported (shown text : String) : Rejects (.unsupportedType shown text) shown
  | arity (shown : String) (found : Nat) : Rejects (.arity shown found) shown

namespace Regex

theorem literal_ne_any (text : List Char) : literal text ≠ any := by
  rw [any]
  cases text with
  | nil => simp [literal, chain]
  | cons c rest =>
    cases rest with
    | cons next rest => simp [literal, chain]
    | nil =>
      rw [literal, List.map_singleton, chain]
      split <;> simp

theorem choice_ne_any {parts : List Regex} (each : ∀ part ∈ parts, part ≠ any) :
    choice parts ≠ any := by
  cases parts with
  | nil => simp [choice, any]
  | cons part rest =>
    cases rest with
    | cons next rest => simp [choice, any]
    | nil => exact each part List.mem_cons_self

theorem collection_eq_any_iff {element : Regex} : collection element = any ↔ element = any := by
  unfold collection
  split
  · rename_i anything
    exact iff_of_true rfl anything
  · rename_i something
    exact iff_of_false nofun something

end Regex

theorem ScalarKind.pattern_eq_any_iff {kind : ScalarKind} : kind.pattern = .any ↔ kind = .text := by
  cases kind with
  | text => exact iff_of_true rfl rfl
  | _ => exact iff_of_false nofun nofun

theorem Shape.pattern_member_ne_any (type : TypeIdent) (members : List String) :
    (Shape.member type members).pattern ≠ .any := by
  apply Regex.choice_ne_any
  intro part listed
  obtain ⟨name, -, rfl⟩ := List.mem_map.mp listed
  exact Regex.literal_ne_any name.toList

namespace Reader

variable {reader : Reader} {type element core other : TypeExpr} {form : Form}

theorem Collects.unique {otherForm : Form} (first : reader.Collects type form element)
    (second : reader.Collects type otherForm other) : form = otherForm ∧ element = other := by
  cases first with
  | array =>
    cases second with
    | array => exact ⟨rfl, rfl⟩
  | list strategy =>
    cases second with
    | list => exact ⟨rfl, rfl⟩
    | set again =>
      rw [strategy] at again
      contradiction
  | set strategy =>
    cases second with
    | set => exact ⟨rfl, rfl⟩
    | list again =>
      rw [strategy] at again
      contradiction

theorem exists_innermost (reader : Reader) (type : TypeExpr) : ∃ core, reader.Innermost type core := by
  induction levels : reader.levels type generalizing type with
  | zero =>
    refine ⟨type, .here fun form element collects => ?_⟩
    rw [collects.levels] at levels
    contradiction
  | succ count ih =>
    obtain ⟨form, element, collects⟩ := exists_collects (Nat.lt_of_lt_of_eq (Nat.succ_pos _) levels.symm)
    rw [collects.levels] at levels
    obtain ⟨core, inner⟩ := ih element (Nat.succ.inj levels)
    exact ⟨core, .inside collects inner⟩

theorem Innermost.unique (first : reader.Innermost type core)
    (second : reader.Innermost type other) : other = core := by
  induction first with
  | here single =>
    cases second with
    | here => rfl
    | inside collects inner => exact absurd collects (single _ _)
  | inside collects inner ih =>
    cases second with
    | here single => exact absurd collects (single _ _)
    | inside again rest =>
      obtain ⟨-, rfl⟩ := collects.unique again
      exact ih rest

theorem Innermost.single (innermost : reader.Innermost type core) :
    ∀ form element, ¬reader.Collects core form element := by
  induction innermost with
  | here single => exact single
  | inside collects inner ih => exact ih

/-- Numbers have a pattern, even where an enumeration takes their name. -/
theorem pattern_ne_any_of_width {width : Width} (integral : type.width? = some width) :
    (reader.shape type).pattern ≠ .any := by
  cases type with
  | named name =>
    cases enumerated : reader.hierarchy.members? name with
    | some members =>
      rw [shape_member enumerated]
      exact Shape.pattern_member_ne_any name members
    | none =>
      have scalar : reader.Scalar (.named name) (.integer width) :=
        .named enumerated (strategies_of_width integral)
      rw [scalar.shape, Shape.pattern, Ne, ScalarKind.pattern_eq_any_iff]
      exact nofun
  | applied name elements => contradiction
  | array element => contradiction

theorem Collects.pattern_eq_any_iff (collects : reader.Collects type form element) :
    (reader.shape type).pattern = .any ↔ (reader.shape element).pattern = .any := by
  cases integral : element.width? with
  | some width =>
    rw [collects.shape_of_width integral, Shape.pattern, Regex.collection_eq_any_iff]
    exact iff_of_false nofun (pattern_ne_any_of_width integral)
  | none => rw [collects.shape_of_plain integral, Shape.pattern, Regex.collection_eq_any_iff]

theorem Innermost.pattern_eq_any_iff (innermost : reader.Innermost type core) :
    (reader.shape type).pattern = .any ↔ (reader.shape core).pattern = .any := by
  induction innermost with
  | here single => exact Iff.rfl
  | inside collects inner ih => exact collects.pattern_eq_any_iff.trans ih

theorem vague_iff {name : TypeIdent} {kind : ScalarKind}
    (strategy : reader.strategies.get? name = some (.scalar kind)) :
    reader.Vague name ↔ kind = .text := by
  simp [Vague, strategy]

theorem vague_of_not_scalar {name : TypeIdent}
    (unfit : ∀ kind, reader.strategies.get? name ≠ some (.scalar kind)) : reader.Vague name := by
  unfold Vague
  cases strategy : reader.strategies.get? name with
  | none => exact Or.inl rfl
  | some found =>
    cases found with
    | scalar kind => exact absurd strategy (unfit kind)
    | set => exact Or.inr (Or.inr (Or.inl rfl))
    | list => exact Or.inr (Or.inr (Or.inr rfl))

theorem Scalar.open_iff {kind : ScalarKind} (scalar : reader.Scalar type kind) :
    reader.Open type ↔ kind = .text := by
  cases scalar with
  | named ordinary strategy =>
    rw [← vague_iff strategy]
    constructor
    · rintro (⟨-, vague⟩ | _)
      exact vague
    · exact .named ordinary
  | applied strategy =>
    rw [← vague_iff strategy]
    constructor
    · rintro (_ | ⟨vague⟩)
      exact vague
    · exact .applied

theorem Unreadable.open (unreadable : reader.Unreadable type) : reader.Open type := by
  cases type with
  | named name =>
    have ordinary := unreadable.ordinary name rfl
    exact .named ordinary
      (vague_of_not_scalar fun kind strategy => unreadable.notScalar kind (.named ordinary strategy))
  | applied name elements =>
    exact .applied
      (vague_of_not_scalar fun kind strategy => unreadable.notScalar kind (.applied strategy))
  | array element => exact absurd .array (unreadable.notCollection .array element)

theorem open_iff_pattern (single : ∀ form element, ¬reader.Collects core form element) :
    reader.Open core ↔ (reader.shape core).pattern = .any := by
  have resolved := reader.resolves core
  generalize reader.shape core = shape at resolved
  cases resolved with
  | @member name members enumerated =>
    refine iff_of_false ?_ (Shape.pattern_member_ne_any name members)
    rintro (⟨ordinary, -⟩ | _)
    rw [enumerated] at ordinary
    contradiction
  | scalar scalar => rw [scalar.open_iff, Shape.pattern, ScalarKind.pattern_eq_any_iff]
  | sequence collects integral => exact absurd collects (single _ _)
  | collection collects plain => exact absurd collects (single _ _)
  | unsupported unreadable => exact iff_of_true unreadable.open rfl
  | misapplied found unreadable => exact iff_of_true unreadable.open rfl

theorem pattern_eq_any_iff : reader.pattern type = ".*" ↔ (reader.shape type).pattern = .any := by
  rw [Shape.pattern_eq_any_iff, pattern, ← String.toList_inj, String.toList_ofList]
  rfl

/-- Only the innermost type is ever at fault, and then its pattern is open. -/
theorem Innermost.rejected {limits : Limits} {depth : Nat} {text : List Char} {failure : Failure}
    {shown : String} (innermost : reader.Innermost type core)
    (reports : (reader.shape type).Reports limits depth text failure)
    (rejects : failure.Rejects shown) :
    shown = String.ofList core.display ∧ (reader.shape core).pattern = .any := by
  induction innermost generalizing depth text with
  | @here type single =>
    have resolved := reader.resolves type
    generalize reader.shape type = shape at reports resolved
    cases resolved with
    | member enumerated => cases reports <;> cases rejects
    | scalar scalar =>
      cases reports with
      | scalar reports => cases reports <;> cases rejects
      | _ => cases rejects
    | sequence collects integral => exact absurd collects (single _ _)
    | collection collects plain => exact absurd collects (single _ _)
    | unsupported unreadable =>
      cases reports with
      | unsupported =>
        cases rejects
        exact ⟨rfl, rfl⟩
      | _ => cases rejects
    | misapplied found unreadable =>
      cases reports with
      | misapplied =>
        cases rejects
        exact ⟨rfl, rfl⟩
      | _ => cases rejects
  | @inside type form element core collects inner ih =>
    cases integral : element.width? with
    | some width =>
      rw [collects.shape_of_width integral] at reports
      cases reports with
      | sequence shallow unwrapped reports => cases reports <;> cases rejects
      | _ => cases rejects
    | none =>
      rw [collects.shape_of_plain integral] at reports
      cases reports with
      | element shallow unwrapped division listed reports => exact ih reports
      | _ => cases rejects

end Reader

/-- The pattern of a type is `.*` exactly when its innermost type is no enumeration and has a name
without a strategy, of a text, or of a collection that is not applied to one element. Where it is
any other, no literal is turned down for its type. -/
theorem pattern_open_iff (reader : Reader) (type : TypeExpr) :
    ∃ core, (∀ other, reader.Innermost type other ↔ other = core) ∧
      (reader.pattern type = ".*" ↔ reader.Open core) ∧
      (∀ name elements, core = .applied name elements →
        reader.strategies.get? name = some .set ∨ reader.strategies.get? name = some .list →
        elements.length ≠ 1) ∧
      (reader.pattern type ≠ ".*" → ∀ text failure, reader.read text type = .error failure →
        ∀ shown, ¬failure.Rejects shown) := by
  obtain ⟨core, innermost⟩ := reader.exists_innermost type
  refine ⟨core, fun other => ⟨innermost.unique, fun same => same ▸ innermost⟩, ?_, ?_, ?_⟩
  · rw [Reader.pattern_eq_any_iff, innermost.pattern_eq_any_iff,
      Reader.open_iff_pattern innermost.single]
  · rintro name elements rfl collective single
    obtain ⟨element, rfl⟩ := List.length_eq_one_iff.mp single
    rcases collective with set | list
    · exact innermost.single .set element (.set set)
    · exact innermost.single .list element (.list list)
  · intro something text failure failed shown rejects
    obtain ⟨-, anything⟩ := innermost.rejected (Shape.read_failure failed) rejects
    rw [Ne, Reader.pattern_eq_any_iff, innermost.pattern_eq_any_iff] at something
    exact something anything

theorem pattern_open_iff_nested :
    let color : TypeIdent := ⟨"Color"⟩
    let reader : Reader :=
      { hierarchy := Hierarchy.standard.declare color (.enumeration [".*"]) }
    let pairs : TypeExpr := .applied ⟨"Map"⟩ [.named .string, .named color]
    let tables : TypeExpr := .array (.applied .collection [pairs])
    let palettes : TypeExpr := .applied .list [.array (.named color)]
    (reader.pattern tables = ".*" ∧ reader.pattern palettes ≠ ".*" ∧
      reader.read "[.*, [RED]]" palettes = .error (.unknownMember "Color" "RED")) ∧
    (∀ core, reader.Innermost tables core ↔ core = pairs) ∧ reader.Open pairs ∧
    ¬reader.Open (.named color) ∧ ∀ shown, ¬(Failure.unknownMember "Color" "RED").Rejects shown := by
  intro color reader pairs tables palettes
  have anything : reader.pattern tables = ".*" := by decide +kernel
  have something : reader.pattern palettes ≠ ".*" := by decide +kernel
  have failed : reader.read "[.*, [RED]]" palettes = .error (.unknownMember "Color" "RED") := by
    decide +kernel
  have several (form : Form) (element : TypeExpr) : ¬reader.Collects
      (.applied ⟨"Map"⟩ [.named .string, .named color]) form element := nofun
  have toPairs : reader.Innermost tables pairs :=
    .inside .array (.inside (.set (by decide +kernel)) (.here several))
  have toColor : reader.Innermost palettes (.named color) :=
    .inside (.list (by decide +kernel)) (.inside .array (.here nofun))
  obtain ⟨core, innermost, isOpen, -, -⟩ := pattern_open_iff reader tables
  obtain rfl := (innermost pairs).mp toPairs
  obtain ⟨core, alone, isClosed, -, accepted⟩ := pattern_open_iff reader palettes
  obtain rfl := (alone (.named color)).mp toColor
  exact ⟨⟨anything, something, failed⟩, innermost, isOpen.mp anything,
    fun opened => something (isClosed.mpr opened), accepted something _ _ failed⟩

end TypedLiteral
