import TypedLiteral.Proofs.CollectionGrammar
import TypedLiteral.Proofs.DistinctElements
import TypedLiteral.Proofs.Resolution

/-! Which values a type has. Enumerations are looked up among the declared types, scalars in the
strategies, integer elements by their bare names, and a collection takes its form from the name that
is applied. Whatever reading yields is a value of the type that was asked for, at every depth. -/
namespace TypedLiteral

open Literal

inductive ScalarKind.Variant : ScalarKind → Value → Prop
  | text (content : String) : Variant .text (.text content)
  | int (number : Int32) : Variant (.integer .int) (.int number)
  | long (number : Int64) : Variant (.integer .long) (.long number)
  | boolean (flag : Bool) : Variant .boolean (.bool flag)
  | double (number : Binary64) : Variant .double (.double number)

/-- The value is one of the type, and the text is where it comes from. An element comes from one of
the parts that the body divides into; a set may have fewer elements than that. -/
inductive Reader.Conforms (reader : Reader) : TypeExpr → List Char → Value → Prop
  | member {name members text} (enumerated : reader.hierarchy.members? name = some members)
      (declared : String.ofList (Text.trim text) ∈ members) :
      Conforms reader (.named name) text (.member name (String.ofList (Text.trim text)))
  | scalar {type kind text value} (scalar : reader.Scalar type kind)
      (variant : kind.Variant value) : Conforms reader type text value
  | integers {type element form width text elements}
      (collects : reader.Collects type form element) (integral : element.width? = some width)
      (each : ∀ part ∈ elements, (ScalarKind.integer width).Variant part)
      (apart : form = .set → Value.Apart elements) :
      Conforms reader type text (.collection form elements)
  | elements {type element form text body texts} {sources : List (List Char × Value)}
      (collects : reader.Collects type form element) (plain : element.width? = none)
      (unwraps : Unwraps text body) (division : Division body texts)
      (listed : (sources.map Prod.fst).Sublist texts)
      (whole : form ≠ .set → sources.map Prod.fst = texts)
      (each : ∀ source ∈ sources, Conforms reader element source.1 source.2)
      (apart : form = .set → Value.Apart (sources.map Prod.snd)) :
      Conforms reader type text (.collection form (sources.map Prod.snd))

theorem ScalarKind.Variant.scalar {kind : ScalarKind} {value : Value}
    (variant : kind.Variant value) : value.elements? = none := by
  cases variant <;> rfl

theorem Width.variant_value (width : Width) (number : Int64) :
    (ScalarKind.integer width).Variant (width.value number) := by
  cases width with
  | int => exact .int _
  | long => exact .long _

theorem variant_of_readScalar {kind : ScalarKind} {text : List Char} {value : Value}
    (succeeded : readScalar kind text = .ok value) : kind.Variant value := by
  cases kind with
  | text =>
    cases succeeded
    exact .text _
  | integer width =>
    obtain ⟨number, -, rfl⟩ := map_eq_ok_iff.mp succeeded
    exact width.variant_value number
  | boolean =>
    obtain ⟨flag, -, rfl⟩ := map_eq_ok_iff.mp succeeded
    exact .boolean flag
  | double =>
    obtain ⟨number, -, rfl⟩ := map_eq_ok_iff.mp succeeded
    exact .double number

theorem readMember_eq_ok_iff {type : TypeIdent} {members : List String} {text : List Char}
    {value : Value} : readMember type members text = .ok value ↔
      String.ofList (Text.trim text) ∈ members ∧
        value = .member type (String.ofList (Text.trim text)) := by
  unfold readMember
  dsimp only
  split
  · rename_i declared
    simp_all [eq_comm]
  · rename_i unknown
    simp_all

theorem Value.exists_ofElements_eq (form : Form) {elements : List Value}
    (proper : ∀ part ∈ elements, part.Proper) :
    ∃ kept, ofElements form elements = .collection form kept ∧ kept.Sublist elements ∧
      (form ≠ .set → kept = elements) ∧ (form = .set → Apart kept) := by
  unfold ofElements
  split
  · rename_i set
    exact ⟨distinct elements, rfl, distinct_sublist elements, fun other => (other set).elim,
      fun _ => apart_distinct proper⟩
  · rename_i other
    exact ⟨elements, rfl, .refl elements, fun _ => rfl, fun set => (other set).elim⟩

namespace Reader

variable {reader : Reader}

theorem Conforms.proper {type : TypeExpr} {text : List Char} {value : Value}
    (conforms : reader.Conforms type text value) : value.Proper := by
  induction conforms with
  | member enumerated declared => exact .scalar rfl
  | scalar scalar variant => exact .scalar variant.scalar
  | integers collects integral each apart =>
    exact .collection (fun part member => .scalar (each part member).scalar) apart
  | elements collects plain unwraps division listed whole each apart ih =>
    refine .collection (fun part member => ?_) apart
    obtain ⟨source, found, rfl⟩ := List.mem_map.mp member
    exact ih source found

section Collections

variable {type element : TypeExpr} {form : Form} {text : List Char}
  (collects : reader.Collects type form element)
include collects

theorem Collects.conforms_of_integral {width : Width} (integral : element.width? = some width)
    (numbers : List Int64) :
    reader.Conforms type text (Value.ofElements form (numbers.map width.value)) := by
  have variants : ∀ part ∈ numbers.map width.value, (ScalarKind.integer width).Variant part := by
    intro part member
    obtain ⟨number, -, rfl⟩ := List.mem_map.mp member
    exact width.variant_value number
  obtain ⟨kept, made, fewer, -, apart⟩ :=
    Value.exists_ofElements_eq form fun part member => .scalar (variants part member).scalar
  rw [made]
  exact .integers collects integral (fun part member => variants part (fewer.subset member)) apart

/-- Elements read from the parts one by one make a value of the collection type, whichever of them
a set leaves out. -/
theorem Collects.conforms_of_plain (plain : element.width? = none) {body : List Char}
    {texts : List (List Char)} {values : List Value} (unwraps : Unwraps text body)
    (division : Division body texts)
    (each : List.Forall₂ (reader.Conforms element) texts values) :
    reader.Conforms type text (Value.ofElements form values) := by
  have proper : ∀ value ∈ values, value.Proper :=
    forall_mem_of_forall₂ (each.imp fun _ _ conforms => conforms.proper)
  obtain ⟨kept, made, fewer, all, apart⟩ := Value.exists_ofElements_eq form proper
  obtain ⟨sizes, pairs⟩ := List.forall₂_iff_zip.mp each
  have firsts : (texts.zip values).map Prod.fst = texts := List.map_fst_zip sizes.le
  have seconds : (texts.zip values).map Prod.snd = values := List.map_snd_zip sizes.ge
  rw [← seconds, List.sublist_map_iff] at fewer
  obtain ⟨sources, within, rfl⟩ := fewer
  have listed := within.map Prod.fst
  rw [firsts] at listed
  have whole (other : form ≠ .set) : sources.map Prod.fst = texts := by
    apply listed.eq_of_length
    have kept := congrArg List.length (all other)
    rw [List.length_map] at kept ⊢
    rw [kept, sizes]
  rw [made]
  exact .elements collects plain unwraps division listed whole
    (fun source member => pairs (within.subset member)) apart

end Collections

theorem conforms_of_read {type : TypeExpr} {shape : Shape} (resolves : reader.Resolves type shape)
    {depth : Nat} {text : List Char} {value : Value}
    (succeeded : shape.read reader.limits depth text = .ok value) :
    reader.Conforms type text value := by
  induction shape generalizing type depth text value with
  | member name members =>
    cases resolves with
    | member enumerated =>
      obtain ⟨declared, rfl⟩ := readMember_eq_ok_iff.mp succeeded
      exact .member enumerated declared
  | scalar kind =>
    cases resolves with
    | scalar scalar => exact .scalar scalar (variant_of_readScalar succeeded)
  | unsupported type => contradiction
  | misapplied type found => contradiction
  | sequence form width =>
    cases resolves with
    | sequence collects integral =>
      obtain ⟨-, numbers, -, -, rfl⟩ := Shape.exists_of_read_sequence succeeded
      exact collects.conforms_of_integral integral numbers
  | collection form inner ih =>
    cases resolves with
    | @collection _ _ element collects plain =>
      obtain ⟨body, texts, values, unwrapped, division, each, rfl⟩ :=
        Shape.exists_of_read_collection succeeded
      refine collects.conforms_of_plain plain (body?_eq_some_iff.mp unwrapped).2 division ?_
      exact each.imp fun part value read => ih (reader.resolves element) read

end Reader

/-- Reading yields values of the type it is asked for, and none for a type that is no enumeration,
scalar or collection type. -/
theorem read_conforms (reader : Reader) (text : String) (type : TypeExpr) :
    (∀ value, reader.read text type = .ok value → reader.Conforms type text.toList value) ∧
      (reader.Unreadable type → ∀ value, reader.read text type ≠ .ok value) := by
  refine ⟨fun value succeeded => Reader.conforms_of_read (reader.resolves type) succeeded, ?_⟩
  intro unreadable value succeeded
  cases Reader.conforms_of_read (reader.resolves type) succeeded with
  | member enumerated declared =>
    rw [unreadable.ordinary _ rfl] at enumerated
    contradiction
  | scalar scalar variant => exact unreadable.notScalar _ scalar
  | integers collects integral each apart => exact unreadable.notCollection _ _ collects
  | elements collects plain unwraps division listed whole each apart =>
    exact unreadable.notCollection _ _ collects

theorem read_conforms_sets :
    let color : TypeIdent := ⟨"Color"⟩
    let reader : Reader :=
      { hierarchy := Hierarchy.standard.declare color (.enumeration ["RED", "GREEN"]) }
    let palettes : TypeExpr := .applied .set [.applied .set [.named color]]
    let text := "[[RED, GREEN], [ GREEN, RED, RED ], [RED]]"
    let red : Value := .member color "RED"
    let green : Value := .member color "GREEN"
    let value : Value := .collection .set [.collection .set [red, green], .collection .set [red]]
    (reader.read text palettes = .ok value ∧ reader.Unreadable (.applied .list [])) ∧
    reader.Conforms palettes text.toList value ∧
      ∀ value, reader.read "[]" (.applied .list []) ≠ .ok value := by
  intro color reader palettes text red green value
  have read : reader.read text palettes = .ok value := by decide +kernel
  have unreadable : reader.Unreadable (.applied .list []) := by
    apply Reader.unreadable_applied
    intro strategy known
    rw [reader.strategies_list] at known
    cases known
    simp
  exact ⟨⟨read, unreadable⟩, (read_conforms reader text palettes).1 value read,
    (read_conforms reader "[]" _).2 unreadable⟩

end TypedLiteral
