import TypedLiteral.Proofs.Conformance
import TypedLiteral.Proofs.Reports

/-! Where the texts in an outcome come from. Bodies, elements and tokens are taken out of a literal
in one piece each, so whatever a failure shows of it, and every text and member name in a value,
still stands in the literal as it was given, however deep the collections are. -/
namespace TypedLiteral

theorem Text.trim_isInfix (text : List Char) : trim text <:+: text := by
  obtain ⟨before, after, parts, -, -⟩ := trim_parts text
  nth_rewrite 2 [parts]
  exact List.infix_append' before (trim text) after

namespace Literal

theorem tokens_isInfix {text token : List Char} {delimiters : List (List Char)}
    (present : token ∈ tokens text delimiters true) : token <:+: text := by
  have within := List.infix_of_mem_flatten present
  rwa [tokens_flatten] at within

theorem bracketed_isInfix (inner : List Char) : inner <:+: bracketed inner :=
  List.infix_append ['['] inner [']']

theorem body?_isInfix {text body : List Char} (unwrapped : body? text = some body) :
    body <:+: text := by
  rcases (body?_eq_some_iff.mp unwrapped).2 with encloses | ⟨rfl, -⟩
  · have within := bracketed_isInfix body
    rw [← encloses.group] at within
    exact within.trans (Text.trim_isInfix text)
  · exact List.infix_rfl

theorem Division.elements_isInfix {body : List Char} {texts : List (List Char)}
    (division : Division body texts) : ∀ part ∈ texts, part <:+: body := by
  induction division with
  | nil => simp
  | comma behind ih => exact fun part member => List.infix_cons (ih part member)
  | @group inner rest texts balanced behind ih =>
    refine List.forall_mem_cons.mpr ⟨?_, fun part member => ?_⟩
    · exact (bracketed_isInfix inner).trans (List.prefix_append _ rest).isInfix
    · exact (ih part member).trans (List.suffix_append _ rest).isInfix
  | @run run rest texts present plain maximal behind ih =>
    intro part member
    rcases List.mem_append.mp member with first | later
    · unfold runElements at first
      split at first
      · simp at first
      · cases List.mem_singleton.mp first
        exact (Text.trim_isInfix run).trans (List.prefix_append run rest).isInfix
    · exact (ih part later).trans (List.suffix_append run rest).isInfix

end Literal

open Literal

/-- What a failure shows of the literal: tokens and texts, but neither types nor numbers. -/
def Failure.fragments : Failure → List String
  | .unsupportedType _ text | .unknownMember _ text | .unbalancedBrackets text
  | .rangeWithoutStart text | .nestingTooDeep _ text => [text]
  | .unexpectedToken token text => [token, text]
  | .numberFormat token _ | .invalidBoolean token => [token]
  | .arity _ _ | .rangeTooLarge _ _ _ | .custom _ => []

def Failure.Quotes (failure : Failure) (text : List Char) : Prop :=
  ∀ fragment ∈ failure.fragments, fragment.toList <:+: text

namespace Failure.Quotes

variable {failure : Failure} {text part : List Char}

theorem mono (quotes : failure.Quotes part) (within : part <:+: text) : failure.Quotes text :=
  fun fragment shown => (quotes fragment shown).trans within

theorem of_single {fragment : List Char} (single : failure.fragments = [String.ofList fragment])
    (within : fragment <:+: text) : failure.Quotes text := by
  simpa [Quotes, single] using within

end Failure.Quotes

variable {text : List Char} {failure : Failure}

theorem ScalarKind.Reports.quotes {kind : ScalarKind} (reports : kind.Reports text failure) :
    failure.Quotes text := by
  cases reports <;> exact .of_single rfl (Text.trim_isInfix text)

theorem Literal.Sequence.Reports.quotes {width : Width} {limit : Nat} {body : List Char}
    (reports : Sequence.Reports width limit body failure) : failure.Quotes body := by
  have inside {token : List Char}
      (present : token ∈ tokens (Text.trim body) [comma, dots] true) : token <:+: body :=
    (tokens_isInfix present).trans (Text.trim_isInfix body)
  cases reports with
  | unexpected delimiter present =>
    simpa [Failure.Quotes, Failure.fragments] using inside present
  | unstarted => exact .of_single rfl List.infix_rfl
  | number present => exact .of_single rfl ((Text.trim_isInfix _).trans (inside present))
  | tooLarge first last => simp [Failure.Quotes, Failure.fragments]

theorem Shape.Reports.quotes {limits : Limits} {shape : Shape} {depth : Nat}
    (reports : shape.Reports limits depth text failure) : failure.Quotes text := by
  induction reports with
  | member type members depth text => exact .of_single rfl (Text.trim_isInfix text)
  | scalar reports => exact reports.quotes
  | unsupported type depth text => exact .of_single rfl List.infix_rfl
  | misapplied type found depth text => simp [Failure.Quotes, Failure.fragments]
  | tooDeep nested deep => exact .of_single rfl List.infix_rfl
  | unbalanced nested shallow unbalanced => exact .of_single rfl List.infix_rfl
  | sequence shallow unwrapped reports => exact reports.quotes.mono (body?_isInfix unwrapped)
  | element shallow unwrapped division listed reports ih =>
    exact ih.mono ((division.elements_isInfix _ listed).trans (body?_isInfix unwrapped))

/-- The content is that of a text, or the name of a member, somewhere in the value. -/
inductive Value.Shows : Value → String → Prop
  | text (content : String) : Shows (.text content) content
  | member (type : TypeIdent) (name : String) : Shows (.member type name) name
  | element {form elements part content} (listed : part ∈ elements) (shows : Shows part content) :
      Shows (.collection form elements) content

theorem Value.Shows.of_ofElements {form : Form} {elements : List Value} {content : String}
    (shows : (ofElements form elements).Shows content) :
    ∃ part ∈ elements, part.Shows content := by
  unfold ofElements at shows
  cases shows with
  | element listed shows =>
    split at listed
    · exact ⟨_, (distinct_sublist elements).subset listed, shows⟩
    · exact ⟨_, listed, shows⟩

theorem ScalarKind.Variant.not_shows {width : Width} {value : Value} {content : String}
    (variant : (ScalarKind.integer width).Variant value) : ¬value.Shows content := by
  rintro (_ | _ | _) <;> contradiction

theorem readScalar_shows {kind : ScalarKind} {value : Value}
    (succeeded : readScalar kind text = .ok value) {content : String}
    (shows : value.Shows content) : content = String.ofList text := by
  cases variant_of_readScalar succeeded with
  | text written =>
    cases shows
    cases succeeded
    rfl
  | _ => contradiction

theorem Shape.read_shows {limits : Limits} {shape : Shape} {depth : Nat} {value : Value}
    (succeeded : shape.read limits depth text = .ok value) {content : String}
    (shows : value.Shows content) : content.toList <:+: text := by
  induction shape generalizing depth text value with
  | member type members =>
    obtain ⟨-, rfl⟩ := readMember_eq_ok_iff.mp succeeded
    cases shows
    simpa using Text.trim_isInfix text
  | scalar kind => simp [readScalar_shows succeeded shows]
  | unsupported type => contradiction
  | misapplied type found => contradiction
  | sequence form width =>
    obtain ⟨-, numbers, -, -, rfl⟩ := exists_of_read_sequence succeeded
    obtain ⟨part, listed, shown⟩ := shows.of_ofElements
    obtain ⟨number, -, rfl⟩ := List.mem_map.mp listed
    exact ((width.variant_value number).not_shows shown).elim
  | collection form element ih =>
    obtain ⟨body, texts, values, unwrapped, division, each, rfl⟩ :=
      exists_of_read_collection succeeded
    obtain ⟨value, member, shown⟩ := shows.of_ofElements
    obtain ⟨part, listed, read⟩ := exists_mem_of_forall₂ each member
    have inside := (division.elements_isInfix part listed).trans (body?_isInfix unwrapped)
    exact (ih read shown).trans inside

/-- Whatever part of the literal an outcome shows, it stands in the literal in one piece. -/
theorem read_fragments (reader : Reader) (text : String) (type : TypeExpr) :
    (∀ failure, reader.read text type = .error failure →
      ∀ fragment ∈ failure.fragments, fragment.toList <:+: text.toList) ∧
    ∀ value, reader.read text type = .ok value →
      ∀ content, value.Shows content → content.toList <:+: text.toList :=
  ⟨fun _ failed => (Shape.read_failure failed).quotes,
    fun _ succeeded _ shows => Shape.read_shows succeeded shows⟩

theorem read_fragments_nested :
    let numbers : TypeExpr := .array (.array (.named .int))
    let words : TypeExpr := .array (.array (.named .string))
    let text := "[ [1..3], [4,  5 .. six ] ]"
    let row (texts : List String) : Value := .collection .array (texts.map .text)
    (Reader.read {} text numbers = .error (.numberFormat "six" "int") ∧
      Reader.read {} text words =
        .ok (.collection .array [row ["1..3"], row ["4", "5 .. six"]])) ∧
    "six".toList <:+: text.toList ∧ "5 .. six".toList <:+: text.toList := by
  intro numbers words text row
  have failed : Reader.read {} text numbers = .error (.numberFormat "six" "int") := by
    decide +kernel
  have succeeded : Reader.read {} text words =
      .ok (.collection .array [row ["1..3"], row ["4", "5 .. six"]]) := by decide +kernel
  have shows : (Value.collection .array [row ["1..3"], row ["4", "5 .. six"]]).Shows "5 .. six" :=
    .element (List.mem_cons_of_mem _ List.mem_cons_self)
      (.element (List.mem_cons_of_mem _ List.mem_cons_self) (.text _))
  refine ⟨⟨failed, succeeded⟩, ?_, ?_⟩
  · exact (read_fragments {} text numbers).1 _ failed "six" List.mem_cons_self
  · exact (read_fragments {} text words).2 _ succeeded _ shows

end TypedLiteral
