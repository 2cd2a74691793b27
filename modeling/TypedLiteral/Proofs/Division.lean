import TypedLiteral.Literal.Elements
import TypedLiteral.Proofs.Balance
import TypedLiteral.Proofs.TokenSequence

/-! The elements of a collection literal, without a scan. A body is divided at nesting level zero
into commas, bracketed groups and runs of other characters; groups and runs give the elements.
Every balanced body has exactly one division, and scanning its tokens finds that one. -/
namespace TypedLiteral.Literal

def IsSeparator (c : Char) : Prop := c = ',' ∨ IsBracket c

instance (c : Char) : Decidable (IsSeparator c) := inferInstanceAs (Decidable (_ ∨ _))

theorem balanced_of_plain {run : List Char} (plain : ∀ c ∈ run, ¬IsSeparator c) : Balanced run :=
  balanced_plain fun c member bracket => plain c member (Or.inr bracket)

theorem balanced_comma : Balanced [','] := balanced_plain (by simp [IsBracket])

def runElements (run : List Char) : List (List Char) :=
  if Text.trim run = [] then [] else [Text.trim run]

theorem runElements_blank {run : List Char} (blank : ∀ c ∈ run, Text.isBlank c) :
    runElements run = [] := by
  rw [runElements, if_pos (Text.trim_blank blank)]

/-- The second list holds the elements that the first one is divided into: the insides of its
groups as they stand, and its runs without their outer blanks if anything is left of them. -/
inductive Division : List Char → List (List Char) → Prop
  | nil : Division [] []
  | comma {rest texts} (behind : Division rest texts) : Division (',' :: rest) texts
  | group {inner rest texts} (balanced : Balanced inner) (behind : Division rest texts) :
      Division (bracketed inner ++ rest) (inner :: texts)
  -- A run ends only at a separator or with the body.
  | run {run rest texts} (present : run ≠ []) (plain : ∀ c ∈ run, ¬IsSeparator c)
      (maximal : ∀ c ∈ rest.head?, IsSeparator c) (behind : Division rest texts) :
      Division (run ++ rest) (runElements run ++ texts)

namespace Elements

private theorem leading?_separator {c : Char} (separator : IsSeparator c) (text : List Char) :
    Text.leading? delimiters (c :: text) = some [c] := by
  rcases separator with rfl | rfl | rfl <;> simp [Text.leading?, delimiters]

private theorem leading?_other {c : Char} (plain : ¬IsSeparator c) (text : List Char) :
    Text.leading? delimiters (c :: text) = none := by
  simp only [IsSeparator, IsBracket, not_or] at plain
  obtain ⟨comma, opening, closing⟩ := plain
  simp [Text.leading?, delimiters, Ne.symm comma, Ne.symm opening, Ne.symm closing]

private theorem segmentation_run {run : List Char} (plain : ∀ c ∈ run, ¬IsSeparator c)
    (rest : List Char) :
    Text.segmentation delimiters (run ++ rest) =
      (Text.segmentation delimiters rest).modifyHead (run ++ ·) := by
  induction run with
  | nil => exact (congrFun List.modifyHead_id _).symm
  | cons c run ih =>
    have behind := ih fun d later => plain d (List.mem_cons_of_mem c later)
    rw [List.cons_append, Text.segmentation_other (leading?_other (plain c List.mem_cons_self) _),
      behind, List.modifyHead_modifyHead]
    rfl

theorem tokens_nil : tokens [] delimiters true = [] := by
  rw [tokens_eq_filter, Text.segmentation_whole rfl]
  rfl

theorem tokens_separator {c : Char} (separator : IsSeparator c) (text : List Char) :
    tokens (c :: text) delimiters true = [c] :: tokens text delimiters true := by
  rw [tokens_eq_filter, tokens_eq_filter, Text.segmentation_delimiter (leading?_separator separator text)]
  rfl

theorem tokens_run {run rest : List Char} (present : run ≠ [])
    (plain : ∀ c ∈ run, ¬IsSeparator c) (maximal : ∀ c ∈ rest.head?, IsSeparator c) :
    tokens (run ++ rest) delimiters true = run :: tokens rest delimiters true := by
  rw [tokens_eq_filter, tokens_eq_filter, segmentation_run plain]
  cases rest with
  | nil =>
    have empty : Text.segmentation delimiters [] = [[]] := Text.segmentation_whole rfl
    simp [empty, present]
  | cons c rest =>
    have separator : IsSeparator c := maximal c rfl
    rw [Text.segmentation_delimiter (leading?_separator separator rest)]
    simp [present]

theorem exists_run {c : Char} (first : ¬IsSeparator c) (text : List Char) :
    ∃ run rest, c :: text = run ++ rest ∧ run ≠ [] ∧ (∀ d ∈ run, ¬IsSeparator d) ∧
      (∀ d ∈ rest.head?, IsSeparator d) ∧ rest.length < (c :: text).length := by
  let inRun (d : Char) : Bool := decide (¬IsSeparator d)
  have head : inRun c = true := by simpa [inRun] using first
  refine ⟨(c :: text).takeWhile inRun, (c :: text).dropWhile inRun,
    List.takeWhile_append_dropWhile.symm, by simp [head], ?_, ?_, ?_⟩
  · intro d member
    simpa [inRun] using List.mem_takeWhile_imp member
  · intro d begins
    have stopped := List.head?_dropWhile_not inRun (c :: text)
    rw [Option.mem_def.mp begins] at stopped
    simpa [inRun] using stopped
  · rw [List.dropWhile_cons_of_pos head]
    exact Nat.lt_succ_of_le (List.dropWhile_sublist inRun).length_le

theorem run_induction {motive : List Char → Prop} (nil : motive [])
    (separator : ∀ c rest, IsSeparator c → motive rest → motive (c :: rest))
    (run : ∀ run rest, run ≠ [] → (∀ c ∈ run, ¬IsSeparator c) →
      (∀ c ∈ rest.head?, IsSeparator c) → motive rest → motive (run ++ rest))
    (text : List Char) : motive text := by
  match text with
  | [] => exact nil
  | c :: text =>
    by_cases first : IsSeparator c
    · exact separator c text first (run_induction nil separator run text)
    · obtain ⟨front, rest, parts, present, plain, maximal, shorter⟩ := exists_run first text
      rw [parts]
      exact run front rest present plain maximal (run_induction nil separator run rest)
termination_by text.length
decreasing_by
  · exact Nat.lt_succ_self _
  · exact shorter

theorem tokens_append_separator (front : List Char) {c : Char} (separator : IsSeparator c)
    (text : List Char) :
    tokens (front ++ c :: text) delimiters true =
      tokens front delimiters true ++ [c] :: tokens text delimiters true := by
  induction front using run_induction with
  | nil => rw [tokens_nil, List.nil_append, tokens_separator separator, List.nil_append]
  | separator d rest first ih =>
    rw [List.cons_append, tokens_separator first, tokens_separator first, ih, List.cons_append]
  | run run rest present plain maximal ih =>
    have stops : ∀ d ∈ (rest ++ c :: text).head?, IsSeparator d := by
      cases rest with
      | nil => simpa using separator
      | cons d rest => exact maximal
    rw [List.append_assoc, tokens_run present plain stops, tokens_run present plain maximal, ih,
      List.cons_append]

private theorem run_ne_separator {run : List Char} (plain : ∀ c ∈ run, ¬IsSeparator c) {c : Char}
    (separator : IsSeparator c) : run ≠ [c] := by
  rintro rfl
  exact plain c List.mem_cons_self separator

/-- Inside a group every token joins the group, and the depth follows the brackets. -/
private theorem scan_inside {text : List Char} {depth last : Nat}
    (nested : depthAfter? depth text = some last) (group found : List (List Char)) :
    (tokens text delimiters true).foldlM Scan.step ⟨depth + 1, group, found⟩ =
      some ⟨last + 1, (tokens text delimiters true).reverse ++ group, found⟩ := by
  induction text using run_induction generalizing depth group with
  | nil =>
    rw [tokens_nil]
    cases nested
    rfl
  | separator c rest separator ih =>
    rw [tokens_separator separator, List.foldlM_cons, List.reverse_cons, List.append_assoc]
    rcases separator with rfl | rfl | rfl
    · rw [depthAfter?_other (by decide)] at nested
      exact ih nested _
    · exact ih nested _
    · cases depth with
      | zero => simp [depthAfter?] at nested
      | succ depth => exact ih nested _
  | run run rest present plain maximal ih =>
    have skipped : depthAfter? depth run = some depth := (balanced_of_plain plain).depth depth
    rw [depthAfter?_append, skipped] at nested
    have step : Scan.step ⟨depth + 1, group, found⟩ run = some ⟨depth + 1, run :: group, found⟩ := by
      unfold Scan.step
      rw [if_neg (run_ne_separator plain (Or.inr (Or.inl rfl))),
        if_neg (run_ne_separator plain (Or.inr (Or.inr rfl))), if_pos (Nat.succ_pos depth)]
    rw [tokens_run present plain maximal, List.foldlM_cons, step, List.reverse_cons,
      List.append_assoc]
    exact ih nested _

private theorem scan_run {run : List Char} (plain : ∀ c ∈ run, ¬IsSeparator c)
    (found : List (List Char)) :
    Scan.step ⟨0, [], found⟩ run = some ⟨0, [], (runElements run).reverse ++ found⟩ := by
  unfold Scan.step runElements
  rw [if_neg (run_ne_separator plain (Or.inr (Or.inl rfl))),
    if_neg (run_ne_separator plain (Or.inr (Or.inr rfl))), if_neg (Nat.lt_irrefl 0),
    if_neg (run_ne_separator plain (Or.inl rfl))]
  by_cases blank : Text.trim run = [] <;> simp [blank]

/-- Outside of groups the scan collects the elements of a division, newest first. -/
private theorem scan_division {body : List Char} {texts : List (List Char)}
    (division : Division body texts) (found : List (List Char)) :
    (tokens body delimiters true).foldlM Scan.step ⟨0, [], found⟩ =
      some ⟨0, [], texts.reverse ++ found⟩ := by
  induction division generalizing found with
  | nil => rw [tokens_nil]; rfl
  | comma behind ih =>
    rw [tokens_separator (Or.inl rfl), List.foldlM_cons]
    exact ih found
  | @group inner rest texts balanced behind ih =>
    have opened : Scan.step ⟨0, [], found⟩ ['['] = some ⟨1, [], found⟩ := rfl
    have collected := scan_inside (balanced.depth 0) [] found
    have closed : Scan.step ⟨1, (tokens inner delimiters true).reverse ++ [], found⟩ [']'] =
        some ⟨0, [], inner :: found⟩ := by
      have whole : (tokens inner delimiters true).flatten = inner :=
        tokens_flatten inner delimiters
      simp [Scan.step, whole]
    rw [bracketed, List.cons_append, List.append_assoc, List.singleton_append,
      tokens_separator (Or.inr (Or.inl rfl)), tokens_append_separator _ (Or.inr (Or.inr rfl)),
      List.foldlM_cons, opened, Option.bind_eq_bind, Option.bind_some, List.foldlM_append,
      collected, Option.bind_eq_bind, Option.bind_some, List.foldlM_cons, closed,
      Option.bind_eq_bind, Option.bind_some, ih]
    simp
  | @run run rest texts present plain maximal behind ih =>
    rw [tokens_run present plain maximal, List.foldlM_cons, scan_run plain]
    simpa using ih ((runElements run).reverse ++ found)

end Elements

theorem Division.balanced {body : List Char} {texts : List (List Char)}
    (division : Division body texts) : Balanced body := by
  induction division with
  | nil => exact balanced_plain (by simp)
  | comma behind ih => exact balanced_comma.append ih
  | group balanced behind ih => exact balanced.bracketed.append ih
  | run present plain maximal behind ih => exact (balanced_of_plain plain).append ih

/-- Each element is balanced again: a group by its brackets, a run for want of any. -/
theorem Division.elements_balanced {body : List Char} {texts : List (List Char)}
    (division : Division body texts) : ∀ part ∈ texts, Balanced part := by
  induction division with
  | nil => simp
  | comma behind ih => exact ih
  | group balanced behind ih => exact List.forall_mem_cons.mpr ⟨balanced, ih⟩
  | @run run rest texts present plain maximal behind ih =>
    intro part member
    rcases List.mem_append.mp member with first | later
    · unfold runElements at first
      split at first
      · simp at first
      · cases List.mem_singleton.mp first
        exact balanced_trim_iff.mpr (balanced_of_plain plain)
    · exact ih part later

theorem elements?_of_division {body : List Char} {texts : List (List Char)}
    (division : Division body texts) : elements? body = some texts := by
  have scanned := Elements.scan_division division []
  unfold elements?
  rw [show ({} : Elements.Scan) = ⟨0, [], []⟩ from rfl, scanned]
  simp

theorem Division.unique {body : List Char} {texts others : List (List Char)}
    (first : Division body texts) (second : Division body others) : texts = others :=
  Option.some.inj ((elements?_of_division first).symm.trans (elements?_of_division second))

theorem exists_division {body : List Char} (balanced : Balanced body) :
    ∃ texts, Division body texts := by
  match body with
  | [] => exact ⟨[], .nil⟩
  | c :: body =>
    by_cases first : IsSeparator c
    · rcases first with rfl | rfl | rfl
      · obtain ⟨texts, behind⟩ := exists_division (balanced_comma.of_append balanced)
        exact ⟨texts, .comma behind⟩
      · obtain ⟨inner, rest, parts, nested⟩ := exists_group (balanced_iff_depth.mp balanced)
        have grouped : '[' :: body = bracketed inner ++ rest := by simp [bracketed, parts]
        have within : Balanced inner := balanced_iff_depth.mpr nested
        rw [grouped] at balanced
        obtain ⟨texts, behind⟩ := exists_division (within.bracketed.of_append balanced)
        rw [grouped]
        exact ⟨inner :: texts, .group within behind⟩
      · have stray := balanced.covered [']'] (by simp)
        simp at stray
    · obtain ⟨run, rest, parts, present, plain, maximal, shorter⟩ := Elements.exists_run first body
      rw [parts] at balanced
      obtain ⟨texts, behind⟩ := exists_division ((balanced_of_plain plain).of_append balanced)
      rw [parts]
      exact ⟨runElements run ++ texts, .run present plain maximal behind⟩
termination_by body.length
decreasing_by
  · simp
  · simp [parts]
    omega
  · exact shorter

end TypedLiteral.Literal
