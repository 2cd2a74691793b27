import Mathlib.Data.List.Forall2
import TypedLiteral.Literal.Scalar
import TypedLiteral.Proofs.Trimming

/-! Whole numbers as text and as values: which texts are numerals and of which number, which
numbers a width holds, and which value stands for a number in it. -/
namespace TypedLiteral

/-- Digits with an optional minus sign in front, and the number that they stand for. -/
inductive Numeral : List Char → Int → Prop
  | plain {digits} (present : digits ≠ []) (each : ∀ c ∈ digits, c.isDigit) :
      Numeral digits (Nat.ofDigitChars 10 digits 0)
  | negative {digits} (present : digits ≠ []) (each : ∀ c ∈ digits, c.isDigit) :
      Numeral ('-' :: digits) (-(Nat.ofDigitChars 10 digits 0 : Int))

/-- A numeral, or one with a point and more digits behind it. -/
inductive Fractional : List Char → Prop
  | whole {text number} (numeral : Numeral text number) : Fractional text
  | pointed {front fraction number} (numeral : Numeral front number)
      (digits : Decimal.areDigits fraction = true) : Fractional (front ++ '.' :: fraction)

theorem areDigits_iff {text : List Char} :
    Decimal.areDigits text = true ↔ text ≠ [] ∧ ∀ c ∈ text, c.isDigit := by
  simp [Decimal.areDigits]

theorem areDigits_toDigits (number : Nat) :
    Decimal.areDigits (Nat.toDigits 10 number) = true :=
  areDigits_iff.mpr ⟨Nat.toDigits_ne_nil,
    fun _ member => Nat.isDigit_of_mem_toDigits (by decide) (by decide) member⟩

theorem splitSign_cases (text : List Char) :
    (∃ digits, text = '-' :: digits ∧ Decimal.splitSign text = (true, digits)) ∨
      Decimal.splitSign text = (false, text) := by
  unfold Decimal.splitSign
  split
  · exact Or.inl ⟨_, rfl, rfl⟩
  · exact Or.inr rfl

theorem integer?_eq_some_iff {text : List Char} {number : Int} :
    integer? text = some number ↔ Numeral text number := by
  constructor
  · intro found
    unfold integer? at found
    simp only [Option.ite_none_right_eq_some, Option.some.injEq, areDigits_iff] at found
    obtain ⟨⟨present, each⟩, rfl⟩ := found
    rcases splitSign_cases text with ⟨digits, rfl, signed⟩ | unsigned
    · rw [signed] at present each ⊢
      exact .negative present each
    · rw [unsigned] at present each ⊢
      exact .plain present each
  · intro numeral
    cases numeral with
    | negative present each =>
      simp [integer?, Decimal.splitSign, areDigits_iff.mpr ⟨present, each⟩]
    | plain present each =>
      rcases splitSign_cases text with ⟨digits, rfl, -⟩ | unsigned
      · have sign := each '-' List.mem_cons_self
        contradiction
      · simp [integer?, unsigned, areDigits_iff.mpr ⟨present, each⟩]

theorem Numeral.unique {text : List Char} {number other : Int} (first : Numeral text number)
    (second : Numeral text other) : number = other := by
  have found := integer?_eq_some_iff.mpr first
  rw [integer?_eq_some_iff.mpr second] at found
  exact (Option.some.inj found).symm

theorem Numeral.ne_nil {text : List Char} {number : Int} (numeral : Numeral text number) :
    text ≠ [] := by
  cases numeral with
  | plain present each => exact present
  | negative present each => exact List.cons_ne_nil _ _

theorem Numeral.mem {text : List Char} {number : Int} (numeral : Numeral text number) {c : Char}
    (member : c ∈ text) : c = '-' ∨ c.isDigit := by
  cases numeral with
  | plain present each => exact Or.inr (each c member)
  | negative present each =>
    rcases List.mem_cons.mp member with rfl | behind
    · exact Or.inl rfl
    · exact Or.inr (each c behind)

theorem not_isBlank_of_isDigit {c : Char} (digit : c.isDigit) : Text.isBlank c = false := by
  simp only [Char.isDigit, Bool.and_eq_true, decide_eq_true_eq, ge_iff_le,
    UInt32.le_iff_toNat_le] at digit
  obtain ⟨low, high⟩ := digit
  change 48 ≤ c.toNat at low
  change c.toNat ≤ 57 at high
  simp [Text.isBlank]
  omega

theorem Numeral.trimmed {text : List Char} {number : Int} (numeral : Numeral text number) :
    Text.trim text = text := by
  refine Text.trim_of_forall_not_blank fun c member => ?_
  rcases numeral.mem member with rfl | digit
  · decide
  · exact not_isBlank_of_isDigit digit

theorem numeral_writeInteger (number : Int) : Numeral (writeInteger number) number := by
  obtain ⟨present, each⟩ := areDigits_iff.mp (areDigits_toDigits number.natAbs)
  unfold writeInteger
  split
  · rename_i below
    have numeral := Numeral.negative present each
    rwa [Nat.ofDigitChars_ten_toDigits, Int.ofNat_natAbs_of_nonpos (by omega), Int.neg_neg] at numeral
  · rename_i above
    have numeral := Numeral.plain present each
    rwa [Nat.ofDigitChars_ten_toDigits, Int.natAbs_of_nonneg (by omega)] at numeral

namespace Width

/-- The numbers of 32 and of 64 bits. -/
def Holds (width : Width) (number : Int) : Prop :=
  match width with
  | .int => -0x80000000 ≤ number ∧ number < 0x80000000
  | .long => -0x8000000000000000 ≤ number ∧ number < 0x8000000000000000

/-- The value of the width that is the given number. -/
inductive Represents : Width → Int → Value → Prop
  | int {word : Int32} : Represents .int word.toInt (.int word)
  | long {word : Int64} : Represents .long word.toInt (.long word)

theorem holds_iff_bounds {width : Width} {number : Int} :
    width.Holds number ↔ width.bounds.1 ≤ number ∧ number ≤ width.bounds.2 := by
  cases width <;> simp only [Holds, bounds] <;> omega

theorem Holds.long {width : Width} {number : Int} (held : width.Holds number) :
    Width.long.Holds number := by
  cases width <;> simp only [Holds] at held ⊢ <;> omega

theorem holds_long (word : Int64) : Width.long.Holds word.toInt :=
  ⟨word.le_toInt, word.toInt_lt⟩

theorem Holds.between {width : Width} {first last number : Int} (low : width.Holds first)
    (high : width.Holds last) (above : first ≤ number) (below : number ≤ last) :
    width.Holds number := by
  cases width <;> simp only [Holds] at low high ⊢ <;> omega

theorem Holds.toInt {width : Width} {number : Int} (held : width.Holds number) :
    (Int64.ofInt number).toInt = number := by
  obtain ⟨low, high⟩ := held.long
  exact Int64.toInt_ofInt_of_le (by omega) (by omega)

theorem Holds.represents {width : Width} {number : Int} (held : width.Holds number) :
    width.Represents number (width.value (Int64.ofInt number)) := by
  cases width with
  | int =>
    have same : (Int32.ofInt number).toInt = number :=
      Int32.toInt_ofInt_of_le (by have := held.1; omega) (by have := held.2; omega)
    rw [value, Int64.toInt32_ofInt]
    nth_rewrite 1 [← same]
    exact .int
  | long =>
    rw [value]
    nth_rewrite 1 [← held.toInt]
    exact .long

theorem Holds.represents_word {width : Width} {word : Int64} (held : width.Holds word.toInt) :
    width.Represents word.toInt (width.value word) := by
  have represents := held.represents
  rwa [Int64.ofInt_toInt] at represents

theorem Represents.holds {width : Width} {number : Int} {value : Value}
    (represents : width.Represents number value) : width.Holds number := by
  cases represents with
  | int => rename_i word; exact ⟨word.le_toInt, word.toInt_lt⟩
  | long => exact holds_long _

theorem Represents.unique {width : Width} {number : Int} {value other : Value}
    (first : width.Represents number value) (second : width.Represents number other) :
    value = other := by
  cases first with
  | int =>
    rename_i word
    generalize same : word.toInt = number at second
    cases second with
    | int => rw [Int32.toInt_inj.mp same]
  | long =>
    rename_i word
    generalize same : word.toInt = number at second
    cases second with
    | long => rw [Int64.toInt_inj.mp same]

theorem Represents.eq_value {width : Width} {number : Int} {value : Value}
    (represents : width.Represents number value) :
    value = width.value (Int64.ofInt number) :=
  represents.unique represents.holds.represents

theorem forall₂_represents_iff {width : Width} {numbers : List Int} {values : List Value}
    (held : ∀ number ∈ numbers, width.Holds number) :
    List.Forall₂ width.Represents numbers values ↔
      values = (numbers.map Int64.ofInt).map width.value := by
  induction numbers generalizing values with
  | nil => simp
  | cons number numbers ih =>
    obtain ⟨first, later⟩ := List.forall_mem_cons.mp held
    rw [List.forall₂_cons_left_iff]
    constructor
    · intro known
      obtain ⟨value, values, represents, rest, rfl⟩ := known
      rw [represents.eq_value, (ih later).mp rest]
      rfl
    · intro same
      subst same
      exact ⟨_, _, first.represents, (ih later).mpr rfl, rfl⟩

/-- The field is a numeral of the number, blanks aside, and the number fits into the width. -/
structure Denotes (width : Width) (field : List Char) (number : Int) : Prop where
  numeral : Numeral (Text.trim field) number
  held : width.Holds number

theorem Denotes.unique {width : Width} {field : List Char} {number other : Int}
    (first : width.Denotes field number) (second : width.Denotes field other) : number = other :=
  first.numeral.unique second.numeral

end Width

theorem Literal.readInteger_eq_ok_iff {width : Width} {text : List Char} {word : Int64} :
    readInteger width text = .ok word ↔
      ∃ number, width.Denotes text number ∧ word = Int64.ofInt number := by
  constructor
  · intro read
    simp only [readInteger] at read
    split at read
    · contradiction
    · rename_i number found
      split at read
      · rename_i inside
        cases read
        exact ⟨number, ⟨integer?_eq_some_iff.mp found, Width.holds_iff_bounds.mpr inside⟩, rfl⟩
      · contradiction
  · intro known
    obtain ⟨number, ⟨numeral, held⟩, rfl⟩ := known
    have inside := Width.holds_iff_bounds.mp held
    simp [readInteger, integer?_eq_some_iff.mpr numeral, inside]

theorem Literal.readInteger_eq_error_iff {width : Width} {text : List Char} {failure : Failure} :
    readInteger width text = .error failure ↔
      (∀ number, ¬width.Denotes text number) ∧
        failure = invalidNumber (Text.trim text) width.typeName := by
  have fails (other : Failure) (failed : readInteger width text = .error other) :
      other = invalidNumber (Text.trim text) width.typeName := by
    simp only [readInteger] at failed
    split at failed
    · exact (Except.error.inj failed).symm
    · split at failed
      · contradiction
      · exact (Except.error.inj failed).symm
  constructor
  · intro failed
    refine ⟨fun number denotes => ?_, fails failure failed⟩
    rw [readInteger_eq_ok_iff.mpr ⟨number, denotes, rfl⟩] at failed
    contradiction
  · intro known
    obtain ⟨none, rfl⟩ := known
    cases read : readInteger width text with
    | error other => rw [fails other read]
    | ok word =>
      obtain ⟨number, denotes, -⟩ := readInteger_eq_ok_iff.mp read
      exact (none number denotes).elim

end TypedLiteral
