import TypedLiteral.Proofs.InOrder
import TypedLiteral.Proofs.Balance
import TypedLiteral.Reader

/-! Collection types: arrays, and names with a list or set strategy that are applied to exactly one
element type. Their shape follows from that of the element type, and reading them depends on how
deep they lie only through the depth limit. -/
namespace TypedLiteral

open Literal

namespace StrategyTable

theorem get?_close {hierarchy : Hierarchy} {table : StrategyTable} {name : TypeIdent}
    {strategy : Strategy} (known : table.get? name = some strategy) :
    (close hierarchy table).get? name = some strategy := by
  fun_induction close hierarchy table with
  | case1 table grown fewer ih =>
    apply ih
    obtain ⟨added, entries, -⟩ := pass_continues hierarchy table
    rw [get?] at known
    rw [get?, entries, List.lookup_append, known]
    rfl
  | case2 table complete => exact known

end StrategyTable

theorem Reader.strategies_list (reader : Reader) : reader.strategies.get? .list = some .list :=
  StrategyTable.get?_close (by decide)

/-- The integers keep their way of reading, whatever is declared of them. -/
theorem Reader.strategies_of_width {reader : Reader} {name : TypeIdent} {width : Width}
    (integral : name.width? = some width) :
    reader.strategies.get? name = some (.scalar (.integer width)) := by
  apply StrategyTable.get?_close
  unfold TypeIdent.width? at integral
  split at integral
  · rename_i either
    cases integral
    rcases either with rfl | rfl <;> decide
  · split at integral
    · rename_i either
      cases integral
      rcases either with rfl | rfl <;> decide
    · contradiction

/-- The type is read as a collection of the given form and element type. -/
inductive Reader.Collects (reader : Reader) : TypeExpr → Form → TypeExpr → Prop
  | array {element} : Collects reader (.array element) .array element
  | list {name element} (strategy : reader.strategies.get? name = some .list) :
      Collects reader (.applied name [element]) .list element
  | set {name element} (strategy : reader.strategies.get? name = some .set) :
      Collects reader (.applied name [element]) .set element

def Shape.levels : Shape → Nat
  | .sequence _ _ => 1
  | .collection _ element => element.levels + 1
  | _ => 0

namespace Reader

def levels (reader : Reader) (type : TypeExpr) : Nat :=
  (reader.shape type).levels

variable {reader : Reader} {type element : TypeExpr} {form : Form}

theorem Collects.shape (collects : reader.Collects type form element) :
    reader.shape type = Shape.ofElement form element (reader.shape element) := by
  cases collects with
  | array => simp [Reader.shape, Shape.ofExpr]
  | list strategy => simp [Reader.shape, Shape.ofExpr, strategy, Shape.ofElements, Shape.only]
  | set strategy => simp [Reader.shape, Shape.ofExpr, strategy, Shape.ofElements, Shape.only]

theorem Collects.width?_eq_none (collects : reader.Collects type form element) :
    type.width? = none := by
  cases collects <;> rfl

theorem Collects.shape_of_width (collects : reader.Collects type form element) {width : Width}
    (integral : element.width? = some width) : reader.shape type = .sequence form width := by
  rw [collects.shape, Shape.ofElement, integral]

theorem Collects.shape_of_plain (collects : reader.Collects type form element)
    (plain : element.width? = none) :
    reader.shape type = .collection form (reader.shape element) := by
  rw [collects.shape, Shape.ofElement, plain]

theorem levels_named (reader : Reader) (name : TypeIdent) : reader.levels (.named name) = 0 := by
  simp only [levels, shape, Shape.ofExpr]
  split
  · rfl
  · split <;> rfl

theorem Collects.levels (collects : reader.Collects type form element) :
    reader.levels type = reader.levels element + 1 := by
  cases integral : element.width? with
  | none => rw [Reader.levels, collects.shape_of_plain integral]; rfl
  | some width =>
    have none : reader.levels element = 0 := by
      cases element with
      | named name => exact levels_named reader name
      | applied name elements => simp [TypeExpr.width?] at integral
      | array element => simp [TypeExpr.width?] at integral
    rw [Reader.levels, collects.shape_of_width integral, none]
    rfl

end Reader

namespace Shape

variable {limits : Limits} {depth : Nat} {text body : List Char}

theorem enter_eq_ok_iff :
    enter limits depth text = .ok body ↔ depth < limits.maxDepth ∧ body? text = some body := by
  unfold enter
  split
  · rename_i deep
    exact ⟨nofun, fun below => (Nat.not_lt.mpr deep below.1).elim⟩
  · rename_i shallow
    cases found : body? text <;> simp [Nat.lt_of_not_le shallow]

theorem enter_eq_of_lt {other : Nat} (shallow : depth < limits.maxDepth)
    (otherShallow : other < limits.maxDepth) : enter limits depth text = enter limits other text := by
  unfold enter
  rw [if_neg (Nat.not_le_of_lt shallow), if_neg (Nat.not_le_of_lt otherShallow)]

/-- Where the levels of a shape fit below the limit, its depth makes no difference. -/
theorem read_depth {shape : Shape} {depth other : Nat}
    (fits : depth + shape.levels ≤ limits.maxDepth)
    (otherFits : other + shape.levels ≤ limits.maxDepth) (text : List Char) :
    shape.read limits depth text = shape.read limits other text := by
  induction shape generalizing depth other text with
  | sequence form width =>
    simp only [levels] at fits otherFits
    simp only [read]
    have entered : enter limits depth text = enter limits other text :=
      enter_eq_of_lt (by omega) (by omega)
    rw [entered]
  | collection form element ih =>
    simp only [levels] at fits otherFits
    have elements : read limits element (depth + 1) = read limits element (other + 1) :=
      funext fun part => ih (by omega) (by omega) part
    simp only [read]
    have entered : enter limits depth text = enter limits other text :=
      enter_eq_of_lt (by omega) (by omega)
    rw [entered, elements]
  | _ => rfl

theorem read_of_enter_error {shape : Shape} {failure : Failure} (nested : 0 < shape.levels)
    (stopped : enter limits depth text = .error failure) :
    shape.read limits depth text = .error failure := by
  cases shape with
  | sequence form width =>
    rw [read, stopped]
    rfl
  | collection form element =>
    rw [read, stopped]
    rfl
  | _ => simp [levels] at nested

theorem exists_body_of_read {shape : Shape} {value : Value} (nested : 0 < shape.levels)
    (succeeded : shape.read limits depth text = .ok value) :
    depth < limits.maxDepth ∧ ∃ body, body? text = some body := by
  cases entered : enter limits depth text with
  | error failure =>
    rw [read_of_enter_error nested entered] at succeeded
    contradiction
  | ok body =>
    obtain ⟨shallow, unwrapped⟩ := enter_eq_ok_iff.mp entered
    exact ⟨shallow, body, unwrapped⟩

theorem read_sequence {form : Form} {width : Width} (shallow : depth < limits.maxDepth)
    (unwrapped : body? text = some body) :
    (Shape.sequence form width).read limits depth text =
      (readSequence width limits.maxRangeLength body).map
        fun numbers => Value.ofElements form (numbers.map width.value) := by
  have entered := enter_eq_ok_iff.mpr ⟨shallow, unwrapped⟩
  simp only [read, entered, bind, Except.bind]
  cases readSequence width limits.maxRangeLength body <;> rfl

/-- Where the integers of a sequence that was read come from. -/
theorem exists_of_read_sequence {form : Form} {width : Width} {value : Value}
    (succeeded : (Shape.sequence form width).read limits depth text = .ok value) :
    ∃ body numbers, body? text = some body ∧
      readSequence width limits.maxRangeLength body = .ok numbers ∧
      Value.ofElements form (numbers.map width.value) = value := by
  have nested : 0 < (Shape.sequence form width).levels := Nat.one_pos
  obtain ⟨shallow, body, unwrapped⟩ := exists_body_of_read nested succeeded
  rw [read_sequence shallow unwrapped] at succeeded
  obtain ⟨numbers, read, same⟩ := map_eq_ok_iff.mp succeeded
  exact ⟨body, numbers, unwrapped, read, same⟩

end Shape
end TypedLiteral
