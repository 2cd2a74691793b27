import TypedLiteral.Type.Hierarchy

/-! Which way of reading belongs to which type. Eleven types have one of their own. A type without
one takes that of the earliest entry of which it is a direct ancestor, until no entry has an
ancestor without one. Entries stand in the order in which they were found. -/
namespace TypedLiteral

inductive ScalarKind
  | text
  | integer (width : Width)
  | boolean
  | double
deriving DecidableEq

/-- A type is read as a scalar or as a collection of one element type. -/
inductive Strategy
  | scalar (kind : ScalarKind)
  | set
  | list
deriving DecidableEq

structure StrategyTable where
  entries : List (TypeIdent × Strategy)

namespace StrategyTable

def size (table : StrategyTable) : Nat := table.entries.length

def get? (table : StrategyTable) (name : TypeIdent) : Option Strategy :=
  table.entries.lookup name

def contains (table : StrategyTable) (name : TypeIdent) : Bool :=
  (table.get? name).isSome

def seeds : StrategyTable :=
  ⟨[(.string, .scalar .text),
    (.int, .scalar (.integer .int)),
    (.boxedInt, .scalar (.integer .int)),
    (.long, .scalar (.integer .long)),
    (.boxedLong, .scalar (.integer .long)),
    (.boolean, .scalar .boolean),
    (.boxedBoolean, .scalar .boolean),
    (.double, .scalar .double),
    (.boxedDouble, .scalar .double),
    (.set, .set),
    (.list, .list)]⟩

/-- Appends an entry unless the name has one. -/
def enroll (strategy : Strategy) (table : StrategyTable) (name : TypeIdent) : StrategyTable :=
  if table.contains name then table else ⟨table.entries ++ [(name, strategy)]⟩

/-- Passes the strategy of every entry on to its direct ancestors. Entries added on the way wait
for the next pass. -/
def pass (hierarchy : Hierarchy) (table : StrategyTable) : StrategyTable :=
  table.entries.foldl
    (fun larger entry => (hierarchy.parents entry.1).foldl (enroll entry.2) larger) table

def missing (hierarchy : Hierarchy) (table : StrategyTable) : List TypeIdent :=
  hierarchy.mentioned.filter fun name => !table.contains name

/-- A table that continues another one with ancestors that it lacked. -/
def Continues (hierarchy : Hierarchy) (table larger : StrategyTable) : Prop :=
  ∃ added, larger.entries = table.entries ++ added ∧
    ∀ entry ∈ added, entry.1 ∈ hierarchy.mentioned ∧ table.contains entry.1 = false

theorem contains_append {table : StrategyTable} {added : List (TypeIdent × Strategy)}
    {name : TypeIdent} : contains ⟨table.entries ++ added⟩ name =
      (table.contains name || contains ⟨added⟩ name) := by
  simp only [contains, get?]
  induction table.entries with
  | nil => simp
  | cons entry entries ih =>
    obtain ⟨first, strategy⟩ := entry
    simp only [List.cons_append, List.lookup_cons]
    split <;> simp_all

theorem contains_of_mem {table : StrategyTable} {entry : TypeIdent × Strategy}
    (present : entry ∈ table.entries) : table.contains entry.1 = true := by
  obtain ⟨entries⟩ := table
  simp only [contains, get?]
  induction entries with
  | nil => simp at present
  | cons first entries ih =>
    obtain ⟨name, strategy⟩ := first
    simp only [List.lookup_cons]
    split
    · rfl
    · rename_i other
      rcases List.mem_cons.mp present with rfl | behind
      · simp at other
      · exact ih behind

theorem Continues.refl (hierarchy : Hierarchy) (table : StrategyTable) :
    Continues hierarchy table table :=
  ⟨[], by simp, by simp⟩

theorem Continues.enroll {hierarchy : Hierarchy} {table larger : StrategyTable} {name : TypeIdent}
    {strategy : Strategy} (grown : Continues hierarchy table larger)
    (mentioned : name ∈ hierarchy.mentioned) :
    Continues hierarchy table (larger.enroll strategy name) := by
  unfold StrategyTable.enroll
  split
  · exact grown
  · rename_i absent
    obtain ⟨added, entries, fresh⟩ := grown
    refine ⟨added ++ [(name, strategy)], by simp [entries], ?_⟩
    intro entry present
    rcases List.mem_append.mp present with old | new
    · exact fresh entry old
    · obtain rfl := List.mem_singleton.mp new
      have whole : larger = ⟨table.entries ++ added⟩ := by cases larger; simpa using entries
      rw [whole, contains_append] at absent
      simp_all

theorem Continues.foldl_enroll {hierarchy : Hierarchy} {table larger : StrategyTable}
    {strategy : Strategy} {names : List TypeIdent} (grown : Continues hierarchy table larger)
    (mentioned : ∀ name ∈ names, name ∈ hierarchy.mentioned) :
    Continues hierarchy table (names.foldl (StrategyTable.enroll strategy) larger) :=
  List.foldlRecOn names _ grown fun _ kept name listed => kept.enroll (mentioned name listed)

theorem pass_continues (hierarchy : Hierarchy) (table : StrategyTable) :
    Continues hierarchy table (pass hierarchy table) :=
  List.foldlRecOn table.entries _ (.refl hierarchy table) fun _ kept _ _ =>
    kept.foldl_enroll fun _ => Hierarchy.parents_mentioned

private theorem filter_length_lt {α : Type} {items : List α} {small large : α → Bool}
    (within : ∀ item, small item = true → large item = true) {extra : α} (present : extra ∈ items)
    (inLarge : large extra = true) (notSmall : small extra = false) :
    (items.filter small).length < (items.filter large).length := by
  induction items with
  | nil => simp at present
  | cons item items ih =>
    have weak : (items.filter small).length ≤ (items.filter large).length := by
      simpa only [List.countP_eq_length_filter] using
        List.countP_mono_left (l := items) fun other _ => within other
    rcases List.mem_cons.mp present with rfl | behind
    · simp only [List.filter_cons, inLarge, notSmall, if_true, Bool.false_eq_true, if_false,
        List.length_cons]
      omega
    · have strict := ih behind
      cases hs : small item with
      | true =>
        simp only [List.filter_cons, hs, within item hs, if_true, List.length_cons]
        omega
      | false =>
        cases hl : large item with
        | true =>
          simp only [List.filter_cons, hs, hl, if_true, Bool.false_eq_true, if_false,
            List.length_cons]
          omega
        | false => simpa only [List.filter_cons, hs, hl, Bool.false_eq_true, if_false] using strict

theorem Continues.missing_lt {hierarchy : Hierarchy} {table larger : StrategyTable}
    (continues : Continues hierarchy table larger) (grown : larger.size ≠ table.size) :
    (missing hierarchy larger).length < (missing hierarchy table).length := by
  obtain ⟨added, entries, fresh⟩ := continues
  have whole : larger = ⟨table.entries ++ added⟩ := by cases larger; simpa using entries
  cases added with
  | nil => simp [size, entries] at grown
  | cons entry added =>
    obtain ⟨mentioned, absent⟩ := fresh entry List.mem_cons_self
    refine filter_length_lt ?_ mentioned (by simp [absent]) ?_
    · intro name
      rw [whole, contains_append]
      simp +contextual
    · have present := @contains_of_mem larger entry (by rw [entries]; simp)
      simp [present]

theorem missing_pass {hierarchy : Hierarchy} {table : StrategyTable}
    (grown : (pass hierarchy table).size ≠ table.size) :
    (missing hierarchy (pass hierarchy table)).length < (missing hierarchy table).length :=
  (pass_continues hierarchy table).missing_lt grown

def close (hierarchy : Hierarchy) (table : StrategyTable) : StrategyTable :=
  if grown : (pass hierarchy table).size ≠ table.size then
    have := missing_pass grown
    close hierarchy (pass hierarchy table)
  else table
termination_by (missing hierarchy table).length

def ofHierarchy (hierarchy : Hierarchy) : StrategyTable :=
  close hierarchy seeds

end StrategyTable
end TypedLiteral
