import Mathlib.Data.List.Nodup
import Mathlib.Logic.Function.Iterate
import Mathlib.Logic.Relation
import TypedLiteral.Type.StrategyTable

/-! The closed strategy table as the outcome of one queue. The table is closed by whole passes over
its entries. The queue takes one entry at a time and appends the parents that nothing in it names
yet. Both find the same entries in the same order: an entry that was passed on before has no unknown
parents left, so a pass is one turn of the queue for each entry behind those. -/
namespace TypedLiteral

namespace Hierarchy

/-- The second type is a direct ancestor of the first one. -/
def Extends (hierarchy : Hierarchy) (name parent : TypeIdent) : Prop :=
  parent ∈ hierarchy.parents name

instance (hierarchy : Hierarchy) (name parent : TypeIdent) :
    Decidable (hierarchy.Extends name parent) :=
  inferInstanceAs (Decidable (_ ∈ _))

end Hierarchy

namespace StrategyTable

abbrev Entry : Type := TypeIdent × Strategy

def names (entries : List Entry) : List TypeIdent :=
  entries.map Prod.fst

/-- The parents that are not known, each of them once. -/
def unknown (known : List TypeIdent) : List TypeIdent → List TypeIdent
  | [] => []
  | parent :: parents =>
    if parent ∈ known then unknown known parents
    else parent :: unknown (known ++ [parent]) parents

/-- What an entry adds to the present ones: its unknown parents, with its own strategy. -/
def discovered (hierarchy : Hierarchy) (entries : List Entry) (entry : Entry) : List Entry :=
  (unknown (names entries) (hierarchy.parents entry.1)).map fun parent => (parent, entry.2)

theorem contains_iff {entries : List Entry} {name : TypeIdent} :
    contains ⟨entries⟩ name = true ↔ name ∈ names entries := by
  constructor
  · intro present
    rw [contains, get?, Option.isSome_iff_exists] at present
    obtain ⟨strategy, found⟩ := present
    obtain ⟨before, after, rfl, -⟩ := List.lookup_eq_some_iff.mp found
    simp [names]
  · intro present
    obtain ⟨entry, member, rfl⟩ := List.mem_map.mp present
    exact contains_of_mem member

theorem get?_eq_some_iff {entries : List Entry} {name : TypeIdent} {strategy : Strategy}
    (distinct : (names entries).Nodup) :
    get? ⟨entries⟩ name = some strategy ↔ (name, strategy) ∈ entries := by
  rw [get?, List.lookup_eq_some_iff]
  constructor
  · intro known
    obtain ⟨before, after, rfl, -⟩ := known
    simp
  · intro member
    obtain ⟨before, after, rfl⟩ := List.append_of_mem member
    refine ⟨before, after, rfl, fun entry earlier => bne_iff_ne.mpr fun same => ?_⟩
    rw [names, List.map_append, List.nodup_append'] at distinct
    exact distinct.2.2 (List.mem_map_of_mem earlier) (by simp [← same])

theorem mem_unknown {known parents : List TypeIdent} {name : TypeIdent} :
    name ∈ unknown known parents ↔ name ∈ parents ∧ name ∉ known := by
  fun_induction unknown known parents <;> grind

theorem nodup_unknown (known parents : List TypeIdent) : (unknown known parents).Nodup := by
  fun_induction unknown known parents with
  | case1 known => exact .nil
  | case2 known parent parents old ih => exact ih
  | case3 known parent parents new ih =>
    refine List.nodup_cons.mpr ⟨fun again => ?_, ih⟩
    simp [mem_unknown] at again

section Turns

variable {hierarchy : Hierarchy} {entries : List Entry} {entry other : Entry}

theorem mem_discovered :
    other ∈ discovered hierarchy entries entry ↔
      hierarchy.Extends entry.1 other.1 ∧ other.1 ∉ names entries ∧ other.2 = entry.2 := by
  obtain ⟨name, strategy⟩ := other
  simp only [discovered, List.mem_map, mem_unknown, Hierarchy.Extends, Prod.mk.injEq]
  constructor
  · intro known
    obtain ⟨parent, ⟨direct, new⟩, rfl, rfl⟩ := known
    exact ⟨direct, new, rfl⟩
  · intro known
    obtain ⟨direct, new, rfl⟩ := known
    exact ⟨name, ⟨direct, new⟩, rfl, rfl⟩

theorem names_discovered :
    names (discovered hierarchy entries entry) =
      unknown (names entries) (hierarchy.parents entry.1) := by
  simp [names, discovered, Function.comp_def]

theorem discovered_eq_nil
    (settled : ∀ parent, hierarchy.Extends entry.1 parent → parent ∈ names entries) :
    discovered hierarchy entries entry = [] := by
  refine List.eq_nil_iff_forall_not_mem.mpr fun other member => ?_
  obtain ⟨direct, new, -⟩ := mem_discovered.mp member
  exact new (settled other.1 direct)

theorem continues_discovered :
    Continues hierarchy ⟨entries⟩ ⟨entries ++ discovered hierarchy entries entry⟩ := by
  refine ⟨_, rfl, fun other member => ?_⟩
  obtain ⟨direct, new, -⟩ := mem_discovered.mp member
  refine ⟨Hierarchy.parents_mentioned direct, ?_⟩
  rw [← Bool.not_eq_true, contains_iff]
  exact new

end Turns

/-- One queue over the entries: those of the first list have been taken, those of the second one
wait. -/
def breadthFirst (hierarchy : Hierarchy) (taken waiting : List Entry) : List Entry :=
  match waiting with
  | [] => taken
  | entry :: waiting =>
    breadthFirst hierarchy (taken ++ [entry])
      (waiting ++ discovered hierarchy (taken ++ entry :: waiting) entry)
termination_by ((missing hierarchy ⟨taken ++ waiting⟩).length, waiting.length)
decreasing_by
  have grown := @continues_discovered hierarchy (taken ++ entry :: waiting) entry
  have same : taken ++ [entry] ++ (waiting ++ discovered hierarchy (taken ++ entry :: waiting) entry) =
      taken ++ entry :: waiting ++ discovered hierarchy (taken ++ entry :: waiting) entry := by simp
  rw [same]
  cases added : discovered hierarchy (taken ++ entry :: waiting) entry with
  | nil =>
    rw [List.append_nil, List.append_nil]
    exact .right _ (Nat.lt_succ_self _)
  | cons other others =>
    rw [added] at grown
    exact .left _ _ (grown.missing_lt (by simp [size]))

/-- The earliest entry whose type has the name among its direct ancestors. -/
def earliest? (hierarchy : Hierarchy) (entries : List Entry) (name : TypeIdent) : Option Entry :=
  entries.find? fun entry => decide (hierarchy.Extends entry.1 name)

/-- The type is a seed or an ancestor of one. -/
def Reached (hierarchy : Hierarchy) (name : TypeIdent) : Prop :=
  ∃ seed ∈ seeds.entries, Relation.ReflTransGen hierarchy.Extends seed.1 name

/-- What holds of the queue between two turns. -/
structure Queued (hierarchy : Hierarchy) (taken waiting : List Entry) : Prop where
  seeded : seeds.entries <+: taken ++ waiting
  distinct : (names (taken ++ waiting)).Nodup
  reached : ∀ entry ∈ taken ++ waiting, Reached hierarchy entry.1
  settled : ∀ entry ∈ taken, ∀ parent, hierarchy.Extends entry.1 parent →
    parent ∈ names (taken ++ waiting)
  inherited : ∀ entry ∈ taken ++ waiting, entry ∈ seeds.entries ∨
    (earliest? hierarchy taken entry.1).map Prod.snd = some entry.2

section Queue

variable {hierarchy : Hierarchy} {taken waiting : List Entry} {entry : Entry}

theorem queued_seeds (hierarchy : Hierarchy) : Queued hierarchy [] seeds.entries where
  seeded := List.prefix_rfl
  distinct := by decide
  reached := fun entry member => ⟨entry, member, .refl⟩
  settled := by simp
  inherited := fun entry member => Or.inl member

theorem Queued.turn (queued : Queued hierarchy taken (entry :: waiting)) :
    Queued hierarchy (taken ++ [entry])
      (waiting ++ discovered hierarchy (taken ++ entry :: waiting) entry) := by
  generalize present : taken ++ entry :: waiting = entries at *
  have whole : taken ++ [entry] ++ (waiting ++ discovered hierarchy entries entry) =
      entries ++ discovered hierarchy entries entry := by simp [← present]
  have named : names (entries ++ discovered hierarchy entries entry) =
      names entries ++ unknown (names entries) (hierarchy.parents entry.1) := by
    rw [← names_discovered]
    exact List.map_append
  have mine : entry ∈ entries := by simp [← present]
  constructor
  · rw [whole]
    exact (present ▸ queued.seeded).trans (List.prefix_append _ _)
  · rw [whole, named, List.nodup_append']
    refine ⟨present ▸ queued.distinct, nodup_unknown _ _, fun name old new => ?_⟩
    exact (mem_unknown.mp new).2 old
  · rw [whole]
    intro other member
    rcases List.mem_append.mp member with old | new
    · exact queued.reached other (present ▸ old)
    · obtain ⟨seed, first, path⟩ := queued.reached entry (present ▸ mine)
      exact ⟨seed, first, path.tail (mem_discovered.mp new).1⟩
  · rw [whole, named]
    intro other member parent direct
    rw [List.mem_append, mem_unknown]
    rcases List.mem_append.mp member with old | last
    · exact Or.inl (present ▸ queued.settled other old parent direct)
    · obtain rfl := List.mem_singleton.mp last
      by_cases known : parent ∈ names entries
      · exact Or.inl known
      · exact Or.inr ⟨direct, known⟩
  · rw [whole]
    intro other member
    rcases List.mem_append.mp member with old | new
    · refine (queued.inherited other (present ▸ old)).imp id fun inherited => ?_
      obtain ⟨first, found, same⟩ := Option.map_eq_some_iff.mp inherited
      rw [earliest?, List.find?_append, ← earliest?, found]
      exact congrArg some same
    · -- Every entry taken before has all of its parents present, so this one is the earliest.
      obtain ⟨direct, fresh, same⟩ := mem_discovered.mp new
      have none : earliest? hierarchy taken other.1 = none := by
        refine List.find?_eq_none.mpr fun before earlier extends' => ?_
        exact fresh (present ▸ queued.settled before earlier _ (of_decide_eq_true extends'))
      rw [earliest?, List.find?_append, ← earliest?, none]
      simp [direct, same]

theorem Queued.breadthFirst (queued : Queued hierarchy taken waiting) :
    Queued hierarchy (breadthFirst hierarchy taken waiting) [] := by
  fun_induction StrategyTable.breadthFirst hierarchy taken waiting with
  | case1 taken => exact queued
  | case2 taken entry waiting ih => exact ih queued.turn

end Queue

section Passes

variable {hierarchy : Hierarchy} {table : StrategyTable} {taken waiting : List Entry}

/-- Passes the strategies of some entries on. -/
def visit (hierarchy : Hierarchy) (entries : List Entry) (table : StrategyTable) : StrategyTable :=
  entries.foldl
    (fun larger entry => (hierarchy.parents entry.1).foldl (enroll entry.2) larger) table

theorem foldl_enroll (strategy : Strategy) (parents : List TypeIdent) (entries : List Entry) :
    parents.foldl (enroll strategy) ⟨entries⟩ =
      ⟨entries ++ (unknown (names entries) parents).map fun parent => (parent, strategy)⟩ := by
  induction parents generalizing entries with
  | nil => simp [unknown]
  | cons parent parents ih =>
    rw [List.foldl_cons, enroll, unknown]
    simp only [contains_iff]
    split
    · exact ih entries
    · rw [ih]
      simp [names]

theorem visit_cons (entry : Entry) (later entries : List Entry) :
    visit hierarchy (entry :: later) ⟨entries⟩ =
      visit hierarchy later ⟨entries ++ discovered hierarchy entries entry⟩ := by
  rw [visit, List.foldl_cons, foldl_enroll]
  rfl

theorem visit_settled {entries : List Entry} (present : List Entry)
    (settled : ∀ entry ∈ entries, ∀ parent, hierarchy.Extends entry.1 parent →
      parent ∈ names present) : visit hierarchy entries ⟨present⟩ = ⟨present⟩ := by
  induction entries with
  | nil => rfl
  | cons entry entries ih =>
    obtain ⟨first, later⟩ := List.forall_mem_cons.mp settled
    rw [visit_cons, discovered_eq_nil first, List.append_nil]
    exact ih later

/-- Passing the first waiting entries on is as many turns of the queue. -/
theorem visit_turns (first : List Entry) {behind : List Entry}
    (queued : Queued hierarchy taken (first ++ behind)) :
    ∃ added, visit hierarchy first ⟨taken ++ (first ++ behind)⟩ =
        ⟨taken ++ (first ++ behind) ++ added⟩ ∧
      breadthFirst hierarchy taken (first ++ behind) =
        breadthFirst hierarchy (taken ++ first) (behind ++ added) ∧
      Queued hierarchy (taken ++ first) (behind ++ added) := by
  induction first generalizing taken behind with
  | nil => exact ⟨[], by simp [visit], by simp, by simpa using queued⟩
  | cons entry first ih =>
    let new := discovered hierarchy (taken ++ entry :: (first ++ behind)) entry
    have turned : Queued hierarchy (taken ++ [entry]) (first ++ (behind ++ new)) := by
      simpa [new] using queued.turn
    obtain ⟨added, visited, same, queued⟩ := ih turned
    refine ⟨new ++ added, ?_, ?_, by simpa using queued⟩
    · rw [List.cons_append, visit_cons]
      simpa [new] using visited
    · rw [List.cons_append, breadthFirst, List.append_assoc]
      simpa [new] using same

theorem pass_turns (queued : Queued hierarchy taken waiting)
    (whole : table.entries = taken ++ waiting) :
    ∃ added, (pass hierarchy table).entries = taken ++ waiting ++ added ∧
      breadthFirst hierarchy taken waiting = breadthFirst hierarchy (taken ++ waiting) added ∧
      Queued hierarchy (taken ++ waiting) added := by
  obtain ⟨entries⟩ := table
  subst whole
  have passed : pass hierarchy ⟨taken ++ waiting⟩ =
      visit hierarchy waiting (visit hierarchy taken ⟨taken ++ waiting⟩) := List.foldl_append
  rw [← List.append_nil waiting] at queued
  obtain ⟨added, visited, same, next⟩ := visit_turns waiting queued
  simp only [List.append_nil, List.nil_append] at queued visited same next
  rw [passed, visit_settled _ queued.settled, visited]
  exact ⟨added, rfl, same, next⟩

theorem close_entries (queued : Queued hierarchy taken waiting)
    (whole : table.entries = taken ++ waiting) :
    (close hierarchy table).entries = breadthFirst hierarchy taken waiting := by
  fun_induction close hierarchy table generalizing taken waiting with
  | case1 table grown fewer ih =>
    obtain ⟨added, passed, same, next⟩ := pass_turns queued whole
    rw [same]
    exact ih next passed
  | case2 table complete =>
    obtain ⟨added, passed, same, -⟩ := pass_turns queued whole
    have none : added = [] := by
      simpa [size, passed, whole] using complete
    rw [same, none, breadthFirst, whole]

theorem ofHierarchy_entries (hierarchy : Hierarchy) :
    (ofHierarchy hierarchy).entries = breadthFirst hierarchy [] seeds.entries :=
  close_entries (queued_seeds hierarchy) rfl

theorem ofHierarchy_queued (hierarchy : Hierarchy) :
    Queued hierarchy (ofHierarchy hierarchy).entries [] := by
  rw [ofHierarchy_entries]
  exact (queued_seeds hierarchy).breadthFirst

/-- A pass over the table adds entries to it. -/
def Grows (hierarchy : Hierarchy) (table : StrategyTable) : Prop :=
  (pass hierarchy table).size ≠ table.size

theorem close_iterate (hierarchy : Hierarchy) (table : StrategyTable) :
    ∃ passes, (∀ earlier < passes, Grows hierarchy ((pass hierarchy)^[earlier] table)) ∧
      ¬Grows hierarchy ((pass hierarchy)^[passes] table) ∧
      close hierarchy table = (pass hierarchy)^[passes] table := by
  fun_induction close hierarchy table with
  | case1 table grown fewer ih =>
    obtain ⟨passes, growing, ended, same⟩ := ih
    refine ⟨passes + 1, fun earlier before => ?_, ended, same⟩
    cases earlier with
    | zero => exact grown
    | succ earlier => exact growing earlier (by omega)
  | case2 table complete => exact ⟨0, by simp, complete, rfl⟩

end Passes

theorem contains_ofHierarchy_iff {hierarchy : Hierarchy} {name : TypeIdent} :
    (ofHierarchy hierarchy).contains name = true ↔ Reached hierarchy name := by
  have queued := ofHierarchy_queued hierarchy
  rw [contains_iff]
  constructor
  · intro present
    obtain ⟨entry, member, rfl⟩ := List.mem_map.mp present
    exact queued.reached entry (by simpa using member)
  · intro reached
    obtain ⟨seed, first, path⟩ := reached
    induction path with
    | refl =>
      have member := queued.seeded.subset first
      rw [List.append_nil] at member
      exact List.mem_map_of_mem member
    | tail earlier direct present =>
      obtain ⟨entry, member, rfl⟩ := List.mem_map.mp present
      simpa using queued.settled entry member _ direct

/-- The table of a hierarchy is the breadth-first closure of the seeds. The passes end with the
first one that adds nothing; seeds and ancestors of seeds have entries and nothing else has one; the
entries are those of the queue, in its order; a seed keeps its strategy, and any other entry has
that of the earliest entry of which it is a direct ancestor. -/
theorem ofHierarchy_breadthFirst (hierarchy : Hierarchy) :
    (∃ passes, (∀ earlier < passes, Grows hierarchy ((pass hierarchy)^[earlier] seeds)) ∧
      ¬Grows hierarchy ((pass hierarchy)^[passes] seeds) ∧
      ofHierarchy hierarchy = (pass hierarchy)^[passes] seeds) ∧
    (∀ name, (ofHierarchy hierarchy).contains name = true ↔ Reached hierarchy name) ∧
    (ofHierarchy hierarchy).entries = breadthFirst hierarchy [] seeds.entries ∧
    (names (ofHierarchy hierarchy).entries).Nodup ∧
    (∀ seed ∈ seeds.entries, (ofHierarchy hierarchy).get? seed.1 = some seed.2) ∧
    ∀ entry ∈ (ofHierarchy hierarchy).entries, seeds.contains entry.1 = false →
      (earliest? hierarchy (ofHierarchy hierarchy).entries entry.1).map Prod.snd =
        some entry.2 := by
  have queued := ofHierarchy_queued hierarchy
  have distinct : (names (ofHierarchy hierarchy).entries).Nodup := by simpa using queued.distinct
  refine ⟨close_iterate hierarchy seeds, fun name => contains_ofHierarchy_iff,
    ofHierarchy_entries hierarchy, distinct, fun seed first => ?_, fun entry member other => ?_⟩
  · have member := queued.seeded.subset first
    rw [List.append_nil] at member
    exact (get?_eq_some_iff distinct).mpr member
  · rcases queued.inherited entry (by simpa using member) with seed | inherited
    · rw [contains_of_mem seed] at other
      contradiction
    · exact inherited

private def tangled : Hierarchy :=
  ⟨[(.boxedLong, .ordinary (some ⟨"Shared"⟩) []),
    (.boxedInt, .ordinary (some ⟨"Shared"⟩) [.string, .boxedInt]),
    (.list, .interface [⟨"Ring"⟩, ⟨"Ring"⟩]),
    (⟨"Ring"⟩, .interface [⟨"Rung"⟩, ⟨"Ring"⟩]),
    (⟨"Rung"⟩, .interface [⟨"Ring"⟩, .list])]⟩

theorem ofHierarchy_breadthFirst_tangled :
    (ofHierarchy tangled).entries = seeds.entries ++
      [(⟨"Shared"⟩, .scalar (.integer .int)), (⟨"Ring"⟩, .list), (⟨"Rung"⟩, .list)] ∧
    (ofHierarchy tangled).get? .list = some .list ∧
    (earliest? tangled (ofHierarchy tangled).entries ⟨"Rung"⟩).map Prod.snd = some .list := by
  obtain ⟨-, -, -, -, seeded, inherited⟩ := ofHierarchy_breadthFirst tangled
  exact ⟨by decide +kernel, seeded (.list, .list) (by decide),
    inherited (⟨"Rung"⟩, .list) (by decide +kernel) (by decide)⟩

end StrategyTable
end TypedLiteral
