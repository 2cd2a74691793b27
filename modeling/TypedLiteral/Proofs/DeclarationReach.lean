import TypedLiteral.Proofs.BreadthFirst
import TypedLiteral.Proofs.CollectionType
import TypedLiteral.Proofs.TypeNames

/-! Which declarations matter. Closing the strategy table looks at the parents of its own entries
only, and a type looks up no names but its own. So a declaration that is neither among the entries
nor named changes nothing, and nothing but what is found under each name matters: declarations of
different types may come in any order. -/
namespace TypedLiteral

namespace Hierarchy

/-- Takes declarations in, one after the other. -/
def declareAll (hierarchy : Hierarchy) (declarations : List (TypeIdent × Declaration)) : Hierarchy :=
  declarations.foldl (fun known entry => known.declare entry.1 entry.2) hierarchy

/-- Literals of the type are read alike in both hierarchies whatever the limits are, and its
patterns are the same. -/
structure AlikeFor (first second : Hierarchy) (type : TypeExpr) : Prop where
  read : ∀ limits text, Reader.read ⟨first, limits⟩ text type = Reader.read ⟨second, limits⟩ text type
  pattern : ∀ limits, Reader.pattern ⟨first, limits⟩ type = Reader.pattern ⟨second, limits⟩ type

variable {hierarchy first second : Hierarchy} {name other : TypeIdent}

theorem lookup_place (declaration : Declaration) (entries : List (TypeIdent × Declaration)) :
    (place name declaration entries).lookup other =
      if other = name then some declaration else entries.lookup other := by
  induction entries with
  | nil =>
    rw [place, List.lookup_cons]
    split <;> simp_all
  | cons entry entries ih =>
    rw [place]
    split
    · rename_i replaced
      rw [List.lookup_cons, List.lookup_cons, replaced]
      split <;> simp_all
    · rename_i kept
      rw [List.lookup_cons, List.lookup_cons, ih]
      split
      · rename_i found
        have different : other ≠ name := fun same => kept ((eq_of_beq found).symm.trans same)
        rw [if_neg different]
      · rfl

theorem get?_declare (declaration : Declaration) :
    (hierarchy.declare name declaration).get? other =
      if other = name then some declaration else hierarchy.get? other :=
  lookup_place declaration hierarchy.entries

/-- Of declarations of different types, each is found under its own name. -/
theorem get?_declareAll_eq_some_iff {declarations : List (TypeIdent × Declaration)}
    (distinct : (declarations.map Prod.fst).Nodup) {declaration : Declaration} :
    (hierarchy.declareAll declarations).get? name = some declaration ↔
      (name, declaration) ∈ declarations ∨
        name ∉ declarations.map Prod.fst ∧ hierarchy.get? name = some declaration := by
  induction declarations generalizing hierarchy with
  | nil => simp [declareAll]
  | cons entry declarations ih =>
    obtain ⟨declared, latest⟩ := entry
    obtain ⟨fresh, distinct⟩ := List.nodup_cons.mp distinct
    rw [declareAll, List.foldl_cons, ← declareAll, ih distinct, get?_declare]
    by_cases same : name = declared
    · subst same
      have absent : (name, declaration) ∉ declarations :=
        fun member => fresh (List.mem_map.mpr ⟨_, member, rfl⟩)
      simp [absent, fresh, eq_comm]
    · simp [same]

theorem get?_declareAll_of_perm {declarations others : List (TypeIdent × Declaration)}
    (distinct : (declarations.map Prod.fst).Nodup) (permuted : declarations.Perm others) :
    (hierarchy.declareAll declarations).get? name = (hierarchy.declareAll others).get? name := by
  have names := permuted.map Prod.fst
  ext declaration
  rw [get?_declareAll_eq_some_iff distinct, get?_declareAll_eq_some_iff (names.nodup distinct),
    permuted.mem_iff, names.mem_iff]

theorem parents_congr (same : first.get? name = second.get? name) :
    first.parents name = second.parents name := by
  rw [parents, parents, same]

theorem members?_congr (same : first.get? name = second.get? name) :
    first.members? name = second.members? name := by
  rw [members?, members?, same]

end Hierarchy

namespace StrategyTable

variable {hierarchy other : Hierarchy} {table : StrategyTable}

theorem contains_close {name : TypeIdent} (known : table.contains name = true) :
    (close hierarchy table).contains name = true := by
  obtain ⟨strategy, found⟩ := Option.isSome_iff_exists.mp known
  exact Option.isSome_iff_exists.mpr ⟨strategy, get?_close found⟩

theorem close_of_grows (grown : (pass hierarchy table).size ≠ table.size) :
    close hierarchy table = close hierarchy (pass hierarchy table) := by
  rw [close, dif_pos grown]

theorem close_of_complete (complete : ¬(pass hierarchy table).size ≠ table.size) :
    close hierarchy table = table := by
  rw [close, dif_neg complete]

theorem pass_congr (agree : ∀ name, table.contains name = true →
    hierarchy.parents name = other.parents name) : pass other table = pass hierarchy table := by
  apply List.foldl_ext
  intro larger entry member
  rw [agree entry.1 (contains_of_mem member)]

/-- Only the parents of what the closed table holds have been looked at. -/
theorem close_congr (agree : ∀ name, (close hierarchy table).contains name = true →
    hierarchy.parents name = other.parents name) : close other table = close hierarchy table := by
  have passed : pass other table = pass hierarchy table :=
    pass_congr fun name known => agree name (contains_close known)
  fun_induction close hierarchy table with
  | case1 table grown fewer ih =>
    rw [close_of_grows (passed.symm ▸ grown), passed]
    exact ih agree (pass_congr fun name known => agree name (contains_close known))
  | case2 table complete => exact close_of_complete (passed.symm ▸ complete)

end StrategyTable

namespace Shape

variable {first second : Hierarchy} {table : StrategyTable}

theorem ofElements_eq_map (hierarchy : Hierarchy) (form : Form) (elements : List TypeExpr) :
    ofElements hierarchy table form elements =
      elements.map fun element => ofElement form element (ofExpr hierarchy table element) := by
  induction elements with
  | nil => rfl
  | cons element elements ih => rw [ofElements, ih, List.map_cons]

theorem ofExpr_congr {type : TypeExpr}
    (agree : ∀ name ∈ type.names, first.members? name = second.members? name) :
    ofExpr first table type = ofExpr second table type := by
  induction type using TypeExpr.induction_on_elements with
  | named name => rw [ofExpr, ofExpr, agree name (List.mem_singleton_self name)]
  | applied name elements ih =>
    have inside (form : Form) :
        ofElements first table form elements = ofElements second table form elements := by
      rw [ofElements_eq_map, ofElements_eq_map]
      refine List.map_congr_left fun element member => ?_
      rw [ih element member fun inner listed =>
        agree inner (List.mem_cons_of_mem name (TypeExpr.mem_namesAll.mpr ⟨element, member, listed⟩))]
    rw [ofExpr, ofExpr, inside, inside]
  | array element ih => rw [ofExpr, ofExpr, ih agree]

end Shape

theorem Hierarchy.alikeFor_of_agree {first second : Hierarchy} {type : TypeExpr}
    (closed : StrategyTable.ofHierarchy first = StrategyTable.ofHierarchy second)
    (agree : ∀ name ∈ type.names, first.members? name = second.members? name) :
    first.AlikeFor second type := by
  have same (limits : Limits) : Reader.shape ⟨first, limits⟩ type =
      Reader.shape ⟨second, limits⟩ type := by
    rw [Reader.shape, Reader.shape, Reader.strategies, Reader.strategies, closed]
    exact Shape.ofExpr_congr agree
  constructor
  · intro limits text
    rw [Reader.read, Reader.read, same]
  · intro limits
    rw [Reader.pattern, Reader.pattern, same]

open StrategyTable in
/-- A declaration of a type that has no strategy leaves the strategies as they are, and reading and
patterns too unless the type is named. Declarations of different types may be made in any order. -/
theorem unreached_declarations (hierarchy : Hierarchy) :
    (∀ name, (ofHierarchy hierarchy).contains name = false → ∀ declaration,
      (ofHierarchy (hierarchy.declare name declaration)).entries =
          (ofHierarchy hierarchy).entries ∧
        ∀ type : TypeExpr, name ∉ type.names →
          (hierarchy.declare name declaration).AlikeFor hierarchy type) ∧
    ∀ declarations others, (declarations.map Prod.fst).Nodup → declarations.Perm others →
      (ofHierarchy (hierarchy.declareAll declarations)).entries =
          (ofHierarchy (hierarchy.declareAll others)).entries ∧
        ∀ type, (hierarchy.declareAll declarations).AlikeFor (hierarchy.declareAll others) type := by
  refine ⟨?unreached, ?reordered⟩
  case unreached =>
    intro name missing declaration
    have kept {other : TypeIdent} (different : other ≠ name) :
        (hierarchy.declare name declaration).get? other = hierarchy.get? other := by
      rw [Hierarchy.get?_declare, if_neg different]
    have closed : ofHierarchy (hierarchy.declare name declaration) = ofHierarchy hierarchy := by
      refine close_congr fun other known => (Hierarchy.parents_congr (kept ?_)).symm
      rintro rfl
      rw [ofHierarchy, known] at missing
      contradiction
    refine ⟨congrArg entries closed, fun type unnamed => Hierarchy.alikeFor_of_agree closed ?_⟩
    intro other listed
    exact Hierarchy.members?_congr (kept fun same => unnamed (same ▸ listed))
  case reordered =>
    intro declarations others distinct permuted
    have found (name : TypeIdent) :
        (hierarchy.declareAll declarations).get? name = (hierarchy.declareAll others).get? name :=
      Hierarchy.get?_declareAll_of_perm distinct permuted
    have closed : ofHierarchy (hierarchy.declareAll declarations) =
        ofHierarchy (hierarchy.declareAll others) :=
      close_congr fun name known => (Hierarchy.parents_congr (found name)).symm
    exact ⟨congrArg entries closed, fun type => Hierarchy.alikeFor_of_agree closed
      fun name listed => Hierarchy.members?_congr (found name)⟩

open StrategyTable in
theorem unreached_declarations_descendant :
    let stack : TypeIdent × Declaration := (⟨"Stack"⟩, .ordinary (some .object) [.list])
    let color : TypeIdent × Declaration := (⟨"Color"⟩, .enumeration ["RED"])
    let colors : TypeExpr := .applied .list [.array (.named color.1)]
    let painted := Hierarchy.standard.declareAll [color]
    ((ofHierarchy painted).contains stack.1 = false ∧ stack.1 ∉ colors.names ∧
      (painted.declare stack.1 stack.2).AlikeFor painted colors) ∧
    ([stack, color].map Prod.fst).Nodup ∧ [stack, color].Perm [color, stack] ∧
      (Hierarchy.standard.declareAll [stack, color]).AlikeFor
        (Hierarchy.standard.declareAll [color, stack]) colors := by
  intro stack color colors painted
  have unreached : (ofHierarchy painted).contains stack.1 = false := by decide +kernel
  have unnamed : stack.1 ∉ colors.names := by decide +kernel
  have distinct : ([stack, color].map Prod.fst).Nodup := by decide +kernel
  have permuted : [stack, color].Perm [color, stack] := .swap color stack []
  obtain ⟨-, alike⟩ := (unreached_declarations painted).1 stack.1 unreached stack.2
  obtain ⟨-, same⟩ := (unreached_declarations .standard).2 _ _ distinct permuted
  exact ⟨⟨unreached, unnamed, alike colors unnamed⟩, distinct, permuted, same colors⟩

end TypedLiteral
