import TypedLiteral.Type.Ident

/-! Declared types and their direct ancestors. A hierarchy lists its declarations in the order in
which the names came up first; a later declaration of a name takes the place of the earlier one.
Ancestors need not be declared, and cycles are allowed. -/
namespace TypedLiteral

namespace Declaration

inductive Kind
  | primitive
  /-- A type that may extend one other type. -/
  | ordinary
  | interface
  | enumeration (members : List String)
deriving DecidableEq

end Declaration

structure Declaration where
  kind : Declaration.Kind
  supertype : Option TypeIdent
  interfaces : List TypeIdent
deriving DecidableEq

namespace Declaration

def primitive : Declaration := ⟨.primitive, none, []⟩

def ordinary (supertype : Option TypeIdent) (interfaces : List TypeIdent) : Declaration :=
  ⟨.ordinary, supertype, interfaces⟩

def interface (extended : List TypeIdent) : Declaration := ⟨.interface, none, extended⟩

/-- Enumerations are comparable and serializable. -/
def enumeration (members : List String) : Declaration :=
  ⟨.enumeration members, none, [.comparable, .serializable]⟩

def parents (declaration : Declaration) : List TypeIdent :=
  declaration.supertype.toList ++ declaration.interfaces

def members? (declaration : Declaration) : Option (List String) :=
  match declaration.kind with
  | .enumeration members => some members
  | _ => none

end Declaration

structure Hierarchy where
  entries : List (TypeIdent × Declaration)

namespace Hierarchy

def empty : Hierarchy := ⟨[]⟩

def size (hierarchy : Hierarchy) : Nat := hierarchy.entries.length

def get? (hierarchy : Hierarchy) (name : TypeIdent) : Option Declaration :=
  hierarchy.entries.lookup name

/-- Replaces the first entry of the name, or appends one. -/
def place (name : TypeIdent) (declaration : Declaration) :
    List (TypeIdent × Declaration) → List (TypeIdent × Declaration)
  | [] => [(name, declaration)]
  | entry :: entries =>
    if entry.1 = name then (name, declaration) :: entries
    else entry :: place name declaration entries

def declare (hierarchy : Hierarchy) (name : TypeIdent) (declaration : Declaration) : Hierarchy :=
  ⟨place name declaration hierarchy.entries⟩

def members? (hierarchy : Hierarchy) (name : TypeIdent) : Option (List String) :=
  (hierarchy.get? name).bind Declaration.members?

/-- The direct ancestors of a declared type. An undeclared one has none. -/
def parents (hierarchy : Hierarchy) (name : TypeIdent) : List TypeIdent :=
  ((hierarchy.get? name).map Declaration.parents).getD []

def mentioned (hierarchy : Hierarchy) : List TypeIdent :=
  hierarchy.entries.flatMap fun entry => entry.2.parents

def standard : Hierarchy :=
  let boxed supertype := Declaration.ordinary (some supertype) [.comparable, .serializable]
  ⟨[(.object, .ordinary none []),
    (.comparable, .interface []),
    (.serializable, .interface []),
    (.charSequence, .interface []),
    (.number, .ordinary (some .object) [.serializable]),
    (.string, .ordinary (some .object) [.serializable, .comparable, .charSequence]),
    (.int, .primitive),
    (.boxedInt, boxed .number),
    (.long, .primitive),
    (.boxedLong, boxed .number),
    (.boolean, .primitive),
    (.boxedBoolean, boxed .object),
    (.double, .primitive),
    (.boxedDouble, boxed .number),
    (.iterable, .interface []),
    (.collection, .interface [.iterable]),
    (.set, .interface [.collection]),
    (.list, .interface [.collection])]⟩

theorem parents_mentioned {hierarchy : Hierarchy} {name parent : TypeIdent}
    (direct : parent ∈ hierarchy.parents name) : parent ∈ hierarchy.mentioned := by
  obtain ⟨entries⟩ := hierarchy
  simp only [parents, get?, mentioned] at direct ⊢
  induction entries with
  | nil => simp at direct
  | cons entry entries ih =>
    obtain ⟨declared, declaration⟩ := entry
    simp only [List.lookup_cons] at direct
    simp only [List.flatMap_cons, List.mem_append]
    split at direct
    · exact Or.inl (by simpa using direct)
    · exact Or.inr (ih direct)

end Hierarchy
end TypedLiteral
