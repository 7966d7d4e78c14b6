/-
What the names in registered documents stand for. A qualified name is looked up
in the namespace it gives, a short one in the document itself and then through
its imports in order. An import that asks for a version not registered falls back
on the first document of that namespace.
-/
import Covenant.Registry.Basic
import Covenant.Walk

namespace Covenant

open Covenant.Text

/-- A declaration and the namespace it belongs to. -/
structure Located where
  key : String
  declaration : Declaration
deriving DecidableEq, Repr

/-- The full name of a declaration of a namespace. -/
def qualifiedName (key name : String) : String :=
  key ++ "." ++ name

/-- The full name of the declaration. -/
def Located.fullName (l : Located) : String :=
  qualifiedName l.key l.declaration.name

/-- The declaration of that name in a document. -/
def Model.locate? (m : Model) (name : String) : Option Located :=
  (m.find? name).map (⟨m.key, ·⟩)

namespace Registry

/-- The document that an import of the namespace finds: that of the version asked for, or else
the first one of that name. -/
def find? (r : Registry) (id : Namespace) : Option Model :=
  (id.version?.bind fun version => r.model? (id.name ++ "@" ++ version)).or
    (r.models.find? (·.id.name = id.name))

/-- The registered namespace that an import of `id` finds. -/
def findKey? (r : Registry) (id : Namespace) : Option String :=
  (r.find? id).map (·.key)

/-- The namespace that a text such as `a.b@1.0.0` names. -/
def namespaceOf (text : String) : Namespace :=
  let version := afterFirst '@' text
  ⟨beforeFirst '@' text, if version.isEmpty then none else some version⟩

/-- Looks a qualified name up in the namespace it gives. -/
def resolveQualified? (r : Registry) (typeName : String) : Option Located :=
  (r.find? (namespaceOf (beforeLast '.' typeName))).bind (·.locate? (afterLast '.' typeName))

/-- Looks a short name up through an import. -/
def resolveImported? (r : Registry) (name : String) (i : Import) : Option Located :=
  if i.isWildcard || i.listed.contains name then (r.find? i.target).bind (·.locate? name)
  else none

/-- Looks a short name up in a document and then through its imports. -/
def resolveShort? (r : Registry) (key name : String) : Option Located :=
  match r.model? key with
  | none => none
  | some model =>
    match model.find? name with
    | some declaration => some ⟨key, declaration⟩
    | none => model.imports.findSome? (r.resolveImported? name)

/-- The declaration that a type name in a namespace stands for; primitive types have none. -/
def resolve? (r : Registry) (key typeName : String) : Option Located :=
  if isPrimitive typeName then none
  else if isQualified typeName then r.resolveQualified? typeName
  else r.resolveShort? key typeName

/-! ## Supertypes -/

/-- All declarations with their namespaces, in order. -/
def declarations (r : Registry) : List Located :=
  r.models.flatMap fun model => model.declarations.map (⟨model.key, ·⟩)

/-- What the supertype of a declaration stands for. -/
def superType? (r : Registry) (l : Located) : Option Located :=
  l.declaration.superType?.bind (r.resolve? l.key)

/-- The full name of the supertype, or its name as written if it stands for nothing. -/
def superTypeName? (r : Registry) (l : Located) : Option String :=
  l.declaration.superType?.map fun written =>
    match r.resolve? l.key written with
    | some found => found.fullName
    | none => written

theorem locate?_mem {r : Registry} {m : Model} {name : String} {l : Located} (hm : m ∈ r.models)
    (h : m.locate? name = some l) : l ∈ r.declarations := by
  obtain ⟨declaration, found, rfl⟩ := Option.map_eq_some_iff.mp h
  exact List.mem_flatMap.mpr ⟨m, hm, List.mem_map_of_mem (List.mem_of_find?_eq_some found)⟩

theorem model?_mem {r : Registry} {key : String} {m : Model} (h : r.model? key = some m) :
    m ∈ r.models ∧ m.key = key := by
  obtain ⟨entry, found, rfl⟩ := Option.map_eq_some_iff.mp h
  exact ⟨List.mem_map_of_mem (List.mem_of_find?_eq_some found),
    by simpa using List.find?_some found⟩

theorem find?_mem {r : Registry} {id : Namespace} {m : Model} (h : r.find? id = some m) :
    m ∈ r.models := by
  unfold find? at h
  rcases Option.or_eq_some_iff.mp h with exact | ⟨_, first⟩
  · obtain ⟨version, _, found⟩ := Option.bind_eq_some_iff.mp exact
    exact (model?_mem found).1
  · exact List.mem_of_find?_eq_some first

/-- Names only stand for registered declarations. -/
theorem resolve?_mem {r : Registry} {key typeName : String} {l : Located}
    (h : r.resolve? key typeName = some l) : l ∈ r.declarations := by
  unfold resolve? at h
  split at h
  · simp at h
  · split at h
    · obtain ⟨m, found, located⟩ := Option.bind_eq_some_iff.mp h
      exact locate?_mem (find?_mem found) located
    · unfold resolveShort? at h
      split at h
      · simp at h
      · rename_i model found
        obtain ⟨registered, sameKey⟩ := model?_mem found
        split at h
        · rename_i declaration here
          subst sameKey
          refine @locate?_mem r model typeName l registered ?_
          simpa [Model.locate?, here] using h
        · obtain ⟨before, i, after, _, imported, _⟩ := List.findSome?_eq_some_iff.mp h
          unfold resolveImported? at imported
          split at imported
          · obtain ⟨m, foundImport, located⟩ := Option.bind_eq_some_iff.mp imported
            exact locate?_mem (find?_mem foundImport) located
          · simp at imported

theorem superType?_mem {r : Registry} {l next : Located} (h : r.superType? l = some next) :
    next ∈ r.declarations := by
  obtain ⟨_, _, found⟩ := Option.bind_eq_some_iff.mp h
  exact resolve?_mem found

/-- The full names of all declarations. -/
def names (r : Registry) : List String :=
  r.declarations.map (·.fullName)

theorem unvisited_superType?_lt {r : Registry} {l next : Located} {seen : List String}
    (h : r.superType? l = some next) (fresh : next.fullName ∉ seen) :
    unvisited r.names (next.fullName :: seen) < unvisited r.names seen :=
  unvisited_cons_lt (List.mem_map_of_mem (superType?_mem h)) fresh

/-- The supertypes of a declaration, nearest first, as far as no name comes up again. -/
def ancestorsFrom (r : Registry) (seen : List String) (l : Located) : List Located :=
  match _h : r.superType? l with
  | none => []
  | some next =>
    if next.fullName ∈ seen then []
    else next :: r.ancestorsFrom (next.fullName :: seen) next
termination_by unvisited r.names seen
decreasing_by exact unvisited_superType?_lt _h (by assumption)

/-- A declaration and its supertypes, nearest first. -/
def lineage (r : Registry) (l : Located) : List Located :=
  l :: r.ancestorsFrom [l.fullName] l

/-- The names of the supertypes of a declaration, nearest first, as far as none comes up again.
A supertype that stands for nothing ends the list with its name as written. -/
def superTypeNamesFrom (r : Registry) (seen : List String) (l : Located) : List String :=
  match _h : r.superType? l with
  | some next =>
    if next.fullName ∈ seen then []
    else next.fullName :: r.superTypeNamesFrom (next.fullName :: seen) next
  | none =>
    match l.declaration.superType? with
    | some written => if written ∈ seen then [] else [written]
    | none => []
termination_by unvisited r.names seen
decreasing_by exact unvisited_superType?_lt _h (by assumption)

/-- The names of the supertypes of a declaration, nearest first. -/
def superTypeNames (r : Registry) (l : Located) : List String :=
  r.superTypeNamesFrom [] l

/-! ## Properties and scalars -/

/-- The properties that every declaration, every identified one and every dated one carries. -/
def classProperty : Property := { name := "$class", typeName := "String" }

def identifierProperty : Property := { name := "$identifier", typeName := "String" }

def timestampProperty : Property := { name := "$timestamp", typeName := "DateTime" }

/-- Assets and participants carry an identifier, whatever they declare. -/
def hasIdentifier (kind : DeclarationKind) : Bool :=
  kind = .classKind .asset || kind = .classKind .participant

/-- Transactions and events carry a time stamp. -/
def hasTimestamp (kind : DeclarationKind) : Bool :=
  kind = .classKind .transaction || kind = .classKind .event

/-- The properties that a declaration carries without declaring them. -/
def implicitProperties (r : Registry) (l : Located) : List Property :=
  [classProperty]
    ++ (if (r.lineage l).any (·.declaration.isIdentified) || hasIdentifier l.declaration.kind then
        [identifierProperty] else [])
    ++ (if hasTimestamp l.declaration.kind then [timestampProperty] else [])

/-- All properties of a declaration: the implicit ones, then those of its supertypes from the
root down, then its own. -/
def allProperties (r : Registry) (l : Located) : List Property :=
  r.implicitProperties l ++ (r.lineage l).reverse.flatMap (·.declaration.properties)

/-- The primitive type that a scalar stands for; other types have none. -/
def scalarBase? (r : Registry) (key typeName : String) : Option String :=
  (r.resolve? key typeName).bind fun l =>
    match l.declaration.body with
    | .scalar base => some base
    | _ => none

end Registry

end Covenant
