/-
Checks across documents: what is imported is registered and declared, every type
and supertype stands for something, a supertype is of the same category, and no
declaration is its own ancestor.
-/
import Covenant.Graph
import Covenant.Registry.Resolution

namespace Covenant

/-- A fault that shows only when documents are put together. -/
inductive ValidationError where
  | missingNamespace (key imported : String)
  | missingType (key typeName target : String)
  | undefinedType (fullName typeName : String)
  | undefinedSuperType (fullName typeName : String)
  | superTypeKind (fullName : String) (kind superKind : DeclarationKind) (typeName : String)
  | inheritanceCycle (names : List String)
deriving DecidableEq, Repr

def ValidationError.message : ValidationError → String
  | missingNamespace key imported => s!"{key}: imported namespace '{imported}' is not registered"
  | missingType key typeName target =>
    s!"{key}: imported type '{typeName}' is not declared in '{target}'"
  | undefinedType fullName typeName => s!"{fullName}: undefined type '{typeName}'"
  | undefinedSuperType fullName typeName => s!"{fullName}: undefined supertype '{typeName}'"
  | superTypeKind fullName kind superKind typeName =>
    s!"{fullName}: {kind.text} cannot extend {superKind.text} '{typeName}'"
  | inheritanceCycle names => "Inheritance cycle: " ++ " -> ".intercalate names

namespace Registry

def checkImport (r : Registry) (key : String) (i : Import) : List ValidationError :=
  match r.find? i.target with
  | none => [.missingNamespace key i.target.key]
  | some target =>
    (i.listed.filter fun name => (target.find? name).isNone).map (.missingType key · target.key)

def checkReferences (r : Registry) (l : Located) : List ValidationError :=
  (l.declaration.references.filter fun typeName =>
    !isPrimitive typeName && (r.resolve? l.key typeName).isNone).map (.undefinedType l.fullName ·)

def checkSuperType (r : Registry) (l : Located) : List ValidationError :=
  match l.declaration.superType? with
  | none => []
  | some written =>
    match r.resolve? l.key written with
    | none => [.undefinedSuperType l.fullName written]
    | some found =>
      if found.declaration.kind = l.declaration.kind then []
      else [.superTypeKind l.fullName l.declaration.kind found.declaration.kind written]

def checkModel (r : Registry) (m : Model) : List ValidationError :=
  m.imports.flatMap (r.checkImport m.key)
    ++ m.declarations.flatMap fun declaration =>
      let l : Located := ⟨m.key, declaration⟩
      r.checkReferences l ++ r.checkSuperType l

/-- Every declaration whose supertype stands for something, with an edge to that. -/
def inheritance (r : Registry) : Graph String :=
  .ofEntries (r.declarations.filterMap fun l =>
    (r.superType? l).map fun found => (l.fullName, [found.fullName]))

/-- All faults across the registered documents. -/
def validate (r : Registry) : List ValidationError :=
  r.models.flatMap r.checkModel ++ (r.inheritance.cycle?.map .inheritanceCycle).toList

end Registry

end Covenant
