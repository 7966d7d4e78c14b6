/-
Checks that one document allows on its own: names are not declared twice, scalars
have a primitive base, and unqualified types are primitive, declared here or
imported. A wildcard import may bring in any type, so it puts off the last check.
-/
import Covenant.Model.Basic
import Covenant.Text.Split

namespace Covenant

open Covenant.Text

/-- The declaration that a finding is about. -/
structure Owner where
  kind : DeclarationKind
  name : String
deriving DecidableEq, Repr

def Owner.text (o : Owner) : String :=
  s!"{o.kind.text} '{o.name}'"

def Declaration.owner (d : Declaration) : Owner :=
  ⟨d.kind, d.name⟩

/-- A fault of a single document. -/
inductive SemanticError where
  | duplicateDeclaration (name namespaceName : String)
  | duplicateProperty (name : String) (owner : Owner)
  | duplicateValue (value : String) (owner : Owner)
  | scalarBase (owner : Owner) (base : String)
  | undefinedType (owner : Owner) (property? : Option String) (typeName : String)
deriving DecidableEq, Repr

def SemanticError.message : SemanticError → String
  | duplicateDeclaration name namespaceName =>
    s!"Duplicate declaration '{name}' in namespace '{namespaceName}'"
  | duplicateProperty name owner => s!"Duplicate property '{name}' in {owner.text}"
  | duplicateValue value owner => s!"Duplicate value '{value}' in {owner.text}"
  | scalarBase owner base => s!"{owner.text} must extend a primitive type, not '{base}'"
  | undefinedType owner none typeName => s!"{owner.text}: undefined type '{typeName}'"
  | undefinedType owner (some property) typeName =>
    s!"{owner.text}, property '{property}': undefined type '{typeName}'"

/-- The names that occurred before, once for every repetition. -/
def repetitions (seen : List String) : List String → List String
  | [] => []
  | name :: rest =>
    if name ∈ seen then name :: repetitions seen rest else repetitions (name :: seen) rest

/-- Whether a type name has more than one part. -/
def isQualified (typeName : String) : Bool :=
  typeName.toList.contains '.'

namespace Model

/-- Whether a type name can be used in the document as far as the document alone tells. -/
def accepts (m : Model) (typeName : String) : Bool :=
  isQualified typeName || isPrimitive typeName
    || m.declarations.any (·.name = typeName)
    || m.imports.any (·.listed.contains typeName)
    || m.imports.any (·.isWildcard)

/-- The finding about a type name, if the document does not accept it. -/
def checkType (m : Model) (owner : Owner) (property? : Option String) (typeName : String) :
    List SemanticError :=
  if m.accepts typeName then [] else [.undefinedType owner property? typeName]

def checkClass (m : Model) (owner : Owner) (body : ClassBody) : List SemanticError :=
  (repetitions [] (body.properties.map (·.name))).map (.duplicateProperty · owner)
    ++ body.superType?.toList.flatMap (m.checkType owner none)
    ++ body.properties.flatMap fun p => m.checkType owner (some p.name) p.typeName

def checkDeclaration (m : Model) (d : Declaration) : List SemanticError :=
  match d.body with
  | .classBody body => m.checkClass d.owner body
  | .enumeration values => (repetitions [] values).map (.duplicateValue · d.owner)
  | .scalar base => if isPrimitive base then [] else [.scalarBase d.owner base]
  | .map key value => [key, value].flatMap (m.checkType d.owner none)

/-- All faults of a document, those of its declarations in order. -/
def analyze (m : Model) : List SemanticError :=
  (repetitions [] (m.declarations.map (·.name))).map (.duplicateDeclaration · m.id.name)
    ++ m.declarations.flatMap m.checkDeclaration

end Model

end Covenant
