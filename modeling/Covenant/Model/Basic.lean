/-
What a model document says: its namespace, what it imports and what it declares.
A declaration is a class with properties, an enumeration, a scalar (a primitive
type under another name) or a map.
-/
import Covenant.Number.Numeral

namespace Covenant

open Covenant.Number

/-! ## Types by name -/

/-- The names of the primitive types. -/
def primitiveTypes : List String :=
  ["String", "Boolean", "DateTime", "Double", "Integer", "Long"]

def isPrimitive (typeName : String) : Bool :=
  primitiveTypes.contains typeName

/-! ## Literals and decorators -/

/-- A value written in a document. -/
inductive Literal where
  | text (value : String)
  | number (value : Number)
  | flag (value : Bool)
deriving DecidableEq, Repr

/-- A decorator and its arguments; a type named as an argument is a text. -/
structure Decorator where
  name : String
  arguments : List Literal := []
deriving DecidableEq, Repr

/-- The two ends of a range, either of which may be open. -/
structure Bounds where
  lower : Option Number := none
  upper : Option Number := none
deriving DecidableEq, Repr

/-! ## Properties -/

/-- A property of a class: a value, or a relationship to an instance of another class. -/
structure Property where
  name : String
  typeName : String
  isArray : Bool := false
  isOptional : Bool := false
  isRelationship : Bool := false
  default? : Option Literal := none
  pattern? : Option String := none
  range? : Option Bounds := none
  length? : Option Bounds := none
  decorators : List Decorator := []
deriving DecidableEq, Repr

/-! ## Declarations -/

/-- The category of a class. -/
inductive ClassKind where
  | concept | asset | participant | transaction | event
deriving DecidableEq, Repr

/-- How instances of a class are told apart: not at all, by an identifier of the system, or by
one of their properties. -/
inductive Identity where
  | unidentified
  | system
  | property (name : String)
deriving DecidableEq, Repr

/-- What a class declares. -/
structure ClassBody where
  kind : ClassKind
  isAbstract : Bool := false
  identity : Identity := .unidentified
  superType? : Option String := none
  properties : List Property := []
deriving DecidableEq, Repr

/-- What a declaration declares. -/
inductive DeclarationBody where
  | classBody (body : ClassBody)
  | enumeration (values : List String)
  | scalar (base : String)
  | map (key value : String)
deriving DecidableEq, Repr

structure Declaration where
  name : String
  body : DeclarationBody
  decorators : List Decorator := []
deriving DecidableEq, Repr

/-- The category of a declaration. -/
inductive DeclarationKind where
  | classKind (kind : ClassKind)
  | enumeration
  | scalar
  | map
deriving DecidableEq, Repr

/-- The word that declares a class of this category. -/
def ClassKind.text : ClassKind → String
  | concept => "concept"
  | asset => "asset"
  | participant => "participant"
  | transaction => "transaction"
  | event => "event"

/-- The word that opens a declaration of this category. -/
def DeclarationKind.text : DeclarationKind → String
  | classKind kind => kind.text
  | enumeration => "enum"
  | scalar => "scalar"
  | map => "map"

namespace Declaration

def kind (d : Declaration) : DeclarationKind :=
  match d.body with
  | .classBody body => .classKind body.kind
  | .enumeration _ => .enumeration
  | .scalar _ => .scalar
  | .map _ _ => .map

/-- The supertype as it is written; only a class can have one. -/
def superType? (d : Declaration) : Option String :=
  match d.body with
  | .classBody body => body.superType?
  | _ => none

/-- The properties of a class; other declarations have none. -/
def properties (d : Declaration) : List Property :=
  match d.body with
  | .classBody body => body.properties
  | _ => []

/-- Whether instances carry an identifier by the declaration itself. -/
def isIdentified (d : Declaration) : Bool :=
  match d.body with
  | .classBody body => body.identity ≠ .unidentified
  | _ => false

def hasDecorator (d : Declaration) (name : String) : Bool :=
  d.decorators.any (·.name = name)

/-- The types a declaration refers to, its supertype apart. -/
def references (d : Declaration) : List String :=
  match d.body with
  | .classBody body => body.properties.map (·.typeName)
  | .map key value => [key, value]
  | _ => []

end Declaration

/-! ## Documents -/

/-- A namespace, with or without a version. -/
structure Namespace where
  name : String
  version? : Option String := none
deriving DecidableEq, Repr

/-- The namespace as one text, which is what it is registered under. -/
def Namespace.key (n : Namespace) : String :=
  match n.version? with
  | some version => n.name ++ "@" ++ version
  | none => n.name

/-- What an import brings in: everything, or the types listed. -/
inductive ImportScope where
  | wildcard
  | types (names : List String)
deriving DecidableEq, Repr

structure Import where
  target : Namespace
  scope : ImportScope
  uri? : Option String := none
deriving DecidableEq, Repr

namespace Import

def isWildcard (i : Import) : Bool :=
  i.scope = .wildcard

/-- The types an import lists. -/
def listed (i : Import) : List String :=
  match i.scope with
  | .wildcard => []
  | .types names => names

end Import

/-- The contents of a model document. -/
structure Model where
  id : Namespace
  languageVersion? : Option String := none
  decorators : List Decorator := []
  imports : List Import := []
  declarations : List Declaration := []
deriving DecidableEq, Repr

namespace Model

def key (m : Model) : String :=
  m.id.key

/-- The first declaration of that name. -/
def find? (m : Model) (name : String) : Option Declaration :=
  m.declarations.find? (·.name = name)

end Model

end Covenant
