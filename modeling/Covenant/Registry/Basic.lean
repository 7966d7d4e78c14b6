/-
The registered documents of one run, in the order of registration. A document is
read and checked on its own before it is added; a namespace is registered once,
and registering the same text again changes nothing.
-/
import Covenant.Model.Analysis
import Covenant.Model.Reader

namespace Covenant

open Covenant.Number

/-- A document to be registered: its text, and the name it goes by. -/
structure Submission where
  text : String
  name : String
deriving DecidableEq, Repr

/-- A registered document: its model, and the name and text it came from. -/
structure RegistryEntry where
  model : Model
  name : String
  text : String
deriving DecidableEq, Repr

/-- The registered documents in order. -/
structure Registry where
  entries : List RegistryEntry
deriving DecidableEq, Repr

/-- Why a document is rejected. -/
inductive Rejection where
  | lexical (error : LexicalError)
  | grammar (error : GrammarError)
  | semantic (errors : List SemanticError)
  | taken (key firstName : String)
deriving DecidableEq, Repr

def Rejection.message : Rejection → String
  | lexical e => e.message
  | grammar e => e.message
  | semantic es => "; ".intercalate (es.map (·.message))
  | taken key firstName => s!"namespace '{key}' is already registered from '{firstName}'"

/-- Why a registration fails: the document is rejected, or a numeral in it names no number. -/
inductive RegistrationError where
  | rejected (document : String) (reason : Rejection)
  | numeral (error : NumeralError)
deriving DecidableEq, Repr

def RegistrationError.message : RegistrationError → String
  | rejected document reason => document ++ ": " ++ reason.message
  | numeral e => e.message

/-- Why a document that cannot be read is not registered. -/
def RegistrationError.ofRead (name : String) : ReadError → RegistrationError
  | .lexical e => .rejected name (.lexical e)
  | .grammar e => .rejected name (.grammar e)
  | .numeral e => .numeral e

/-- What became of a document: its namespace was added, or it had been registered from the same
text under another name. -/
inductive Registration where
  | added (model : Model)
  | duplicate (key firstName : String)
deriving DecidableEq, Repr

/-- A namespace was asked for that is not registered. -/
structure UnknownNamespace where
  key : String
deriving DecidableEq, Repr

def UnknownNamespace.message (e : UnknownNamespace) : String :=
  s!"Namespace '{e.key}' is not registered"

namespace Registry

def empty : Registry := ⟨[]⟩

/-- The registered namespaces in order. -/
def keys (r : Registry) : List String :=
  r.entries.map (·.model.key)

def models (r : Registry) : List Model :=
  r.entries.map (·.model)

/-- The entry of a namespace. -/
def entry? (r : Registry) (key : String) : Option RegistryEntry :=
  r.entries.find? (·.model.key = key)

/-- The model of a namespace. -/
def model? (r : Registry) (key : String) : Option Model :=
  (r.entry? key).map (·.model)

/-- The model of a namespace that has to be registered. -/
def model (r : Registry) (key : String) : Except UnknownNamespace Model :=
  match r.model? key with
  | some m => .ok m
  | none => .error ⟨key⟩

/-- Adds a model that has been read from `text` and checked. -/
def add (r : Registry) (model : Model) (text name : String) :
    Except RegistrationError (Registration × Registry) :=
  match r.entry? model.key with
  | some first =>
    if first.text = text then .ok (.duplicate model.key first.name, r)
    else .error (.rejected name (.taken model.key first.name))
  | none => .ok (.added model, ⟨r.entries ++ [⟨model, name, text⟩]⟩)

/-- Reads, checks and adds a document. -/
def register (r : Registry) (text name : String) :
    Except RegistrationError (Registration × Registry) :=
  match Model.read text with
  | .error e => .error (.ofRead name e)
  | .ok model =>
    match model.analyze with
    | [] => r.add model text name
    | errors => .error (.rejected name (.semantic errors))

end Registry

end Covenant
