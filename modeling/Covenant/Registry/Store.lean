/-
The registered documents as they are kept: in two dictionaries, the models in one and
the documents that they were read from in the other, both under the key of the namespace.
A registration changes the one and then the other, and whatever it has changed stays
changed if it fails.
-/
import Covenant.Dictionary
import Covenant.Registry.Basic
import Covenant.Step

namespace Covenant

/-- The models and the documents that they were read from, by namespace. -/
structure RegistryStore where
  files : Dictionary Model := []
  sources : Dictionary Submission := []
deriving DecidableEq, Repr

/-- Why a registration fails: because of the document, or because the store does not know where a
registered namespace came from. -/
inductive StoreError where
  | registration (error : RegistrationError)
  | noSource (key : String)
deriving DecidableEq, Repr

/-- A step of a registration. -/
abbrev Registering := Step StoreError RegistryStore

namespace RegistryStore

/-- Reads a document. -/
def readDocument (d : Submission) : Registering Model :=
  match Model.read d.text with
  | .ok model => pure model
  | .error e => throw (.registration (.ofRead d.name e))

/-- Checks the model of a document. -/
def checkDocument (d : Submission) (model : Model) : Registering Unit :=
  match model.analyze with
  | [] => pure ()
  | errors => throw (.registration (.rejected d.name (.semantic errors)))

/-- The document that a namespace was registered from. -/
def sourceOf (key : String) : Registering Submission := do
  match (← get).sources.get? key with
  | some source => pure source
  | none => throw (.noSource key)

/-- Keeps a model and the document that it was read from. -/
def keep (d : Submission) (model : Model) : Registering Unit := do
  modify fun s => { s with files := s.files.put model.key model }
  modify fun s => { s with sources := s.sources.put model.key d }

/-- Reads, checks and keeps a document. -/
def register (d : Submission) : Registering Registration := do
  let model ← readDocument d
  checkDocument d model
  if model.key ∈ (← get).files.keys then
    let first ← sourceOf model.key
    if first.text = d.text then return .duplicate model.key first.name
    throw (.registration (.rejected d.name (.taken model.key first.name)))
  keep d model
  return .added model

/-- What a registration answers, and the store that it leaves. -/
def submit (s : RegistryStore) (d : Submission) : Except StoreError Registration × RegistryStore :=
  (register d).run s

/-- The registered documents one by one. -/
def registry (s : RegistryStore) : Registry where
  entries := s.files.filterMap fun (key, model) =>
    (s.sources.get? key).map fun source => ⟨model, source.name, source.text⟩

end RegistryStore

end Covenant
