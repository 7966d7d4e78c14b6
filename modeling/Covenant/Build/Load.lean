/-
Loading: finding the archives, ordering their documents, registering them and
checking them together.
-/
import Covenant.Archive.Discovery

namespace Covenant

/-- What was loaded: a registry without faults, and what it came from. -/
structure Loaded where
  registry : Registry
  archives : List Archive
  documents : List SchemaDocument
  diagnostics : List Diagnostic
deriving DecidableEq, Repr

namespace Registration

def logger : String := "compiler.registry"

/-- What the log says about a registration. -/
def summary (name : String) : Registration → String
  | added model => s!"Registered namespace {model.key} from {name}"
  | duplicate key firstName =>
    s!"Skipping {name}: namespace {key} already registered from {firstName}"

end Registration

/-- Registers a document. -/
def registerDocument (store : RegistryStore) (document : SchemaDocument) : Job RegistryStore := do
  let (answer, store) := store.submit ⟨document.text, document.name⟩
  let registration ← Job.ofExcept (·.toBuildError) answer
  Job.debug Registration.logger (registration.summary document.name)
  return store

/-- Checks the registered documents together. -/
def validateRegistry (registry : Registry) : Job Unit := do
  match registry.validate with
  | [] => Job.info Registration.logger s!"Validated {registry.entries.length} namespace(s)"
  | errors => throw (.fault (.invalid errors))

/-- Orders documents, registers them and checks them together. -/
def registerDocuments (ordering : DocumentOrder) (documents : List SchemaDocument) :
    Job (List SchemaDocument × Registry) := do
  let ordered ← Job.ofExcept (·.toBuildError) (orderDocuments ordering documents)
  let store ← ordered.foldlM registerDocument {}
  validateRegistry store.registry
  return (ordered, store.registry)

/-- Loads the archives below a directory. -/
def load (root : Path) (extension : String) (ordering : DocumentOrder) : Job Loaded := do
  let found ← discover root extension
  let (documents, registry) ← registerDocuments ordering (found.archives.flatMap (·.documents))
  Job.info Discovery.logger
    s!"Loaded {documents.length} document(s) from {found.archives.length} archive(s)"
  return { registry, archives := found.archives, documents, diagnostics := found.diagnostics }

end Covenant
