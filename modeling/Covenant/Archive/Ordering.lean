/-
The order in which documents are registered: those without imports first, or
every document behind the ones whose namespaces it imports. The second order
reads the documents; namespaces are matched by name, whatever the version, and
the first document of a name provides it.
-/
import Covenant.Archive.Basic
import Covenant.Dictionary
import Covenant.Graph
import Covenant.Model.Reader

namespace Covenant

open Covenant.Number

/-- How documents are ordered. -/
inductive DocumentOrder where
  | heuristic | topological
deriving DecidableEq, Repr

/-- Why documents cannot be ordered. -/
inductive OrderingError where
  | lexical (document : String) (error : LexicalError)
  | grammar (document : String) (error : GrammarError)
  | numeral (error : NumeralError)
  | importCycle (documents : List String)
  /-- The ordering of the graph itself found a cycle. -/
  | unordered (cycle : List String)
deriving DecidableEq, Repr

/-- What the order depends on: the name of a document's namespace and of those it imports. -/
structure Dependencies where
  provides : String
  requires : List String
deriving DecidableEq, Repr

def Model.dependencies (m : Model) : Dependencies :=
  ⟨m.id.name, m.imports.map (·.target.name)⟩

/-- Reads what the order depends on. -/
def SchemaDocument.dependencies (d : SchemaDocument) : Except OrderingError Dependencies :=
  match Model.read d.text with
  | .ok model => .ok model.dependencies
  | .error (.lexical e) => .error (.lexical d.name e)
  | .error (.grammar e) => .error (.grammar d.name e)
  | .error (.numeral e) => .error (.numeral e)

/-- What tells a document from the others, also from those of the same name. -/
def SchemaDocument.key (d : SchemaDocument) (position : Nat) : String :=
  s!"{position}:{d.name}"

/-- The documents under their keys. -/
def keyedDocuments (documents : List SchemaDocument) : Dictionary SchemaDocument :=
  documents.zipIdx.map fun (d, position) => (d.key position, d)

/-- The key of the first document that provides a namespace. -/
def provider? (all : Dictionary Dependencies) (namespaceName : String) : Option String :=
  (all.find? (·.2.provides = namespaceName)).map (·.1)

/-- The keys of the documents, with those of the providers of what they import. -/
def importEntries (all : Dictionary Dependencies) : List (String × List String) :=
  all.map fun (key, dependencies) =>
    (key, (dependencies.requires.filterMap (provider? all)).filter (· ≠ key))

/-- The documents, by key, with edges to the providers of what they import. -/
def importGraph (all : Dictionary Dependencies) : Graph String :=
  .ofEntries (importEntries all)

/-- Orders documents behind what they import. -/
def orderByImports (documents : List SchemaDocument) :
    Except OrderingError (List SchemaDocument) := do
  let keyed := keyedDocuments documents
  let graph := importGraph (keyed.keys.zip (← documents.mapM (·.dependencies)))
  match graph.cycle? with
  | some cycle => .error (.importCycle ((keyed.getAll cycle).map (·.name)))
  | none =>
    match graph.order with
    | .ok keys => .ok (keyed.getAll keys)
    | .error cycle => .error (.unordered cycle)

/-- Sorts the documents without imports to the front. -/
def orderByImportLines (documents : List SchemaDocument) : List SchemaDocument :=
  documents.mergeSort fun d d' => d.hasImports ≤ d'.hasImports

/-- The documents in the order in which they are registered. -/
def orderDocuments (ordering : DocumentOrder) (documents : List SchemaDocument) :
    Except OrderingError (List SchemaDocument) :=
  match ordering with
  | .heuristic => .ok (orderByImportLines documents)
  | .topological => orderByImports documents

end Covenant
