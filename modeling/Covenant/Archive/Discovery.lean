/-
Finding archives below a directory and reading their documents. Archives and
documents come in the order of their names; a directory without documents of its
own is passed over with a finding.
-/
import Covenant.Build.Job

namespace Covenant

/-- What was found below a directory. -/
structure Discovery where
  archives : List Archive
  diagnostics : List Diagnostic
deriving DecidableEq, Repr

namespace Discovery

def logger : String := "compiler.loader"

/-- Names in the order of their characters. -/
def sorted (names : List String) : List String :=
  names.mergeSort (· ≤ ·)

/-- Makes the directory if nothing is there. -/
def ensureRoot (root : Path) : Job Unit := do
  let tree ← Job.tree
  unless tree.hasEntry root do
    Job.info logger s!"Archives directory {root.text} does not exist; creating it"
    Job.settle .os (tree.makeDirectories true root)

/-- The names of the entries of a directory that pass the test, sorted. -/
def entriesOf (directory : Path) (test : FileTree → String → Bool) : Job (List String) := do
  let tree ← Job.tree
  let (_, names) ← Job.ofExcept .os (tree.list directory)
  return sorted (names.filter (test tree))

/-- Whether an entry is a file with the suffix. -/
def isDocument (directory : Path) (extension : String) (tree : FileTree) (name : String) : Bool :=
  match tree.lookup (directory.child name) with
  | .ok (_, .file _) => suffixOf name = extension
  | _ => false

def readDocument (archive : String) (directory : Path) (filename : String) :
    Job SchemaDocument := do
  let path := directory.child filename
  match (← Job.tree).readText path with
  | .ok text => return { archive, filename, text, hasImports := hasImportLine true text.toList }
  | .error (.os e) => throw (.fault (.unreadable path e))
  | .error .undecodable => throw .undecodable

def readArchive (root : Path) (extension name : String) : Job (Archive ⊕ Diagnostic) := do
  let directory := (root.child name).child modelDirectory
  if (← Job.tree).isDirectory directory then
    let filenames ← entriesOf directory (isDocument directory extension)
    let documents ← filenames.mapM (readDocument name directory)
    Job.debug logger s!"Archive {name}: {documents.length} document(s)"
    return .inl ⟨name, documents⟩
  return .inr ⟨.load, name, s!"no '{modelDirectory}' directory; archive skipped"⟩

/-- The findings, with one more if there was no archive at all. -/
def ofOutcomes (root : Path) (outcomes : List (Archive ⊕ Diagnostic)) : Discovery :=
  let archives := outcomes.filterMap (·.getLeft?)
  { archives
    diagnostics := outcomes.filterMap (·.getRight?)
      ++ if archives.isEmpty then [⟨.load, root.text, "no archives found"⟩] else [] }

end Discovery

/-- Finds and reads the archives below a directory, which is made if it is missing. -/
def discover (root : Path) (extension : String) : Job Discovery := do
  Discovery.ensureRoot root
  let names ← Discovery.entriesOf root fun tree name => tree.isDirectory (root.child name)
  return .ofOutcomes root (← names.mapM (Discovery.readArchive root extension))

end Covenant
