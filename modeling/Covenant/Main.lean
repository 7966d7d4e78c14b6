/-
The program on a real file system. What a run may touch is read into a file tree,
the run works on the tree, and what it has changed is written back.
-/
import Covenant.Command.Run

namespace Covenant.Command

/-- The text of a place as the system knows it. -/
def systemText (place : Place) : String :=
  (Path.ofPlace place).text

/-- Reads what the system holds at a place and below it. -/
partial def scan (tree : FileTree) (place : Place) : IO FileTree := do
  let path := { (← IO.currentDir) with toString := systemText place }
  if ← path.isDir then
    (← path.readDir).foldlM (fun tree entry => scan tree (place ++ [entry.fileName]))
      (tree.put place .directory)
  else if ← path.pathExists then
    return tree.put place (.file (← IO.FS.readBinFile path))
  else
    return tree

/-- Reads what the system holds on the way to a place. -/
def scanAncestors (tree : FileTree) (place : Place) : IO FileTree :=
  (List.range place.length).foldlM (fun tree depth => do
    let ancestor := place.take depth
    let path := { (← IO.currentDir) with toString := systemText ancestor }
    if ancestor.isEmpty || (tree.node? ancestor).isSome then return tree
    else if ← path.isDir then return tree.put ancestor .directory
    else scan tree ancestor) tree

/-- Reads what the system holds at a place, on the way to it and below it. -/
def scanAround (tree : FileTree) (place : Place) : IO FileTree := do
  scan (← scanAncestors tree place) place

/-- The places that a command may touch, once its settings are known. -/
def touchedPlaces (directory : Path) (given : Given) (tree : FileTree) : List Place :=
  let settings := given.override ((tree.findSettings directory).toOption.getD {})
  [settings.archivesDirectory, settings.outputDirectory, settings.contractDirectory].map fun setting =>
    Path.resolveFrom [] (workspaceDirectory directory setting)

/-- Reads what a request may touch. -/
def scanFor (workingDirectory : Place) : Request → IO FileTree
  | .help _ => return .empty
  | .run _ _ given => do
    let directory := directoryOf workingDirectory given
    let tree ← scanAround .empty (directory.child settingsFileName).parts
    (touchedPlaces directory given tree).foldlM scanAround tree

/-- Takes away what is in the first tree only, what is deepest first. -/
def eraseMissing (before after : FileTree) : IO Unit := do
  let gone := before.nodes.filter fun entry => (after.node? entry.1).isNone
  for (place, node) in gone.mergeSort (fun a b => b.1.length ≤ a.1.length) do
    match node with
    | .directory => IO.FS.removeDirAll (systemText place)
    | .file _ => IO.FS.removeFile (systemText place)

/-- Writes what is new or different in the second tree, what is highest first. -/
def writeChanged (before after : FileTree) : IO Unit := do
  for (place, node) in after.nodes.mergeSort (fun a b => a.1.length ≤ b.1.length) do
    match node, before.node? place with
    | .directory, _ => IO.FS.createDirAll (systemText place)
    | .file content, some (.file old) =>
      if content.data ≠ old.data then IO.FS.writeBinFile (systemText place) content
    | .file content, _ => IO.FS.writeBinFile (systemText place) content

/-- Prints the outcome of a run; the exit code. -/
def report : Outcome → IO UInt32
  | .finished exitCode stdout stderr => do
    IO.print stdout
    IO.eprint stderr
    return exitCode.toUInt32
  | .refused e => do
    IO.eprint (rootLogger ++ e.line)
    return 2
  | .stopped e => do
    IO.eprintln e.message
    return 1

/-- Runs the program in the working directory of the process. -/
def runSystem (arguments : List String) : IO UInt32 := do
  let workingDirectory := Path.resolveFrom [] (.ofText (← IO.currentDir).toString)
  match Request.ofArguments arguments with
  | .error e => report (.refused e)
  | .ok request =>
    let before ← scanFor workingDirectory request
    let (outcome, after) := request.perform workingDirectory before
    eraseMissing before after
    writeChanged before after
    report outcome

end Covenant.Command

def main (arguments : List String) : IO UInt32 :=
  Covenant.Command.runSystem arguments
