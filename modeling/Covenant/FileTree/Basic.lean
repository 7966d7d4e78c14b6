/-
A tree of directories and files as a value. Every operation answers as a file
system does: a path is followed part by part, what it passes through has to be a
directory, and a name of more than 255 bytes does not exist.
-/
import Covenant.FileTree.Path
import Covenant.Text.Quoted

namespace Covenant

/-! ## Errors -/

/-- Why the file system refuses an operation. -/
inductive OsFault where
  | noEntry | alreadyExists | notDirectory | isDirectory | nameTooLong
deriving DecidableEq, Repr

def OsFault.number : OsFault → Nat
  | noEntry => 2
  | alreadyExists => 17
  | notDirectory => 20
  | isDirectory => 21
  | nameTooLong => 36

def OsFault.text : OsFault → String
  | noEntry => "No such file or directory"
  | alreadyExists => "File exists"
  | notDirectory => "Not a directory"
  | isDirectory => "Is a directory"
  | nameTooLong => "File name too long"

/-- An operation that was refused: why, and the path as the message shows it. -/
structure OsError where
  fault : OsFault
  shown : String
deriving DecidableEq, Repr

def OsError.message (e : OsError) : String :=
  s!"[Errno {e.fault.number}] {e.fault.text}: {e.shown}"

/-- A refusal that shows the text of a path. -/
def OsFault.about (fault : OsFault) (path : Path) : OsError :=
  ⟨fault, Text.quoted path.text⟩

/-! ## Trees -/

/-- What stands at a place. -/
inductive FileNode where
  | directory
  | file (content : ByteArray)

/-- What stands at each place. The root is always a directory. -/
structure FileTree where
  nodes : List (Place × FileNode)

namespace FileTree

def empty : FileTree := ⟨[]⟩

/-- What stands at a place, if anything. -/
def node? (t : FileTree) (place : Place) : Option FileNode :=
  if place.isEmpty then some .directory else t.nodes.lookup place

/-- Puts something at a place, in the stead of what stood there. -/
def put (t : FileTree) (place : Place) (node : FileNode) : FileTree :=
  ⟨t.nodes.filter (·.1 ≠ place) ++ [(place, node)]⟩

/-- Whether a place is the directory or lies below it. -/
def isWithin (directory place : Place) : Bool :=
  directory.isPrefixOf place

/-- Takes away what stands at a place and below it. -/
def remove (t : FileTree) (place : Place) : FileTree :=
  ⟨t.nodes.filter fun entry => !isWithin place entry.1⟩

/-- Takes away what stands below a place. -/
def clear (t : FileTree) (place : Place) : FileTree :=
  ⟨t.nodes.filter fun entry => entry.1 = place || !isWithin place entry.1⟩

/-- The names in a directory. -/
def children (t : FileTree) (place : Place) : List String :=
  t.nodes.filterMap fun entry =>
    if entry.1.dropLast = place then entry.1.getLast? else none

/-! ## Following paths -/

/-- The longest name that can stand in a directory, in bytes. -/
def maxNameBytes : Nat := 255

/-- The place that parts lead to from a place. What is passed through has to be a directory;
nothing is said about the place itself. -/
def follow (t : FileTree) (place : Place) : List String → Except OsFault Place
  | [] => .ok place
  | part :: rest =>
    match t.node? place with
    | none => .error .noEntry
    | some (.file _) => .error .notDirectory
    | some .directory =>
      if part = Path.parentStep then t.follow place.dropLast rest
      else if maxNameBytes < part.utf8ByteSize then .error .nameTooLong
      else t.follow (place ++ [part]) rest

/-- The place that a path leads to from the root. -/
def locate (t : FileTree) (path : Path) : Except OsFault Place :=
  t.follow [] path.parts

/-- What a path leads to. -/
def lookup (t : FileTree) (path : Path) : Except OsFault (Place × FileNode) := do
  let place ← t.locate path
  match t.node? place with
  | some node => .ok (place, node)
  | none => .error .noEntry

def hasEntry (t : FileTree) (path : Path) : Bool :=
  (t.lookup path).toBool

def isDirectory (t : FileTree) (path : Path) : Bool :=
  match t.lookup path with
  | .ok (_, .directory) => true
  | _ => false

/-! ## Operations -/

/-- The names in the directory that a path leads to. -/
def list (t : FileTree) (path : Path) : Except OsError (Place × List String) :=
  match t.lookup path with
  | .ok (place, .directory) => .ok (place, t.children place)
  | .ok (_, .file _) => .error (OsFault.notDirectory.about path)
  | .error fault => .error (fault.about path)

/-- The content of the file that a path leads to. -/
def read (t : FileTree) (path : Path) : Except OsError ByteArray :=
  match t.lookup path with
  | .ok (_, .file content) => .ok content
  | .ok (_, .directory) => .error (OsFault.isDirectory.about path)
  | .error fault => .error (fault.about path)

/-- Writes the file that a path leads to; its directory has to exist. -/
def write (t : FileTree) (path : Path) (content : ByteArray) :
    Except OsError FileTree :=
  match t.locate path with
  | .error fault => .error (fault.about path)
  | .ok place =>
    match t.node? place with
    | some .directory => .error (OsFault.isDirectory.about path)
    | _ => .ok (t.put place (.file content))

/-- Makes the directory that a path leads to; its parent has to exist. -/
def makeDirectory (t : FileTree) (path : Path) : Except OsError FileTree :=
  match t.locate path with
  | .error fault => .error (fault.about path)
  | .ok place =>
    match t.node? place with
    | some _ => .error (OsFault.alreadyExists.about path)
    | none => .ok (t.put place .directory)

/-- Makes a directory and those above it that are missing. If `orKeep` is set, it is no error
that the directory exists. -/
def makeDirectories (t : FileTree) (orKeep : Bool) (path : Path) :
    FileTree × Option OsError :=
  match t.makeDirectory path with
  | .ok made => (made, none)
  | .error e =>
    if e.fault = .noEntry then
      if _h : path.parts = [] then (t, some e)
      else
        match t.makeDirectories true path.parent with
        | (t, some e) => (t, some e)
        | (t, none) =>
          match t.makeDirectory path with
          | .ok made => (made, none)
          | .error e => if orKeep && t.isDirectory path then (t, none) else (t, some e)
    else if orKeep && t.isDirectory path then (t, none)
    else (t, some e)
termination_by path.parts.length
decreasing_by
  have := List.length_pos_iff.mpr _h
  simp only [Path.parent, List.length_dropLast]
  omega

/-- Takes away the directory that a path leads to, with all that it holds. A file is refused. The
directory's contents go first; then the path has to lead to it still. -/
def removeDirectory (t : FileTree) (path : Path) : FileTree × Option OsError :=
  match t.lookup path with
  | .error fault => (t, some (fault.about path))
  | .ok (_, .file _) => (t, some ⟨.notDirectory, "PosixPath(" ++ Text.quoted path.text ++ ")"⟩)
  | .ok (place, .directory) =>
    let cleared := t.clear place
    match cleared.lookup path with
    | .error fault => (cleared, some (fault.about path))
    | .ok _ => (cleared.remove place, none)

end FileTree

end Covenant
