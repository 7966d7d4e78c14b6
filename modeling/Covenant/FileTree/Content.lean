/-
Files as text. Text is encoded in UTF-8; when it is read, every line end becomes
a line feed.
-/
import Covenant.FileTree.Basic

namespace Covenant

/-- The text with a line feed for every line end: a carriage return, with or without a line feed
after it, ends a line. -/
def normalizeNewlines : List Char → List Char
  | [] => []
  | '\r' :: '\n' :: cs => '\n' :: normalizeNewlines cs
  | c :: cs => (if c = '\r' then '\n' else c) :: normalizeNewlines cs

/-- The text that bytes encode; none if they do not follow the encoding. -/
def decodeText? (content : ByteArray) : Option String :=
  (String.fromUTF8? content).map fun s => String.ofList (normalizeNewlines s.toList)

/-- Why a file cannot be read as text. -/
inductive TextError where
  | os (error : OsError)
  | undecodable
deriving DecidableEq, Repr

namespace FileTree

/-- The text of the file that a path leads to. -/
def readText (t : FileTree) (path : Path) : Except TextError String :=
  match t.read path with
  | .error e => .error (.os e)
  | .ok content =>
    match decodeText? content with
    | some text => .ok text
    | none => .error .undecodable

/-- Writes text to the file that a path leads to. -/
def writeText (t : FileTree) (path : Path) (text : String) : Except OsError FileTree :=
  t.write path text.toUTF8

/-! ## Listings -/

/-- Everything below a place, each entry as its names from there on and whether it is a
directory. -/
def contents (t : FileTree) (place : Place) : List (List String × FileNode) :=
  t.nodes.filterMap fun entry =>
    if isWithin place entry.1 && entry.1 ≠ place then
      some (entry.1.drop place.length, entry.2)
    else none

/-- An entry as a listing shows it: directories end in a slash. -/
def shownEntry (entry : List String × FileNode) : String :=
  let text := "/".intercalate entry.1
  match entry.2 with
  | .directory => text ++ "/"
  | .file _ => text

/-- Everything below a place, sorted by what a listing shows. -/
def listing (t : FileTree) (place : Place) : List (String × FileNode) :=
  ((t.contents place).map fun entry => (shownEntry entry, entry.2)).mergeSort
    fun a b => a.1 ≤ b.1

end FileTree

end Covenant
