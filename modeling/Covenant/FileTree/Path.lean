/-
Paths as they are written and places as they are. A path keeps the parts of its
text that matter: single points and empty parts are dropped, steps to the parent
are kept. A place is the list of names that leads to it from the root.
-/
import Covenant.Text.Split

namespace Covenant

open Covenant.Text

/-- Where a path starts. Exactly two slashes in front are kept apart from one. -/
inductive Anchor where
  | relative | root | doubleRoot
deriving DecidableEq, Repr

def Anchor.text : Anchor → String
  | relative => ""
  | root => "/"
  | doubleRoot => "//"

/-- A path as it is written. -/
structure Path where
  anchor : Anchor
  parts : List String
deriving DecidableEq, Repr

/-- The names that lead to a file or directory from the root. -/
abbrev Place := List String

namespace Path

/-- The step to the parent directory. -/
def parentStep : String := ".."

def anchorOf (cs : List Char) : Anchor :=
  match (cs.takeWhile (· = '/')).length with
  | 0 => .relative
  | 2 => .doubleRoot
  | _ => .root

def ofText (text : String) : Path :=
  ⟨anchorOf text.toList,
    ((splitAll '/' text.toList).map String.ofList).filter fun piece => piece ≠ "" && piece ≠ "."⟩

def text (p : Path) : String :=
  if p.anchor = .relative && p.parts.isEmpty then "."
  else p.anchor.text ++ "/".intercalate p.parts

def isAbsolute (p : Path) : Bool :=
  p.anchor ≠ .relative

/-- The path `q` seen from `p`; an absolute one stands for itself. -/
def join (p q : Path) : Path :=
  if q.isAbsolute then q else ⟨p.anchor, p.parts ++ q.parts⟩

/-- The entry of that name below `p`. -/
def child (p : Path) (name : String) : Path :=
  ⟨p.anchor, p.parts ++ [name]⟩

/-- The entry below `p` that the names lead to. -/
def below (p : Path) (names : List String) : Path :=
  ⟨p.anchor, p.parts ++ names⟩

/-- The path without its last part; without parts it stays as it is. -/
def parent (p : Path) : Path :=
  ⟨p.anchor, p.parts.dropLast⟩

/-- The place that a path leads to from a place, steps to the parent undoing the step before. -/
def resolveFrom (start : Place) (p : Path) : Place :=
  p.parts.foldl (fun place part => if part = parentStep then place.dropLast else place ++ [part])
    (if p.isAbsolute then [] else start)

/-- The path of a place. -/
def ofPlace (place : Place) : Path :=
  ⟨.root, place⟩

/-- The path as seen from a directory above it, if its text starts with that directory's. -/
def relativeTo? (p directory : Path) : Option Path :=
  if p.anchor = directory.anchor && directory.parts.isPrefixOf p.parts then
    some ⟨.relative, p.parts.drop directory.parts.length⟩
  else none

end Path

/-- The suffix of a file name: from its last point on, unless that is the first or the last
character. -/
def suffixOf (name : String) : String :=
  let cs := name.toList
  let tail := (cs.reverse.takeWhile (· ≠ '.')).reverse
  if tail.isEmpty || cs.length ≤ tail.length + 1 then ""
  else String.ofList ('.' :: tail)

end Covenant
