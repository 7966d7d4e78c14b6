/-
Archives of model documents. An archive is a named directory that keeps its
documents in a directory of their own.
-/
import Covenant.Text.Blank

namespace Covenant

open Covenant.Text

/-- A document of an archive, and whether a line of it looks like an import. -/
structure SchemaDocument where
  archive : String
  filename : String
  text : String
  hasImports : Bool := false
deriving DecidableEq, Repr

/-- The directory of an archive that holds its documents. -/
def modelDirectory : String := "model"

/-- The document as messages name it. -/
def SchemaDocument.name (d : SchemaDocument) : String :=
  d.archive ++ "/" ++ modelDirectory ++ "/" ++ d.filename

structure Archive where
  name : String
  documents : List SchemaDocument
deriving DecidableEq, Repr

/-- Whether a text starts, after white space, with the word `import` and white space. -/
def startsWithImport (cs : List Char) : Bool :=
  let rest := cs.dropWhile isBlank
  let word := "import".toList
  word.isPrefixOf rest && (rest.drop word.length).head?.any isBlank

/-- Whether a line of the text starts an import; `atLineStart` says whether the text itself
starts a line. -/
def hasImportLine (atLineStart : Bool) : List Char → Bool
  | [] => false
  | c :: cs => (atLineStart && startsWithImport (c :: cs)) || hasImportLine (c = '\n') cs

end Covenant
