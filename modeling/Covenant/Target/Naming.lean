/-
Names in the generated crates. Properties become snake-case fields, namespaces
and contracts become modules, and a contract's name becomes a package name.
-/
import Covenant.Text.Casing
import Covenant.Text.Split

namespace Covenant.Target

open Covenant.Text

def isCapital (c : Char) : Bool :=
  'A' ≤ c && c ≤ 'Z'

def isSmallOrFigure (c : Char) : Bool :=
  ('a' ≤ c && c ≤ 'z') || ('0' ≤ c && c ≤ '9')

/-- Puts `sep` wherever a small letter or a figure is followed by a capital. -/
def splitCamelCase (sep : Char) : List Char → List Char
  | [] => []
  | c :: cs =>
    match cs with
    | d :: _ =>
      if isSmallOrFigure c && isCapital d then c :: sep :: splitCamelCase sep cs
      else c :: splitCamelCase sep cs
    | [] => [c]

/-- A name without the leading dollar signs of system properties. -/
def withoutDollars (name : String) : List Char :=
  name.toList.dropWhile (· = '$')

/-- The words that cannot be field names as they are. -/
def reservedWords : List String :=
  ["as", "async", "await", "box", "break", "const", "continue", "dyn", "else", "enum",
   "extern", "false", "fn", "for", "if", "impl", "in", "let", "loop", "match", "mod",
   "move", "mut", "pub", "ref", "return", "static", "struct", "trait", "true", "try",
   "type", "unsafe", "use", "where", "while", "yield"]

/-- The mark that lets a reserved word stand as a name. -/
def rawMark : String := "r#"

/-- A property's name in snake case: `forceMajeure` becomes `force_majeure` and `$class` becomes
`class`. -/
def snakeCase (name : String) : String :=
  toLower (String.ofList (splitCamelCase '_' (withoutDollars name)))

/-- The field of a property: its name in snake case, with a mark if that is a reserved word. -/
def fieldName (name : String) : String :=
  let snake := snakeCase name
  if reservedWords.contains snake then rawMark ++ snake else snake

/-- A field name without its mark. -/
def unmarked (field : String) : String :=
  if field.startsWith rawMark then String.ofList (field.toList.drop 2) else field

/-- The module of a contract: small letters, with an underscore for all that cannot stand in a
module name. -/
def moduleName (name : String) : String :=
  String.ofList ((toLower name).toList.map fun c => if isSmallOrFigure c || c = '_' then c else '_')

/-- The module of a namespace: `org.example@1.0.0` becomes `org_example_1_0_0`. -/
def namespaceModule (key : String) : String :=
  String.ofList ((toLower key).toList.map fun c => if isSmallOrFigure c then c else '_')

/-- The name in parts divided by hyphens, one before every capital but the first character. -/
def packageName (name : String) : String :=
  match name.toList with
  | [] => ""
  | c :: cs =>
    toLower (String.ofList (c :: cs.flatMap fun d => if isCapital d then ['-', d] else [d]))

/-- The crate of a package. -/
def crateName (package : String) : String :=
  String.ofList (package.toList.map fun c => if c = '-' then '_' else c)

/-- The contract of a template: a `Clause` at the end, or before a line end there, becomes
`Contract`. -/
def contractName (template : String) : String :=
  if template.isEmpty then "ConcertoContract"
  else
    let (body, finish) := match template.toList.reverse with
      | '\n' :: rest => (rest.reverse, ['\n'])
      | cs => (cs.reverse, [])
    let clause := "Clause".toList
    if clause.isSuffixOf body then
      String.ofList (body.take (body.length - clause.length) ++ "Contract".toList ++ finish)
    else template

/-- A type name without its namespace. -/
def shortName (typeName : String) : String :=
  afterLast '.' typeName

end Covenant.Target
