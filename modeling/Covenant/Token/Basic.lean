/-
The tokens of a model document: keywords, symbols, literals and names, each with
the place where it starts. The end of the document is no token; a token stream
keeps its place apart.
-/
namespace Covenant

/-- A place in a document, counted from one in lines and characters. -/
structure Position where
  line : Nat
  column : Nat
deriving DecidableEq, Repr

namespace Position

/-- The place of the first character. -/
def start : Position := ⟨1, 1⟩

/-- The place after a character that stands at `p`. -/
def next (p : Position) (c : Char) : Position :=
  if c = '\n' then ⟨p.line + 1, 1⟩ else ⟨p.line, p.column + 1⟩

/-- The place after a text that starts at `p`. -/
def after (p : Position) (cs : List Char) : Position :=
  cs.foldl next p

end Position

/-- A reserved word. -/
inductive Keyword where
  | concerto | version | namespaceKw | importKw | fromKw | abstractKw
  | concept | asset | participant | transaction | event
  | enum | scalar | map | extendsKw | identified | byKw
  | field | optional | defaultKw | regex | range | length | trueKw | falseKw
deriving DecidableEq, Repr

namespace Keyword

/-- How the word is written. -/
def text : Keyword → String
  | concerto => "concerto"
  | version => "version"
  | namespaceKw => "namespace"
  | importKw => "import"
  | fromKw => "from"
  | abstractKw => "abstract"
  | concept => "concept"
  | asset => "asset"
  | participant => "participant"
  | transaction => "transaction"
  | event => "event"
  | enum => "enum"
  | scalar => "scalar"
  | map => "map"
  | extendsKw => "extends"
  | identified => "identified"
  | byKw => "by"
  | field => "o"
  | optional => "optional"
  | defaultKw => "default"
  | regex => "regex"
  | range => "range"
  | length => "length"
  | trueKw => "true"
  | falseKw => "false"

def all : List Keyword :=
  [concerto, version, namespaceKw, importKw, fromKw, abstractKw, concept, asset, participant,
   transaction, event, enum, scalar, map, extendsKw, identified, byKw, field, optional,
   defaultKw, regex, range, length, trueKw, falseKw]

/-- The keyword that a word spells, if any. -/
def ofText? (word : String) : Option Keyword :=
  all.find? (·.text = word)

end Keyword

/-- A mark of punctuation. -/
inductive Mark where
  | leftBrace | rightBrace | leftBracket | rightBracket | leftParen | rightParen
  | comma | dot | equals | atSign | star | arrow
deriving DecidableEq, Repr

namespace Mark

/-- How the mark is written. -/
def text : Mark → String
  | leftBrace => "\x7b"
  | rightBrace => "\x7d"
  | leftBracket => "["
  | rightBracket => "]"
  | leftParen => "("
  | rightParen => ")"
  | comma => ","
  | dot => "."
  | equals => "="
  | atSign => "@"
  | star => "*"
  | arrow => "-->"

/-- The mark that a single character makes. -/
def ofChar? : Char → Option Mark
  | '\x7b' => some leftBrace
  | '\x7d' => some rightBrace
  | '[' => some leftBracket
  | ']' => some rightBracket
  | '(' => some leftParen
  | ')' => some rightParen
  | ',' => some comma
  | '.' => some dot
  | '=' => some equals
  | '@' => some atSign
  | '*' => some star
  | _ => none

end Mark

/-- What a token is. -/
inductive TokenKind where
  | keyword (word : Keyword)
  | mark (mark : Mark)
  | string
  | integer
  | float
  | pattern
  | version
  | uri
  | identifier
deriving DecidableEq, Repr

/-- How a kind of token is named where one is expected. -/
def TokenKind.text : TokenKind → String
  | keyword word => word.text
  | mark m => m.text
  | string => "STRING"
  | integer => "INTEGER"
  | float => "FLOAT"
  | pattern => "REGEX_LITERAL"
  | version => "SEMVER"
  | uri => "URI"
  | identifier => "IDENTIFIER"

/-- A token: its kind, its text (the content without quotes and escapes if it is a string) and
where it starts. -/
structure Token where
  kind : TokenKind
  text : String
  position : Position
deriving DecidableEq, Repr

/-- The tokens of a document and the place where it ends. -/
structure TokenStream where
  tokens : List Token
  finish : Position
deriving DecidableEq, Repr

end Covenant
