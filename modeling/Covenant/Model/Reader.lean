/-
Reading a model from its tokens. A reader takes tokens from the front of a list
and leaves the rest; the end of the list is the end of the document. A failure
keeps the tokens at which it arose, so that where it is and what stands there
follow from the stream alone.
-/
import Covenant.Model.Basic
import Covenant.Token.Lexer

namespace Covenant

open Covenant.Number Covenant.Text

/-! ## Errors -/

/-- What could have stood where a document cannot be continued. -/
inductive Expectation where
  | oneOf (kinds : List TokenKind)
  | name
  | literal
  | classDeclaration
  | declaration
  /-- An import names a type inside a namespace; this one has a single name. -/
  | qualifiedImport (part : String)
deriving DecidableEq, Repr

/-- The complaint about a token with the text `found`. -/
def Expectation.message (found : String) : Expectation → String
  | oneOf kinds =>
    "Expected " ++ ", ".intercalate (kinds.map (quoted ·.text)) ++ ", got " ++ quoted found
  | name => "Expected identifier, got " ++ quoted found
  | literal => "Expected a literal value, got " ++ quoted found
  | classDeclaration => "Expected a class declaration after 'abstract', got " ++ quoted found
  | declaration => "Unexpected token " ++ quoted found ++ " at top level"
  | qualifiedImport part => s!"Import of '{part}' must name a type within a namespace"

/-- A document that does not follow the grammar. -/
structure GrammarError where
  wanted : Expectation
  found : String
  position : Position
deriving DecidableEq, Repr

/-- Why a document cannot be read. -/
inductive ReadError where
  | lexical (error : LexicalError)
  | grammar (error : GrammarError)
  | numeral (error : NumeralError)
deriving DecidableEq, Repr

/-- A complaint with the place it is about. -/
def Position.locate (p : Position) (message : String) : String :=
  s!"Line {p.line}, column {p.column}: {message}"

def LexicalError.message (e : LexicalError) : String :=
  e.position.locate e.fault.message

def GrammarError.message (e : GrammarError) : String :=
  e.position.locate (e.wanted.message e.found)

def ReadError.message : ReadError → String
  | lexical e => e.message
  | grammar e => e.message
  | numeral e => e.message

/-! ## Readers -/

namespace Reader

/-- Why a reader fails: it cannot go on at the tokens given, or a numeral names no number. -/
inductive Failure where
  | unexpected (wanted : Expectation) (rest : List Token)
  | numeral (error : NumeralError)
deriving DecidableEq, Repr

end Reader

/-- Takes a value from the front of a list of tokens. -/
abbrev Reader := StateT (List Token) (Except Reader.Failure)

namespace Reader

variable {α : Type}

/-- Fails at the tokens to come. -/
def fail (wanted : Expectation) : Reader α :=
  fun ts => .error (.unexpected wanted ts)

/-- The kind of the next token. -/
def peek : Reader (Option TokenKind) :=
  fun ts => .ok (ts.head?.map (·.kind), ts)

/-- Takes the next token if it passes the test. -/
def take (wanted : Expectation) (test : TokenKind → Bool) : Reader Token :=
  fun ts =>
    match ts with
    | t :: rest => if test t.kind then .ok (t, rest) else .error (.unexpected wanted ts)
    | [] => .error (.unexpected wanted ts)

/-- Takes a token of one of the kinds. -/
def expectOneOf (kinds : List TokenKind) : Reader Token :=
  take (.oneOf kinds) kinds.contains

/-- Takes a token of the kind. -/
def expect (kind : TokenKind) : Reader Token :=
  expectOneOf [kind]

def expectMark (mark : Mark) : Reader Unit := do
  let _ ← expect (.mark mark)

def expectKeyword (word : Keyword) : Reader Unit := do
  let _ ← expect (.keyword word)

/-- Takes the next token if it is of the kind, and says whether it was. -/
def accept (kind : TokenKind) : Reader Bool :=
  fun ts =>
    match ts with
    | t :: rest => .ok (if t.kind = kind then (true, rest) else (false, ts))
    | [] => .ok (false, [])

def acceptMark (mark : Mark) : Reader Bool :=
  accept (.mark mark)

def acceptKeyword (word : Keyword) : Reader Bool :=
  accept (.keyword word)

/-- Reads items as long as the tokens to come pass the test. An item takes a token at least; one
that takes none ends the repetition. -/
def many (more : List Token → Bool) (item : Reader α) (ts : List Token) :
    Except Failure (List α × List Token) :=
  if more ts then
    match item ts with
    | .error e => .error e
    | .ok (a, rest) =>
      if rest.length < ts.length then
        match many more item rest with
        | .error e => .error e
        | .ok (as, rest) => .ok (a :: as, rest)
      else .ok ([a], rest)
  else .ok ([], ts)
termination_by ts.length

/-- Whether the next token is of one of the kinds. -/
def startsWith (kinds : List TokenKind) : List Token → Bool
  | t :: _ => kinds.contains t.kind
  | [] => false

/-- Whether there is a next token and it is not of the kind. -/
def goesOnBefore (kind : TokenKind) : List Token → Bool
  | t :: _ => t.kind ≠ kind
  | [] => false

/-- Reads one item or more with commas between them. -/
def commaSeparated (item : Reader α) : Reader (List α) := do
  let first ← item
  let others ← many (startsWith [.mark .comma]) do
    expectMark .comma
    item
  return first :: others

/-! ## Names -/

/-- Names are identifiers, and keywords where no keyword is meant. -/
def isName : TokenKind → Bool
  | .identifier => true
  | .keyword _ => true
  | _ => false

def name : Reader String :=
  (·.text) <$> take .name isName

/-- A point and a name after it. -/
def pointedName : Reader String := do
  expectMark .dot
  name

/-- A name of one part or more, with points between them. -/
def dottedName : Reader String := do
  let first ← name
  let others ← many (startsWith [.mark .dot]) pointedName
  return ".".intercalate (first :: others)

def identifier : Reader String :=
  (·.text) <$> expect .identifier

/-! ## Literals -/

/-- Turns the outcome of reading a numeral into that of a reader. -/
def ofNumeral (outcome : Except NumeralError α) : Reader α :=
  fun ts =>
    match outcome with
    | .ok a => .ok (a, ts)
    | .error e => .error (.numeral e)

/-- The kinds of the tokens that stand for numbers. -/
def numberKinds : List TokenKind :=
  [.integer, .float]

/-- The number that a token stands for. -/
def numberOf (token : Token) : Except NumeralError Number :=
  if token.kind = .integer then .int <$> readInteger token.text else .float <$> readFloat token.text

def number : Reader Number := do
  let token ← expectOneOf numberKinds
  ofNumeral (numberOf token)

def literal : Reader Literal := do
  match ← peek with
  | some .string | some .identifier => .text <$> (·.text) <$> take .literal fun _ => true
  | some .integer | some .float => .number <$> number
  | some (.keyword .trueKw) =>
    expectKeyword .trueKw
    return .flag true
  | some (.keyword .falseKw) =>
    expectKeyword .falseKw
    return .flag false
  | _ => fail .literal

/-- The number at one end of a range, if there is one before the mark. -/
def bound (stop : Mark) : Reader (Option Number) := do
  if (← peek) = some (.mark stop) then pure none else some <$> number

/-- A range `[lower, upper]`, either end of which may be missing. -/
def bounds : Reader Bounds := do
  expectMark .leftBracket
  let lower ← bound .comma
  expectMark .comma
  let upper ← bound .rightBracket
  expectMark .rightBracket
  return ⟨lower, upper⟩

/-! ## Decorators -/

/-- A pair of brackets, if it stands there. -/
def brackets : Reader Bool := do
  if ← acceptMark .leftBracket then
    expectMark .rightBracket
    return true
  return false

/-- A literal, or a type with or without brackets. -/
def decoratorArgument : Reader Literal := do
  match ← peek with
  | some .string | some .integer | some .float
  | some (.keyword .trueKw) | some (.keyword .falseKw) => literal
  | _ =>
    let typeName ← dottedName
    return .text (if ← brackets then typeName ++ "[]" else typeName)

def decoratorArguments : Reader (List Literal) := do
  if ← acceptMark .leftParen then
    if ← acceptMark .rightParen then
      return []
    let arguments ← commaSeparated decoratorArgument
    expectMark .rightParen
    return arguments
  return []

def decorator : Reader Decorator := do
  expectMark .atSign
  let decoratorName ← name
  return ⟨decoratorName, ← decoratorArguments⟩

def decorators : Reader (List Decorator) :=
  many (startsWith [.mark .atSign]) decorator

/-! ## Namespaces and imports -/

/-- The version after a namespace, if there is one. -/
def version? : Reader (Option String) := do
  if ← acceptMark .atSign then
    return some (← expect .version).text
  return none

/-- The line that names the document's namespace. -/
def namespaceLine : Reader Namespace := do
  expectKeyword .namespaceKw
  let namespaceName ← dottedName
  return ⟨namespaceName, ← version?⟩

/-- What an import brings in: a star, types in braces, or a type. -/
def importScope : Reader ImportScope := do
  if ← acceptMark .star then
    return .wildcard
  if ← acceptMark .leftBrace then
    let names ← commaSeparated name
    expectMark .rightBrace
    return .types names
  return .types [← name]

/-- Whether a point and a part of a name follow, and not a star or an opening brace. -/
def namePartFollows : List Token → Bool
  | point :: next :: _ =>
    point.kind = .mark .dot && next.kind ≠ .mark .star && next.kind ≠ .mark .leftBrace
  | [point] => point.kind = .mark .dot
  | [] => false

/-- The namespace and the scope of an import whose first tokens are `start`. Without a version
and without a star or braces, the last part of the name is the type. -/
def importTarget (start : List Token) : Reader (Namespace × ImportScope) := do
  let first ← name
  let others ← many namePartFollows pointedName
  let parts := first :: others
  match ← version? with
  | some version =>
    expectMark .dot
    return (⟨".".intercalate parts, some version⟩, ← importScope)
  | none =>
    if ← acceptMark .dot then
      return (⟨".".intercalate parts, none⟩, ← importScope)
    match others.getLast? with
    | none => throw (.unexpected (.qualifiedImport first) start)
    | some typeName => return (⟨".".intercalate parts.dropLast, none⟩, .types [typeName])

def importLine : Reader Import := do
  let start ← get
  expectKeyword .importKw
  let (target, scope) ← importTarget start
  if ← acceptKeyword .fromKw then
    return ⟨target, scope, some (← expect .uri).text⟩
  return ⟨target, scope, none⟩

/-! ## Properties -/

/-- What may follow a property. -/
inductive Modifier where
  | optional
  | default (value : Literal)
  | pattern (text : String)
  | range (bounds : Bounds)
  | length (bounds : Bounds)

/-- The words that open the modifiers with a value. -/
def valueModifiers : List TokenKind :=
  [.keyword .defaultKw, .keyword .regex, .keyword .range, .keyword .length]

/-- A modifier; the word that opens it is known to be one of theirs. -/
def modifier : Reader Modifier := do
  let word ← take (.oneOf valueModifiers) fun _ => true
  if word.kind = .keyword .optional then
    return .optional
  expectMark .equals
  if word.kind = .keyword .defaultKw then
    return .default (← literal)
  if word.kind = .keyword .regex then
    return .pattern (← expect .pattern).text
  if word.kind = .keyword .range then
    return .range (← bounds)
  return .length (← bounds)

/-- A later modifier of the same kind replaces an earlier one. -/
def Modifier.apply (p : Property) : Modifier → Property
  | optional => { p with isOptional := true }
  | default value => { p with default? := some value }
  | pattern text => { p with pattern? := some text }
  | range bounds => { p with range? := some bounds }
  | length bounds => { p with length? := some bounds }

/-- The marks of a value and of a relationship. -/
def propertyMarks : List TokenKind :=
  [.keyword .field, .mark .arrow]

def property : Reader Property := do
  let decorators ← decorators
  let mark ← expectOneOf propertyMarks
  let typeName ← dottedName
  let isArray ← brackets
  let propertyName ← name
  let modifiers ← many (startsWith (.keyword .optional :: valueModifiers)) modifier
  let plain : Property :=
    { name := propertyName, typeName, isArray, decorators
      isRelationship := mark.kind = .mark .arrow }
  return modifiers.foldl Modifier.apply plain

/-! ## Declarations -/

/-- What may stand between the name of a class and its properties. -/
inductive Clause where
  | identified (property? : Option String)
  | subtypeOf (superType : String)

def clause : Reader Clause := do
  if ← acceptKeyword .identified then
    if ← acceptKeyword .byKw then
      return .identified (some (← name))
    return .identified none
  expectKeyword .extendsKw
  return .subtypeOf (← dottedName)

/-- A later clause replaces an earlier one, but a plain `identified` keeps the property named
before. -/
def Clause.apply (body : ClassBody) : Clause → ClassBody
  | identified (some propertyName) => { body with identity := .property propertyName }
  | identified none =>
    match body.identity with
    | .property _ => body
    | _ => { body with identity := .system }
  | subtypeOf superType => { body with superType? := some superType }

/-- The category that a word declares. -/
def classKind? : TokenKind → Option ClassKind
  | .keyword .concept => some .concept
  | .keyword .asset => some .asset
  | .keyword .participant => some .participant
  | .keyword .transaction => some .transaction
  | .keyword .event => some .event
  | _ => none

/-- A class from its name on. -/
def classRest (kind : ClassKind) (isAbstract : Bool) (decorators : List Decorator) :
    Reader Declaration := do
  let className ← identifier
  let clauses ← many (startsWith [.keyword .identified, .keyword .extendsKw]) clause
  expectMark .leftBrace
  let properties ← many (goesOnBefore (.mark .rightBrace)) property
  expectMark .rightBrace
  let head : ClassBody := { kind, isAbstract }
  return ⟨className, .classBody { clauses.foldl Clause.apply head with properties }, decorators⟩

/-- A value of an enumeration; its decorators carry no meaning. -/
def enumerationValue : Reader String := do
  let _ ← decorators
  expectKeyword .field
  name

def enumeration (decorators : List Decorator) : Reader Declaration := do
  expectKeyword .enum
  let enumName ← identifier
  expectMark .leftBrace
  let values ← many (goesOnBefore (.mark .rightBrace)) enumerationValue
  expectMark .rightBrace
  return ⟨enumName, .enumeration values, decorators⟩

/-- A scalar; its modifiers carry no meaning. -/
def scalar (decorators : List Decorator) : Reader Declaration := do
  expectKeyword .scalar
  let scalarName ← identifier
  expectKeyword .extendsKw
  let base ← identifier
  let _ ← many (startsWith valueModifiers) modifier
  return ⟨scalarName, .scalar base, decorators⟩

/-- A type in a map, and a name after it that carries no meaning. -/
def mapEntry : Reader String := do
  let typeName ← dottedName
  let _ ← accept .identifier
  return typeName

def map (decorators : List Decorator) : Reader Declaration := do
  expectKeyword .map
  let mapName ← identifier
  expectMark .leftBrace
  expectKeyword .field
  let key ← mapEntry
  let _ ← expectOneOf propertyMarks
  let value ← mapEntry
  expectMark .rightBrace
  return ⟨mapName, .map key value, decorators⟩

def declaration : Reader Declaration := do
  let decorators ← decorators
  let isAbstract ← acceptKeyword .abstractKw
  let next ← peek
  match next.bind classKind? with
  | some kind =>
    let _ ← take .declaration fun _ => true
    classRest kind isAbstract decorators
  | none =>
    if isAbstract then fail .classDeclaration
    else
      match next with
      | some (.keyword .enum) => enumeration decorators
      | some (.keyword .scalar) => scalar decorators
      | some (.keyword .map) => map decorators
      | _ => fail .declaration

/-! ## Documents -/

/-- The line that names the version of the modelling language, if there is one. -/
def languageVersion? : Reader (Option String) := do
  if ← acceptKeyword .concerto then
    expectKeyword .version
    return some (← expect .string).text
  return none

/-- What stands before the declarations, as a document without any. -/
def header : Reader Model := do
  let languageVersion? ← languageVersion?
  let decorators ← decorators
  let id ← namespaceLine
  let imports ← many (startsWith [.keyword .importKw]) importLine
  return { id, languageVersion?, decorators, imports }

/-- The declarations up to the end. -/
def declarations : Reader (List Declaration) :=
  many (fun ts => !ts.isEmpty) declaration

/-- A whole document. -/
def model : Reader Model := do
  let front ← header
  let declarations ← declarations
  return { front with declarations }

end Reader

/-- The model that a stream of tokens spells. -/
def Model.ofTokens (stream : TokenStream) : Except ReadError Model :=
  match Reader.model stream.tokens with
  | .ok (model, _) => .ok model
  | .error (.numeral e) => .error (.numeral e)
  | .error (.unexpected wanted rest) =>
    match rest with
    | t :: _ => .error (.grammar ⟨wanted, t.text, t.position⟩)
    | [] => .error (.grammar ⟨wanted, "", stream.finish⟩)

/-- The model that a document spells. -/
def Model.read (source : String) : Except ReadError Model :=
  match tokenize source with
  | .error e => .error (.lexical e)
  | .ok stream => Model.ofTokens stream

end Covenant
