/-
Splitting a document into tokens. Blanks and comments only separate tokens. What
a character starts depends on it and on the token before: after `from` a run of
characters with a scheme is one location, and after `@` a digit starts a version.

A lexeme is described by the number of characters it takes beyond its first one,
so the text that is left is always shorter.
-/
import Covenant.Text.Alphanumeric
import Covenant.Text.LowerCase
import Covenant.Text.Quoted
import Covenant.Token.Basic

namespace Covenant

open Covenant.Text

/-- Why a document cannot be split into tokens. -/
inductive LexicalFault where
  | unterminatedComment
  | unterminatedString
  | unterminatedPattern
  | invalidEscape (c : Char)
  | malformedVersion
  | unexpected (c : Char)
deriving DecidableEq, Repr

def LexicalFault.message : LexicalFault → String
  | unterminatedComment => "Unterminated block comment"
  | unterminatedString => "Unterminated string literal"
  | unterminatedPattern => "Unterminated regular expression literal"
  | invalidEscape c => "Invalid escape sequence: '\\" ++ c.toString ++ "'"
  | malformedVersion => "Malformed version number"
  | unexpected c => "Unexpected character: " ++ quoted c.toString

/-- A lexical fault and where it is. -/
structure LexicalError where
  fault : LexicalFault
  position : Position
deriving DecidableEq, Repr

namespace Lexer

/-! ## Layout -/

/-- The characters that separate tokens. -/
def isLayoutBlank (c : Char) : Bool :=
  c = ' ' || c = '\t' || c = '\r' || c = '\n' || c = '\ufeff'

/-- How many characters lie before the end of a block comment, its closing mark included. -/
def commentLength? : List Char → Option Nat
  | '*' :: '/' :: _ => some 2
  | _ :: cs => (commentLength? cs).map (· + 1)
  | [] => none

/-- How many blanks and comment characters a text starts with; in the error case, how many
characters stand before a comment that is never closed. -/
def layoutLength (cs : List Char) : Except Nat Nat :=
  match cs with
  | [] => .ok 0
  | '/' :: '/' :: cs =>
    let line := cs.takeWhile (· ≠ '\n')
    shift (line.length + 2) (layoutLength (cs.drop line.length))
  | '/' :: '*' :: cs =>
    match commentLength? cs with
    | none => .error 0
    | some n => shift (n + 2) (layoutLength (cs.drop n))
  | c :: cs => if isLayoutBlank c then shift 1 (layoutLength cs) else .ok 0
termination_by cs.length
decreasing_by all_goals simp +arith
where
  /-- Counts `n` characters more. -/
  shift (n : Nat) : Except Nat Nat → Except Nat Nat
    | .ok m => .ok (m + n)
    | .error m => .error (m + n)

/-! ## Lexemes -/

/-- A lexeme: what it is, its value, and how many characters it takes beyond the first. -/
structure Lexeme where
  kind : TokenKind
  value : List Char
  extent : Nat
deriving DecidableEq, Repr

/-- A fault inside a lexeme, at a distance from its first character. -/
abbrev Fault := LexicalFault × Nat

/-- The character that an escape stands for. -/
def escaped? : Char → Option Char
  | 'n' => some '\n'
  | 't' => some '\t'
  | 'r' => some '\r'
  | '\\' => some '\\'
  | '"' => some '"'
  | '\'' => some '\''
  | _ => none

/-- The content of a string of which `n` characters have been read after the opening quote, and
the number of characters up to the closing quote. -/
def stringBody (quote : Char) (n : Nat) : List Char → Except Fault (List Char × Nat)
  | [] => .error (.unterminatedString, 0)
  | c :: cs =>
    if c = quote then .ok ([], n + 1)
    else if c = '\n' then .error (.unterminatedString, 0)
    else if c = '\\' then
      match cs with
      | [] => .error (.unterminatedString, 0)
      | e :: cs =>
        match escaped? e with
        | none => .error (.invalidEscape e, n + 2)
        | some d => (stringBody quote (n + 2) cs).map fun (ds, m) => (d :: ds, m)
    else (stringBody quote (n + 1) cs).map fun (ds, m) => (c :: ds, m)

/-- The number of characters of a pattern after its opening slash, up to and with the closing
one. A backslash takes the next character with it unless the line ends there. -/
def patternLength? : List Char → Option Nat
  | [] => none
  | c :: cs =>
    if c = '\n' then none
    else if c = '/' then some 1
    else if c = '\\' then
      match cs with
      | [] => none
      | d :: ds => if d = '\n' then none else (patternLength? ds).map (· + 2)
    else (patternLength? cs).map (· + 1)

/-- Whether a text starts with a digit. -/
def startsWithDigit : List Char → Bool
  | c :: _ => isDigit c
  | [] => false

/-- The number of digits a text starts with. -/
def digitsLength (cs : List Char) : Nat :=
  (cs.takeWhile isDigit).length

/-- The number of characters of a fraction, its point included. -/
def fractionLength : List Char → Nat
  | '.' :: cs => if startsWithDigit cs then digitsLength cs + 1 else 0
  | _ => 0

/-- The number of characters of the sign that a text starts with. -/
def signLength : List Char → Nat
  | s :: _ => if s = '+' || s = '-' then 1 else 0
  | [] => 0

/-- The number of characters of an exponent, its mark and sign included. -/
def exponentLength : List Char → Nat
  | [] => 0
  | c :: cs =>
    if c = 'e' || c = 'E' then
      if startsWithDigit (cs.drop (signLength cs)) then
        digitsLength (cs.drop (signLength cs)) + signLength cs + 1
      else 0
    else 0

/-- The number of characters of an unsigned numeral and whether it is a floating point one. -/
def numeralLength (cs : List Char) : Nat × Bool :=
  let whole := digitsLength cs
  let fraction := fractionLength (cs.drop whole)
  let exponent := exponentLength (cs.drop (whole + fraction))
  (whole + fraction + exponent, fraction + exponent ≠ 0)

/-- The number of characters of at most `parts` runs of digits with points between them. -/
def versionCoreLength : (parts : Nat) → List Char → Except LexicalFault Nat
  | 0, _ => .ok 0
  | parts + 1, cs =>
    let run := digitsLength cs
    if run = 0 then .error .malformedVersion
    else
      match cs.drop run with
      | '.' :: rest =>
        if parts ≠ 0 && startsWithDigit rest then
          (versionCoreLength parts rest).map (· + (run + 1))
        else .ok run
      | _ => .ok run

/-- Whether a character can stand in a version suffix. -/
def isSuffixChar (c : Char) : Bool :=
  isAlphanumeric c || c = '-'

/-- Whether a version suffix goes on behind a point: only before a digit or a lower-case letter, so
that a type name can follow. -/
def pointGoesOn : List Char → Bool
  | d :: _ => isDigit d || isLowerCase d
  | [] => false

/-- The number of characters of the segments of a version suffix. -/
def suffixLength : List Char → Nat
  | [] => 0
  | c :: cs =>
    if isSuffixChar c then suffixLength cs + 1
    else if c = '.' then if pointGoesOn cs then suffixLength cs + 1 else 0
    else 0

/-- The number of characters of a version suffix, the mark in front of it included. -/
def markedSuffixLength : List Char → Nat
  | mark :: next :: rest =>
    if (mark = '-' || mark = '+') && isAlphanumeric next then 1 + suffixLength (next :: rest) else 0
  | _ => 0

/-- The number of characters of a version. -/
def versionLength (cs : List Char) : Except LexicalFault Nat :=
  (versionCoreLength 3 cs).map fun core => core + markedSuffixLength (cs.drop core)

/-- The end of a location. -/
def isUriEnd (c : Char) : Bool :=
  c = ' ' || c = '\t' || c = '\r' || c = '\n'

/-- Whether the text holds `://`. -/
def hasScheme : List Char → Bool
  | [] => false
  | c :: cs => ([':', '/', '/'].isPrefixOf (c :: cs)) || hasScheme cs

def isIdentifierStart (c : Char) : Bool :=
  isLetter c || c = '_' || c = '$'

def isIdentifierChar (c : Char) : Bool :=
  isAlphanumeric c || c = '_' || c = '$'

/-- The kind of a word. -/
def wordKind (word : List Char) : TokenKind :=
  match Keyword.ofText? (String.ofList word) with
  | some keyword => .keyword keyword
  | none => .identifier

/-- A lexeme whose value is its text. -/
def verbatim (kind : TokenKind) (c : Char) (cs : List Char) (extent : Nat) : Lexeme :=
  ⟨kind, c :: cs.take extent, extent⟩

/-- A numeral that starts with `c`, a digit or a minus sign. -/
def numeral (c : Char) (cs : List Char) : Lexeme :=
  let (length, isFloat) := if c = '-' then
      numeralLength cs
    else
      let (length, isFloat) := numeralLength (c :: cs)
      (length - 1, isFloat)
  verbatim (if isFloat then .float else .integer) c cs length

/-- A lexeme that does not depend on the token before it. -/
def ordinary (c : Char) (cs : List Char) : Except Fault Lexeme :=
  match Mark.ofChar? c with
  | some mark => .ok (verbatim (.mark mark) c cs 0)
  | none =>
    if c = '-' then
      if ['-', '>'].isPrefixOf cs then .ok (verbatim (.mark .arrow) c cs 2)
      else if startsWithDigit cs then .ok (numeral c cs)
      else .error (.unexpected c, 0)
    else if c = '/' then
      match patternLength? cs with
      | none => .error (.unterminatedPattern, 0)
      | some length =>
        let flags := (cs.drop length).takeWhile isLetter
        .ok (verbatim .pattern c cs (length + flags.length))
    else if c = '"' || c = '\'' then
      (stringBody c 0 cs).map fun (value, length) => ⟨.string, value, length⟩
    else if isDigit c then .ok (numeral c cs)
    else if isIdentifierStart c then
      let rest := cs.takeWhile isIdentifierChar
      .ok (verbatim (wordKind (c :: rest)) c cs rest.length)
    else .error (.unexpected c, 0)

/-- Whether a location starts here. -/
def locates (previous : Option TokenKind) (cs : List Char) : Bool :=
  previous = some (.keyword .fromKw) && hasScheme (cs.takeWhile (!isUriEnd ·))

/-- The lexeme that starts with `c` and goes on in `cs`, after a token of kind `previous`. -/
def lexeme (previous : Option TokenKind) (c : Char) (cs : List Char) : Except Fault Lexeme :=
  if locates previous (c :: cs) then
    .ok (verbatim .uri c cs (((c :: cs).takeWhile (!isUriEnd ·)).length - 1))
  else if previous = some (.mark .atSign) && isDigit c then
    match versionLength (c :: cs) with
    | .error fault => .error (fault, 0)
    | .ok length => .ok (verbatim .version c cs (length - 1))
  else ordinary c cs

/-! ## Documents -/

/-- The tokens of a text that starts at `position`, after a token of kind `previous`. -/
def scan (previous : Option TokenKind) (position : Position) (cs : List Char) :
    Except LexicalError TokenStream :=
  match layoutLength cs with
  | .error n => .error ⟨.unterminatedComment, position.after (cs.take n)⟩
  | .ok n =>
    let start := position.after (cs.take n)
    match _h : cs.drop n with
    | [] => .ok ⟨[], start⟩
    | c :: rest =>
      match lexeme previous c rest with
      | .error (fault, distance) => .error ⟨fault, start.after ((c :: rest).take distance)⟩
      | .ok lexeme =>
        let finish := start.after (c :: rest.take lexeme.extent)
        match scan (some lexeme.kind) finish (rest.drop lexeme.extent) with
        | .error e => .error e
        | .ok stream =>
          .ok { stream with
            tokens := ⟨lexeme.kind, String.ofList lexeme.value, start⟩ :: stream.tokens }
termination_by cs.length
decreasing_by
  have := congrArg List.length _h
  simp at this
  simp
  omega

end Lexer

/-- Splits a document into its tokens. -/
def tokenize (source : String) : Except LexicalError TokenStream :=
  Lexer.scan none .start source.toList

end Covenant
