/-
Writing one entry of a mapping. A text is written plain if it reads back as the
same text; else between single quotes; else, if it holds characters that cannot
stand there, between double ones with escapes. Long texts go on, at a blank, on a
line of their own.
-/
import Covenant.Text.Quoted
import Covenant.Yaml.Reader

namespace Covenant.Yaml

open Covenant.Text

/-! ## Styles -/

inductive Style where
  | plain | single | double
deriving DecidableEq, Repr

/-- Whether a character is written as it is. -/
def isWritable (c : Char) : Bool :=
  ' ' ≤ c && c ≤ '~'

/-- Whether a text starts like something else than a plain scalar. -/
def startsMarked : List Char → Bool
  | [] => false
  | c :: cs =>
    "#,[]\x7b\x7d&*!|>'\"%@`".toList.contains c
      || ((c = '?' || c = ':' || c = '-') && startsGap cs)

/-- Whether a colon in a text would end a key or a number sign start a comment. -/
def holdsMark : List Char → Bool
  | [] => false
  | c :: cs =>
    (cs.head? = some ':' && startsGap (cs.drop 1))
      || (isGap c && cs.head? = some '#')
      || holdsMark cs

/-- Whether line ends and blanks stand next to each other. -/
def mixesLinesAndBlanks : List Char → Bool
  | [] => false
  | c :: cs =>
    (c = ' ' && cs.head? = some '\n') || (c = '\n' && cs.head? = some ' ')
      || mixesLinesAndBlanks cs

/-- How a text is written. -/
def styleOf (text : String) : Style :=
  let cs := text.toList
  if !(cs.all fun c => isWritable c || c = '\n') || mixesLinesAndBlanks cs then .double
  else if ScalarKind.ofPlain text ≠ .text || cs.contains '\n'
      || cs.head? = some ' ' || cs.getLast? = some ' '
      || text.startsWith startMarker || text.startsWith endMarker
      || startsMarked cs || holdsMark cs then .single
  else .plain

/-! ## Lines -/

/-- The column after which a text goes on in a new line. -/
def lineWidth : Nat := 80

/-- The column in which the lines of a text go on. -/
def hangingIndent : Nat := 2

/-- The start of a line on which a text goes on. -/
def hangingLine : List Char :=
  '\n' :: List.replicate hangingIndent ' '

/-- Whether a text may be divided at the blank before `cs`: the blank stands alone and between
characters. -/
def isDivision (before? : Option Char) (cs : List Char) : Bool :=
  before?.any (· ≠ ' ') && cs.head?.any (· ≠ ' ')

/-- Writes a text without escapes from a column on; quotes are doubled if `doubles` says so, and a
run of line ends is written with one more. -/
def writeLines (doubles : Bool) (column : Nat) (before? : Option Char) : List Char → List Char
  | [] => []
  | c :: cs =>
    if c = ' ' && lineWidth < column && isDivision before? cs then
      hangingLine ++ writeLines doubles hangingIndent (some c) cs
    else if c = '\n' then
      (if before? = some '\n' then ['\n'] else ['\n', '\n'])
        ++ (if cs.head? = some '\n' then [] else List.replicate hangingIndent ' ')
        ++ writeLines doubles hangingIndent (some c) cs
    else if doubles && c = '\'' then
      '\'' :: '\'' :: writeLines doubles (column + 2) (some c) cs
    else c :: writeLines doubles (column + 1) (some c) cs

/-- The letter that stands for a character after a backslash. -/
def escapeLetter? (c : Char) : Option Char :=
  ([('\x00', '0'), ('\x07', 'a'), ('\x08', 'b'), ('\t', 't'), ('\n', 'n'), ('\x0b', 'v'),
    ('\x0c', 'f'), ('\r', 'r'), ('\x1b', 'e'), ('"', '"'), ('\\', '\\'), ('\x85', 'N'),
    ('\xa0', '_'), ('\u2028', 'L'), ('\u2029', 'P')] : List (Char × Char)).lookup c

/-- The hexadecimal digits of a number in capital letters. -/
def capitalHexDigits (width n : Nat) : List Char :=
  (hexDigits width n).map Char.toUpper

/-- The escape of a character that is not written as it is. -/
def escapeOf (c : Char) : List Char :=
  match escapeLetter? c with
  | some letter => ['\\', letter]
  | none =>
    if c.toNat < 0x100 then '\\' :: 'x' :: capitalHexDigits 2 c.toNat
    else if c.toNat < 0x10000 then '\\' :: 'u' :: capitalHexDigits 4 c.toNat
    else '\\' :: 'U' :: capitalHexDigits 8 c.toNat

/-- Divides a line before `cs`; a blank that starts the next line is escaped. -/
def dividedBefore (cs : List Char) : List Char × Nat :=
  if cs.head? = some ' ' then ('\\' :: hangingLine ++ ['\\'], hangingIndent + 1)
  else ('\\' :: hangingLine, hangingIndent)

/-- Writes a text with escapes from a column on. It is divided before a blank, and before or behind
an escape, but never before its first or last character. -/
def writeEscaped (column : Nat) (isFirst afterEscape : Bool) : List Char → List Char
  | [] => []
  | c :: cs =>
    let mayDivide := !isFirst && !cs.isEmpty
    if isWritable c && c ≠ '"' && c ≠ '\\' then
      if mayDivide && (c = ' ' || afterEscape) && lineWidth < column then
        let (division, column) := dividedBefore (c :: cs)
        division ++ c :: writeEscaped (column + 1) false false cs
      else c :: writeEscaped (column + 1) false false cs
    else
      let escape := escapeOf c
      let column := column + escape.length
      if mayDivide && lineWidth + 1 < column then
        let (division, column) := dividedBefore cs
        escape ++ division ++ writeEscaped column false true cs
      else escape ++ writeEscaped column false true cs

/-- A text as a value that starts in a column. -/
def writeValue (column : Nat) (text : String) : String :=
  let cs := text.toList
  match styleOf text with
  | .plain => String.ofList (writeLines false column none cs)
  | .single => "'" ++ String.ofList (writeLines true (column + 1) none cs) ++ "'"
  | .double => "\"" ++ String.ofList (writeEscaped (column + 1) true false cs) ++ "\""

/-- An entry of a block mapping of texts. -/
def writeEntry (key value : String) : String :=
  key ++ ": " ++ writeValue (key.length + 2) value ++ "\n"

/-- A block mapping of texts. -/
def writeMapping (entries : List (String × String)) : String :=
  String.join (entries.map fun (key, value) => writeEntry key value)

end Covenant.Yaml
