/-
What a plain scalar stands for. A scalar without quotes is a text unless it has
the form of something else: nothing, a truth value, a whole number, a number with
a decimal point or a point in time. Numbers may have bars between their digits
and may be written in base 60, with colons between the places.
-/
import Covenant.Text.Split

namespace Covenant.Yaml

open Covenant.Text

/-- What a plain scalar stands for. -/
inductive ScalarKind where
  | text
  | null
  | flag
  | integer
  | decimal
  | instant
  /-- The mark of a mapping that another one is merged into. -/
  | merge
  /-- The mark of the default value of a mapping. -/
  | fallback
deriving DecidableEq, Repr

/-! ## Words -/

def nullWords : List String := ["", "~", "null", "Null", "NULL"]

def trueWords : List String :=
  ["yes", "Yes", "YES", "true", "True", "TRUE", "on", "On", "ON"]

def falseWords : List String :=
  ["no", "No", "NO", "false", "False", "FALSE", "off", "Off", "OFF"]

/-! ## Numbers -/

def isDigitOrBar (c : Char) : Bool :=
  c.isDigit || c = '_'

def isHexDigit (c : Char) : Bool :=
  c.isDigit || ('a' ≤ c && c ≤ 'f') || ('A' ≤ c && c ≤ 'F')

def isOctalDigit (c : Char) : Bool :=
  '0' ≤ c && c ≤ '7'

def isBinaryDigit (c : Char) : Bool :=
  c = '0' || c = '1'

/-- Whether a text has characters, all of them of the class or bars. -/
def isRunOf (digit : Char → Bool) (cs : List Char) : Bool :=
  !cs.isEmpty && cs.all fun c => digit c || c = '_'

/-- A number without its sign. -/
def unsigned : List Char → List Char
  | [] => []
  | c :: cs => if c = '-' || c = '+' then cs else c :: cs

/-- Whether a text is a place below 60. -/
def isBase60Place : List Char → Bool
  | [d] => d.isDigit
  | [tens, units] => '0' ≤ tens && tens ≤ '5' && units.isDigit
  | _ => false

/-- Whether a text starts with a digit that passes the test and goes on with digits and bars. -/
def isNumeral (first : Char → Bool) : List Char → Bool
  | [] => false
  | c :: cs => c.isDigit && first c && cs.all isDigitOrBar

/-- Whether a text without a sign is a whole number. -/
def isMagnitude : List Char → Bool
  | ['0'] => true
  | '0' :: 'b' :: digits => isRunOf isBinaryDigit digits
  | '0' :: 'x' :: digits => isRunOf isHexDigit digits
  | '0' :: digits => isRunOf isOctalDigit digits
  | cs =>
    match splitAll ':' cs with
    | [] => false
    | first :: places => isNumeral (· ≠ '0') first && places.all isBase60Place

def isInteger (cs : List Char) : Bool :=
  isMagnitude (unsigned cs)

/-- Whether a text is an exponent, which always has a sign. -/
def isExponent : List Char → Bool
  | e :: sign :: digits =>
    (e = 'e' || e = 'E') && (sign = '-' || sign = '+') && !digits.isEmpty && digits.all Char.isDigit
  | _ => false

/-- Whether a text may stand behind a decimal point. -/
def isDecimalTail (cs : List Char) : Bool :=
  let rest := cs.dropWhile isDigitOrBar
  rest.isEmpty || isExponent rest

/-- Whether a text has digits before its decimal point. -/
def isPointedNumber (cs : List Char) : Bool :=
  let whole := cs.takeWhile (· ≠ '.')
  match cs.dropWhile (· ≠ '.') with
  | [] => false
  | _ :: tail =>
    match splitAll ':' whole with
    | [] => false
    | [digits] => isNumeral (fun _ => true) digits && isDecimalTail tail
    | first :: places =>
      isNumeral (fun _ => true) first && places.all isBase60Place && tail.all isDigitOrBar

/-- Whether a text has no digits before its decimal point; such a number has no sign. -/
def isPointFirstNumber : List Char → Bool
  | '.' :: d :: tail => d.isDigit && isDecimalTail tail
  | _ => false

def infinityWords : List String := [".inf", ".Inf", ".INF"]

def notANumberWords : List String := [".nan", ".NaN", ".NAN"]

def isDecimal (cs : List Char) : Bool :=
  isPointedNumber (unsigned cs) || isPointFirstNumber cs
    || infinityWords.contains (String.ofList (unsigned cs))
    || notANumberWords.contains (String.ofList cs)

/-- The number that digits in a base stand for. -/
def evalDigits (base : Nat) (cs : List Char) : Nat :=
  cs.foldl (fun n c => base * n + digitValue c) 0
where
  digitValue (c : Char) : Nat :=
    if c.isDigit then c.toNat - '0'.toNat
    else if 'a' ≤ c then c.toNat - 'a'.toNat + 10
    else c.toNat - 'A'.toNat + 10

/-- The number that a text without sign and bars stands for. -/
def magnitudeValue : List Char → Nat
  | '0' :: 'b' :: digits => evalDigits 2 digits
  | '0' :: 'x' :: digits => evalDigits 16 digits
  | '0' :: digits => evalDigits 8 digits
  | cs => (splitAll ':' cs).foldl (fun n place => 60 * n + evalDigits 10 place) 0

/-- The whole number that a text stands for. -/
def integerValue (cs : List Char) : Int :=
  let magnitude : Int := magnitudeValue ((unsigned cs).filter (· ≠ '_'))
  if cs.head? = some '-' then -magnitude else magnitude

/-! ## Points in time -/

/-- What follows a run of at least `least` and at most `most` digits. -/
def digits? (least most : Nat) (cs : List Char) : Option (List Char) :=
  let count := ((cs.take most).takeWhile Char.isDigit).length
  if least ≤ count then some (cs.drop count) else none

/-- What follows a character. -/
def char? (c : Char) : List Char → Option (List Char)
  | [] => none
  | d :: cs => if d = c then some cs else none

/-- What follows the year, the month and the day, the last two with that many digits at least. -/
def date? (least : Nat) (cs : List Char) : Option (List Char) := do
  let cs ← char? '-' (← digits? 4 4 cs)
  let cs ← char? '-' (← digits? least 2 cs)
  digits? least 2 cs

def isSpaceOrTab (c : Char) : Bool :=
  c = ' ' || c = '\t'

/-- What follows the mark between the day and the time. -/
def timeMark? : List Char → Option (List Char)
  | [] => none
  | c :: cs =>
    if c = 'T' || c = 't' then some cs
    else if isSpaceOrTab c then some (cs.dropWhile isSpaceOrTab)
    else none

/-- What follows the time of day. -/
def time? (cs : List Char) : Option (List Char) := do
  let cs ← char? ':' (← digits? 1 2 cs)
  let cs ← char? ':' (← digits? 2 2 cs)
  let cs ← digits? 2 2 cs
  match cs with
  | '.' :: fraction => some (fraction.dropWhile Char.isDigit)
  | _ => some cs

/-- Whether a text is the distance from universal time. -/
def isZone (cs : List Char) : Bool :=
  match cs with
  | ['Z'] => true
  | sign :: offset =>
    (sign = '-' || sign = '+') &&
      match digits? 1 2 offset with
      | some (':' :: minutes) => digits? 2 2 minutes = some []
      | rest => rest = some []
  | [] => false

def isDateAndTime (cs : List Char) : Bool :=
  match (do time? (← timeMark? (← date? 1 cs))) with
  | some rest => rest.isEmpty || isZone (rest.dropWhile isSpaceOrTab)
  | none => false

def isInstant (cs : List Char) : Bool :=
  date? 2 cs = some [] || isDateAndTime cs

/-! ## Kinds -/

/-- What a plain scalar stands for. -/
def ScalarKind.ofPlain (text : String) : ScalarKind :=
  if nullWords.contains text then .null
  else if trueWords.contains text || falseWords.contains text then .flag
  else if isDecimal text.toList then .decimal
  else if isInteger text.toList then .integer
  else if isInstant text.toList then .instant
  else if text = "<<" then .merge
  else if text = "=" then .fallback
  else .text

/-- A scalar as it stands in a document. -/
structure Scalar where
  text : String
  isPlain : Bool
deriving DecidableEq, Repr

/-- The scalar that stands where nothing does. -/
def Scalar.empty : Scalar := ⟨"", true⟩

/-- What a scalar stands for; with quotes it is always a text. -/
def Scalar.kind (s : Scalar) : ScalarKind :=
  if s.isPlain then .ofPlain s.text else .text

end Covenant.Yaml
