/-
Numbers written in a model. Digits of every script count by their value; a
numeral holding a digit without a decimal value, and an integer of more than
4300 digits, name no number. The readers take any text, also one that a model
would not hold as a numeral: with white space around it, a plus sign, underscores
between digits, or the words for infinity and for what is not a number.
-/
import Covenant.Number.Binary64
import Covenant.Text.Blank
import Covenant.Text.Digit
import Covenant.Text.Quoted

/-- A number of a model: an integer of any size or the bit pattern of a floating point number. -/
inductive Covenant.Number where
  | int (value : Int)
  | float (bits : Nat)
deriving DecidableEq, Repr

namespace Covenant.Number

open Covenant.Text

/-- Why a numeral names no number. -/
inductive NumeralError where
  | notInteger (text : String)
  | tooManyDigits (count : Nat)
  | notFloat (text : String)
deriving DecidableEq, Repr

/-- The most digits an integer may have. -/
def maxIntegerDigits : Nat := 4300

/-- What is shown of a faulty integer: the first 200 characters of its quoted form. -/
def shownInteger (text : String) : String :=
  String.ofList ((quoted text).toList.take 200)

def NumeralError.message : NumeralError → String
  | .notInteger text => "invalid literal for int() with base 10: " ++ shownInteger text
  | .tooManyDigits count =>
    s!"Exceeds the limit ({maxIntegerDigits} digits) for integer string conversion: "
      ++ s!"value has {count} digits; use sys.set_int_max_str_digits() to increase the limit"
  | .notFloat text => "could not convert string to float: " ++ quoted text

/-! ## Digits -/

def isDecimal (c : Char) : Bool :=
  (decimalValue? c).isSome

/-- The natural number that decimal digits of any script spell. -/
def decimalNat (cs : List Char) : Nat :=
  cs.foldl (fun n c => 10 * n + (decimalValue? c).getD 0) 0

/-- Splits off a leading sign. -/
def splitSign : List Char → Bool × List Char
  | '-' :: cs => (true, cs)
  | '+' :: cs => (false, cs)
  | cs => (false, cs)

/-- What may stand around a numeral: white space, apart from the information separators. -/
def isPadding (c : Char) : Bool :=
  isBlank c && !(0x1c ≤ c.toNat && c.toNat ≤ 0x1f)

/-- Takes out the underscores if each of them stands between two digits. `afterDigit` says whether
the text follows a digit. -/
def withoutUnderscores? (afterDigit : Bool) : List Char → Option (List Char)
  | [] => some []
  | c :: cs =>
    if c = '_' then
      if afterDigit && cs.head?.any isDecimal then withoutUnderscores? false cs else none
    else (c :: ·) <$> withoutUnderscores? (isDecimal c) cs

/-! ## Integers -/

/-- What the digits of an integer are written with. -/
def isIntegerChar (c : Char) : Bool :=
  isDecimal c || c = '_'

/-- Reads an integer: an optional sign and digits, in which underscores may stand, and white space
on both sides. -/
def readInteger (text : String) : Except NumeralError Int :=
  let (negative, cs) := splitSign (text.toList.dropWhile isPadding)
  match withoutUnderscores? false (cs.takeWhile isIntegerChar) with
  | none => .error (.notInteger text)
  | some digits =>
    if maxIntegerDigits < digits.length then .error (.tooManyDigits digits.length)
    else if digits.isEmpty || !(cs.dropWhile isIntegerChar).all isPadding then
      .error (.notInteger text)
    else
      let value : Int := decimalNat digits
      .ok (if negative then -value else value)

/-! ## Floating point numbers -/

/-- The parts of a floating point numeral: digits before and after the point, and the exponent. -/
structure FloatParts where
  whole : List Char
  fraction : List Char
  exponent : Int

/-- Splits the digits behind a point off what stands behind the whole part. -/
def splitFraction (rest : List Char) : List Char × List Char :=
  match rest with
  | '.' :: rest => (rest.takeWhile isDecimal, rest.dropWhile isDecimal)
  | _ => ([], rest)

/-- Reads what stands behind the fraction: nothing, or `(e|E)[+|-]digits`. -/
def readExponent? (rest : List Char) : Option Int :=
  match rest with
  | [] => some 0
  | mark :: rest =>
    if mark = 'e' || mark = 'E' then
      let (negative, digits) := splitSign rest
      if !digits.isEmpty && digits.all isDecimal then
        let value : Int := decimalNat digits
        some (if negative then -value else value)
      else none
    else none

/-- The parts of a floating point numeral if `rest` is what stands behind its fraction. The digits
before the point or those behind it may be left out, but not both. -/
def withExponent? (whole fraction rest : List Char) : Option FloatParts :=
  if (whole ++ fraction).isEmpty then none
  else (⟨whole, fraction, ·⟩) <$> readExponent? rest

/-- Takes apart `digits[.digits][(e|E)[+|-]digits]`, the sign having been split off. -/
def floatParts? (cs : List Char) : Option FloatParts :=
  let (fraction, rest) := splitFraction (cs.dropWhile isDecimal)
  withExponent? (cs.takeWhile isDecimal) fraction rest

/-- The bit pattern of the nearest number. -/
def FloatParts.bits (parts : FloatParts) : Nat :=
  let significant := (parts.whole ++ parts.fraction).dropWhile (decimalValue? · == some 0)
  decimalBits (decimalNat significant) significant.length
    (parts.exponent - parts.fraction.length)

/-- The bit pattern that a word stands for, in capital or small letters. -/
def wordBits? (cs : List Char) : Option Nat :=
  let word := cs.map Char.toLower
  if word = "inf".toList || word = "infinity".toList then some infinityBits
  else if word = "nan".toList then some quietNaNBits
  else none

/-- The bit pattern that a text without a sign stands for. -/
def magnitude? (cs : List Char) : Option Nat :=
  match wordBits? cs with
  | some bits => some bits
  | none => (·.bits) <$> floatParts? cs

/-- Reads a floating point numeral, with white space on both sides, to the bit pattern of the
nearest number. -/
def readFloat (text : String) : Except NumeralError Nat :=
  let trimmed := ((text.toList.dropWhile isPadding).reverse.dropWhile isPadding).reverse
  let read := do
    let (negative, cs) := splitSign (← withoutUnderscores? false trimmed)
    let bits ← magnitude? cs
    return if negative then bits + Nat.pow 2 63 else bits
  match read with
  | some bits => .ok bits
  | none => .error (.notFloat text)

end Covenant.Number
