import Thumbnails.Number.Rounding
import Thumbnails.Toml.Lexeme
import Thumbnails.Toml.Moment

/-!
# Scalars of TOML

A scalar without quotes is a boolean, an integer, a float or a moment, and its first characters
decide which. A text can be an integer and still spell no number: the digits behind its base may be
missing, and behind a first underscore nearly anything may stand, tabs included. Such an integer is
refused only where it is used, and so are numbers that are too large.
-/

namespace Thumbnails

namespace Toml

inductive Scalar where
  /-- An integer, with its value if it has one. -/
  | integer (value : Option Int)
  /-- A float, which may be too large for binary64. -/
  | float (inRange : Bool)
  | boolean
  | moment
  deriving DecidableEq, Repr

def unsigned (text : List Char) : List Char :=
  match text with
  | '+' :: rest => rest
  | '-' :: rest => rest
  | _ => text

/-- The integer that a text is in a base other than ten, after the mark of that base. -/
def basedInteger? (base : Nat) (digits : List Char) : Option Scalar :=
  let isDigit := isDigitOf base
  if digits = [] then some (.integer none)
  else if areDigits isDigit digits && areSeparated isDigit digits then
    some (.integer (some (digitsValue base digits : Int)))
  else none

def decimalValue? (text : List Char) : Option Int :=
  if areDigits Char.isDigit (unsigned text) then
    let value : Int := digitsValue 10 (unsigned text)
    some (if text.head? = some '-' then -value else value)
  else none

/-- The integer that a text is in base ten, where underscores may stand between any digits up to
those of base sixteen. -/
def decimalInteger? (text : List Char) : Option Scalar :=
  if !hasLeadingZero (unsigned text) && areSeparated (isDigitOf 16) (unsigned text) then
    some (.integer (decimalValue? text))
  else none

/-- A float that is written in decimal digits: the ones before and after its point, and its
exponent. -/
structure Decimal where
  whole : List Char
  fraction : List Char
  exponent : Int

/-- Whether a float is small enough for binary64. The number of its digits settles that for most of
them. -/
def Decimal.isInRange (decimal : Decimal) : Bool :=
  let digits := (decimal.whole ++ decimal.fraction).filter (· ≠ '_')
  let significand := digitsValue 10 digits
  let exponent := decimal.exponent - (decimal.fraction.filter (· ≠ '_')).length
  let magnitude := (digits.dropWhile (· = '0')).length + exponent
  if significand = 0 ∨ magnitude < 309 then true
  else if magnitude > 309 then false
  else
    significand * Nat.pow 10 exponent.toNat < Rounding.overflow * Nat.pow 10 (-exponent).toNat

def decimal? (text : List Char) : Option Decimal :=
  let isMark := fun (character : Char) => character = 'e' || character = 'E'
  let mantissa := (unsigned text).takeWhile fun character => !isMark character
  let exponent := (unsigned text).dropWhile fun character => !isMark character
  let whole := mantissa.takeWhile (· ≠ '.')
  let fraction := mantissa.dropWhile (· ≠ '.')
  let wholeGood := areDigits Char.isDigit whole && !hasLeadingZero whole
  let fractionGood := fraction = [] || areDigits Char.isDigit fraction.tail
  let exponentValue := if exponent = [] then some 0 else decimalValue? exponent.tail
  if wholeGood && fractionGood && areSeparated Char.isDigit (unsigned text) then
    exponentValue.map fun value => ⟨whole, fraction.tail, value⟩
  else none

def isBoolean (text : List Char) : Bool :=
  text = "true".toList || text = "false".toList

def isNamedFloat (text : List Char) : Bool :=
  unsigned text = "inf".toList || unsigned text = "nan".toList

/-- What a text is that neither is a name nor has a mark for its base. The character behind its
leading digits decides, and spaces are left to moments. -/
def numeric? (text : List Char) : Option Scalar :=
  let rest := (unsigned text).dropWhile Char.isDigit
  let isFloatCharacter := fun (character : Char) =>
    character = '.' || character = 'e' || character = 'E'
  if rest.head? = some '-' ∨ rest.head? = some ':' then
    if isMoment text then some .moment else none
  else if rest.contains ' ' then none
  else if rest.any isFloatCharacter then (decimal? text).map fun decimal => .float decimal.isInRange
  else if unsigned text ≠ [] ∧ (rest = [] ∨ rest.head? = some '_') then decimalInteger? text
  else none

def scalar? (text : List Char) : Option Scalar :=
  if isBoolean text then some .boolean
  else if isNamedFloat text then some (.float true)
  else
    match text with
    | '0' :: 'x' :: digits => basedInteger? 16 digits
    | '0' :: 'o' :: digits => basedInteger? 8 digits
    | '0' :: 'b' :: digits => basedInteger? 2 digits
    | _ => numeric? text

def isWordCharacter (character : Char) : Bool :=
  !"=,[]\x7b\x7d \t#\r\n".toList.contains character

/-- Whether a text begins with a word, and not with a string. -/
def startsWord (text : List Char) : Bool :=
  text.head?.any fun character =>
    isWordCharacter character && character ≠ '"' && character ≠ '\''

def readWords : List Char → List Char × List Char
  | [] => ([], [])
  | character :: text =>
    if isWordCharacter character || (isBlank character && startsWord (skipBlank text)) then
      let (others, rest) := readWords text
      (character :: others, rest)
    else ([], character :: text)

/-- Reads a scalar without quotes, which may have blanks in it. -/
def readScalar (text : List Char) : Option (Scalar × List Char) :=
  let (words, rest) := readWords text
  (scalar? words).map fun scalar => (scalar, rest)

/-- Whether a scalar has a value that can be represented: integers have 128 bits with a sign or
without one, and floats are in binary64. -/
def Scalar.isReadable (scalar : Scalar) : Bool :=
  match scalar with
  | .integer none => false
  | .integer (some value) =>
    let least : Int := -(Nat.pow 2 127 : Nat)
    let beyond : Int := (Nat.pow 2 128 : Nat)
    least ≤ value && value < beyond
  | .float inRange => inRange
  | .boolean => true
  | .moment => true

end Toml

end Thumbnails
