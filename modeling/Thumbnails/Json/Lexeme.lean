import Thumbnails.Number.Rounding
import Thumbnails.Text.Hex
import Thumbnails.Text.Utf8

/-!
# Lexemes of JSON

Words, numbers and strings are read from the front of a text. A text is read once, from left to
right, so the first problem in it decides the fault.
-/

namespace Thumbnails

namespace Json

inductive Fault where
  /-- The text breaks the rules of JSON. -/
  | malformed
  /-- The text is JSON, but its value does not fit. -/
  | mismatched
  /-- The text ends too early. -/
  | truncated
  deriving DecidableEq, Repr

def isSpace (character : Char) : Bool :=
  character = ' ' || character = '\t' || character = '\n' || character = '\r'

def skipSpace (text : List Char) : List Char :=
  text.dropWhile isSpace

def isDigit (character : Char) : Bool :=
  '0' ≤ character && character ≤ '9'

def digitsValue (digits : List Char) : Nat :=
  digits.foldl (fun value digit => 10 * value + (digit.toNat - 48)) 0

def readWord : List Char → List Char → Except Fault (List Char)
  | [], text => .ok text
  | _ :: _, [] => .error .truncated
  | expected :: word, character :: text =>
    if character = expected then readWord word text else .error .malformed

/-- A number, as far as anything that is read here can use it. -/
inductive Number where
  | natural (value : Nat)
  | other
  deriving DecidableEq, Repr

/-- The fault for a digit that is missing: the text ends, or something else stands there. -/
def missingDigit (text : List Char) : Fault :=
  if text = [] then .truncated else .malformed

def readDigits (text : List Char) : Except Fault (List Char × List Char) :=
  match text.takeWhile isDigit with
  | [] => .error (missingDigit text)
  | digits => .ok (digits, text.dropWhile isDigit)

/-- Reads the digits before a fraction, which begin with zero only if they are just that. -/
def readWhole (text : List Char) : Except Fault (List Char × List Char) := do
  let (digits, rest) ← readDigits text
  if digits.head? = some '0' ∧ digits.length > 1 then throw .malformed
  return (digits, rest)

def readFraction (text : List Char) : Except Fault (Option (List Char) × List Char) :=
  match text with
  | '.' :: rest => do
    let (digits, rest) ← readDigits rest
    return (some digits, rest)
  | _ => .ok (none, text)

def readExponent (text : List Char) : Except Fault (Option Int × List Char) :=
  let readSigned := fun (rest : List Char) => do
    match rest with
    | '-' :: rest =>
      let (digits, rest) ← readDigits rest
      return (some (-(digitsValue digits : Int)), rest)
    | '+' :: rest =>
      let (digits, rest) ← readDigits rest
      return (some (digitsValue digits : Int), rest)
    | _ =>
      let (digits, rest) ← readDigits rest
      return (some (digitsValue digits : Int), rest)
  match text with
  | 'e' :: rest => readSigned rest
  | 'E' :: rest => readSigned rest
  | _ => .ok (none, text)

/-- Collects digits behind a significand as long as it stays below `2 ^ 64`, and counts the digits
that are left out. -/
def collectDigits : Nat → List Char → Nat × Nat
  | significand, [] => (significand, 0)
  | significand, digit :: digits =>
    let longer := 10 * significand + (digit.toNat - 48)
    if longer < UInt64.size then collectDigits longer digits
    else (significand, digits.length + 1)

/-- Whether a significand times a power of ten is too large for binary64, where both of them are
rounded before they are multiplied. -/
def exceedsBinary64 (significand : Nat) (exponent : Int) : Bool :=
  if significand = 0 ∨ exponent < 0 then false
  else if exponent > 308 then true
  else
    Rounding.overflow ≤
      Rounding.nearest significand 1 * Rounding.nearest (Nat.pow 10 exponent.toNat) 1

/-- Whether a number that is written in decimal digits is out of range. -/
def isOutOfRange (whole decimals : List Char) (exponent : Int) : Bool :=
  let (significand, leftOut) := collectDigits 0 whole
  let (significand, dropped) := collectDigits significand decimals
  let places := decimals.length - dropped
  exceedsBinary64 significand (exponent + leftOut - places)

def readNumber (text : List Char) : Except Fault (Number × List Char) := do
  let (negative, unsigned) :=
    match text with
    | '-' :: rest => (true, rest)
    | _ => (false, text)
  let (whole, rest) ← readWhole unsigned
  let (fraction, rest) ← readFraction rest
  let (exponent, rest) ← readExponent rest
  if isOutOfRange whole (fraction.getD []) (exponent.getD 0) then throw .malformed
  if negative || fraction.isSome || exponent.isSome then return (.other, rest)
  else return (.natural (digitsValue whole), rest)

/-- Reads four hexadecimal digits. The text has to go on for four bytes at least. -/
def readHex (text : List Char) : Except Fault (Nat × List Char) :=
  match text with
  | first :: second :: third :: fourth :: rest =>
    match Hex.value? first, Hex.value? second, Hex.value? third, Hex.value? fourth with
    | some a, some b, some c, some d => .ok (4096 * a + 256 * b + 16 * c + d, rest)
    | _, _, _, _ => .error .malformed
  | _ =>
    if (Utf8.encode text).length < 4 then .error .truncated else .error .malformed

/-- Reads what follows the escape of a leading surrogate: the escape of a trailing one. -/
def readTrailing (text : List Char) : Except Fault (Nat × List Char) :=
  match text with
  | [] => .error .truncated
  | '\\' :: [] => .error .truncated
  | '\\' :: 'u' :: rest => do
    let (trailing, rest) ← readHex rest
    if 0xdc00 ≤ trailing ∧ trailing ≤ 0xdfff then return (trailing, rest)
    else throw .malformed
  | _ => .error .malformed

/-- Reads the escape of a character by its number, which may take two escapes. -/
def readNumbered (text : List Char) : Except Fault (Char × List Char) := do
  let (number, rest) ← readHex text
  if 0xdc00 ≤ number ∧ number ≤ 0xdfff then throw .malformed
  else if 0xd800 ≤ number ∧ number ≤ 0xdbff then
    let (trailing, rest) ← readTrailing rest
    return (Char.ofNat (0x10000 + 1024 * (number - 0xd800) + (trailing - 0xdc00)), rest)
  else return (Char.ofNat number, rest)

def shortEscape? (character : Char) : Option Char :=
  match character with
  | '"' => some '"'
  | '\\' => some '\\'
  | '/' => some '/'
  | 'b' => some '\x08'
  | 'f' => some '\x0c'
  | 'n' => some '\n'
  | 'r' => some '\r'
  | 't' => some '\t'
  | _ => none

def readEscape (text : List Char) : Except Fault (Char × List Char) :=
  match text with
  | [] => .error .truncated
  | 'u' :: rest => readNumbered rest
  | character :: rest =>
    match shortEscape? character with
    | some meant => .ok (meant, rest)
    | none => .error .malformed

/-- Reads the rest of a string, up to and with its closing quote. Every character takes some of the
fuel. -/
def readCharacters : Nat → List Char → Except Fault (List Char × List Char)
  | 0, _ => .error .truncated
  | _, [] => .error .truncated
  | fuel + 1, character :: text =>
    if character = '"' then .ok ([], text)
    else if character = '\\' then do
      let (first, rest) ← readEscape text
      let (others, rest) ← readCharacters fuel rest
      return (first :: others, rest)
    else if character.toNat < 0x20 then .error .malformed
    else do
      let (others, rest) ← readCharacters fuel text
      return (character :: others, rest)

def readString (text : List Char) : Except Fault (List Char × List Char) :=
  readCharacters (text.length + 1) text

end Json

end Thumbnails
