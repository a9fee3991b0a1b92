import Thumbnails.Text.Hex

/-!
# Lexemes of TOML

Blanks, comments, keys and strings are read from the front of a text. Nothing is told about a text
that cannot be read except that it cannot.
-/

namespace Thumbnails

namespace Toml

def isBlank (character : Char) : Bool :=
  character = ' ' || character = '\t'

def skipBlank (text : List Char) : List Char :=
  text.dropWhile isBlank

def isPrintable (character : Char) : Bool :=
  character = '\t' || (0x20 ≤ character.toNat && character.toNat ≠ 0x7f)

/-- A text behind a newline, if it begins with one. -/
def newline? (text : List Char) : Option (List Char) :=
  match text with
  | '\n' :: rest => some rest
  | '\r' :: '\n' :: rest => some rest
  | _ => none

def skipComment (text : List Char) : List Char :=
  match text with
  | '#' :: rest => rest.dropWhile isPrintable
  | _ => text

def readLineEnd (text : List Char) : Option (List Char) :=
  let rest := skipComment (skipBlank text)
  if rest = [] then some [] else newline? rest

/-- A text without the blanks, comments and newlines at its front. Every newline takes some of the
fuel. -/
def skipLinesFrom : Nat → List Char → List Char
  | 0, text => text
  | fuel + 1, text =>
    let rest := skipComment (skipBlank text)
    match newline? rest with
    | some rest => skipLinesFrom fuel rest
    | none => rest

def skipLines (text : List Char) : List Char :=
  skipLinesFrom (text.length + 1) text

def hexValue? (digits : List Char) : Option Nat :=
  digits.foldlM (fun value digit => (Hex.value? digit).map (16 * value + ·)) 0

def readNumbered (count : Nat) (text : List Char) : Option (Char × List Char) := do
  let digits := text.take count
  if digits.length < count then none
  let number ← hexValue? digits
  if (0xd800 ≤ number ∧ number ≤ 0xdfff) ∨ 0x10ffff < number then none
  return (Char.ofNat number, text.drop count)

def readEscape (text : List Char) : Option (Char × List Char) :=
  match text with
  | 'b' :: rest => some ('\x08', rest)
  | 't' :: rest => some ('\t', rest)
  | 'n' :: rest => some ('\n', rest)
  | 'f' :: rest => some ('\x0c', rest)
  | 'r' :: rest => some ('\r', rest)
  | 'e' :: rest => some ('\x1b', rest)
  | '"' :: rest => some ('"', rest)
  | '\\' :: rest => some ('\\', rest)
  | 'x' :: rest => readNumbered 2 rest
  | 'u' :: rest => readNumbered 4 rest
  | 'U' :: rest => readNumbered 8 rest
  | _ => none

/-- Reads the rest of a string on one line, up to and with its closing quote. Between double quotes
a backslash escapes. Every character takes some of the fuel. -/
def readLineString (quote : Char) : Nat → List Char → Option (List Char × List Char)
  | 0, _ => none
  | _, [] => none
  | fuel + 1, character :: text =>
    if character = quote then some ([], text)
    else if character = '\\' ∧ quote = '"' then do
      let (first, rest) ← readEscape text
      let (others, rest) ← readLineString quote fuel rest
      return (first :: others, rest)
    else if isPrintable character then do
      let (others, rest) ← readLineString quote fuel text
      return (character :: others, rest)
    else none

def skipEmptyLines : List Char → List Char
  | '\n' :: rest => skipEmptyLines rest
  | '\r' :: '\n' :: rest => skipEmptyLines rest
  | ' ' :: rest => skipEmptyLines rest
  | '\t' :: rest => skipEmptyLines rest
  | text => text

/-- A text behind the blanks and newlines that a backslash at the end of a line hides. -/
def hiddenBreak? (text : List Char) : Option (List Char) :=
  (newline? (skipBlank text)).map skipEmptyLines

/-- Reads the rest of a string on several lines, up to and with its three closing quotes. Two more
quotes may stand before them. Every character takes some of the fuel. -/
def readBlockString (quote : Char) : Nat → List Char → Option (List Char × List Char)
  | 0, _ => none
  | _, [] => none
  | fuel + 1, character :: text =>
    if character = quote then
      let run := (text.takeWhile (· = quote)).length + 1
      if run ≥ 3 then
        let extra := min (run - 3) 2
        some (List.replicate extra quote, text.drop (extra + 2))
      else do
        let (others, rest) ← readBlockString quote fuel text
        return (character :: others, rest)
    else if character = '\\' ∧ quote = '"' then
      match hiddenBreak? text with
      | some rest => readBlockString quote fuel rest
      | none => do
        let (first, rest) ← readEscape text
        let (others, rest) ← readBlockString quote fuel rest
        return (first :: others, rest)
    else if isPrintable character ∨ (newline? (character :: text)).isSome then do
      let (others, rest) ← readBlockString quote fuel text
      return (character :: others, rest)
    else none

def readString (quote : Char) (text : List Char) : Option (List Char × List Char) :=
  match text with
  | second :: third :: rest =>
    if second = quote ∧ third = quote then
      let body := (newline? rest).getD rest
      readBlockString quote (body.length + 1) body
    else readLineString quote (text.length + 1) text
  | _ => readLineString quote (text.length + 1) text

def isBare (character : Char) : Bool :=
  character.isAlphanum || character = '-' || character = '_'

def readKeyPart (text : List Char) : Option (List Char × List Char) :=
  match text with
  | '"' :: rest => readLineString '"' (rest.length + 1) rest
  | '\'' :: rest => readLineString '\'' (rest.length + 1) rest
  | _ =>
    match text.takeWhile isBare with
    | [] => none
    | part => some (part, text.dropWhile isBare)

/-- Reads the parts of a key after its first one. Every part takes some of the fuel. -/
def readKeyParts : Nat → List Char → Option (List (List Char) × List Char)
  | 0, _ => none
  | fuel + 1, text =>
    match skipBlank text with
    | '.' :: rest => do
      let (part, rest) ← readKeyPart (skipBlank rest)
      let (others, rest) ← readKeyParts fuel rest
      return (part :: others, rest)
    | rest => some ([], rest)

/-- How many parts a key may have. -/
def partLimit : Nat :=
  80

def readKey (text : List Char) : Option (List (List Char) × List Char) := do
  let (part, rest) ← readKeyPart (skipBlank text)
  let (others, rest) ← readKeyParts (rest.length + 1) rest
  if others.length < partLimit then return (part :: others, rest) else none

end Toml

end Thumbnails
