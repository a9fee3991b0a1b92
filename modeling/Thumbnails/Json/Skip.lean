import Thumbnails.Json.Lexeme

/-!
# Values that nobody reads

Members that mean nothing to a reader are passed over. They have to follow the grammar, but their
numbers may have any size, and the escapes in their strings need not make up characters.
-/

namespace Thumbnails

namespace Json

def skipDigits (text : List Char) : Except Fault (List Char) :=
  if (text.takeWhile isDigit).isEmpty then .error .malformed else .ok (text.dropWhile isDigit)

def skipFraction (text : List Char) : Except Fault (List Char) :=
  match text with
  | '.' :: rest => skipDigits rest
  | _ => .ok text

def skipExponent (text : List Char) : Except Fault (List Char) :=
  let skipSigned := fun (rest : List Char) =>
    match rest with
    | '-' :: rest => skipDigits rest
    | '+' :: rest => skipDigits rest
    | _ => skipDigits rest
  match text with
  | 'e' :: rest => skipSigned rest
  | 'E' :: rest => skipSigned rest
  | _ => .ok text

def skipNumber (text : List Char) : Except Fault (List Char) := do
  let digits := text.takeWhile isDigit
  if digits.head? = some '0' ∧ digits.length > 1 then throw .malformed
  let rest ← skipDigits text
  let rest ← skipFraction rest
  skipExponent rest

def skipEscape (text : List Char) : Except Fault (List Char) :=
  match text with
  | [] => .error .truncated
  | 'u' :: rest => (readHex rest).map (·.2)
  | character :: rest =>
    if (shortEscape? character).isSome then .ok rest else .error .malformed

/-- Passes over the rest of a string. Every character takes some of the fuel. -/
def skipCharacters : Nat → List Char → Except Fault (List Char)
  | 0, _ => .error .truncated
  | _, [] => .error .truncated
  | fuel + 1, character :: text =>
    if character = '"' then .ok text
    else if character = '\\' then do
      let rest ← skipEscape text
      skipCharacters fuel rest
    else if character.toNat < 0x20 then .error .malformed
    else skipCharacters fuel text

def skipString (text : List Char) : Except Fault (List Char) :=
  skipCharacters (text.length + 1) text

/-- Passes over the name of a member with its colon. -/
def skipName (text : List Char) : Except Fault (List Char) :=
  match skipSpace text with
  | [] => .error .truncated
  | '"' :: rest => do
    let rest ← skipString rest
    match skipSpace rest with
    | [] => throw .truncated
    | ':' :: rest => return rest
    | _ => throw .malformed
  | _ => .error .malformed

/-- An array or an object. -/
inductive Bracket where
  | array
  | object
  deriving DecidableEq, Repr

def Bracket.closing : Bracket → Char
  | array => ']'
  | object => '\x7d'

mutual

/-- Passes over a value. Every value and every member takes some of the fuel. -/
def skipValueFrom : Nat → List Char → Except Fault (List Char)
  | 0, _ => .error .truncated
  | fuel + 1, text =>
    match skipSpace text with
    | [] => .error .truncated
    | 'n' :: rest => readWord ['u', 'l', 'l'] rest
    | 't' :: rest => readWord ['r', 'u', 'e'] rest
    | 'f' :: rest => readWord ['a', 'l', 's', 'e'] rest
    | '-' :: rest => skipNumber rest
    | '"' :: rest => skipString rest
    | '[' :: rest => skipFirst fuel .array rest
    | '\x7b' :: rest => skipFirst fuel .object rest
    | character :: rest =>
      if isDigit character then skipNumber (character :: rest) else .error .malformed

def skipFirst : Nat → Bracket → List Char → Except Fault (List Char)
  | 0, _, _ => .error .truncated
  | fuel + 1, bracket, text =>
    match skipSpace text with
    | [] => .error .truncated
    | character :: rest =>
      if character = bracket.closing then .ok rest
      else skipItem fuel bracket (character :: rest)

def skipItem : Nat → Bracket → List Char → Except Fault (List Char)
  | 0, _, _ => .error .truncated
  | fuel + 1, .array, text => do
    let rest ← skipValueFrom fuel text
    skipMore fuel .array rest
  | fuel + 1, .object, text => do
    let rest ← skipName text
    let rest ← skipValueFrom fuel rest
    skipMore fuel .object rest

def skipMore : Nat → Bracket → List Char → Except Fault (List Char)
  | 0, _, _ => .error .truncated
  | fuel + 1, bracket, text =>
    match skipSpace text with
    | [] => .error .truncated
    | character :: rest =>
      if character = ',' then skipItem fuel bracket rest
      else if character = bracket.closing then .ok rest
      else .error .malformed

end

def skipValue (text : List Char) : Except Fault (List Char) :=
  skipValueFrom (4 * text.length + 4) text

end Json

end Thumbnails
