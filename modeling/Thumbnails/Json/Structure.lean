import Thumbnails.Json.Skip

/-!
# Structures in JSON

A structure is read from an object, whose members may come in any order, or from an array of its
fields in their order. Members that are no fields are passed over. A field that comes twice does
not fit, and fields that are missing are left to whoever reads the structure.
-/

namespace Thumbnails

namespace Json

/-- A field of a structure: its name, whether a draft has it already, and how to read it. -/
structure FieldReader (α : Type) where
  name : String
  isSet : α → Bool
  read : α → List Char → Except Fault (α × List Char)

/-- The fault for a value of another kind. Its first lexeme is read before the value is refused. -/
def mismatch (text : List Char) : Fault :=
  let refuse := fun {α : Type} (reading : Except Fault α) =>
    match reading with
    | .ok _ => Fault.mismatched
    | .error fault => fault
  match text with
  | [] => .truncated
  | 'n' :: rest => refuse (readWord ['u', 'l', 'l'] rest)
  | 't' :: rest => refuse (readWord ['r', 'u', 'e'] rest)
  | 'f' :: rest => refuse (readWord ['a', 'l', 's', 'e'] rest)
  | '"' :: rest => refuse (readString rest)
  | '[' :: _ => .mismatched
  | '\x7b' :: _ => .mismatched
  | character :: rest =>
    if character = '-' || isDigit character then refuse (readNumber (character :: rest))
    else .malformed

def readNatural (limit : Nat) (text : List Char) : Except Fault (Nat × List Char) :=
  match skipSpace text with
  | [] => .error .truncated
  | character :: rest =>
    if character = '-' || isDigit character then do
      match ← readNumber (character :: rest) with
      | (.natural value, rest) => if value ≤ limit then return (value, rest) else throw .mismatched
      | (.other, _) => throw .mismatched
    else .error (mismatch (character :: rest))

def readText (text : List Char) : Except Fault (List Char × List Char) :=
  match skipSpace text with
  | '"' :: rest => readString rest
  | other => .error (mismatch other)

def readColon (text : List Char) : Except Fault (List Char) :=
  match skipSpace text with
  | [] => .error .truncated
  | ':' :: rest => .ok rest
  | _ => .error .malformed

def readMember {α : Type} (fields : List (FieldReader α)) (draft : α) (text : List Char) :
    Except Fault (α × List Char) := do
  let (name, rest) ← readString text
  match fields.find? fun field => field.name.toList = name with
  | some field =>
    if field.isSet draft then throw .mismatched
    let rest ← readColon rest
    field.read draft rest
  | none =>
    let rest ← readColon rest
    let rest ← skipValue rest
    return (draft, rest)

/-- Reads the members after the first one, up to and with the closing bracket. Every member takes
some of the fuel. -/
def readMembers {α : Type} (fields : List (FieldReader α)) :
    Nat → α → List Char → Except Fault (α × List Char)
  | 0, _, _ => .error .truncated
  | fuel + 1, draft, text =>
    match skipSpace text with
    | [] => .error .truncated
    | '\x7d' :: rest => .ok (draft, rest)
    | ',' :: rest =>
      match skipSpace rest with
      | [] => .error .truncated
      | '"' :: rest => do
        let (draft, rest) ← readMember fields draft rest
        readMembers fields fuel draft rest
      | _ => .error .malformed
    | _ => .error .malformed

def readObject {α : Type} (fields : List (FieldReader α)) (draft : α) (text : List Char) :
    Except Fault (α × List Char) :=
  match skipSpace text with
  | [] => .error .truncated
  | '\x7d' :: rest => .ok (draft, rest)
  | '"' :: rest => do
    let (draft, rest) ← readMember fields draft rest
    readMembers fields (rest.length + 1) draft rest
  | _ => .error .malformed

/-- Reads the items of an array, a field each, as far as there are any. The closing bracket is
left. -/
def readItems {α : Type} :
    List (FieldReader α) → Bool → α → List Char → Except Fault (α × List Char)
  | [], _, draft, text => .ok (draft, text)
  | field :: fields, first, draft, text =>
    match skipSpace text with
    | [] => .error .truncated
    | ']' :: rest => .ok (draft, ']' :: rest)
    | character :: rest =>
      if first then do
        let (draft, rest) ← field.read draft (character :: rest)
        readItems fields false draft rest
      else if character = ',' then
        match skipSpace rest with
        | [] => .error .truncated
        | ']' :: _ => .error .malformed
        | rest => do
          let (draft, rest) ← field.read draft rest
          readItems fields false draft rest
      else .error .malformed

def readArrayEnd (text : List Char) : Except Fault (List Char) :=
  match skipSpace text with
  | [] => .error .truncated
  | ']' :: rest => .ok rest
  | _ => .error .malformed

/-- Reads a structure. What was read may still be refused when it is finished. -/
def readStructure {α β : Type} (fields : List (FieldReader α)) (finish : α → Except Fault β)
    (empty : α) (text : List Char) : Except Fault (β × List Char) :=
  match skipSpace text with
  | '\x7b' :: rest => do
    let (draft, rest) ← readObject fields empty rest
    let value ← finish draft
    return (value, rest)
  | '[' :: rest => do
    let (draft, rest) ← readItems fields true empty rest
    let value ← finish draft
    let rest ← readArrayEnd rest
    return (value, rest)
  | other => .error (mismatch other)

def readDocument {α β : Type} (fields : List (FieldReader α)) (finish : α → Except Fault β)
    (empty : α) (text : List Char) : Except Fault β := do
  let (value, rest) ← readStructure fields finish empty text
  if skipSpace rest = [] then return value else throw .malformed

end Json

end Thumbnails
