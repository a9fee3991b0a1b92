import Thumbnails.Toml.Lexeme
import Thumbnails.Toml.Value

/-!
# Documents of TOML

A document is a list of lines. A line with a key adds a value to the current table, and a line with
a header makes another table the current one. Values are read with a limit on how deep they may
nest.
-/

namespace Thumbnails

namespace Toml

/-- How deep arrays and tables between braces may nest. -/
def nestingLimit : Nat :=
  80

mutual

/-- Reads a value. The first number is fuel, the second one says how deep it may still nest. -/
def readValue : Nat → Nat → List Char → Option (Value × List Char)
  | 0, _, _ => none
  | fuel + 1, depth, text =>
    match text with
    | '"' :: rest => (readString '"' rest).map fun (characters, rest) => (.text characters, rest)
    | '\'' :: rest => (readString '\'' rest).map fun (characters, rest) => (.text characters, rest)
    | '[' :: rest =>
      if depth = 0 then none
      else do
        let (items, rest) ← readItems fuel (depth - 1) rest
        return (.array items, rest)
    | '\x7b' :: rest =>
      if depth = 0 then none
      else do
        let (table, rest) ← readEntries fuel (depth - 1) (Value.emptyTable .braces) rest
        return (table, rest)
    | _ => (readScalar text).map fun (scalar, rest) => (.scalar scalar, rest)

def readItems : Nat → Nat → List Char → Option (List Value × List Char)
  | 0, _, _ => none
  | fuel + 1, depth, text =>
    match skipLines text with
    | ']' :: rest => some ([], rest)
    | text => do
      let (item, rest) ← readValue fuel depth text
      match skipLines rest with
      | ']' :: rest => return ([item], rest)
      | ',' :: rest =>
        let (items, rest) ← readItems fuel depth rest
        return (item :: items, rest)
      | _ => none

def readEntries : Nat → Nat → Value → List Char → Option (Value × List Char)
  | 0, _, _, _ => none
  | fuel + 1, depth, table, text =>
    match skipLines text with
    | '\x7d' :: rest => some (table, rest)
    | text => do
      let (key, rest) ← readKey text
      match skipLines rest with
      | '=' :: rest =>
        let (value, rest) ← readValue fuel depth (skipLines rest)
        let table ← Value.addPath key value table
        match skipLines rest with
        | '\x7d' :: rest => return (table, rest)
        | ',' :: rest => readEntries fuel depth table rest
        | _ => none
      | _ => none

end

/-- The tables read so far, and the path of the current one. -/
structure Draft where
  root : Value
  current : List Key

namespace Draft

def empty : Draft :=
  ⟨Value.emptyTable .header, []⟩

def add (draft : Draft) (key : List Key) (value : Value) : Option Draft := do
  let root ← Value.changeAt false draft.current (Value.addPath key value) draft.root
  return { draft with root }

def open? (draft : Draft) (key : List Key) (doubled : Bool) : Option Draft :=
  match key.getLast? with
  | none => none
  | some last => do
    let make := if doubled then Value.openNext last else Value.openTable last
    let root ← Value.changeAt false key.dropLast make draft.root
    return ⟨root, key⟩

end Draft

def readHeader (draft : Draft) (text : List Char) : Option (Draft × List Char) :=
  match text with
  | '[' :: rest => do
    let (key, rest) ← readKey rest
    match skipBlank rest with
    | ']' :: ']' :: rest => return (← draft.open? key true, rest)
    | _ => none
  | _ => do
    let (key, rest) ← readKey text
    match skipBlank rest with
    | ']' :: rest => return (← draft.open? key false, rest)
    | _ => none

def readExpression (draft : Draft) (text : List Char) : Option (Draft × List Char) :=
  match text with
  | '[' :: rest => readHeader draft rest
  | _ => do
    let (key, rest) ← readKey text
    match skipBlank rest with
    | '=' :: rest =>
      let (value, rest) ← readValue (4 * rest.length + 4) nestingLimit (skipBlank rest)
      return (← draft.add key value, rest)
    | _ => none

/-- Reads expressions up to the end of the text. Every expression takes some of the fuel. -/
def readExpressions : Nat → Draft → List Char → Option Draft
  | 0, _, _ => none
  | fuel + 1, draft, text =>
    match skipLines text with
    | [] => some draft
    | text => do
      let (draft, rest) ← readExpression draft text
      let rest ← readLineEnd rest
      readExpressions fuel draft rest

/-- The entries of the document that a text spells. A byte order mark at its front does not
count. -/
def readDocument (text : List Char) : Option (List (Key × Value)) := do
  let body :=
    match text with
    | '\ufeff' :: rest => rest
    | _ => text
  let draft ← readExpressions (body.length + 1) Draft.empty body
  match draft.root with
  | .table _ entries => return entries
  | _ => none

end Toml

end Thumbnails
