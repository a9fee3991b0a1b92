import Thumbnails.Toml.Scalar

/-!
# Values of TOML

Tables remember how they were made, because that decides how they may be added to: a table with a
header of its own is made once, a table that a longer header or a dotted key made on the way may be
completed in the same way, and a table between braces is complete.
-/

namespace Thumbnails

namespace Toml

abbrev Key := List Char

inductive TableKind where
  /-- By a header of its own, or as the whole document. -/
  | header
  /-- On the way to a table with a longer header. -/
  | implied
  /-- By a dotted key. -/
  | dotted
  /-- Between braces. -/
  | braces
  deriving DecidableEq, Repr

inductive Value where
  | text (characters : List Char)
  | scalar (scalar : Scalar)
  | array (items : List Value)
  /-- The tables with the same doubled header, at least one. -/
  | tables (items : List Value)
  | table (kind : TableKind) (entries : List (Key × Value))
  deriving Repr

mutual

def Value.isReadable : Value → Bool
  | .text _ => true
  | .scalar scalar => scalar.isReadable
  | .array items => areReadable items
  | .tables items => areReadable items
  | .table _ entries => entriesReadable entries

def areReadable : List Value → Bool
  | [] => true
  | item :: items => item.isReadable && areReadable items

def entriesReadable : List (Key × Value) → Bool
  | [] => true
  | (_, value) :: entries => value.isReadable && entriesReadable entries

end

namespace Value

def emptyTable (kind : TableKind) : Value :=
  .table kind []

def replace (key : Key) (value : Value) (entries : List (Key × Value)) : List (Key × Value) :=
  entries.map fun entry => if entry.1 = key then (key, value) else entry

/-- Changes the table that a path leads to. Tables on the way are made as they are needed, and of
the tables with a doubled header the last one is meant. A dotted key does not lead into a table that
has a header of its own. -/
def changeAt (dotted : Bool) : List Key → (Value → Option Value) → Value → Option Value
  | [], change, value => change value
  | key :: path, change, .table kind entries =>
    match entries.lookup key with
    | none => do
      let made ← changeAt dotted path change (emptyTable (if dotted then .dotted else .implied))
      return .table kind (entries ++ [(key, made)])
    | some (.table childKind children) =>
      if childKind = .braces ∨ (dotted ∧ childKind = .header) then none
      else do
        let changed ← changeAt dotted path change (.table childKind children)
        return .table kind (replace key changed entries)
    | some (.tables items) =>
      match items.getLast? with
      | none => none
      | some last => do
        let changed ← changeAt dotted path change last
        return .table kind (replace key (.tables (items.dropLast ++ [changed])) entries)
    | some _ => none
  | _ :: _, _, _ => none

/-- Adds a value for a key that a table does not have. A dotted key adds only to tables that dotted
keys made. -/
def add (dotted : Bool) (key : Key) (value : Value) : Value → Option Value
  | .table kind entries =>
    if (kind = .dotted) ≠ (dotted = true) then none
    else if (entries.lookup key).isSome then none
    else some (.table kind (entries ++ [(key, value)]))
  | _ => none

def addPath (key : List Key) (value : Value) (table : Value) : Option Value :=
  match key.getLast? with
  | none => none
  | some last =>
    let path := key.dropLast
    changeAt true path (add (!path.isEmpty) last value) table

def openTable (key : Key) : Value → Option Value
  | .table kind entries =>
    match entries.lookup key with
    | none => some (.table kind (entries ++ [(key, emptyTable .header)]))
    | some (.table .implied children) =>
      some (.table kind (replace key (.table .header children) entries))
    | some _ => none
  | _ => none

def openNext (key : Key) : Value → Option Value
  | .table kind entries =>
    match entries.lookup key with
    | none => some (.table kind (entries ++ [(key, .tables [emptyTable .header])]))
    | some (.tables items) =>
      some (.table kind (replace key (.tables (items ++ [emptyTable .header])) entries))
    | some _ => none
  | _ => none

end Value

end Toml

end Thumbnails
