import Thumbnails.Text.Utf8

/-!
# Paths

A path is a list of bytes with `/` as its only separator. It is read as a list of components:
empty segments and `.` segments disappear, except that a relative path may begin with one `.`.
Two paths with equal components name the same place and compare as equal, even where their bytes
differ.
-/

namespace Thumbnails

def slash : UInt8 := 0x2f

/-- The byte that `.` and `..` and name extensions are made with. -/
def dot : UInt8 := 0x2e

abbrev EntryName := List UInt8

structure Path where
  bytes : List UInt8
  deriving DecidableEq, Repr

inductive Component where
  | root
  | current
  | parent
  | normal (name : EntryName)
  deriving DecidableEq, Repr

/-- The segments between separators. There is always one more of them than separators. -/
def segments : List UInt8 → List EntryName
  | [] => [[]]
  | byte :: rest =>
    if byte = slash then [] :: segments rest
    else
      match segments rest with
      | [] => [[byte]]
      | first :: others => (byte :: first) :: others

def joinSegments : List EntryName → List UInt8
  | [] => []
  | [segment] => segment
  | segment :: others => segment ++ slash :: joinSegments others

/-- The component that a segment stands for, unless it means nothing. -/
def Component.ofSegment? (segment : EntryName) : Option Component :=
  if segment = [] ∨ segment = [dot] then none
  else if segment = [dot, dot] then some .parent
  else some (.normal segment)

/-- Whether a name can be a component of its own: it is a segment other than `.` and `..`. -/
def IsPlainName (name : EntryName) : Prop :=
  name ≠ [] ∧ name ≠ [dot] ∧ name ≠ [dot, dot] ∧ slash ∉ name

instance (name : EntryName) : Decidable (IsPlainName name) := by
  unfold IsPlainName; infer_instance

namespace Component

def rank : Component → Nat
  | root => 0
  | current => 1
  | parent => 2
  | normal _ => 3

/-- The name of a normal component, and nothing for the others. -/
def name : Component → EntryName
  | normal name => name
  | _ => []

/-- Components compare by kind, and normal ones by the bytes of their names. -/
instance : Ord Component where
  compare := compareLex (compareOn rank) (compareOn name)

end Component

namespace Path

def isAbsolute (path : Path) : Bool :=
  path.bytes.head? = some slash

/-- The root or the leading `.` of a path, if it has one, and the segments after it. -/
def opening (path : Path) : Option Component × List EntryName :=
  match path.bytes with
  | [] => (none, [])
  | byte :: rest =>
    if byte = slash then (some .root, segments rest)
    else
      match segments (byte :: rest) with
      | [] => (none, [])
      | first :: others =>
        if first = [dot] then (some .current, others) else (none, first :: others)

def components (path : Path) : List Component :=
  path.opening.1.toList ++ path.opening.2.filterMap Component.ofSegment?

def sameComponents (left right : Path) : Bool :=
  left.components = right.components

/-- Paths compare component by component, and a path comes before its extensions. -/
def order (left right : Path) : Ordering :=
  compare left.components right.components

def isVoid (segment : EntryName) : Bool :=
  (Component.ofSegment? segment).isNone

/-- The last component of a path, if it is a name. -/
def fileName? (path : Path) : Option EntryName :=
  match path.components.getLast? with
  | some (.normal name) => some name
  | _ => none

/-- The path without its last component, and without anything that stood for nothing there. The
root and the empty path have none. -/
def parent? (path : Path) : Option Path :=
  match path.opening.2.reverse.dropWhile isVoid with
  | [] => if path.opening.1 = some .current then some ⟨[]⟩ else none
  | _ :: before =>
    let remaining := (before.dropWhile isVoid).reverse
    match path.opening.1 with
    | some .root => some ⟨slash :: joinSegments remaining⟩
    | some .current => some ⟨joinSegments ([dot] :: remaining)⟩
    | _ => some ⟨joinSegments remaining⟩

/-- A name cut at its last dot: what stands before it and, if there is such a dot, what stands
after it. A dot at the beginning does not count. -/
def cutName (name : EntryName) : EntryName × Option EntryName :=
  let reversed := name.reverse
  let after := reversed.takeWhile (· ≠ dot)
  match reversed.dropWhile (· ≠ dot) with
  | _ :: first :: rest => ((first :: rest).reverse, some after.reverse)
  | _ => (name, none)

def stem? (path : Path) : Option EntryName :=
  path.fileName?.map fun name => (cutName name).1

def extension? (path : Path) : Option EntryName :=
  path.fileName?.bind fun name => (cutName name).2

/-- A name within a directory. A separator is put between where there is none. -/
def child (directory : Path) (name : EntryName) : Path :=
  if directory.bytes = [] ∨ directory.bytes.getLast? = some slash then ⟨directory.bytes ++ name⟩
  else ⟨directory.bytes ++ slash :: name⟩

def display (path : Path) : String :=
  Utf8.lossyString path.bytes

def ofString (text : String) : Path :=
  ⟨Utf8.bytesOf text⟩

end Path

end Thumbnails
