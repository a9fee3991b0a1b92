import Thumbnails.Files.FileSystem

/-!
# Where paths lead

The system follows a path segment by segment through directories that exist. There are two ways to
read a path: to the place of something that exists (`locate`), or to the directory in which its last
segment is to be found or made (`destination`).
-/

namespace Thumbnails

def longestName : Nat :=
  255

/-- The first length of a path that is too long. -/
def pathLimit : Nat :=
  4096

/-- A path read up to its last segment. -/
structure Destination where
  /-- The directory that the segments before the last one lead to. -/
  directory : Location
  /-- The last segment that is not empty, or nothing if there is none. -/
  last : EntryName
  /-- Whether separators follow the last segment. -/
  trailing : Bool
  deriving DecidableEq, Repr

namespace FileSystem

def requireDirectory (files : FileSystem) (location : Location) : Except IoError Unit :=
  match files.node? location with
  | some .directory => .ok ()
  | some (.file _) => .error (.system .notDirectory)
  | none => .error (.system .missing)

def follow (files : FileSystem) (location : Location) (segment : EntryName) :
    Except IoError Location := do
  files.requireDirectory location
  if segment = [] ∨ segment = [dot] then return location
  else if segment = [dot, dot] then return location.dropLast
  else if segment.length > longestName then throw (.system .nameTooLong)
  else if (files.node? (location ++ [segment])).isNone then throw (.system .missing)
  else return location ++ [segment]

def followAll (files : FileSystem) (location : Location) :
    List EntryName → Except IoError Location
  | [] => .ok location
  | segment :: rest => do
    let next ← files.follow location segment
    files.followAll next rest

def checkPath (path : Path) : Except IoError Unit :=
  if 0 ∈ path.bytes then .error .zeroByte
  else if path.bytes = [] then .error (.system .missing)
  else if path.bytes.length ≥ pathLimit then .error (.system .nameTooLong)
  else .ok ()

def origin (files : FileSystem) (path : Path) : Location :=
  if path.isAbsolute then [] else files.workingDirectory

def locate (files : FileSystem) (path : Path) : Except IoError Location := do
  checkPath path
  files.followAll (files.origin path) (segments path.bytes)

def find (files : FileSystem) (path : Path) : Except IoError (Location × Node) := do
  let location ← files.locate path
  match files.node? location with
  | some node => return (location, node)
  | none => throw (.system .missing)

def destination (files : FileSystem) (path : Path) : Except IoError Destination := do
  checkPath path
  let reversed := (segments path.bytes).reverse
  let significant := reversed.dropWhile (· = [])
  let directory ← files.followAll (files.origin path) significant.tail.reverse
  files.requireDirectory directory
  return ⟨directory, significant.headD [], significant.length < reversed.length⟩

end FileSystem

namespace Destination

/-- Whether the last segment is a name, and not the root, the directory itself or its parent. -/
def isNamed (destination : Destination) : Bool :=
  destination.last ≠ [] && destination.last ≠ [dot] && destination.last ≠ [dot, dot]

def location (destination : Destination) : Location :=
  destination.directory ++ [destination.last]

def checkName (destination : Destination) : Except IoError Unit :=
  if destination.last.length > longestName then .error (.system .nameTooLong) else .ok ()

end Destination

end Thumbnails
