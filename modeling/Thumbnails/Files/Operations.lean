import Thumbnails.Files.Walk

/-!
# Operations on files

Making directories, reading, writing, removing and renaming, with the failures that the system
reports. An operation that fails leaves the file system as it was, except that the removal of a
directory may fail after the directory was emptied.
-/

namespace Thumbnails

def Node.read : Node → Except IoError (List UInt8)
  | .directory => .error (.system .directory)
  | .file (.bytes data) => .ok data
  | .file (.unreadable cause) => .error cause

namespace FileSystem

def existsAt (files : FileSystem) (path : Path) : Bool :=
  match files.find path with
  | .ok _ => true
  | .error _ => false

def isDirectoryAt (files : FileSystem) (path : Path) : Bool :=
  match files.find path with
  | .ok (_, .directory) => true
  | _ => false

/-- Makes a directory in a directory that exists. -/
def createDirectory (files : FileSystem) (path : Path) : Except IoError FileSystem := do
  let destination ← files.destination path
  if !destination.isNamed then throw (.system .occupied)
  destination.checkName
  if (files.node? destination.location).isSome then throw (.system .occupied)
  return files.put destination.location .directory

def createDirectories (files : FileSystem) (path : Path) : FileSystem :=
  let location := path.components.foldl (fun location component =>
    match component with
    | .root => []
    | .current => location
    | .parent => location.dropLast
    | .normal name => location ++ [name]) (files.origin path)
  (List.range location.length).foldl (fun current depth =>
    let above := location.take (depth + 1)
    if (current.node? above).isSome then current else current.put above .directory) files

def read (files : FileSystem) (path : Path) : Except IoError (List UInt8) := do
  let (_, node) ← files.find path
  node.read

def readText (files : FileSystem) (path : Path) : Except IoError String := do
  match Utf8.string? (← files.read path) with
  | some text => return text
  | none => throw .notText

/-- Writes a file, in place of an old one. -/
def write (files : FileSystem) (path : Path) (content : Content) : Except IoError FileSystem := do
  let destination ← files.destination path
  if !destination.isNamed || destination.trailing then throw (.system .directory)
  destination.checkName
  match files.node? destination.location with
  | some .directory => throw (.system .directory)
  | _ => return files.put destination.location (.file content)

def removeDirectory (files : FileSystem) (path : Path) : Except IoError FileSystem := do
  let destination ← files.destination path
  if destination.last = [] then throw (.system .busy)
  if destination.last = [dot] then throw (.system .invalid)
  if destination.last = [dot, dot] then throw (.system .notEmpty)
  return files.erase destination.location

/-- Removes a file, or a directory with everything in it. A directory is emptied first. If its path
leads nowhere after that, then it goes through what was removed, and the directory stays. -/
def remove (files : FileSystem) (path : Path) : Except IoError Unit × FileSystem :=
  match files.find path with
  | .error cause => (.error cause, files)
  | .ok (location, .file _) => (.ok (), files.erase location)
  | .ok (location, .directory) =>
    let emptied := files.eraseBelow location
    match emptied.removeDirectory path with
    | .ok removed => (.ok (), removed)
    | .error (.system .missing) => (.ok (), emptied)
    | .error cause => (.error cause, emptied)

/-- Makes an empty file where there is nothing. -/
def createNew (files : FileSystem) (path : Path) : Except IoError (Location × FileSystem) := do
  let destination ← files.destination path
  destination.checkName
  if (files.node? destination.location).isSome then throw (.system .occupied)
  return (destination.location, files.put destination.location (.file (.bytes [])))

/-- Moves a file to a path, in place of an old file. -/
def rename (files : FileSystem) (source target : Path) : Except IoError FileSystem := do
  let origin ← files.destination source
  let destination ← files.destination target
  if !destination.isNamed then throw (.system .busy)
  match files.node? origin.location with
  | some (.file content) =>
    destination.checkName
    if destination.trailing then throw (.system .notDirectory)
    if files.node? destination.location = some .directory then throw (.system .directory)
    return (files.erase origin.location).put destination.location (.file content)
  | _ => throw (.system .missing)

end FileSystem

end Thumbnails
