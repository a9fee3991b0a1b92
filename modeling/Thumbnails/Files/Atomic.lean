import Thumbnails.Error.Basic
import Thumbnails.Files.Operations

/-!
# Atomic writes

A file is written whole or not at all. The bytes go to a hidden temporary file beside the target,
and nothing shows at the target until the temporary is renamed over it. Giving up, or failing to
rename, removes the temporary and leaves the target as it was.
-/

namespace Thumbnails

structure WriteHandle where
  target : Path
  temporary : Path
  location : Location
  deriving DecidableEq, Repr

namespace WriteHandle

def alphabet : List Char :=
  "0123456789ABCDEFGHIJKLMNOPQRSTUVWXYZabcdefghijklmnopqrstuvwxyz".toList

/-- The last digits of a number, written with the alphabet. -/
def lastDigits : Nat → Nat → List Char
  | 0, _ => []
  | count + 1, number =>
    lastDigits count (number / alphabet.length) ++
      [alphabet.getD (number % alphabet.length) '0']

/-- A number as a token of six characters. -/
def token (number : Nat) : List Char :=
  lastDigits 6 number

/-- The directory of a temporary file: the one that its target lies in. -/
def temporaryDirectory (target : Path) : Path :=
  match target.parent? with
  | some parent => if parent.bytes = [] then ⟨[dot]⟩ else parent
  | none => ⟨[dot]⟩

/-- The name of a temporary file: a dot, the name of the target, a token, and an extension. -/
def temporaryName (target : Path) (number : Nat) : EntryName :=
  let stem := Utf8.decodeLossy (target.fileName?.getD [])
  Utf8.encode ('.' :: stem ++ '.' :: token number ++ ".tmp".toList)

/-- Makes the temporary file for a target, under the first name that is not taken. -/
def createTemporary (files : FileSystem) (target : Path) :
    Nat → Except IoError (WriteHandle × FileSystem)
  | 0 => .error (.system .occupied)
  | attempts + 1 =>
    let temporary := (temporaryDirectory target).child (temporaryName target files.tokens)
    let tried := { files with tokens := files.tokens + 1 }
    match tried.createNew temporary with
    | .ok (location, created) => .ok (⟨target, temporary, location⟩, created)
    | .error (.system .occupied) => createTemporary tried target attempts
    | .error (.system fault) => .error (.creating fault temporary.bytes)
    | .error other => .error other

def start (files : FileSystem) (target : Path) : Except Error (WriteHandle × FileSystem) :=
  match createTemporary files target (files.entries.length + 1) with
  | .ok begun => .ok begun
  | .error cause => .error (.persist target cause)

/-- Writes behind what was written before. Nothing is left of it if the temporary is gone. -/
def write (handle : WriteHandle) (files : FileSystem) (data : List UInt8) : FileSystem :=
  match files.node? handle.location with
  | some (.file (.bytes before)) => files.put handle.location (.file (.bytes (before ++ data)))
  | _ => files

def abort (handle : WriteHandle) (files : FileSystem) : FileSystem :=
  match files.find handle.temporary with
  | .ok (location, .file _) => files.erase location
  | _ => files

/-- Moves what was written to the target, once it is flushed and stored. The temporary is gone
afterwards, whether or not that succeeds. -/
def commit (handle : WriteHandle) (stored : Except IoError Unit) (files : FileSystem) :
    Except Error Unit × FileSystem :=
  match stored with
  | .error cause => (.error (.persist handle.target cause), handle.abort files)
  | .ok () =>
    match files.rename handle.temporary handle.target with
    | .ok renamed => (.ok (), renamed)
    | .error cause => (.error (.persist handle.target cause), handle.abort files)

/-- Writes all data and commits. A handle that cannot be written to is given up. -/
def conclude (handle : WriteHandle) (answers : SaveAnswers) (data : List UInt8)
    (files : FileSystem) : Except Error Unit × FileSystem :=
  match answers.writing with
  | .error (taken, cause) =>
    (.error (.persist handle.target cause), handle.abort (handle.write files (data.take taken)))
  | .ok () => handle.commit answers.storing (handle.write files data)

end WriteHandle

end Thumbnails
