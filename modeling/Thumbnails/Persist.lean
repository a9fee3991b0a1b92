import Thumbnails.Files.Atomic
import Thumbnails.Image.Library
import Thumbnails.Key.Basic

/-!
# Thumbnails on disk

Loading, saving and decoding image files. An image is encoded before any file is touched, so a
failed encoding leaves no trace.
-/

namespace Thumbnails

/-- The number of bytes that a decoding may take where nothing else is said. -/
def standardAllocLimit : Nat :=
  536870912

namespace FileSystem

variable [ImageLibrary]

def decodeFile (files : FileSystem) (path : Path) (limit : Nat) : Except Error Image :=
  match files.read path with
  | .error cause => .error (.io cause)
  | .ok data =>
    match ImageLibrary.decode data limit with
    | .error cause => .error (Error.ofCodec cause)
    | .ok image => .ok image

def loadThumbnail (files : FileSystem) (path : Path) : Except Error Image :=
  files.decodeFile path standardAllocLimit

/-- Saves an image, on a system that may fail by itself at any stage. -/
def saveThumbnail (files : FileSystem) (path : Path) (thumbnail : Image) :
    Except Error Unit × FileSystem :=
  match ImageLibrary.encode thumbnail with
  | .error cause => (.error (Error.ofCodec cause), files)
  | .ok encoded =>
    let answers := files.saving files.tokens
    let tried := { files with tokens := files.tokens + 1 }
    match answers.creating with
    | .error cause => (.error (.persist path cause), tried)
    | .ok () =>
      match WriteHandle.start files path with
      | .error error => (.error error, tried)
      | .ok (handle, started) => handle.conclude answers encoded started

/-- Makes a directory for thumbnails, but not the ones above it, and says whether it can be
used. -/
def ensureDirectory (files : FileSystem) (path : Path) : Bool × FileSystem :=
  match files.createDirectory path with
  | .ok created => (true, created)
  | .error cause =>
    if cause.kind = .alreadyExists then (files.isDirectoryAt path, files) else (false, files)

/-- Decodes the only page of an image file. -/
def decodePage (files : FileSystem) (limit : UInt64) (image : PageId) : Except Error Image :=
  if image.page ≠ 0 then .error (.unsupportedPage image.path image.page)
  else files.decodeFile image.path limit.toNat

end FileSystem

end Thumbnails
