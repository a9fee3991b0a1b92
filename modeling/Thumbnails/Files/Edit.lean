import Thumbnails.Files.Operations

/-!
# Edits

Single changes that somebody other than the cache makes to files.
-/

namespace Thumbnails

inductive FileEdit where
  | createDirectory
  | write (content : Content)
  | remove
  deriving DecidableEq, Repr

def orUnchanged (files : FileSystem) (result : Except IoError FileSystem) :
    Except IoError Unit × FileSystem :=
  match result with
  | .ok changed => (.ok (), changed)
  | .error cause => (.error cause, files)

def FileEdit.apply (edit : FileEdit) (files : FileSystem) (path : Path) :
    Except IoError Unit × FileSystem :=
  match edit with
  | createDirectory => orUnchanged files (files.createDirectory path)
  | write content => orUnchanged files (files.write path content)
  | remove => files.remove path

end Thumbnails
