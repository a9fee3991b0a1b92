import Thumbnails.Error.Codec
import Thumbnails.Path.Basic

/-!
# Errors

Everything that can go wrong while a thumbnail is made or kept. One kind is set apart: running out
of memory is reported to a handler of its own, so `Error.ofCodec` keeps it from looking like a
broken image.
-/

namespace Thumbnails

inductive Error where
  | io (cause : IoError)
  | codec (cause : CodecError)
  | decode (path : Path) (reason : String)
  /-- A decoder does not know pages of this number. -/
  | unsupportedPage (path : Path) (page : UInt32)
  | generate (text : String)
  | outOfMemory (text : String)
  | persist (path : Path) (cause : IoError)
  | config (text : String)
  deriving DecidableEq, Repr

namespace Error

/-- Whether an error says that memory ran out, and not that the input is bad. -/
def isOutOfMemory : Error → Bool
  | outOfMemory _ => true
  | _ => false

/-- The error for a failed codec: exhausted memory and file access have kinds of their own. -/
def ofCodec : CodecError → Error
  | .insufficientMemory => .outOfMemory CodecError.insufficientMemory.message
  | .io cause => .io cause
  | other => .codec other

def message : Error → String
  | io cause => "IO error: " ++ cause.message
  | codec cause => "Image codec error: " ++ cause.message
  | decode path reason =>
    "Failed to decode source image " ++ Quoted.ofBytes path.bytes ++ ": " ++ reason
  | unsupportedPage path page =>
    "Page " ++ toString page.toNat ++ " of " ++ Quoted.ofBytes path.bytes ++
      " is not supported by this decoder"
  | generate text => "Thumbnail generation failed: " ++ text
  | outOfMemory text => "Out of memory: " ++ text
  | persist path cause =>
    "Failed to persist thumbnail " ++ Quoted.ofBytes path.bytes ++ ": " ++ cause.message
  | config text => "Invalid configuration: " ++ text

def source? : Error → Option IoError
  | io cause => some cause
  | persist _ cause => some cause
  | _ => none

end Error

end Thumbnails
