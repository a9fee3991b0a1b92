import Thumbnails.Error.Io

/-!
# Contents of files

What is in a file is known by reading it. A file gives its bytes, or the system refuses to read it,
because that is not permitted or a device breaks.
-/

namespace Thumbnails

inductive Content where
  | bytes (data : List UInt8)
  | unreadable (cause : IoError)
  deriving DecidableEq, Repr

end Thumbnails
