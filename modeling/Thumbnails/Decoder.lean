import Thumbnails.Generator
import Thumbnails.Persist

/-!
# Decoders

A decoder turns a page of a source file into an image.
-/

namespace Thumbnails

structure Decoder where
  decode : FileSystem → PageId → Outcome Image

namespace Decoder

/-- Reads image files with a single page, whose pixels may take a number of bytes. -/
def files [ImageLibrary] (limit : UInt64) : Decoder where
  decode files image := .ofExcept (files.decodePage limit image)

end Decoder

end Thumbnails
