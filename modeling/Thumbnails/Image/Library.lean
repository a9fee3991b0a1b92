import Thumbnails.Error.Codec
import Thumbnails.Image.Basic

/-!
# The image library

Images are encoded, decoded and resampled by a library. Nothing is said here about what it makes of
samples: which images can be encoded, which bytes are an image and what a filter does is up to it.
-/

namespace Thumbnails

inductive Filter where
  | nearest
  | triangle
  | catmullRom
  | gaussian
  | lanczos3
  deriving DecidableEq, Repr

class ImageLibrary where
  /-- The bytes of an image as a PNG file. -/
  encode : Image → Except CodecError (List UInt8)
  /-- The image that bytes hold, in whatever format, unless it takes more than a number of bytes in
  memory. -/
  decode : List UInt8 → Nat → Except CodecError Image
  /-- The samples of an image that is brought to a size. -/
  resample : Filter → Image → Size → List Nat

end Thumbnails
