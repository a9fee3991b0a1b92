/-!
# Images

An image has a size, a colour type and samples. What the samples say is the matter of the image
library, which makes them and reads them.
-/

namespace Thumbnails

structure Size where
  width : UInt32
  height : UInt32
  deriving DecidableEq, Repr

/-- The channels of a pixel and the form of their values. -/
inductive ColorType where
  | l8
  | la8
  | rgb8
  | rgba8
  | l16
  | la16
  | rgb16
  | rgba16
  | rgb32F
  | rgba32F
  deriving DecidableEq, Repr

structure Image where
  size : Size
  color : ColorType
  samples : List Nat
  deriving DecidableEq, Repr

namespace Size

def isEmpty (size : Size) : Bool :=
  size.width = 0 || size.height = 0

def fits (size box : Size) : Bool :=
  size.width ≤ box.width && size.height ≤ box.height

end Size

def Image.isEmpty (image : Image) : Bool :=
  image.size.isEmpty

end Thumbnails
