import Thumbnails.Image.Library
import Thumbnails.Image.Ratio

/-!
# Scaling into a box

An image that fits into the box stays as it is. A larger one keeps its proportions and is shrunk
until it fits, and no side gets shorter than one pixel.
-/

namespace Thumbnails

namespace Size

/-- The factor that brings the tighter side of a size to the side of the box. -/
def ratioInto (size box : Size) : Ratio :=
  Ratio.least (Ratio.ofSides box.width size.width) (Ratio.ofSides box.height size.height)

/-- A side after scaling, at least one pixel and at most the longest side there is. -/
def scaleSide (ratio : Ratio) (side : UInt32) : UInt32 :=
  UInt32.ofNat (min (max (ratio.scale side).round 1) (UInt32.size - 1))

/-- A size scaled to touch the box on its tighter side. -/
def resize (size box : Size) : Size :=
  let ratio := size.ratioInto box
  ⟨scaleSide ratio size.width, scaleSide ratio size.height⟩

/-- A size shrunk into a box unless it fits already. -/
def shrinkInto (size box : Size) : Size :=
  if size.fits box then size else size.resize box

end Size

namespace Image

variable [ImageLibrary]

/-- An image shrunk into a box unless it fits already. -/
def shrinkInto (image : Image) (filter : Filter) (box : Size) : Image :=
  if image.size.fits box then image
  else
    let size := image.size.resize box
    { image with size, samples := ImageLibrary.resample filter image size }

@[simp]
theorem size_shrinkInto (image : Image) (filter : Filter) (box : Size) :
    (image.shrinkInto filter box).size = image.size.shrinkInto box := by
  unfold shrinkInto Size.shrinkInto
  split <;> rfl

@[simp]
theorem color_shrinkInto (image : Image) (filter : Filter) (box : Size) :
    (image.shrinkInto filter box).color = image.color := by
  unfold shrinkInto
  split <;> rfl

end Image

end Thumbnails
