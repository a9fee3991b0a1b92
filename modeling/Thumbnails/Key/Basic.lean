import Thumbnails.Path.Normal
import Thumbnails.Text.Quoted

/-!
# Keys

A `PageId` is a page of a source file, and a `ThumbnailKey` is a page together with a version text
that changes whenever the making of thumbnails changes. The path of a page is always in normal
form, so equal places have equal identities.

Keys compare by path, then page, then version. Paths compare component by component.
-/

namespace Thumbnails

/-- A page of a source file. Files with a single page have page 0. -/
structure PageId where
  path : Path
  page : UInt32
  normal : path.normalize = path
  deriving DecidableEq

/-- A page rendered under a version. -/
structure ThumbnailKey where
  image : PageId
  version : String
  deriving DecidableEq

namespace PageId

/-- The page of the file that a path leads to. -/
def of (path : Path) (page : UInt32) : PageId :=
  ⟨path.normalize, page, path.normalize_normalize⟩

def display (image : PageId) : String :=
  image.path.display ++ "#" ++ toString image.page.toNat

def describe (image : PageId) : String :=
  "ImageId(" ++ Quoted.ofBytes image.path.bytes ++ ", " ++ toString image.page.toNat ++ ")"

end PageId

namespace ThumbnailKey

def of (path : Path) (page : UInt32) (version : String) : ThumbnailKey :=
  ⟨PageId.of path page, version⟩

/-- The order of keys: path, page as a number, bytes of the version. -/
def order : ThumbnailKey → ThumbnailKey → Ordering :=
  compareLex (compareOn fun key => key.image.path.components)
    (compareLex (compareOn fun key => key.image.page)
      (compareOn fun key => Utf8.bytesOf key.version))

instance : Ord ThumbnailKey where
  compare := order

def display (key : ThumbnailKey) : String :=
  key.image.display ++ "@" ++ key.version

def describe (key : ThumbnailKey) : String :=
  "ThumbKey \x7b image_id: " ++ key.image.describe ++ ", version: " ++
    Quoted.ofString key.version ++ " \x7d"

/-- The positions of keys in the order that sorting brings them into. -/
def sortedPositions (keys : List ThumbnailKey) : List Nat :=
  (keys.zipIdx.mergeSort fun left right => (order left.1 right.1).isLE).map (·.2)

end ThumbnailKey

end Thumbnails
