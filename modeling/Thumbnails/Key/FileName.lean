import Thumbnails.Digest.Sha256
import Thumbnails.Key.Basic

/-!
# File names of thumbnails

A thumbnail lies flat in its directory, under a name that people can read and that tells keys
apart: the stem of the source file, the page, the version, and a digest of all three. Characters
that could mean something in a path are replaced, one underscore for each.
-/

namespace Thumbnails

namespace ThumbnailKey

def isSafe (character : Char) : Bool :=
  ('a' ≤ character && character ≤ 'z') || ('A' ≤ character && character ≤ 'Z') ||
    ('0' ≤ character && character ≤ '9') || character == '-' || character == '_' ||
    character == '.'

/-- A text with an underscore for each character that may not stand in a name. -/
def sanitize (text : List Char) : List Char :=
  text.map fun character => if isSafe character then character else '_'

/-- A page number as four bytes, least significant first. -/
def pageBytes (page : UInt32) : List UInt8 :=
  [0, 8, 16, 24].map fun shift => UInt8.ofNat (page.toNat >>> shift)

/-- What is hashed: the text of the path, the page and the version, with zeros between them. -/
def identity (key : ThumbnailKey) : List UInt8 :=
  Utf8.encode (Utf8.decodeLossy key.image.path.bytes) ++ 0 :: pageBytes key.image.page ++
    0 :: Utf8.bytesOf key.version

def digest (key : ThumbnailKey) : List Char :=
  (Sha256.digest key.identity).hex

/-- The text of the source file's stem, empty if the path does not end in a name. -/
def stem (key : ThumbnailKey) : List Char :=
  match key.image.path.stem? with
  | some name => Utf8.decodeLossy name
  | none => []

def fileNameText (key : ThumbnailKey) : List Char :=
  sanitize key.stem ++ '_' :: Nat.toDigits 10 key.image.page.toNat ++
    sanitize key.version.toList ++ '_' :: key.digest ++ ['.', 'p', 'n', 'g']

def fileName (key : ThumbnailKey) : EntryName :=
  Utf8.encode key.fileNameText

def thumbnailPath (key : ThumbnailKey) (directory : Path) : Path :=
  directory.child key.fileName

end ThumbnailKey

end Thumbnails
