import Thumbnails.Error.Io

/-!
# Failures of image codecs

What can go wrong while an image is turned into the bytes of a file or back.
-/

namespace Thumbnails

inductive ImageFormat where
  | png
  | bmp
  | pnm
  deriving DecidableEq, Repr

inductive CodecError where
  | insufficientMemory
  | tooLarge
  | dimensionMismatch
  | io (cause : IoError)
  | decoding (format : ImageFormat) (text : String)
  | encoding (format : ImageFormat) (text : String)
  /-- The format has no way to express a feature. -/
  | unsupported (format : ImageFormat) (feature : String)
  | unrecognised
  deriving DecidableEq, Repr

def ImageFormat.name : ImageFormat → String
  | png => "Png"
  | bmp => "Bmp"
  | pnm => "Pnm"

def CodecError.message : CodecError → String
  | insufficientMemory => "Memory limit exceeded"
  | tooLarge => "Image size exceeds limit"
  | dimensionMismatch => "The Image's dimensions are either too small or too large"
  | io cause => cause.message
  | decoding format text => "Format error decoding " ++ format.name ++ ": " ++ text
  | encoding format text => "Format error encoding " ++ format.name ++ ":\n" ++ text
  | unsupported format feature =>
    "The decoder for " ++ format.name ++ " does not support the format features " ++ feature
  | unrecognised => "The image format could not be determined"

end Thumbnails
