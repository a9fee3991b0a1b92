import Thumbnails.Image.Library

/-!
# A plain image library

Runs on fixed inputs need an image library that can be computed with. This one writes the numbers of
an image behind a signature, without compression. As in any PNG file, an image has pixels, and its
samples are whole numbers of one or two bytes. Images of one colour keep it when they are resampled.
-/

namespace Thumbnails

namespace ImageLibrary

def signature : List UInt8 :=
  [0x89, 0x50, 0x4e, 0x47, 0x0d, 0x0a, 0x1a, 0x0a]

/-- The colour types that a file can have. Each is written as its position. -/
def fileColors : List ColorType :=
  [.l8, .la8, .rgb8, .rgba8, .l16, .la16, .rgb16, .rgba16]

def channels : ColorType → Nat
  | .l8 | .l16 => 1
  | .la8 | .la16 => 2
  | .rgb8 | .rgb16 | .rgb32F => 3
  | .rgba8 | .rgba16 | .rgba32F => 4

/-- A number in a fixed count of bytes, the highest byte first. -/
def bytesOf : Nat → Nat → List UInt8
  | 0, _ => []
  | count + 1, number => bytesOf count (number / 256) ++ [UInt8.ofNat number]

def numberOf (bytes : List UInt8) : Nat :=
  bytes.foldl (fun number byte => 256 * number + byte.toNat) 0

def pairsOf : List UInt8 → List Nat
  | high :: low :: rest => numberOf [high, low] :: pairsOf rest
  | _ => []

@[reducible]
def plain : ImageLibrary where
  encode image :=
    if image.isEmpty then .error (.io (.custom .other "Zero width or height not allowed"))
    else if image.color ∈ fileColors then
      .ok (signature ++ bytesOf 4 image.size.width.toNat ++ bytesOf 4 image.size.height.toNat ++
        bytesOf 1 (fileColors.idxOf image.color) ++ image.samples.flatMap (bytesOf 2))
    else .error (.unsupported .png "of this color type")
  decode data limit :=
    if data.take 8 ≠ signature then .error .unrecognised
    else
      match fileColors[numberOf ((data.drop 16).take 1)]? with
      | none => .error (.decoding .png "unknown color type")
      | some color =>
        if limit < data.length then .error .insufficientMemory
        else
          .ok {
            size := ⟨UInt32.ofNat (numberOf ((data.drop 8).take 4)),
              UInt32.ofNat (numberOf ((data.drop 12).take 4))⟩
            color
            samples := pairsOf (data.drop 17) }
  resample _ image size :=
    let pixel := image.samples.take (channels image.color)
    (List.replicate (size.width.toNat * size.height.toNat) pixel).flatten

end ImageLibrary

end Thumbnails
