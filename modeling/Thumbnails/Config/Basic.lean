import Thumbnails.Error.Basic
import Thumbnails.Image.Basic

/-!
# Settings

The settings of a cache, their defaults, and the rules that they have to obey before a cache
accepts them.
-/

namespace Thumbnails

structure Config where
  cacheDirectory : Path
  /-- The box that thumbnails have to fit. -/
  maxThumbnailSize : Size
  maxCachedPixmaps : UInt64
  /-- The number of loads that may start before a request that still waits is stale. -/
  expirationThreshold : UInt64
  /-- The number of bytes that one decoding may take. -/
  maxAllocBytes : UInt64
  deriving DecidableEq, Repr

inductive ConfigFault where
  | noCapacity
  | emptySize (size : Size)
  | thresholdTooLarge (threshold : UInt64)
  | emptyDirectory
  deriving DecidableEq, Repr

/-- The largest threshold accepted, so that the expiry clock stays far from its end. -/
def maxExpirationThreshold : UInt64 :=
  4294967295

namespace ConfigFault

def message : ConfigFault → String
  | noCapacity => "max_cached_pixmaps must be at least 1"
  | emptySize size =>
    "max_thumb_size must be non-zero, got " ++ toString size.width.toNat ++ "x" ++
      toString size.height.toNat
  | thresholdTooLarge threshold =>
    "expiration_threshold must be at most " ++ toString maxExpirationThreshold.toNat ++ ", got " ++
      toString threshold.toNat
  | emptyDirectory => "cache_dir must not be empty"

def toError (fault : ConfigFault) : Error :=
  .config fault.message

end ConfigFault

namespace Config

def standard : Config :=
  { cacheDirectory := (Path.ofString "cache").child (Utf8.bytesOf "thumbs")
    maxThumbnailSize := ⟨250, 250⟩
    maxCachedPixmaps := 40
    expirationThreshold := 5
    maxAllocBytes := 536870912 }

def fault? (config : Config) : Option ConfigFault :=
  if config.maxCachedPixmaps = 0 then some .noCapacity
  else if config.maxThumbnailSize.isEmpty then some (.emptySize config.maxThumbnailSize)
  else if config.expirationThreshold > maxExpirationThreshold then
    some (.thresholdTooLarge config.expirationThreshold)
  else if config.cacheDirectory.bytes = [] then some .emptyDirectory
  else none

def validate (config : Config) : Except ConfigFault Config :=
  match config.fault? with
  | some fault => .error fault
  | none => .ok config

/-- Whether two settings mean the same. Directories may differ in their bytes if their components
agree. -/
def isSame (left right : Config) : Bool :=
  left.cacheDirectory.sameComponents right.cacheDirectory &&
    { left with cacheDirectory := right.cacheDirectory } = right

end Config

end Thumbnails
