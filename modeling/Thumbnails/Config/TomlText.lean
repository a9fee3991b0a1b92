import Thumbnails.Config.Draft
import Thumbnails.Toml.Document

/-!
# Settings as TOML

The settings that the entries of a document give. Structures may also be given as arrays of their
fields. Items beyond the fields do not count, while entries without a field have to be readable.
-/

namespace Thumbnails

namespace Config

open Toml (Key Value)

/-- The number that a value is, up to a limit. -/
def tomlNatural? (limit : Nat) (value : Value) : Option Nat :=
  match value with
  | .scalar (.integer (some number)) =>
    if 0 ≤ number ∧ number ≤ limit then some number.toNat else none
  | _ => none

def tomlWord32? (value : Value) : Option UInt32 :=
  (tomlNatural? (UInt32.size - 1) value).map UInt32.ofNat

def tomlWord64? (value : Value) : Option UInt64 :=
  (tomlNatural? (UInt64.size - 1) value).map UInt64.ofNat

def tomlPath? (value : Value) : Option Path :=
  match value with
  | .text characters => some ⟨Utf8.encode characters⟩
  | _ => none

/-- Whether all entries but those with some names are readable. -/
def othersReadable (names : List String) (entries : List (Key × Value)) : Bool :=
  entries.all fun entry =>
    names.any (fun name => name.toList = entry.1) || entry.2.isReadable

def tomlSize? (value : Value) : Option Size :=
  let ofSides := fun (width height : Value) => do
    return (⟨← tomlWord32? width, ← tomlWord32? height⟩ : Size)
  match value with
  | .table _ entries => do
    guard (othersReadable ["width", "height"] entries)
    ofSides (← entries.lookup "width".toList) (← entries.lookup "height".toList)
  | .array (width :: height :: _) => ofSides width height
  | _ => none

/-- The limit of a decoding that a value gives. A date gives none. -/
def tomlLimits? (value : Value) : Option UInt64 :=
  match value with
  | .table _ entries => do
    guard (othersReadable ["max_alloc_bytes"] entries)
    match entries.lookup "max_alloc_bytes".toList with
    | some limit => tomlWord64? limit
    | none => return standard.maxAllocBytes
  | .array (limit :: _) => tomlWord64? limit
  | .array [] => some standard.maxAllocBytes
  | .scalar .moment => some standard.maxAllocBytes
  | _ => none

/-- The value of a key, if there is one. One that cannot be read is refused. -/
def tomlField {α : Type} (entries : List (Key × Value)) (name : String)
    (read? : Value → Option α) : Option (Option α) :=
  match entries.lookup name.toList with
  | none => some none
  | some value => (read? value).map some

def settingNames : List String :=
  ["cache_dir", "max_thumb_size", "max_cached_pixmaps", "expiration_threshold", "decode_limits"]

def ofToml? (text : List Char) : Option Config := do
  let entries ← Toml.readDocument text
  guard (othersReadable settingNames entries)
  let draft : ConfigDraft :=
    { cacheDirectory := ← tomlField entries "cache_dir" tomlPath?
      maxThumbnailSize := ← tomlField entries "max_thumb_size" tomlSize?
      maxCachedPixmaps := ← tomlField entries "max_cached_pixmaps" tomlWord64?
      expirationThreshold := ← tomlField entries "expiration_threshold" tomlWord64?
      maxAllocBytes := ← tomlField entries "decode_limits" tomlLimits? }
  return draft.apply

end Config

end Thumbnails
