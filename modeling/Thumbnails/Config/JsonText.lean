import Thumbnails.Config.Draft
import Thumbnails.Json.Structure

/-!
# Settings as JSON

The fields of the settings as they are read from JSON, and the one way in which settings are
written.
-/

namespace Thumbnails

namespace Config

open Json

def readWord32 (text : List Char) : Except Fault (UInt32 × List Char) := do
  let (value, rest) ← readNatural (UInt32.size - 1) text
  return (UInt32.ofNat value, rest)

def readWord64 (text : List Char) : Except Fault (UInt64 × List Char) := do
  let (value, rest) ← readNatural (UInt64.size - 1) text
  return (UInt64.ofNat value, rest)

/-- A field of the settings of one kind. -/
def field {α β : Type} (name : String) (get : α → Option β) (set : α → β → α)
    (read : List Char → Except Fault (β × List Char)) : FieldReader α where
  name
  isSet draft := (get draft).isSome
  read draft text := do
    let (value, rest) ← read text
    return (set draft value, rest)

def sizeFields : List (FieldReader SizeDraft) :=
  [field "width" SizeDraft.width (fun draft value => { draft with width := some value }) readWord32,
    field "height" SizeDraft.height (fun draft value => { draft with height := some value })
      readWord32]

def readSize (text : List Char) : Except Fault (Size × List Char) :=
  readStructure sizeFields
    (fun draft =>
      match draft.size? with
      | some size => .ok size
      | none => .error .mismatched)
    SizeDraft.empty text

def limitFields : List (FieldReader (Option UInt64)) :=
  [field "max_alloc_bytes" id (fun _ value => some value) readWord64]

def readLimits (text : List Char) : Except Fault (UInt64 × List Char) :=
  readStructure limitFields (fun draft => .ok (draft.getD standard.maxAllocBytes)) none text

def readPath (text : List Char) : Except Fault (Path × List Char) := do
  let (characters, rest) ← readText text
  return (⟨Utf8.encode characters⟩, rest)

def fields : List (FieldReader ConfigDraft) :=
  [field "cache_dir" ConfigDraft.cacheDirectory
      (fun draft value => { draft with cacheDirectory := some value }) readPath,
    field "max_thumb_size" ConfigDraft.maxThumbnailSize
      (fun draft value => { draft with maxThumbnailSize := some value }) readSize,
    field "max_cached_pixmaps" ConfigDraft.maxCachedPixmaps
      (fun draft value => { draft with maxCachedPixmaps := some value }) readWord64,
    field "expiration_threshold" ConfigDraft.expirationThreshold
      (fun draft value => { draft with expirationThreshold := some value }) readWord64,
    field "decode_limits" ConfigDraft.maxAllocBytes
      (fun draft value => { draft with maxAllocBytes := some value }) readLimits]

def ofJson (text : List Char) : Except Fault Config :=
  readDocument fields (fun draft => .ok draft.apply) ConfigDraft.empty text

def jsonCharacter (character : Char) : List Char :=
  if character = '"' then ['\\', '"']
  else if character = '\\' then ['\\', '\\']
  else if character = '\x08' then ['\\', 'b']
  else if character = '\x0c' then ['\\', 'f']
  else if character = '\n' then ['\\', 'n']
  else if character = '\r' then ['\\', 'r']
  else if character = '\t' then ['\\', 't']
  else if character.toNat < 0x20 then
    ['\\', 'u', '0', '0', Hex.digit (character.toNat / 16), Hex.digit character.toNat]
  else [character]

def jsonString (text : List Char) : List Char :=
  '"' :: text.flatMap jsonCharacter ++ ['"']

def jsonObject (members : List (String × List Char)) : List Char :=
  let written := members.map fun entry => jsonString entry.1.toList ++ ':' :: entry.2
  '\x7b' :: [','].intercalate written ++ ['\x7d']

def jsonNatural (value : Nat) : List Char :=
  Nat.toDigits 10 value

/-- Settings as they are written, unless their directory is no text. -/
def toJson? (config : Config) : Option (List Char) :=
  (Utf8.decode? config.cacheDirectory.bytes).map fun directory =>
    jsonObject
      [("cache_dir", jsonString directory),
        ("max_thumb_size", jsonObject
          [("width", jsonNatural config.maxThumbnailSize.width.toNat),
            ("height", jsonNatural config.maxThumbnailSize.height.toNat)]),
        ("max_cached_pixmaps", jsonNatural config.maxCachedPixmaps.toNat),
        ("expiration_threshold", jsonNatural config.expirationThreshold.toNat),
        ("decode_limits", jsonObject
          [("max_alloc_bytes", jsonNatural config.maxAllocBytes.toNat)])]

end Config

end Thumbnails
