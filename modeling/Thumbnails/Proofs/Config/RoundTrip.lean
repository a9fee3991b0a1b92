import Thumbnails.Config.Source
import Thumbnails.Proofs.Json.Structure
import Thumbnails.Proofs.Text.Decoding

/-!
# Settings survive being written

Settings are written as JSON without a loss: what is written is read as the same settings, with
every character of their directory and every bit of their numbers. So reading refuses only what
validation refuses, and the text decides the settings.
-/

namespace Thumbnails

namespace Config

open Json

theorem readWord32_jsonNatural (value : UInt32) {rest : List Char} (ends : Ends rest) :
    readWord32 (jsonNatural value.toNat ++ rest) = .ok (value, rest) := by
  have natural : readNatural (UInt32.size - 1) (jsonNatural value.toNat ++ rest) =
      .ok (value.toNat, rest) :=
    readNatural_jsonNatural (by decide) (Nat.le_sub_one_of_lt value.toNat_lt) ends
  rw [readWord32, natural]
  exact congrArg (fun word => Except.ok (word, rest)) (UInt32.ofNat_toNat)

theorem readWord64_jsonNatural (value : UInt64) {rest : List Char} (ends : Ends rest) :
    readWord64 (jsonNatural value.toNat ++ rest) = .ok (value, rest) := by
  have natural : readNatural (UInt64.size - 1) (jsonNatural value.toNat ++ rest) =
      .ok (value.toNat, rest) :=
    readNatural_jsonNatural (by decide) (Nat.le_sub_one_of_lt value.toNat_lt) ends
  rw [readWord64, natural]
  exact congrArg (fun word => Except.ok (word, rest)) (UInt64.ofNat_toNat)

theorem readPath_jsonString (directory rest : List Char) :
    readPath (jsonString directory ++ rest) = .ok (⟨Utf8.encode directory⟩, rest) := by
  rw [readPath, readText_jsonString]
  rfl

def sizeMembers (size : Size) : List (String × List Char) :=
  [("width", jsonNatural size.width.toNat), ("height", jsonNatural size.height.toNat)]

def limitMembers (maxAllocBytes : UInt64) : List (String × List Char) :=
  [("max_alloc_bytes", jsonNatural maxAllocBytes.toNat)]

/-- What is written for settings whose directory is the text given. -/
def members (config : Config) (directory : List Char) : List (String × List Char) :=
  [("cache_dir", jsonString directory),
    ("max_thumb_size", jsonObject (sizeMembers config.maxThumbnailSize)),
    ("max_cached_pixmaps", jsonNatural config.maxCachedPixmaps.toNat),
    ("expiration_threshold", jsonNatural config.expirationThreshold.toNat),
    ("decode_limits", jsonObject (limitMembers config.maxAllocBytes))]

theorem readSize_jsonObject (size : Size) (rest : List Char) :
    readSize (jsonObject (sizeMembers size) ++ rest) = .ok (size, rest) := by
  have fills : Fills sizeFields SizeDraft.empty (sizeMembers size)
      ⟨some size.width, some size.height⟩ :=
    .cons rfl rfl (fun _ closes => field_read (readWord32_jsonNatural size.width closes.ends))
      (.cons rfl rfl (fun _ closes => field_read (readWord32_jsonNatural size.height closes.ends))
        (.nil _))
  refine readStructure_jsonObject fills ?_ rest
  rfl

theorem readLimits_jsonObject (maxAllocBytes : UInt64) (rest : List Char) :
    readLimits (jsonObject (limitMembers maxAllocBytes) ++ rest) = .ok (maxAllocBytes, rest) := by
  have fills : Fills limitFields none (limitMembers maxAllocBytes) (some maxAllocBytes) :=
    .cons rfl rfl (fun _ closes => field_read (readWord64_jsonNatural maxAllocBytes closes.ends))
      (.nil _)
  refine readStructure_jsonObject fills ?_ rest
  rfl

theorem fills_members (config : Config) (directory : List Char) :
    Fills fields ConfigDraft.empty (config.members directory)
      ⟨some ⟨Utf8.encode directory⟩, some config.maxThumbnailSize, some config.maxCachedPixmaps,
        some config.expirationThreshold, some config.maxAllocBytes⟩ :=
  .cons rfl rfl (fun rest _ => field_read (readPath_jsonString directory rest))
    (.cons rfl rfl (fun rest _ => field_read (readSize_jsonObject config.maxThumbnailSize rest))
      (.cons rfl rfl
        (fun _ closes => field_read (readWord64_jsonNatural config.maxCachedPixmaps closes.ends))
        (.cons rfl rfl
          (fun _ closes =>
            field_read (readWord64_jsonNatural config.expirationThreshold closes.ends))
          (.cons rfl rfl
            (fun rest _ => field_read (readLimits_jsonObject config.maxAllocBytes rest))
            (.nil _)))))

/-- The directory of the settings is a text. -/
def HasTextDirectory (config : Config) : Prop :=
  ∃ directory, config.cacheDirectory.bytes = Utf8.encode directory

/-- Settings with a text for their directory are read from what is written for them. -/
theorem exists_toJson?_eq {config : Config} (isText : config.HasTextDirectory) :
    ∃ text, config.toJson? = some text ∧ ofJson text = .ok config := by
  rcases isText with ⟨directory, directoryEq⟩
  refine ⟨jsonObject (config.members directory), ?_, ?_⟩
  · rw [toJson?, directoryEq, Utf8.decode?_encode]
    rfl
  · rw [ofJson]
    apply readDocument_jsonObject (fills_members config directory)
    have pathEq : config.cacheDirectory = ⟨Utf8.encode directory⟩ := congrArg Path.mk directoryEq
    rw [ConfigDraft.apply, ← pathEq]
    rfl

theorem eq_of_validate_eq_ok {config valid : Config} (accepted : config.validate = .ok valid) :
    valid = config := by
  unfold validate at accepted
  split at accepted
  · cases accepted
  · exact (Except.ok.inj accepted).symm

/-- Settings are written as a text, and this text stands for them. It is read as these settings if
they are valid, and it is refused for their own fault if they are not. No other settings with a text
for their directory are written in the same way. -/
structure RoundTripsThrough (config : Config) (text : List Char) : Prop where
  written : config.toJson? = some text
  accepted : (∃ valid, config.validate = .ok valid) → parse .json text = .ok config
  refused : ∀ fault, config.validate = .error fault → parse .json text = .error (.invalid fault)
  alone : ∀ other : Config, other.HasTextDirectory → other.toJson? = some text → other = config

/-- Settings with a text for their directory survive being written and read. -/
theorem exists_roundTripsThrough {config : Config} (isText : config.HasTextDirectory) :
    ∃ text, config.RoundTripsThrough text := by
  rcases exists_toJson?_eq isText with ⟨text, written, readBack⟩
  have parseEq : parse .json text = config.validate.mapError .invalid := by
    rw [parse, Config.read, readBack]
    rfl
  refine ⟨text, written, ?accepted, ?refused, ?alone⟩
  case accepted =>
    rintro ⟨valid, accepted⟩
    rw [parseEq, accepted, eq_of_validate_eq_ok accepted]
    rfl
  case refused =>
    intro fault refused
    rw [parseEq, refused]
    rfl
  case alone =>
    intro other otherIsText otherWritten
    rcases exists_toJson?_eq otherIsText with ⟨otherText, otherEq, otherReadBack⟩
    obtain rfl : otherText = text := Option.some.inj (otherEq.symm.trans otherWritten)
    exact Except.ok.inj (otherReadBack.symm.trans readBack)

/-- Quotes, backslashes, control characters and characters outside the basic plane survive, and so
do the largest numbers. -/
theorem exists_roundTripsThrough_awkward :
    ∃ text,
      Config.RoundTripsThrough
        { cacheDirectory := ⟨Utf8.encode ['"', '\\', '\x01', '\n', '/', 'é', '𝄞']⟩
          maxThumbnailSize := ⟨4294967295, 1⟩
          maxCachedPixmaps := 18446744073709551615
          expirationThreshold := 4294967295
          maxAllocBytes := 0 } text :=
  exists_roundTripsThrough ⟨['"', '\\', '\x01', '\n', '/', 'é', '𝄞'], rfl⟩

end Config

end Thumbnails
