import Mathlib.Data.List.Nodup
import Thumbnails.Proofs.Config.RoundTrip
import Thumbnails.Proofs.Json.Layout

/-!
# Settings that override the standard ones

A text gives some of the settings, and the others are the standard ones. Which text gives which
settings is said by the layouts of the settings and of their parts, and what they come to is said
without a reader: the standard settings, with one override after the other, and then validated.

The names of members that mean nothing are read all the same, to see that they mean nothing. So they
have to be texts, unlike the strings in the values of such members, and `MergesOverrides` leaves it
open which names are allowed.
-/

namespace Thumbnails

open Json

/-- A side of a size with its length. -/
inductive SizePart where
  | width (length : UInt32)
  | height (length : UInt32)
  deriving DecidableEq, Repr

namespace SizePart

def name : SizePart → String
  | width _ => "width"
  | height _ => "height"

def length : SizePart → UInt32
  | width length => length
  | height length => length

end SizePart

def sizeLayout : Layout SizePart where
  names := ["width", "height"]
  name := SizePart.name
  writes part text := text = Config.jsonNatural part.length.toNat

def limitLayout : Layout UInt64 where
  names := ["max_alloc_bytes"]
  name _ := "max_alloc_bytes"
  writes maxAllocBytes text := text = Config.jsonNatural maxAllocBytes.toNat

/-- A setting that is given. The limits of the decoder may be given without any limit in them. -/
inductive Setting where
  | cacheDirectory (path : Path)
  | maxThumbnailSize (size : Size)
  | maxCachedPixmaps (count : UInt64)
  | expirationThreshold (threshold : UInt64)
  | decodeLimits (maxAllocBytes : Option UInt64)
  deriving DecidableEq, Repr

namespace Setting

def name : Setting → String
  | cacheDirectory _ => "cache_dir"
  | maxThumbnailSize _ => "max_thumb_size"
  | maxCachedPixmaps _ => "max_cached_pixmaps"
  | expirationThreshold _ => "expiration_threshold"
  | decodeLimits _ => "decode_limits"

/-- The texts that stand for the value of a setting. A size has both of its sides. -/
inductive IsWritten (allowed : List Char → Prop) : Setting → List Char → Prop where
  | cacheDirectory {body directory : List Char} (spells : Spells body directory) :
      IsWritten allowed (cacheDirectory ⟨Utf8.encode directory⟩) ('"' :: (body ++ ['"']))
  | maxThumbnailSize {size : Size} {parts : List SizePart} {text : List Char}
      (isStructure : sizeLayout.IsStructure allowed parts text)
      (both : parts.Perm [.width size.width, .height size.height]) :
      IsWritten allowed (maxThumbnailSize size) text
  | maxCachedPixmaps (count : UInt64) :
      IsWritten allowed (maxCachedPixmaps count) (Config.jsonNatural count.toNat)
  | expirationThreshold (threshold : UInt64) :
      IsWritten allowed (expirationThreshold threshold) (Config.jsonNatural threshold.toNat)
  | decodeLimits {maxAllocBytes : Option UInt64} {text : List Char}
      (isStructure : limitLayout.IsStructure allowed maxAllocBytes.toList text) :
      IsWritten allowed (decodeLimits maxAllocBytes) text

end Setting

/-- The layout of the settings, with the names that are allowed for members of no meaning. -/
def configLayout (allowed : List Char → Prop) : Layout Setting where
  names := ["cache_dir", "max_thumb_size", "max_cached_pixmaps", "expiration_threshold",
    "decode_limits"]
  name := Setting.name
  writes := Setting.IsWritten allowed

namespace Config

def override (config : Config) : Setting → Config
  | .cacheDirectory path => { config with cacheDirectory := path }
  | .maxThumbnailSize size => { config with maxThumbnailSize := size }
  | .maxCachedPixmaps count => { config with maxCachedPixmaps := count }
  | .expirationThreshold threshold => { config with expirationThreshold := threshold }
  | .decodeLimits maxAllocBytes =>
    { config with maxAllocBytes := maxAllocBytes.getD standard.maxAllocBytes }

/-- What reading comes to when these settings are given. -/
def outcome (settings : List Setting) : Except ConfigProblem Config :=
  (settings.foldl override standard).validate.mapError .invalid

theorem override_comm (config : Config) {left right : Setting}
    (different : left.name ≠ right.name) :
    (config.override left).override right = (config.override right).override left := by
  cases left <;> cases right
  all_goals first | rfl | exact absurd rfl different

/-- Settings of different fields override in any order. -/
theorem outcome_eq_of_perm {settings others : List Setting}
    (distinct : (settings.map Setting.name).Nodup) (perm : settings.Perm others) :
    outcome settings = outcome others := by
  have overridden : settings.foldl override standard = others.foldl override standard := by
    apply perm.foldl_eq'
    intro left leftMem right rightMem config
    by_cases same : left.name = right.name
    · rw [List.inj_on_of_nodup_map distinct leftMem rightMem same]
    · exact override_comm config same
  rw [outcome, outcome, overridden]

end Config

def SizeDraft.set (draft : SizeDraft) : SizePart → SizeDraft
  | .width length => { draft with width := some length }
  | .height length => { draft with height := some length }

def ConfigDraft.set (draft : ConfigDraft) : Setting → ConfigDraft
  | .cacheDirectory path => { draft with cacheDirectory := some path }
  | .maxThumbnailSize size => { draft with maxThumbnailSize := some size }
  | .maxCachedPixmaps count => { draft with maxCachedPixmaps := some count }
  | .expirationThreshold threshold => { draft with expirationThreshold := some threshold }
  | .decodeLimits maxAllocBytes =>
    { draft with maxAllocBytes := some (maxAllocBytes.getD Config.standard.maxAllocBytes) }

theorem ConfigDraft.apply_foldl_set (draft : ConfigDraft) (settings : List Setting) :
    (settings.foldl set draft).apply = settings.foldl Config.override draft.apply := by
  induction settings generalizing draft with
  | nil => rfl
  | cons setting settings ih =>
    rw [List.foldl_cons, List.foldl_cons, ih]
    cases setting <;> rfl

namespace Config

variable {α β σ : Type} {blank text rest : List Char}

theorem readNatural_blank (limit : Nat) (blankIs : IsBlank blank) (text : List Char) :
    readNatural limit (blank ++ text) = readNatural limit text := by
  rw [readNatural, readNatural, skipSpace_append blankIs]

theorem readWord32_blank (blankIs : IsBlank blank) (text : List Char) :
    readWord32 (blank ++ text) = readWord32 text := by
  rw [readWord32, readWord32, readNatural_blank _ blankIs]

theorem readWord64_blank (blankIs : IsBlank blank) (text : List Char) :
    readWord64 (blank ++ text) = readWord64 text := by
  rw [readWord64, readWord64, readNatural_blank _ blankIs]

theorem readPath_blank (blankIs : IsBlank blank) (text : List Char) :
    readPath (blank ++ text) = readPath text := by
  rw [readPath, readPath, readText, readText, skipSpace_append blankIs]

theorem starts_jsonNatural (value : Nat) : Starts (jsonNatural value) := by
  rcases exists_jsonNatural_eq_cons value with ⟨digit, digits, valueEq, digitIs⟩
  rw [valueEq]
  exact starts_of_isDigit digitIs digits

theorem readPath_append {body directory : List Char} (spells : Spells body directory)
    (rest : List Char) :
    readPath ('"' :: (body ++ ['"']) ++ rest) = .ok (⟨Utf8.encode directory⟩, rest) := by
  have textRead : readText ('"' :: (body ++ ['"']) ++ rest) = .ok (directory, rest) := by
    rw [List.cons_append, List.append_assoc]
    exact readString_append spells rest
  rw [readPath, textRead]
  rfl

/-- A field fits if its reader passes over white space and reads what is written for it. -/
theorem fits_field {layout : Layout σ} {name : String} {get : α → Option β} {set : α → β → α}
    {setAny : α → σ → α} {read : List Char → Except Fault (β × List Char)}
    (isSet : ∀ draft setting,
      (get (setAny draft setting)).isSome = (name == layout.name setting || (get draft).isSome))
    (passes : ∀ {blank}, IsBlank blank → ∀ text, read (blank ++ text) = read text)
    (reads : ∀ setting text, name = layout.name setting → layout.writes setting text →
      ∃ value, (∀ draft, setAny draft setting = set draft value) ∧
        ∀ rest, Ends rest → read (text ++ rest) = .ok (value, rest)) :
    layout.Fits setAny (field name get set read) := by
  refine ⟨isSet, ?blank, ?read⟩
  case blank =>
    intro draft blank text blankIs
    simp only [field, passes blankIs text]
  case read =>
    intro draft setting text rest named written ends
    rcases reads setting text named written with ⟨value, setEq, readEq⟩
    rw [setEq]
    exact field_read (readEq rest ends)

theorem reads_size : sizeLayout.Reads sizeFields SizeDraft.set where
  names := rfl
  known part := by cases part <;> simp [sizeLayout, SizePart.name]
  starts part text written := by
    rw [written]
    exact starts_jsonNatural _
  fits := by
    simp only [sizeFields, List.forall_mem_cons]
    refine ⟨fits_field ?_ readWord32_blank ?readsWidth,
      fits_field ?_ readWord32_blank ?readsHeight, List.forall_mem_nil _⟩
    case readsWidth =>
      intro part text named written
      cases part with
      | width length =>
          exact ⟨length, fun _ => rfl, written ▸ fun _ => readWord32_jsonNatural length⟩
      | height => simp [sizeLayout, SizePart.name] at named
    case readsHeight =>
      intro part text named written
      cases part with
      | width => simp [sizeLayout, SizePart.name] at named
      | height length =>
          exact ⟨length, fun _ => rfl, written ▸ fun _ => readWord32_jsonNatural length⟩
    all_goals
      intro draft part
      cases part <;> rfl

/-- Both sides make up a size, in any order. -/
theorem size?_foldl_set {size : Size} {parts : List SizePart}
    (both : parts.Perm [.width size.width, .height size.height]) :
    (parts.foldl SizeDraft.set SizeDraft.empty).size? = some size := by
  rw [both.foldl_eq' ?_ SizeDraft.empty]
  · rfl
  · intro left leftMem right rightMem draft
    have leftIs := both.subset leftMem
    have rightIs := both.subset rightMem
    simp only [List.mem_cons, List.not_mem_nil, or_false] at leftIs rightIs
    rcases leftIs with rfl | rfl <;> rcases rightIs with rfl | rfl <;> rfl

theorem readSize_append {size : Size} {parts : List SizePart}
    (isStructure : sizeLayout.IsStructure IsSpelled parts text)
    (both : parts.Perm [.width size.width, .height size.height]) (rest : List Char) :
    readSize (text ++ rest) = .ok (size, rest) := by
  refine reads_size.readStructure_eq ?_ isStructure ?_ rest
  · simp [sizeFields, field, SizeDraft.empty]
  · rw [size?_foldl_set both]

theorem reads_limit : limitLayout.Reads limitFields fun _ maxAllocBytes => some maxAllocBytes where
  names := rfl
  known _ := List.mem_singleton_self _
  starts maxAllocBytes text written := by
    rw [written]
    exact starts_jsonNatural _
  fits := by
    simp only [limitFields, List.forall_mem_cons]
    refine ⟨fits_field (fun _ _ => rfl) readWord64_blank ?_, List.forall_mem_nil _⟩
    intro maxAllocBytes text _ written
    exact ⟨maxAllocBytes, fun _ => rfl, written ▸ fun _ => readWord64_jsonNatural maxAllocBytes⟩

theorem readLimits_append {maxAllocBytes : Option UInt64}
    (isStructure : limitLayout.IsStructure IsSpelled maxAllocBytes.toList text)
    (rest : List Char) :
    readLimits (text ++ rest) = .ok (maxAllocBytes.getD standard.maxAllocBytes, rest) := by
  refine reads_limit.readStructure_eq ?_ isStructure ?_ rest
  · simp [limitFields, field]
  · cases maxAllocBytes <;> rfl

theorem starts_isWritten {allowed : List Char → Prop} {setting : Setting}
    (written : setting.IsWritten allowed text) : Starts text := by
  cases written with
  | cacheDirectory spells => exact ⟨'"', _, rfl, by decide, by decide⟩
  | maxThumbnailSize isStructure both => exact isStructure.starts
  | maxCachedPixmaps count => exact starts_jsonNatural _
  | expirationThreshold threshold => exact starts_jsonNatural _
  | decodeLimits isStructure => exact isStructure.starts

theorem reads_config : (configLayout IsSpelled).Reads fields ConfigDraft.set where
  names := rfl
  known setting := by cases setting <;> simp [configLayout, Setting.name]
  starts _ _ written := starts_isWritten written
  fits := by
    simp only [fields, List.forall_mem_cons]
    refine ⟨fits_field ?_ readPath_blank ?path, fits_field ?_ readStructure_blank ?size,
      fits_field ?_ readWord64_blank ?count, fits_field ?_ readWord64_blank ?threshold,
      fits_field ?_ readStructure_blank ?limits, List.forall_mem_nil _⟩
    case path =>
      intro setting text named written
      cases written with
      | cacheDirectory spells => exact ⟨_, fun _ => rfl, fun rest _ => readPath_append spells rest⟩
      | _ => simp [configLayout, Setting.name] at named
    case size =>
      intro setting text named written
      cases written with
      | maxThumbnailSize isStructure both =>
          exact ⟨_, fun _ => rfl, fun rest _ => readSize_append isStructure both rest⟩
      | _ => simp [configLayout, Setting.name] at named
    case count =>
      intro setting text named written
      cases written with
      | maxCachedPixmaps count => exact ⟨count, fun _ => rfl, fun _ => readWord64_jsonNatural count⟩
      | _ => simp [configLayout, Setting.name] at named
    case threshold =>
      intro setting text named written
      cases written with
      | expirationThreshold threshold =>
          exact ⟨threshold, fun _ => rfl, fun _ => readWord64_jsonNatural threshold⟩
      | _ => simp [configLayout, Setting.name] at named
    case limits =>
      intro setting text named written
      cases written with
      | decodeLimits isStructure =>
          exact ⟨_, fun _ => rfl, fun rest _ => readLimits_append isStructure rest⟩
      | _ => simp [configLayout, Setting.name] at named
    all_goals
      intro draft setting
      cases setting <;> rfl

variable {settings others : List Setting} {item : Item}

/-- A text is read as the standard settings with those overridden that it gives. -/
theorem ofJson_isStructure (spaced : item.IsSpaced)
    (isStructure : (configLayout IsSpelled).IsStructure IsSpelled settings item.value) :
    ofJson item.text = .ok (settings.foldl override standard) := by
  have fresh : ∀ field ∈ fields, field.isSet ConfigDraft.empty = false := by
    simp [fields, field, ConfigDraft.empty]
  have structureRead : readStructure fields (fun draft => .ok draft.apply) ConfigDraft.empty
      (item.value ++ item.after) =
        .ok ((settings.foldl ConfigDraft.set .empty).apply, item.after) := by
    refine reads_config.readStructure_eq fresh isStructure ?_ item.after
    rfl
  rw [ofJson, readDocument, Item.text, readStructure_blank spaced.before, structureRead,
    ConfigDraft.apply_foldl_set]
  change (if skipSpace item.after = [] then _ else _) = _
  rw [if_pos (skipSpace_of_isBlank spaced.after)]
  rfl

theorem parse_isStructure (spaced : item.IsSpaced)
    (isStructure : (configLayout IsSpelled).IsStructure IsSpelled settings item.value) :
    parse .json item.text = outcome settings := by
  rw [parse, Config.read, ofJson_isStructure spaced isStructure]
  rfl

theorem distinct_of_isObject {allowed : List Char → Prop} {text : List Char}
    (isObject : (configLayout allowed).IsObject allowed settings text) :
    (settings.map Setting.name).Nodup := by
  cases isObject with
  | empty blankIs => exact List.nodup_nil
  | members nonempty gives distinct => exact distinct

/-- Texts of JSON merge with the standard settings. Whatever stands between the settings in an
object, and in whatever order they come, it means the settings that it gives and the standard ones
for the others. An array means the same as an object of its items. -/
structure MergesOverrides (allowed : List Char → Prop) : Prop where
  object : ∀ (item : Item) (settings : List Setting), item.IsSpaced →
    (configLayout allowed).IsObject allowed settings item.value →
      parse .json item.text = outcome settings
  array : ∀ (item : Item) (settings : List Setting), item.IsSpaced →
    (configLayout allowed).IsArray settings item.value →
      parse .json item.text = outcome settings
  agree : ∀ (left right : Item) (settings others : List Setting), left.IsSpaced →
    right.IsSpaced → (configLayout allowed).IsArray settings left.value →
      (configLayout allowed).IsObject allowed others right.value → others.Perm settings →
        parse .json left.text = parse .json right.text

/-- Settings are merged as long as the names of members of no meaning are texts. -/
theorem mergesOverrides : MergesOverrides IsSpelled where
  object _ _ spaced isObject := parse_isStructure spaced (.object isObject)
  array _ _ spaced isArray := parse_isStructure spaced (.array isArray)
  agree left right settings others leftSpaced rightSpaced isArray isObject perm := by
    rw [parse_isStructure leftSpaced (.array isArray),
      parse_isStructure rightSpaced (.object isObject)]
    exact (outcome_eq_of_perm (distinct_of_isObject isObject) perm).symm

/-- Foreign members may come twice and nest, with numbers out of range and with strings that are no
texts. The name of a field may be written with escapes. -/
example :
    parse .json
        "\x7b \"a\":[\"\\ud800\",1e999],\"max_cached_pixmap\\u0073\" : 3 ,\"a\":null\x7d".toList =
      outcome [.maxCachedPixmaps 3] := by
  decide +kernel

/-- A member whose name is half a pair of surrogates. -/
def halfNamed : Member :=
  { before := [], name := ['\\', 'u', 'd', '8', '0', '0'], middle := [], item := ⟨[], ['0'], []⟩ }

/-- Half a pair of surrogates is no text, so it is refused as the name of a member. -/
theorem not_mergesOverrides_of_isBody : ¬MergesOverrides IsBody := by
  intro merges
  have isBody : IsBody halfNamed.name := .numbered (.mk rfl rfl rfl rfl) .nil
  have isDigits : IsDigits ['0'] :=
    ⟨List.cons_ne_nil _ _, List.forall_mem_singleton.mpr rfl⟩
  have isValue : IsValue halfNamed.item.value :=
    .positive (.mk ⟨isDigits, fun _ => rfl⟩ .absent .absent)
  -- Nothing at all is spelled like this, for it would be read.
  have unknown : ∀ name ∈ (configLayout IsBody).names, ¬Spells halfNamed.name name.toList := by
    intro name _ spells
    have read := readString_append spells []
    have refused : readString (halfNamed.name ++ ['"']) = .error .malformed := rfl
    cases refused.symm.trans read
  have nothing := List.forall_mem_nil fun character => isSpace character = true
  have isObject : (configLayout IsBody).IsObject IsBody []
      (Bracket.object.enclose ([halfNamed].map Member.text)) :=
    .members (List.cons_ne_nil _ _)
      (.foreign ⟨nothing, nothing, ⟨nothing, nothing⟩⟩ isBody unknown isValue .nil) List.nodup_nil
  have accepted := merges.object ⟨[], _, []⟩ [] ⟨nothing, nothing⟩ isObject
  have refused : parse .json
      (Item.text ⟨[], Bracket.object.enclose ([halfNamed].map Member.text), []⟩) =
        .error (.json .malformed) := rfl
  cases refused.symm.trans accepted

end Config

end Thumbnails
