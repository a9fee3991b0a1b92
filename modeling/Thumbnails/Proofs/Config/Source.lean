import Thumbnails.Cache.Session
import Thumbnails.Proofs.Config.RoundTrip
import Thumbnails.Proofs.Files.Place
import Thumbnails.Proofs.Text.Blank

/-!
# Settings come from one source and are valid

The environment decides where the settings come from before any source is looked at. What is then
read, or the problem with it, comes from this source alone: another source neither mends it nor
changes it. And whoever hands settings out has validated them, so a cache takes them as they are
(`Config.loadsSoundly`).
-/

namespace Thumbnails

namespace Config

variable {config : Config} {value : Option (List UInt8)} {text : List Char}

theorem mapError_eq_ok_iff {ε ε' α : Type} {result : Except ε α} {relabel : ε → ε'} {value : α} :
    result.mapError relabel = .ok value ↔ result = .ok value := by
  cases result <;> simp [Except.mapError]

theorem map_eq_ok_iff {ε α β : Type} {result : Except ε α} {function : α → β} {value : β} :
    result.map function = .ok value ↔ ∃ given, result = .ok given ∧ function given = value := by
  cases result <;> simp [Except.map]

/-- A cache starts with the settings, and it keeps to the bounds that they set. -/
structure IsAccepted (config : Config) : Prop where
  valid : config.validate = .ok config
  starts : ∀ files, ∃ session, Session.start config files = .ok session ∧
    session.state = CacheState.new config config.cacheDirectory.normalize
  capacity_eq : ∀ directory,
    (CacheState.new config directory).capacity = config.maxCachedPixmaps.toNat
  threshold_eq : ∀ directory,
    (CacheState.new config directory).threshold = config.expirationThreshold.toNat

theorem bounds_of_validate_eq_ok (valid : config.validate = .ok config) :
    1 ≤ config.maxCachedPixmaps.toNat ∧
      config.expirationThreshold.toNat ≤ maxExpirationThreshold.toNat := by
  unfold validate fault? at valid
  split at valid
  · cases valid
  rename_i faultless
  split at faultless
  · cases faultless
  rename_i notZero
  split at faultless
  · cases faultless
  split at faultless
  · cases faultless
  rename_i notLarge
  constructor
  · apply Nat.one_le_iff_ne_zero.mpr
    intro zero
    exact notZero (UInt64.toNat_inj.mp zero)
  · exact UInt64.le_iff_toNat_le.mp (UInt64.not_lt.mp notLarge)

theorem isAccepted_of_valid (valid : config.validate = .ok config) : config.IsAccepted := by
  rcases bounds_of_validate_eq_ok valid with ⟨positive, bounded⟩
  refine ⟨valid, ?_, fun _ => Nat.max_eq_left positive, fun _ => Nat.min_eq_left bounded⟩
  intro files
  simp only [Session.start, valid]
  exact ⟨_, rfl, rfl⟩

theorem isAccepted_of_parse {format : ConfigFormat} (parsed : parse format text = .ok config) :
    config.IsAccepted := by
  rcases bind_eq_ok_iff.mp parsed with ⟨settings, _, validated⟩
  have valid := mapError_eq_ok_iff.mp validated
  obtain rfl := eq_of_validate_eq_ok valid
  exact isAccepted_of_valid valid

theorem isAccepted_of_load {files : FileSystem} {path : Path}
    (loaded : load files path = .ok config) : config.IsAccepted := by
  rcases bind_eq_ok_iff.mp loaded with ⟨content, _, parsed⟩
  exact isAccepted_of_parse (mapError_eq_ok_iff.mp parsed)

theorem isAccepted_standard : standard.IsAccepted :=
  isAccepted_of_valid rfl

/-- A variable holds a text that is not blank. -/
def Holds (value : Option (List UInt8)) (text : List Char) : Prop :=
  value = some (Utf8.encode text) ∧ ¬Text.IsBlank text

theorem meaningful?_eq_some_iff : meaningful? value = some text ↔ Holds value text := by
  cases value with
  | none => simp [meaningful?, Holds]
  | some bytes =>
    rw [Holds, ← Text.trim_eq_nil_iff, Option.some_inj, ← Utf8.decode?_eq_some_iff]
    simp only [meaningful?, Option.bind_eq_bind, Option.bind_some, Option.bind_eq_some_iff]
    constructor
    · rintro ⟨other, decoded, kept⟩
      split at kept
      · cases kept
      · rename_i notBlank
        cases kept
        exact ⟨decoded, notBlank⟩
    · rintro ⟨decoded, notBlank⟩
      exact ⟨text, decoded, if_neg notBlank⟩

theorem meaningful?_eq_none_iff : meaningful? value = none ↔ ∀ text, ¬Holds value text := by
  simp only [Option.eq_none_iff_forall_ne_some, ne_eq, meaningful?_eq_some_iff]

/-- The settings are what their source gives, and the environment leads to this source. -/
def ComeFrom (config : Config) (files : FileSystem) (environment : Environment) :
    ConfigSource → Prop
  | .file path => (∃ text core, Holds environment.configPath text ∧ Text.HasCore text core ∧
      path = ⟨Utf8.encode core⟩) ∧ load files path = .ok config
  | .inline => (∀ text, ¬Holds environment.configPath text) ∧
      ∃ text, Holds environment.configJson text ∧ parse .json text = .ok config
  | .standard => (∀ text, ¬Holds environment.configPath text) ∧
      (∀ text, ¬Holds environment.configJson text) ∧ config = standard

/-- Whoever hands settings out hands out valid ones, and the environment decides where they come
from before anything is read. -/
structure LoadsSoundly : Prop where
  parsed : ∀ {format text config}, parse format text = .ok config → config.IsAccepted
  loaded : ∀ {files path config}, load files path = .ok config → config.IsAccepted
  found : ∀ {files environment config source},
    loadFromEnvironment files environment = .ok (config, source) →
      config.IsAccepted ∧ config.ComeFrom files environment source
  /-- A file that is named decides alone, whatever the problem with it. -/
  fromFile : ∀ {value text}, Holds value text → ∃ core, Text.HasCore text core ∧
    ∀ files json, loadFromEnvironment files ⟨value, json⟩ =
      (load files ⟨Utf8.encode core⟩).map fun config => (config, .file ⟨Utf8.encode core⟩)
  /-- Otherwise a text decides alone, whatever the files and the problem with it. -/
  fromText : ∀ {value json text}, (∀ other, ¬Holds value other) → Holds json text →
    ∀ files, loadFromEnvironment files ⟨value, json⟩ =
      (within "parsing LEAFCACHE_CONFIG_JSON" (parse .json text)).map fun config =>
        (config, .inline)
  fromNothing : ∀ {value json}, (∀ text, ¬Holds value text) → (∀ text, ¬Holds json text) →
    ∀ files, loadFromEnvironment files ⟨value, json⟩ = .ok (standard, .standard)

theorem loadFromEnvironment_of_path {json : Option (List UInt8)} {core : List Char}
    (holds : Holds value text) (hasCore : Text.HasCore text core) (files : FileSystem) :
    loadFromEnvironment files ⟨value, json⟩ =
      (load files ⟨Utf8.encode core⟩).map fun config => (config, .file ⟨Utf8.encode core⟩) := by
  simp only [loadFromEnvironment, meaningful?_eq_some_iff.mpr holds, hasCore.trim_eq]
  cases load files ⟨Utf8.encode core⟩ <;> rfl

example : loadFromEnvironment (.withWorkingDirectory [])
    ⟨some (Utf8.bytesOf " a.json\n"), some (Utf8.bytesOf "\x7b\x7d")⟩ =
      .error ⟨["reading thumbnail cache config a.json"], .io (.system .missing)⟩ := by
  decide +kernel

theorem loadFromEnvironment_of_text {json : Option (List UInt8)}
    (noPath : ∀ other, ¬Holds value other) (holds : Holds json text) (files : FileSystem) :
    loadFromEnvironment files ⟨value, json⟩ =
      (within "parsing LEAFCACHE_CONFIG_JSON" (parse .json text)).map fun config =>
        (config, .inline) := by
  simp only [loadFromEnvironment, meaningful?_eq_none_iff.mpr noPath,
    meaningful?_eq_some_iff.mpr holds]
  cases within "parsing LEAFCACHE_CONFIG_JSON" (parse .json text) <;> rfl

theorem loadFromEnvironment_of_nothing {json : Option (List UInt8)}
    (noPath : ∀ text, ¬Holds value text) (noText : ∀ text, ¬Holds json text)
    (files : FileSystem) :
    loadFromEnvironment files ⟨value, json⟩ = .ok (standard, .standard) := by
  simp only [loadFromEnvironment, meaningful?_eq_none_iff.mpr noPath,
    meaningful?_eq_none_iff.mpr noText]

theorem comeFrom_of_loadFromEnvironment {files : FileSystem} {environment : Environment}
    {source : ConfigSource} (found : loadFromEnvironment files environment = .ok (config, source)) :
    config.ComeFrom files environment source := by
  rcases environment with ⟨value, json⟩
  by_cases path : ∃ text, Holds value text
  · rcases path with ⟨text, holds⟩
    have hasCore := Text.hasCore_trim holds.2
    rw [loadFromEnvironment_of_path holds hasCore] at found
    rcases map_eq_ok_iff.mp found with ⟨_, loaded, ⟨⟩⟩
    exact ⟨⟨text, Text.trim text, holds, hasCore, rfl⟩, loaded⟩
  have noPath := not_exists.mp path
  by_cases inline : ∃ text, Holds json text
  · rcases inline with ⟨text, holds⟩
    rw [loadFromEnvironment_of_text noPath holds] at found
    rcases map_eq_ok_iff.mp found with ⟨_, parsed, ⟨⟩⟩
    exact ⟨noPath, text, holds, mapError_eq_ok_iff.mp parsed⟩
  · have noText := not_exists.mp inline
    rw [loadFromEnvironment_of_nothing noPath noText] at found
    cases found
    exact ⟨noPath, noText, rfl⟩

theorem isAccepted_of_comeFrom {files : FileSystem} {environment : Environment}
    {source : ConfigSource} (comeFrom : config.ComeFrom files environment source) :
    config.IsAccepted := by
  cases source with
  | file path => exact isAccepted_of_load comeFrom.2
  | inline =>
    rcases comeFrom.2 with ⟨text, _, parsed⟩
    exact isAccepted_of_parse parsed
  | standard =>
    obtain rfl := comeFrom.2.2
    exact isAccepted_standard

/-- Settings are loaded from one source, and they are valid. -/
theorem loadsSoundly : LoadsSoundly where
  parsed := isAccepted_of_parse
  loaded := isAccepted_of_load
  found result :=
    have comeFrom := comeFrom_of_loadFromEnvironment result
    ⟨isAccepted_of_comeFrom comeFrom, comeFrom⟩
  fromFile {_ text} holds :=
    have hasCore := Text.hasCore_trim holds.2
    ⟨Text.trim text, hasCore, fun files _ => loadFromEnvironment_of_path holds hasCore files⟩
  fromText noPath holds files := loadFromEnvironment_of_text noPath holds files
  fromNothing noPath noText files := loadFromEnvironment_of_nothing noPath noText files

end Config

end Thumbnails
