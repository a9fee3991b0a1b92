import Thumbnails.Config.JsonText
import Thumbnails.Config.TomlText
import Thumbnails.Files.Operations
import Thumbnails.Text.Blank

/-!
# Sources of settings

Settings come from a text, from a file, or from the environment. The environment names a file or
holds a text itself, and the file has precedence: a problem with it is reported and nothing else is
tried. Whatever the source, settings are validated before they are handed out.
-/

namespace Thumbnails

inductive ConfigProblem where
  | invalid (fault : ConfigFault)
  | io (cause : IoError)
  | json (fault : Json.Fault)
  | toml
  deriving DecidableEq, Repr

/-- A problem with the messages that say where it was met, the outermost first. -/
structure ConfigError where
  context : List String
  problem : ConfigProblem
  deriving DecidableEq, Repr

inductive ConfigFormat where
  | json
  | toml
  deriving DecidableEq, Repr

inductive ConfigSource where
  | standard
  | file (path : Path)
  | inline
  deriving DecidableEq, Repr

/-- The variables of the environment that matter, as bytes. -/
structure Environment where
  configPath : Option (List UInt8)
  configJson : Option (List UInt8)
  deriving DecidableEq, Repr

namespace Config

def read (format : ConfigFormat) (text : List Char) : Except ConfigProblem Config :=
  match format with
  | .json => (ofJson text).mapError .json
  | .toml =>
    match ofToml? text with
    | some config => .ok config
    | none => .error .toml

def parse (format : ConfigFormat) (text : List Char) : Except ConfigProblem Config := do
  let config ← read format text
  config.validate.mapError .invalid

def within (message : String) (result : Except ConfigProblem Config) :
    Except ConfigError Config :=
  result.mapError fun problem => ⟨[message], problem⟩

def lowerByte (byte : UInt8) : UInt8 :=
  if 0x41 ≤ byte ∧ byte ≤ 0x5a then byte + 0x20 else byte

def formatOf (path : Path) : ConfigFormat :=
  if path.extension?.map (·.map lowerByte) = some (Utf8.bytesOf "json") then .json else .toml

def load (files : FileSystem) (path : Path) : Except ConfigError Config := do
  let text ← (files.readText path).mapError fun cause =>
    (⟨["reading thumbnail cache config " ++ path.display], .io cause⟩ : ConfigError)
  within ("parsing " ++ path.display) (parse (formatOf path) text.toList)

/-- The text of a variable, unless it is not set, no text, or blank. -/
def meaningful? (value : Option (List UInt8)) : Option (List Char) := do
  let text ← Utf8.decode? (← value)
  if Text.trim text = [] then none else some text

def loadFromEnvironment (files : FileSystem) (environment : Environment) :
    Except ConfigError (Config × ConfigSource) :=
  match meaningful? environment.configPath with
  | some text => do
    let path : Path := ⟨Utf8.encode (Text.trim text)⟩
    let config ← load files path
    return (config, .file path)
  | none =>
    match meaningful? environment.configJson with
    | some text => do
      let config ← within "parsing LEAFCACHE_CONFIG_JSON" (parse .json text)
      return (config, .inline)
    | none => .ok (standard, .standard)

end Config

end Thumbnails
