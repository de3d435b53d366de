import ContractBuild.Project.Config
import ContractBuild.Toml.Decode
import ContractBuild.Toml.Document
import ContractBuild.Workspace

/-! Reading configurations: from a text, and from the configuration file in a project's directory.
The values are checked once the whole text is read, in a fixed order, and the first fault is
reported. -/
namespace ContractBuild

/-- Why there is no configuration. -/
inductive ConfigError where
  | read (cause : FileError)
  /-- The text is not well-formed. -/
  | malformed
  /-- A value is missing or of the wrong kind. -/
  | mistyped
  | missing (field : String)
  | invalid (fault : String)
  deriving DecidableEq

namespace ConfigError

/-- The error as it is shown. -/
def message : ConfigError → String
  | read cause => s!"failed to read configuration: {cause.message}"
  | malformed => "failed to parse configuration: not a TOML document"
  | mistyped => "failed to parse configuration: a value is missing or of the wrong kind"
  | missing field => s!"missing required field: {field}"
  | invalid fault => s!"validation error: {fault}"

end ConfigError

namespace Config

open Toml

/-- The compiler section. -/
def readCompiler (value : Value) : Option CompilerSettings :=
  match value.fields? ["binary", "timeout_secs"] with
  | some [binary, timeout] => do
    return {
      binary := ← Value.withDefault? CompilerSettings.default.binary Value.text? binary
      timeout := ← Value.withDefault? CompilerSettings.default.timeout Value.natural? timeout }
  | _ => none

/-- The section of the service. -/
def readRemote (value : Value) : Option RemoteSettings :=
  match value.fields? ["url", "timeout_secs", "fallback_local"] with
  | some [url, timeout, fallbackLocal] => do
    return {
      url := ← Value.required? Value.text? url
      timeout := ← Value.withDefault? RemoteSettings.defaultTimeout Value.natural? timeout
      fallbackLocal := ← Value.withDefault? false Value.bool? fallbackLocal }
  | _ => none

/-- The section of the cache. -/
def readScratch (value : Value) : Option String :=
  match value.fields? ["scratch_dir"] with
  | some [directory] => Value.withDefault? defaultScratch Value.text? directory
  | _ => none

/-- Search paths: a list of texts, or one text alone. -/
def readPaths : Value → Option (List String)
  | .string path => some [path]
  | value => value.listOf? Value.text?

/-- The section of searching. -/
def readSearchPaths (value : Value) : Option (List String) :=
  match value.fields? ["search_paths"] with
  | some [paths] => Value.withDefault? [] readPaths paths
  | _ => none

/-- A rule for metadata. -/
def readSetting (value : Value) : Option StripSetting :=
  match value.fields? ["versions", "hex_len"] with
  | some [versions, hexLength] => do
    return {
      versions := ← Value.required? Value.text? versions
      hexLength := ← Value.required? Value.natural? hexLength }
  | _ => none

/-- The section of metadata. -/
def readStrip (value : Value) : Option (List StripSetting) :=
  match value.fields? ["strip"] with
  | some [rules] => Value.withDefault? [] (Value.listOf? readSetting) rules
  | _ => none

/-- The configuration that a document writes. -/
def ofValue? (value : Value) : Option Config :=
  match value.fields? ["compiler", "remote", "cache", "resolve", "metadata"] with
  | some [compiler, remote, cache, resolve, metadata] => do
    return {
      compiler := ← Value.withDefault? .default readCompiler compiler
      remote := ← Value.withDefault? none (fun value => (readRemote value).map some) remote
      scratch := ← Value.withDefault? defaultScratch readScratch cache
      searchPaths := ← Value.withDefault? [] readSearchPaths resolve
      strip := ← Value.withDefault? [] readStrip metadata }
  | _ => none

/-- Whether a text has nothing but blanks. -/
def isVoid (text : String) : Bool := text.toList.all Text.isBlank

/-- The first fault of a service. -/
def remoteFault? (remote : RemoteSettings) : Option ConfigError :=
  if remote.url = "" then some (.missing "remote.url")
  else if ¬ (remote.url.startsWith "http://" ∨ remote.url.startsWith "https://") then
    some (.invalid s!"remote.url must be an http(s) URL, got '{remote.url}'")
  else if remote.timeout = 0 then some (.invalid "remote.timeout_secs must be positive")
  else none

/-- The first fault of a rule. -/
def settingFault? (setting : StripSetting) : Option ConfigError :=
  match Requirement.parse setting.versions with
  | .error error =>
    some (.invalid s!"metadata.strip versions '{setting.versions}': {error.message}")
  | .ok _ =>
    if setting.hexLength % 2 = 0 then none
    else some (.invalid s!"metadata.strip hex_len must be even, got {setting.hexLength}")

/-- The first fault of a configuration. -/
def fault? (config : Config) : Option ConfigError :=
  if isVoid config.compiler.binary then some (.missing "compiler.binary")
  else if config.compiler.timeout = 0 then some (.invalid "compiler.timeout_secs must be positive")
  else if isVoid config.scratch then some (.missing "cache.scratch_dir")
  else (config.remote.bind remoteFault?).or (config.strip.findSome? settingFault?)

/-- The configuration that a text writes. -/
def ofText (text : String) : Except ConfigError Config :=
  match Toml.parse? text.toList with
  | none => .error .malformed
  | some entries =>
    match ofValue? (.table entries) with
    | none => .error .mistyped
    | some config =>
      match config.fault? with
      | some fault => .error fault
      | none => .ok config

/-- The name of the configuration file in the directory of a project. -/
def fileName : String := "kiln.toml"

/-- The configuration file of a project in a directory. -/
def file (project : Path) : Path := project.join ⟨fileName⟩

/-- The configuration in a file. -/
def loadFile (w : Workspace) (path : Path) : Except ConfigError Config :=
  match w.readText path with
  | .ok text => ofText text
  | .error cause => .error (.read cause)

/-- The configuration of a project in a directory. -/
def load (w : Workspace) (project : Path) : Except ConfigError Config := loadFile w (file project)

/-- The configuration of a project in a directory, or the one that states nothing if there is no
configuration file. -/
def loadOrDefault (w : Workspace) (project : Path) : Except ConfigError Config :=
  if w.isFile (file project) then load w project else .ok default

end Config

end ContractBuild
