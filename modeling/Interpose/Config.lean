import Interpose.Interception.Policy
import Interpose.Toml.Document

set_option autoImplicit false

namespace Interpose

structure Config where
  policy : PolicySpec
  dependencyDir : String
  entryDir : Option FilePath
  detectEntryDir : Bool
  scriptPaths : List FilePath
  logFilter : String
deriving DecidableEq, Repr

inductive ConfigError where
  | malformed
  | unreadableFile (path : FilePath)
  | malformedFile (path : FilePath)
deriving DecidableEq, Repr

def ConfigError.message : ConfigError → String
  | malformed => "parsing interception configuration"
  | unreadableFile path => "reading configuration from " ++ path.text
  | malformedFile path => "parsing configuration " ++ path.text

namespace Config

def initial : Config :=
  { policy := .name "all"
    dependencyDir := defaultDependencyDir
    entryDir := none
    detectEntryDir := true
    scriptPaths := []
    logFilter := "info" }

def asString : Toml.Value → Option String
  | .string value => some value
  | _ => none

def asBoolean : Toml.Value → Option Bool
  | .boolean value => some value
  | _ => none

def asPath (value : Toml.Value) : Option FilePath := (asString value).map FilePath.mk

def asPaths : Toml.Value → Option (List FilePath)
  | .array items => items.mapM asPath
  | _ => none

def asPolicy : Toml.Value → Option PolicySpec
  | .integer code => some (.code code)
  | .string name => some (.name name)
  | value => (asPaths value).map .paths

/-- The value of an entry, or the one it has when it is missing; nothing if its type is wrong. -/
def entry {α : Type} (table : List (String × Toml.Value)) (name : String)
    (read : Toml.Value → Option α) (absent : α) : Option α :=
  match table.lookup name with
  | none => some absent
  | some value => read value

def ofTable (table : List (String × Toml.Value)) : Option Config := do
  let policy ← entry table "policy" asPolicy initial.policy
  let dependencyDir ← entry table "dependency_dir" asString initial.dependencyDir
  let entryDir ← entry table "entry_dir" (fun value => (asPath value).map some) initial.entryDir
  let detectEntryDir ← entry table "detect_entry_dir" asBoolean initial.detectEntryDir
  let scriptPaths ← entry table "script_paths" asPaths initial.scriptPaths
  let logFilter ← entry table "log_filter" asString initial.logFilter
  return { policy, dependencyDir, entryDir, detectEntryDir, scriptPaths, logFilter }

def ofText? (text : String) : Option Config := (Toml.parse text).bind ofTable

def ofText (text : String) : Except ConfigError Config :=
  match ofText? text with
  | some config => .ok config
  | none => .error .malformed

def rebase (base : FilePath) (config : Config) : Config :=
  { config with
    policy := match config.policy with
      | .paths paths => .paths (paths.map base.join)
      | policy => policy
    entryDir := config.entryDir.map base.join
    scriptPaths := config.scriptPaths.map base.join }

def load (tree : FileTree) (path : FilePath) : Except ConfigError Config :=
  match tree.read path with
  | some (.text text) =>
    match ofText? text with
    | some config =>
      .ok (match path.parent with
        | some dir => config.rebase dir
        | none => config)
    | none => .error (.malformedFile path)
  | _ => .error (.unreadableFile path)

/-- The entry directory for an entry module: the configured one, or else the module's own. -/
def entryDirFor (config : Config) (entryFile : FilePath) : FilePath :=
  (config.entryDir.or (entryFile.parent.filter (·.text != ""))).getD ⟨"."⟩

def layout (config : Config) (tree : FileTree) (entryFile : FilePath) : Layout :=
  let plain :=
    if config.detectEntryDir then Layout.ofEntryDir tree (config.entryDirFor entryFile)
    else Layout.withoutEntryDir
  config.scriptPaths.foldl Layout.withScriptPath
    { plain with dependencyDir := config.dependencyDir }

end Config

end Interpose
