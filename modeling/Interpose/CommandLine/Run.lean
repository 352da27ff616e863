import Interpose.CommandLine.Arguments
import Interpose.Config
import Interpose.Diagnostic
import Interpose.Interception.Scope
import Interpose.Edit.Stock

/-!
The program: it loads an entry module while interception is active and prints what the module
exports.
-/

set_option autoImplicit false

namespace Interpose.CommandLine

structure Outcome where
  exit : Nat
  output : String
  errors : String
deriving DecidableEq, Repr

def programName : String := "solvra-intercept"

def usageLine : String := "Usage: " ++ programName ++ " [OPTIONS] <ENTRY>\n"

def helpText : String :=
  "Loads a SolvraScript module (.svs) with load-time source rewriting.\n\n" ++ usageLine ++
  "\nArguments:\n" ++
  "  <ENTRY>  Entry module to load\n" ++
  "\nOptions:\n" ++
  "      --config <CONFIG>        TOML configuration file\n" ++
  "      --policy <POLICY>        Policy name or code: all (3), no-dependencies (1), " ++
    "top-level-dependencies (2)\n" ++
  "      --path <PATH>            Rewrite only these module paths. Overrides --policy\n" ++
  "      --replace <FROM=TO>      Replace string literal FROM with TO in eligible modules\n" ++
  "      --entry-dir <ENTRY_DIR>  Entry directory used to classify dependencies\n" ++
  "  -h, --help                   Print help\n" ++
  "  -V, --version                Print version\n"

def Instead.outcome : Instead → Outcome
  | .help => ⟨0, helpText, ""⟩
  | .version => ⟨0, programName ++ " " ++ Interpose.version ++ "\n", ""⟩
  | .mistake cause =>
    ⟨2, "", "error: " ++ cause.message ++ "\n\n" ++ usageLine ++
      "\nFor more information, try '--help'.\n"⟩

def policyOf (text : String) : PolicySpec :=
  match Text.parseInt64? text with
  | some code => .code code
  | none => .name text

/-- The configuration with what the arguments say instead. Paths count more than a policy. -/
def Arguments.amend (arguments : Arguments) (config : Config) : Config :=
  let named := match arguments.policy with
    | some policy => policyOf policy
    | none => config.policy
  { config with
    policy := if arguments.paths.isEmpty then named else .paths arguments.paths
    entryDir := arguments.entryDir.or config.entryDir }

def Arguments.readConfig (arguments : Arguments) (tree : FileTree) : Except ConfigError Config :=
  match arguments.config with
  | some path => Config.load tree path
  | none => .ok .initial

def load (entry : FilePath) (layout : Layout) (policy : Policy)
    (transformer : Edit.Transformer) :
    HostM (Except InterceptError (Interpose.Outcome ModuleError Module)) := do
  let loader ← HostM.newLoader layout
  match ← Interceptor.new loader policy transformer with
  | .error error => return .error error
  | .ok interceptor =>
    let work : HostedM Unit (Interpose.Outcome ModuleError Module) :=
      HostM.load loader fun tree => Load.byPath tree entry
    return (← (interceptor.withScope work).run ()).1

def exportsOf (tree : FileTree) (arguments : Arguments) (config : Config) :
    Except Diagnostic Json :=
  match Policy.ofSpec tree config.policy with
  | .error error => .error (.ofIntercept error)
  | .ok policy =>
    let layout := config.layout tree arguments.entry
    let transformer := Edit.replaceStrings arguments.replacements
    match ((load arguments.entry layout policy transformer).run (.start tree)).1 with
    | .error error => .error (.ofIntercept error)
    | .ok (.error (.error error)) => .error (.ofModule error)
    -- Replacing strings never panics.
    | .ok (.error (.panic message)) => .error ⟨.evaluation, message⟩
    | .ok (.ok module) => .ok module.toJson

def run (tree : FileTree) (arguments : List String) : Outcome :=
  match parse arguments with
  | .error instead => instead.outcome
  | .ok arguments =>
    match arguments.readConfig tree with
    | .error error => ⟨1, "", "Error: " ++ error.message ++ "\n"⟩
    | .ok config =>
      match exportsOf tree arguments (arguments.amend config) with
      | .ok exports => ⟨0, exports.pretty 0 ++ "\n", ""⟩
      | .error error =>
        ⟨1, "", "error[" ++ error.code.text ++ "]: " ++ error.message ++ "\n"⟩

end Interpose.CommandLine
