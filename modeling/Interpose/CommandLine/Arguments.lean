import Interpose.Path.Basic

set_option autoImplicit false

namespace Interpose.CommandLine

inductive Setting where
  | config
  | policy
  | path
  | replace
  | entryDir
deriving DecidableEq, Repr

def Setting.ofName? (name : String) : Option Setting :=
  if name = "config" then some .config
  else if name = "policy" then some .policy
  else if name = "path" then some .path
  else if name = "replace" then some .replace
  else if name = "entry-dir" then some .entryDir
  else none

def Setting.usage : Setting → String
  | config => "--config <CONFIG>"
  | policy => "--policy <POLICY>"
  | path => "--path <PATH>"
  | replace => "--replace <FROM=TO>"
  | entryDir => "--entry-dir <ENTRY_DIR>"

inductive Mistake where
  | unexpected (argument : String)
  | noValue (argument : String)
  | repeated (setting : Setting)
  | noReplacement (value : String)
  | noEntry
deriving DecidableEq, Repr

def Mistake.message : Mistake → String
  | unexpected argument => "unexpected argument '" ++ argument ++ "' found"
  | noValue argument => "a value is required for '" ++ argument ++ "' but none was supplied"
  | repeated setting => "the argument '" ++ setting.usage ++ "' cannot be used multiple times"
  | noReplacement value =>
    "invalid value '" ++ value ++ "' for '" ++ Setting.replace.usage ++
      "': expected FROM=TO, got '" ++ value ++ "'"
  | noEntry => "the following required arguments were not provided:\n  <ENTRY>"

inductive Instead where
  | help
  | version
  | mistake (mistake : Mistake)
deriving DecidableEq, Repr

structure Arguments where
  entry : FilePath
  config : Option FilePath
  policy : Option String
  paths : List FilePath
  replacements : List (String × String)
  entryDir : Option FilePath
deriving DecidableEq, Repr

structure Draft where
  entry : Option FilePath
  config : Option FilePath
  policy : Option String
  paths : List FilePath
  replacements : List (String × String)
  entryDir : Option FilePath
deriving DecidableEq, Repr

def Draft.empty : Draft := ⟨none, none, none, [], [], none⟩

def splitEquals : List Char → Option (List Char × List Char)
  | [] => none
  | c :: rest =>
    if c = '=' then some ([], rest)
    else (splitEquals rest).map fun (before, behind) => (c :: before, behind)

def splitReplacement? (value : String) : Option (String × String) :=
  (splitEquals value.toList).map fun (value, replacement) =>
    (.ofList value, .ofList replacement)

def pathOf (argument value : String) : Except Instead FilePath :=
  if value = "" then .error (.mistake (.noValue argument)) else .ok ⟨value⟩

def once {α : Type} (setting : Setting) (old : Option α) (value : α) : Except Instead (Option α) :=
  if old.isSome then .error (.mistake (.repeated setting)) else .ok (some value)

def Draft.set (draft : Draft) (setting : Setting) (value : String) : Except Instead Draft :=
  match setting with
  | .config => do
    let config ← once setting draft.config (← pathOf setting.usage value)
    return { draft with config }
  | .policy => do
    let policy ← once setting draft.policy value
    return { draft with policy }
  | .path => do
    let path ← pathOf setting.usage value
    return { draft with paths := draft.paths ++ [path] }
  | .replace =>
    match splitReplacement? value with
    | some pair => return { draft with replacements := draft.replacements ++ [pair] }
    | none => .error (.mistake (.noReplacement value))
  | .entryDir => do
    let entryDir ← once setting draft.entryDir (← pathOf setting.usage value)
    return { draft with entryDir }

def Draft.setEntry (draft : Draft) (value : String) : Except Instead Draft :=
  if draft.entry.isSome then .error (.mistake (.unexpected value))
  else do
    let entry ← pathOf "<ENTRY>" value
    return { draft with entry := some entry }

inductive Shape where
  | endOfOptions
  | long (name : String) (value : Option String)
  | short (letters : List Char)
  | plain
deriving DecidableEq, Repr

def shapeOf (argument : String) : Shape :=
  match argument.toList with
  | ['-', '-'] => .endOfOptions
  | '-' :: '-' :: rest =>
    match splitEquals rest with
    | some (name, value) => .long (.ofList name) (some (.ofList value))
    | none => .long (.ofList rest) none
  | '-' :: letter :: rest => .short (letter :: rest)
  | _ => .plain

def flag (argument : String) (isHelp isVersion plain : Bool) : Instead :=
  if isHelp && plain then .help
  else if isVersion && plain then .version
  else .mistake (.unexpected argument)

/-- Reads arguments; after the end of the options every one of them is the entry module. -/
def read (ended : Bool) (draft : Draft) : List String → Except Instead Draft
  | [] => .ok draft
  | argument :: rest =>
    if ended then do read true (← draft.setEntry argument) rest
    else
      match shapeOf argument with
      | .plain => do read false (← draft.setEntry argument) rest
      | .endOfOptions => read true draft rest
      | .short letters =>
        .error (flag argument (letters.head? == some 'h') (letters.head? == some 'V') true)
      | .long name value =>
        match Setting.ofName? name, value with
        | none, value => .error (flag argument (name == "help") (name == "version") value.isNone)
        | some setting, some value => do read false (← draft.set setting value) rest
        | some setting, none =>
          match rest with
          | [] => .error (.mistake (.noValue setting.usage))
          | value :: rest =>
            if shapeOf value = .plain then do read false (← draft.set setting value) rest
            else .error (.mistake (.noValue setting.usage))

def parse (arguments : List String) : Except Instead Arguments := do
  let draft ← read false .empty arguments
  match draft.entry with
  | none => .error (.mistake .noEntry)
  | some entry =>
    return ⟨entry, draft.config, draft.policy, draft.paths, draft.replacements, draft.entryDir⟩

end Interpose.CommandLine
