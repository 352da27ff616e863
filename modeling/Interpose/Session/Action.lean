import Interpose.FileTree.Change
import Interpose.Session.Answer

set_option autoImplicit false

namespace Interpose.Session

abbrev ActM := ExceptT Answer SessionM

def need {α : Type} (handle : Handle) (table : Names → Table α) (name : String) : ActM α := do
  match (table (← getThe Names)).lookup name with
  | some value => return value
  | none => throw (.missing handle)

def onHost {α : Type} (action : HostM α) : ActM α := ExceptT.lift (StateT.lift action)

def changeNames (change : Names → Names) : ActM Unit := modifyThe Names change

def takeToken (name : String) : ActM Activation := do
  let token ← need .token Names.tokens name
  changeNames fun names => { names with tokens := names.tokens.without name }
  return token

def takeGuard (name : String) : ActM ScopeGuard := do
  let guard ← need .guard Names.guards name
  changeNames fun names => { names with guards := names.guards.without name }
  return guard

def takeFuture (name : String) : ActM (ScopedWork Work) := do
  let future ← need .future Names.futures name
  changeNames fun names => { names with futures := names.futures.without name }
  return future

/-- Stores a guard under a name; one that was there is dropped. -/
def storeGuard (name : String) (guard : ScopeGuard) : ActM Unit := do
  let old := (← getThe Names).guards.lookup name
  changeNames fun names => { names with guards := names.guards.put name guard }
  if let some old := old then onHost old.drop

/-- Stores a future under a name; one that was there is dropped. -/
def storeFuture (name : String) (future : ScopedWork Work) : ActM Unit := do
  let old := (← getThe Names).futures.lookup name
  changeNames fun names => { names with futures := names.futures.put name future }
  if let some old := old then onHost old.drop

def storeLoader (name : String) (layout : Layout) : ActM Answer := do
  let id ← onHost (HostM.newLoader layout)
  changeNames fun names => { names with loaders := names.loaders.put name id }
  return .layout layout

def load (loader : String) (name : Option String) (load : FileTree → Load Module) :
    ActM Answer := do
  let id ← need .loader Names.loaders loader
  match ← onHost (HostM.load id load) with
  | .ok module =>
    if let some name := name then
      changeNames fun names => { names with modules := names.modules.put name module }
    return .module module
  | .error (.error error) => return .moduleError error
  | .error (.panic message) => return .panicked message

def LoadRequest.run (request : LoadRequest) (tree : FileTree) : Load Module :=
  match request with
  | .path file => Load.byPath tree file
  | .specifier text requester => Load.bySpecifier tree text requester

def currentLoader (name : String) : ActM Loader := do
  let id ← need .loader Names.loaders name
  return (← getThe Host).loader id

def changeTree (change : FileTree → FileTree) : ActM Unit :=
  onHost (modify fun host => { host with tree := change host.tree })

def newLoader (entryDir : Option FilePath) (dependencyDir : Option String)
    (scriptPaths : List FilePath) (name : String) : ActM Answer := do
  let tree := (← getThe Host).tree
  let plain := match entryDir with
    | some dir => Layout.ofEntryDir tree dir
    | none => Layout.withoutEntryDir
  let layout := { plain with dependencyDir := dependencyDir.getD plain.dependencyDir }
  storeLoader name (scriptPaths.foldl Layout.withScriptPath layout)

def readConfig (source : ConfigSource) (base : Option FilePath) (name : String) :
    ActM Answer := do
  let tree := (← getThe Host).tree
  let read := match source with
    | .file path => Config.load tree path
    | .text toml => Config.ofText toml
  match read with
  | .error error => return .configError error
  | .ok config =>
    let config := match base with
      | some base => config.rebase base
      | none => config
    changeNames fun names => { names with configs := names.configs.put name config }
    return .config config (Policy.ofSpec tree config.policy)

/-- Builds an interceptor under a name. A policy that is refused is answered before the loader is
looked for. -/
def newInterceptor (loader : String) (policy : PolicySpec) (transformer : Edit.Transformer)
    (name : String) : ActM Answer := do
  let tree := (← getThe Host).tree
  match Policy.ofSpec tree policy with
  | .error error => return .interceptError error
  | .ok policy =>
    let id ← need .loader Names.loaders loader
    match ← onHost (Interceptor.new id policy transformer) with
    | .error error => return .interceptError error
    | .ok interceptor =>
      changeNames fun names =>
        { names with interceptors := names.interceptors.put name interceptor }
      return .interceptor interceptor.id policy

def activate (interceptor name : String) : ActM Answer := do
  let interceptor ← need .interceptor Names.interceptors interceptor
  match ← onHost interceptor.activate with
  | .error error => return .interceptError error
  | .ok token =>
    changeNames fun names => { names with tokens := names.tokens.put name token }
    return .activated token.stage token.fresh

def compile (loader : String) (request : StageInput) (snapshot name : Option String) :
    ActM Answer := do
  let installed ← match snapshot with
    | some snapshot => need .snapshot Names.snapshots snapshot
    | none => pure (← currentLoader loader).slot.current
  load loader name fun tree => Load.compileBy tree installed.stage request

def perform : Action → ActM Answer
  | .write path content => do
    changeTree (·.write path content)
    return .nothing
  | .remove path => do
    changeTree (·.remove path)
    return .nothing
  | .newLoader entryDir dependencyDir scriptPaths name =>
    newLoader entryDir dependencyDir scriptPaths name
  | .readConfig source base name => readConfig source base name
  | .loaderOf config entryFile name => do
    let config ← need .config Names.configs config
    storeLoader name (config.layout (← getThe Host).tree entryFile)
  | .load loader request name => load loader name request.run
  | .resolve loader specifier requester => do
    let loader ← currentLoader loader
    match loader.layout.resolve (← getThe Host).tree specifier requester with
    | .ok path => return .path path
    | .error error => return .moduleError error
  | .cached loader path => do
    match (← currentLoader loader).cache.get? path.keyed with
    | some module => return .module module
    | none => return .nothing
  | .cacheKeys loader => return .paths (← currentLoader loader).cache.keys.toList
  | .evict loader path => do
    let id ← need .loader Names.loaders loader
    return .flag ((← onHost (HostM.retain id (! ·.same path))) != 0)
  | .retain loader keep => do
    let id ← need .loader Names.loaders loader
    return .count (← onHost (HostM.retain id fun key => keep.any key.isWithin))
  | .lookup module name => return .exported ((← need .module Names.modules module).get? name)
  | .exportsJson module => do
    return .text (← need .module Names.modules module).toJson.compact
  | .snapshot loader name => do
    let current := (← currentLoader loader).slot.current
    changeNames fun names => { names with snapshots := names.snapshots.put name current }
    return .installed current.id current.owner
  | .claim loader owner stage => do
    let id ← need .loader Names.loaders loader
    match ← onHost (HostM.onSlot id (·.claim owner stage.stage)) with
    | .ok claim => return .claimed claim
    | .error holder => return .heldBy holder
  | .release loader owner expected snapshot => do
    let former ← need .snapshot Names.snapshots snapshot
    let id ← need .loader Names.loaders loader
    return .flag (← onHost (HostM.onSlot id (·.release owner expected former)))
  | .compile loader request snapshot name => compile loader request snapshot name
  | .newInterceptor loader policy transformer name =>
    newInterceptor loader policy transformer name
  | .transformed interceptor => do
    let interceptor ← need .interceptor Names.interceptors interceptor
    return .texts ((← getThe Host).sourcesOf interceptor.id)
  | .isActive interceptor => do
    let interceptor ← need .interceptor Names.interceptors interceptor
    return .flag (interceptor.isActive (← getThe Host))
  | .deactivate interceptor => do
    let interceptor ← need .interceptor Names.interceptors interceptor
    return .flag (← onHost interceptor.deactivate)
  | .activate interceptor name => activate interceptor name
  | .restore token => return .flag (← onHost (← takeToken token).restore)
  | .forget token => do
    let _ ← takeToken token
    return .nothing
  | .guard token name => do
    let token ← takeToken token
    storeGuard name ⟨token⟩
    return .nothing
  | .releaseGuard guard => return .flag (← onHost (← takeGuard guard).release)
  | .dropGuard guard => do
    onHost (← takeGuard guard).drop
    return .nothing
  | .dropFuture future => do
    onHost (← takeFuture future).drop
    return .nothing

end Interpose.Session
