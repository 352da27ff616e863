import Interpose.Proofs.Moves

set_option autoImplicit false

namespace Interpose

namespace FileTree

/-- A path under which loads know a file. -/
def Loadable (tree : FileTree) (path : FilePath) : Prop :=
  ∃ file, tree.isFile file = true ∧ tree.canonical file = path

theorem isFile_of_fileInside {tree : FileTree} {candidate file : FilePath}
    (h : tree.fileInside candidate = some file) : tree.isFile file = true := by
  unfold fileInside at h
  simp only [Option.ite_none_right_eq_some, Bool.and_eq_true] at h
  exact Option.some.inj h.2 ▸ h.1.2

theorem isFile_of_moduleFile {tree : FileTree} {candidate file : FilePath}
    (h : tree.moduleFile candidate = some file) : tree.isFile file = true := by
  unfold moduleFile at h
  split at h
  next hfile =>
    cases h
    exact hfile
  next =>
    split at h
    · split at h
      next hextended =>
        cases h
        exact hextended
      next => exact isFile_of_fileInside h
    · exact isFile_of_fileInside h

end FileTree

theorem Layout.found_of_resolve {tree : FileTree} {layout : Layout} {specifier : String}
    {requester : Option FilePath} {path : FilePath}
    (h : layout.resolve tree specifier requester = .ok path) : ∃ file,
      (layout.candidates (layout.baseDir tree requester) specifier).findSome? tree.moduleFile =
        some file ∧ tree.isFile file = true ∧ tree.canonical file = path := by
  unfold resolve at h
  cases hfound : (layout.candidates (layout.baseDir tree requester) specifier).findSome?
      tree.moduleFile with
  | none =>
    simp only [hfound] at h
    cases h
  | some file =>
    simp only [hfound] at h
    cases h
    obtain ⟨candidate, _, hcandidate⟩ := List.exists_of_findSome?_eq_some hfound
    exact ⟨file, rfl, FileTree.isFile_of_moduleFile hcandidate, rfl⟩

theorem Layout.loadable_of_resolve {tree : FileTree} {layout : Layout} {specifier : String}
    {requester : Option FilePath} {path : FilePath}
    (h : layout.resolve tree specifier requester = .ok path) : tree.Loadable path := by
  obtain ⟨file, _, hfile⟩ := Layout.found_of_resolve h
  exact ⟨file, hfile⟩

theorem Layout.resolve_error {tree : FileTree} {layout : Layout} {specifier : String}
    {requester : Option FilePath} {error : ModuleError}
    (h : layout.resolve tree specifier requester = .error error) : error = .notFound specifier := by
  unfold resolve at h
  dsimp only at h
  split at h
  · cases h
  · exact (Except.error.inj h).symm

namespace Session.LoadRequest

/-- The path that a request comes to, and the requester on whose behalf it is loaded. -/
def target (tree : FileTree) (layout : Layout) :
    LoadRequest → Except ModuleError (FilePath × Option FilePath)
  | .path file =>
    if tree.isFile file then .ok (tree.canonical file, none) else .error (.notFound file.text)
  | .specifier text requester =>
    match layout.resolve tree text requester with
    | .ok found => .ok (found, requester)
    | .error error => .error error

theorem run_apply (request : LoadRequest) (tree : FileTree) (s : LoadState) :
    request.run tree s =
      match request.target tree s.loader.layout with
      | .ok (found, requester) => Load.atPath tree Load.maxDepth found requester s
      | .error error => (.error (.error error), s) := by
  cases request with
  | path file =>
    simp only [run, target, Load.byPath]
    by_cases hfile : tree.isFile file = true
    · simp only [if_pos hfile]
    · simp only [if_neg hfile]
      rfl
  | specifier text requester =>
    simp only [run, target, Load.bySpecifier]
    rw [Load.bind_of_ok (Load.get_apply s)]
    cases s.loader.layout.resolve tree text requester <;> rfl

/-- The file that a request means, by the path by which it is found. -/
def Means (tree : FileTree) (layout : Layout) : LoadRequest → FilePath → Prop
  | .path asked, file => tree.isFile asked = true ∧ asked = file
  | .specifier text requester, file =>
    (layout.candidates (layout.baseDir tree requester) text).findSome? tree.moduleFile = some file

theorem means_of_target {request : LoadRequest} {tree : FileTree} {layout : Layout}
    {found : FilePath} {requester : Option FilePath}
    (h : request.target tree layout = .ok (found, requester)) :
    ∃ file, request.Means tree layout file ∧ tree.isFile file = true ∧ tree.canonical file = found := by
  cases request with
  | path file =>
    simp only [target] at h
    split at h
    next hfile =>
      cases h
      exact ⟨file, ⟨hfile, rfl⟩, hfile, rfl⟩
    next => cases h
  | specifier text requester =>
    simp only [target] at h
    cases hfound : layout.resolve tree text requester with
    | error error =>
      rw [hfound] at h
      cases h
    | ok found =>
      rw [hfound] at h
      cases h
      exact Layout.found_of_resolve hfound

theorem loadable_target {request : LoadRequest} {tree : FileTree} {layout : Layout}
    {found : FilePath} {requester : Option FilePath}
    (h : request.target tree layout = .ok (found, requester)) : tree.Loadable found := by
  obtain ⟨file, _, hfile⟩ := means_of_target h
  exact ⟨file, hfile⟩

theorem target_error {request : LoadRequest} {tree : FileTree} {layout : Layout}
    {error : ModuleError} (h : request.target tree layout = .error error) :
    ∃ text, error = .notFound text := by
  cases request with
  | path file =>
    simp only [target] at h
    split at h
    · cases h
    · exact ⟨file.text, (Except.error.inj h).symm⟩
  | specifier text requester =>
    simp only [target] at h
    cases hfound : layout.resolve tree text requester with
    | error error =>
      rw [hfound] at h
      cases h
      exact ⟨text, Layout.resolve_error hfound⟩
    | ok found =>
      rw [hfound] at h
      cases h

end Session.LoadRequest

def Host.loading (host : Host) (id : LoaderId) : LoadState := ⟨host.loader id, host.calls⟩

namespace HostM

theorem load_apply {α : Type} (id : LoaderId) (load : FileTree → Load α) (host : Host) :
    HostM.load id load host =
      ((load host.tree (host.loading id)).1,
        { host.setLoader id (load host.tree (host.loading id)).2.loader with
          calls := (load host.tree (host.loading id)).2.calls }) := rfl

theorem load_fst {α : Type} (id : LoaderId) (load : FileTree → Load α) (host : Host) :
    (HostM.load id load host).1 = (load host.tree (host.loading id)).1 := rfl

theorem tree_load {α : Type} (id : LoaderId) (load : FileTree → Load α) (host : Host) :
    (HostM.load id load host).2.tree = host.tree := rfl

theorem loading_load {α : Type} {id : LoaderId} {host : Host} (hid : id < host.loaders.length)
    (load : FileTree → Load α) :
    (HostM.load id load host).2.loading id = (load host.tree (host.loading id)).2 := by
  rw [load_apply]
  exact congrArg (LoadState.mk · _) (Host.loader_setLoader_self hid _)

def loads (id : LoaderId) : List Session.LoadRequest → HostM (List (Outcome ModuleError Module))
  | [] => return []
  | request :: rest => do
    let answer ← load id request.run
    return answer :: (← loads id rest)

theorem loads_cons (id : LoaderId) (request : Session.LoadRequest)
    (rest : List Session.LoadRequest) (host : Host) :
    loads id (request :: rest) host =
      ((load id request.run host).1 :: (loads id rest (load id request.run host).2).1,
        (loads id rest (load id request.run host).2).2) := rfl

theorem loads_concat (id : LoaderId) (requests : List Session.LoadRequest)
    (request : Session.LoadRequest) (host : Host) :
    (loads id (requests ++ [request]) host).2 =
      (load id request.run (loads id requests host).2).2 := by
  induction requests generalizing host with
  | nil => rfl
  | cons first rest ih => exact ih (load id first.run host).2

end HostM

namespace Interceptor

variable {interceptor : Interceptor} {host : Host}

/-- The interceptor can open a scope in which loads go through its stage: nobody holds the slot, or
that stage is in it already. -/
def CanOpen (interceptor : Interceptor) (host : Host) : Prop :=
  (host.loader interceptor.loader).slot.current.owner = none ∨ interceptor.Intercepts host

structure Opens (interceptor : Interceptor) (host entered : Host) : Prop where
  tree : entered.tree = host.tree
  length : entered.loaders.length = host.loaders.length
  loader : ∃ slot, slot.current.stage = interceptor.stage ∧
    entered.loader interceptor.loader = { host.loader interceptor.loader with slot }

theorem CanOpen.activate (h : interceptor.CanOpen host)
    (hknown : interceptor.loader < host.loaders.length) :
    ∃ activation entered, interceptor.activate host = (.ok activation, entered) ∧
      interceptor.Opens host entered := by
  rcases h with hfree | hintercepts
  · refine ⟨_, _, activate_free hfree, rfl, Host.length_setLoader _, ?_⟩
    exact ⟨_, rfl, Host.loader_setLoader_self hknown _⟩
  · refine ⟨_, _, activate_held (isActive_iff.mp hintercepts.active), rfl, rfl, ?_⟩
    exact ⟨_, hintercepts.stage, rfl⟩

end Interceptor

namespace World

theorem tree_move {w w' : World} (h : Move w w') : w'.host.tree = w.host.tree := by
  cases h <;> rfl

theorem tree_step (w : World) (event : Event) : (w.step event).host.tree = w.host.tree := by
  cases event with
  | claim loader owner stage => rfl
  | release loader owner expected k =>
    simp only [step]
    cases w.snapshots[k]? <;> rfl
  | _ => exact tree_move (w.step_move rfl)

theorem tree_run (tree : FileTree) (layouts : List Layout) (events : List Event) :
    ((start tree layouts).run events).host.tree = tree :=
  run_induction (p := fun w => w.host.tree = tree) rfl fun _ hw => (tree_step _ _).trans hw

/-- Nothing is in flight between events. -/
def Idle (w : World) : Prop := ∀ id, (w.loader id).inFlight = []

theorem Idle.move {w w' : World} (hw : w.Idle) (h : Move w w') : w'.Idle := by
  have kept : ∀ {id : LoaderId} {loader : Loader}, loader.inFlight = [] →
      ∀ other, ((w.host.setLoader id loader).loader other).inFlight = [] := by
    intro id loader hloader other
    exact Host.loader_setLoader_of (p := fun loader => loader.inFlight = []) (hw other)
      fun _ => hloader
  cases h with
  | load loader request =>
    intro id
    exact (HostM.extends_load (request.adds_run w.host.tree) loader id).inFlight.trans (hw id)
  | retain loader keep => exact kept (hw loader)
  | filled interceptor holder mem free => exact kept (hw interceptor.loader)
  | deactivated interceptor mem held => exact kept (hw interceptor.loader)
  | finished n activation issued stands => exact kept (hw activation.interceptor.loader)
  | _ => exact hw

theorem Idle.step {w : World} (hw : w.Idle) (event : Event) : (w.step event).Idle := by
  cases event with
  | claim loader owner stage =>
    intro id
    exact Host.loader_setLoader_of (p := fun loader => loader.inFlight = []) (hw id)
      fun _ => hw loader
  | release loader owner expected k =>
    simp only [World.step]
    cases w.snapshots[k]? with
    | none => exact hw
    | some former =>
      intro id
      exact Host.loader_setLoader_of (p := fun loader => loader.inFlight = []) (hw id)
        fun _ => hw loader
  | _ => exact hw.move (w.step_move rfl)

theorem idle_run (tree : FileTree) (layouts : List Layout) (events : List Event) :
    ((start tree layouts).run events).Idle := by
  refine run_induction (fun id => ?_) fun _ hw => hw.step _
  obtain ⟨layout, hlayout⟩ := loader_start tree layouts id
  exact congrArg Loader.inFlight hlayout

end World

end Interpose
