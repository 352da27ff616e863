import Interpose.Proofs.Failures
import Interpose.Proofs.Leftovers
import Interpose.Proofs.Rewritten
import Interpose.Proofs.Sight

set_option autoImplicit false

namespace Interpose

/-- What loads make of an empty cache: all entries are under the paths of their modules, which loads
know files under, and no two of these count as the same. -/
structure Cache.Tidy (cache : Cache) (tree : FileTree) : Prop where
  keyed : cache.Keyed
  loadable : ∀ entry ∈ cache, tree.Loadable entry.1.path
  distinct : cache.Pairwise fun a b => a.1.same b.1 = false

namespace Cache

variable {cache part : Cache} {tree : FileTree}

theorem tidy_nil : Tidy [] tree :=
  ⟨fun _ he => (List.not_mem_nil he).elim, fun _ he => (List.not_mem_nil he).elim, .nil⟩

theorem Tidy.sublist (h : cache.Tidy tree) (hpart : part.Sublist cache) : part.Tidy tree :=
  ⟨fun entry he => h.keyed entry (hpart.subset he),
    fun entry he => h.loadable entry (hpart.subset he), h.distinct.sublist hpart⟩

theorem Tidy.eq_of_same (h : cache.Tidy tree) {entry other : KeyedPath × Module}
    (he : entry ∈ cache) (hother : other ∈ cache) (hsame : entry.1.same other.1 = true) :
    entry = other := by
  by_contra hne
  have : Std.Symm fun a b : KeyedPath × Module => a.1.same b.1 = false :=
    ⟨fun a b hab => (b.1.same_comm a.1).trans hab⟩
  have hdiffer := h.distinct.forall he hother hne
  rw [hsame] at hdiffer
  cases hdiffer

theorem Tidy.get?_sublist (h : cache.Tidy tree) (hpart : part.Sublist cache) {path : KeyedPath}
    {module kept : Module} (hmodule : cache.get? path = some module)
    (hkept : part.get? path = some kept) : kept = module := by
  obtain ⟨key, hmem, hsame⟩ := mem_of_get? hmodule
  obtain ⟨key', hmem', hsame'⟩ := mem_of_get? hkept
  rw [KeyedPath.same_iff] at hsame hsame'
  have hentry := h.eq_of_same (hpart.subset hmem') hmem
    ((KeyedPath.same_iff _ _).mpr (hsame'.trans hsame.symm))
  exact congrArg Prod.snd hentry

end Cache

namespace LoadCall

variable {tree : FileTree} {call importer first : LoadCall} {outer : List LoadCall}

theorem id_of_run (huncached : call.cached = none) {module : Module}
    (h : (call.run tree).1 = .ok module) : module.id = call.path := by
  obtain ⟨below, t, _, _, hcompile⟩ := compileFile_of_run huncached h
  exact Load.id_of_compileFile hcompile

theorem keep_tidy (tree : FileTree) :
    Keep (fun call => tree.Loadable call.path) tree fun cache => cache.Tidy tree := by
  intro call module cache hcall huncached hrun hnew hcache
  have hadded : ∀ entry ∈ cache ++ [(call.path.keyed, module)],
      entry ∈ cache ∨ entry = (call.path.keyed, module) :=
    fun entry he => (List.mem_append.mp he).imp_right List.mem_singleton.mp
  refine ⟨fun entry he => ?_, fun entry he => ?_, ?_⟩
  · rcases hadded entry he with he | rfl
    · exact hcache.keyed entry he
    · exact id_of_run huncached hrun
  · rcases hadded entry he with he | rfl
    · exact hcache.loadable entry he
    · exact hcall
  · refine List.pairwise_append.mpr ⟨hcache.distinct, List.pairwise_singleton _ _, ?_⟩
    intro entry he other hother
    rw [List.mem_singleton.mp hother]
    exact (Cache.get?_eq_none_iff _ _).mp hnew entry he

theorem Imports.kept (h : importer.Imports tree call) :
    (importer.run tree).2.loader.cache.Extends (call.run tree).2.loader.cache := by
  obtain ⟨below, next, hnext, hrun, hcompile⟩ := h.compiling
  rw [hrun]
  refine (Load.extends_compiled importer.start).trans ?_
  rw [hcompile]
  rcases hcall : call.run tree with ⟨halt | module, t⟩
  · rw [Load.bind_of_error hcall]
    exact .refl _
  · rw [Load.bind_of_ok hcall]
    exact (hnext module t).cache

theorem Nested.kept (h : Nested tree first outer call) :
    (first.run tree).2.loader.cache.Extends (call.run tree).2.loader.cache := by
  induction h with
  | start => exact .refl _
  | imported _ imports ih => exact ih.trans imports.kept

end LoadCall

namespace World

theorem cache_step (w : World) (event : Event) :
    (∃ loader, ∃ request : Session.LoadRequest,
      w.step event = { w with host := (HostM.load loader request.run w.host).2 }) ∨
      ∀ id, ((w.step event).loader id).cache.Sublist (w.loader id).cache := by
  cases event with
  | claim loader owner stage =>
    refine .inr fun id => ?_
    exact Host.loader_setLoader_of (p := fun loader => loader.cache.Sublist (w.loader id).cache)
      (List.Sublist.refl _) fun hid => hid ▸ List.Sublist.refl _
  | release loader owner expected k =>
    simp only [World.step]
    cases w.snapshots[k]? with
    | none => exact .inr fun id => List.Sublist.refl _
    | some former =>
      refine .inr fun id => ?_
      exact Host.loader_setLoader_of (p := fun loader => loader.cache.Sublist (w.loader id).cache)
        (List.Sublist.refl _) fun hid => hid ▸ List.Sublist.refl _
  | _ => exact (w.step_move rfl).cache_sublist

section Tidy

variable {tree : FileTree}

theorem tidy_request {s : LoadState} (h : s.loader.cache.Tidy tree)
    (request : Session.LoadRequest) : (request.run tree s).2.loader.cache.Tidy tree := by
  rw [request.run_apply]
  cases htarget : request.target tree s.loader.layout with
  | error error => exact h
  | ok target =>
    obtain ⟨path, requester⟩ := target
    let call : LoadCall := ⟨Load.maxDepth, path, requester, s⟩
    have hrun : (call.run tree).2.loader.cache.Tidy tree :=
      kept_run (fun _ himports => himports.loadable) (LoadCall.keep_tidy tree)
        (Session.LoadRequest.loadable_target htarget) h
    simp only [call, LoadCall.run] at hrun
    exact hrun

/-- What every run keeps: the tree, the number of loaders, and that the caches are tidy. -/
structure Orderly (w : World) (tree : FileTree) (loaders : ℕ) : Prop where
  tree_eq : w.host.tree = tree
  length_eq : w.host.loaders.length = loaders
  tidy : ∀ id, (w.loader id).cache.Tidy tree

theorem orderly_start (tree : FileTree) (layouts : List Layout) :
    (start tree layouts).Orderly tree layouts.length :=
  ⟨rfl, List.length_map _, fun id => (cache_start tree layouts id).symm ▸ Cache.tidy_nil⟩

theorem Orderly.step {w : World} {loaders : ℕ} (h : w.Orderly tree loaders) (event : Event) :
    (w.step event).Orderly tree loaders := by
  obtain ⟨rfl, rfl, htidy⟩ := h
  refine ⟨tree_step w event, length_step w event, fun id => ?_⟩
  rcases cache_step w event with ⟨loader, request, hload⟩ | hsublist
  · rw [hload]
    exact Host.loader_setLoader_of (p := fun loader => loader.cache.Tidy w.host.tree) (htidy id)
      fun hid => hid ▸ tidy_request (s := w.host.loading id) (htidy id) request
  · exact (htidy id).sublist (hsublist id)

theorem Orderly.run {w : World} {loaders : ℕ} (h : w.Orderly tree loaders) (events : List Event) :
    (w.run events).Orderly tree loaders :=
  run_induction (p := fun w => w.Orderly tree loaders) h fun _ hw => hw.step _

end Tidy

/-- None of the events drops what is cached under the path. -/
def Retains (w : World) (id : LoaderId) (path : FilePath) (events : List Event) : Prop :=
  ∀ before event, before ++ [event] <+: events →
    ((w.run before).loader id).cache.get? path.keyed ≠ none →
      (((w.run before).step event).loader id).cache.get? path.keyed ≠ none

theorem retains_of_loads {events : List Event}
    (h : ∀ event ∈ events, ∃ loader request, event = .load loader request) (w : World)
    (id : LoaderId) (path : FilePath) : w.Retains id path events := by
  intro before event hwithin hcached
  obtain ⟨loader, request, rfl⟩ := h event (hwithin.subset (by simp))
  obtain ⟨module, hmodule⟩ := Option.ne_none_iff_exists'.mp hcached
  have hextends := HostM.extends_load (request.adds_run (w.run before).host.tree) loader id
  exact Option.ne_none_iff_exists'.mpr ⟨module, hextends.cache.get? hmodule⟩

section Retains

variable {tree : FileTree} {loaders : ℕ} {w : World} {id : LoaderId} {path : FilePath}
  {module : Module}

theorem get?_step (htidy : (w.loader id).cache.Tidy tree) (event : Event)
    (hmodule : (w.loader id).cache.get? path.keyed = some module)
    (hcached : ((w.step event).loader id).cache.get? path.keyed ≠ none) :
    ((w.step event).loader id).cache.get? path.keyed = some module := by
  rcases cache_step w event with ⟨loader, request, hload⟩ | hsublist
  · rw [hload]
    exact (HostM.extends_load (request.adds_run w.host.tree) loader id).cache.get? hmodule
  · obtain ⟨kept, hkept⟩ := Option.ne_none_iff_exists'.mp hcached
    rw [hkept, htidy.get?_sublist (hsublist id) hmodule hkept]

theorem Retains.get? {events : List Event} (h : w.Retains id path events)
    (hw : w.Orderly tree loaders)
    (hmodule : (w.loader id).cache.get? path.keyed = some module) :
    ((w.run events).loader id).cache.get? path.keyed = some module := by
  induction events using List.reverseRecOn with
  | nil => exact hmodule
  | append_singleton before event ih =>
    have hbefore := ih fun earlier last hwithin =>
      h earlier last (hwithin.trans (List.prefix_append before [event]))
    rw [run_concat]
    exact get?_step ((hw.run before).tidy id) event hbefore
      (h before event (List.prefix_refl _) (hbefore ▸ Option.some_ne_none module))

end Retains

/-- One of the loads that a request consists of: that of the path which it comes to, or one for an
import. -/
def Performs (w : World) (id : LoaderId) (request : Session.LoadRequest) (call : LoadCall) : Prop :=
  ∃ path requester outer,
    request.target w.host.tree (w.loader id).layout = .ok (path, requester) ∧
      LoadCall.Nested w.host.tree ⟨Load.maxDepth, path, requester, w.host.loading id⟩ outer call

/-- The module is cached under the path, and nothing else is under a path in sight of the same
file. -/
structure HoldsOnly (w : World) (id : LoaderId) (path : FilePath) (module : Module) : Prop where
  held : (path.keyed, module) ∈ (w.loader id).cache
  only : ∀ entry ∈ (w.loader id).cache, w.host.tree.InSight entry.1.path →
    w.host.tree.placeAt entry.1.path = w.host.tree.placeAt path → entry = (path.keyed, module)

section Performs

variable {w : World} {id : LoaderId} {request : Session.LoadRequest} {call : LoadCall}
  {path : FilePath} {module : Module}

theorem Performs.loadable (h : w.Performs id request call) :
    w.host.tree.Loadable call.path := by
  obtain ⟨path, requester, outer, htarget, hnested⟩ := h
  exact hnested.loadable (Session.LoadRequest.loadable_target htarget) _ List.mem_cons_self

theorem Performs.slot (h : w.Performs id request call) :
    call.start.loader.slot = (w.loader id).slot := by
  obtain ⟨path, requester, outer, htarget, hnested⟩ := h
  exact hnested.slot

theorem Performs.layout (h : w.Performs id request call) :
    call.start.loader.layout = (w.loader id).layout := by
  obtain ⟨path, requester, outer, htarget, hnested⟩ := h
  exact hnested.layout

theorem Performs.asked (h : w.Performs id request call) : ∃ asked : Session.LoadRequest,
    asked.target w.host.tree (w.loader id).layout = .ok (call.path, call.requester) := by
  obtain ⟨path, requester, outer, htarget, hnested⟩ := h
  cases hnested with
  | start => exact ⟨request, htarget⟩
  | imported within imports =>
    obtain ⟨asked, hasked⟩ := imports.asked
    rw [within.layout] at hasked
    exact ⟨asked, hasked⟩

theorem Performs.cached (h : w.Performs id request call) (hid : id < w.host.loaders.length)
    (hrun : (call.run w.host.tree).1 = .ok module) :
    ((w.step (.load id request)).loader id).cache.get? call.path.keyed = some module := by
  obtain ⟨path, requester, outer, htarget, hnested⟩ := h
  have hloading : (w.step (.load id request)).loader id =
      (request.run w.host.tree (w.host.loading id)).2.loader :=
    congrArg LoadState.loader (HostM.loading_load hid request.run)
  have htarget : request.target w.host.tree (w.host.loading id).loader.layout =
      .ok (path, requester) := htarget
  have hfinal := hnested.kept.get? (Load.atPath_ok (Prod.ext hrun rfl))
  simp only [LoadCall.run] at hfinal
  rw [hloading, request.run_apply, htarget]
  exact hfinal

theorem performs_own {requester : Option FilePath}
    (htarget : request.target w.host.tree (w.loader id).layout = .ok (path, requester)) :
    let call : LoadCall := ⟨Load.maxDepth, path, requester, w.host.loading id⟩
    w.Performs id request call ∧
      (call.run w.host.tree).1 = (HostM.load id request.run w.host).1 := by
  refine ⟨⟨path, requester, [], htarget, .start⟩, ?_⟩
  rw [HostM.load_fst, request.run_apply,
    show request.target w.host.tree (w.host.loading id).loader.layout = _ from htarget]
  simp only [LoadCall.run]

variable (hdir : ∀ name ∈ w.host.tree.workingDir, IsName name)

include hdir

theorem holdsOnly_of_get? (htidy : (w.loader id).cache.Tidy w.host.tree)
    (hpath : w.host.tree.Loadable path) (hsight : w.host.tree.InSight path)
    (hfound : (w.loader id).cache.get? path.keyed = some module) : w.HoldsOnly id path module := by
  obtain ⟨key, hmem, hsame⟩ := Cache.mem_of_get? hfound
  have hkey := htidy.loadable _ hmem
  rw [KeyedPath.same_eq] at hsame
  have hpathOf : key.path = path := hpath.eq_of_same hdir hsight hkey hsame
  have hheld : (path.keyed, module) ∈ (w.loader id).cache := by
    rw [← hpathOf, key.keyed_path]
    exact hmem
  refine ⟨hheld, fun entry he hsight' hplace => htidy.eq_of_same he hheld ?_⟩
  have hentry := hpath.eq_of_placeAt hdir hsight (htidy.loadable entry he) hsight' hplace
  rw [KeyedPath.same_eq, hentry]
  exact beq_self_eq_true _

end Performs

namespace Orderly

variable {tree : FileTree} {loaders : ℕ} {w : World} {id : LoaderId} {path : FilePath}
  {module : Module} {request : Session.LoadRequest} {call : LoadCall}
  (hw : w.Orderly tree loaders)

include hw

theorem holdsOnly (hdir : ∀ name ∈ tree.workingDir, IsName name) (hpath : tree.Loadable path)
    (hsight : tree.InSight path) (hfound : (w.loader id).cache.get? path.keyed = some module) :
    w.HoldsOnly id path module := by
  have htidy := hw.tidy id
  rw [← hw.tree_eq] at hdir hpath hsight htidy
  exact holdsOnly_of_get? hdir htidy hpath hsight hfound

theorem yields (hid : id < loaders) (hperforms : w.Performs id request call)
    (hrun : (call.run tree).1 = .ok module) :
    tree.Loadable call.path ∧
      ((w.step (.load id request)).loader id).cache.get? call.path.keyed = some module := by
  rw [← hw.length_eq] at hid
  rw [← hw.tree_eq] at hrun ⊢
  exact ⟨hperforms.loadable, hperforms.cached hid hrun⟩

/-- A load of a file that is held yields what is held. -/
theorem yields_held {held : Module} (hid : id < loaders) (hperforms : w.Performs id request call)
    (hrun : (call.run tree).1 = .ok module) (hone : tree.Loadable call.path → call.path = path)
    (hheld : ((w.step (.load id request)).loader id).cache.get? path.keyed = some held) :
    call.path = path ∧ module = held := by
  obtain ⟨hpath, hcached⟩ := hw.yields hid hperforms hrun
  rw [hone hpath] at hcached
  exact ⟨hone hpath, Option.some.inj (hcached.symm.trans hheld)⟩

end Orderly

/-- Every path that a specifier resolves to is that of a file. It has no link on it and resolves to
itself from everywhere, where the path by which the file is found is in sight; where it is not, it
stays as it is. So is every path under which something is cached, and it is the path of the module
there; no two entries have paths that count as the same. Any two loads of a file by paths in sight, by
whatever requests or imports they come about, yield one module as long as it is not dropped between
them, and leave one entry for the file under such paths. In a shallow tree, all files are in sight. -/
theorem one_entry (tree : FileTree) (hdir : ∀ name ∈ tree.workingDir, IsName name)
    (layouts : List Layout) (events : List Event) :
    let w := (start tree layouts).run events
    (tree.Shallow → ∀ path, tree.isFile path = true → tree.InSight path) ∧
    (∀ (layout : Layout) (specifier : String) (requester : Option FilePath) (path : FilePath),
      layout.resolve tree specifier requester = .ok path →
        ∃ file, (Session.LoadRequest.specifier specifier requester).Means tree layout file ∧
          tree.Known file path) ∧
    (∀ id, (w.loader id).cache.Pairwise (fun a b => a.1.same b.1 = false) ∧
      ∀ entry ∈ (w.loader id).cache, entry.2.id = entry.1.path ∧
        ∃ file, tree.isFile file = true ∧ tree.Known file entry.1.path) ∧
    ∀ id < layouts.length, ∀ (first : Session.LoadRequest) (call : LoadCall) (module : Module),
      w.Performs id first call → (call.run tree).1 = .ok module → tree.InSight call.path →
      let loaded := w.step (.load id first)
      loaded.HoldsOnly id call.path module ∧
      ∀ (other : LoadCall) (module' : Module), (other.run tree).1 = .ok module' →
        tree.InSight other.path → tree.placeAt other.path = tree.placeAt call.path →
        (w.Performs id first other → other.path = call.path ∧ module' = module) ∧
        ∀ (between : List Event) (second : Session.LoadRequest),
          loaded.Retains id call.path between → (loaded.run between).Performs id second other →
            other.path = call.path ∧ module' = module ∧
              ((loaded.run between).step (.load id second)).HoldsOnly id call.path module := by
  intro w
  have hw : w.Orderly tree layouts.length := (orderly_start tree layouts).run events
  refine ⟨fun htree path hfile => htree.inSight hfile, ?_, ?_, ?_⟩
  · intro layout specifier requester path hresolve
    obtain ⟨file, hmeans, hfile, rfl⟩ := Layout.found_of_resolve hresolve
    exact ⟨file, hmeans, FileTree.known_canonical hdir hfile⟩
  · intro id
    have hcache := hw.tidy id
    refine ⟨hcache.distinct, fun entry he => ⟨hcache.keyed entry he, ?_⟩⟩
    obtain ⟨file, hfile, hcanonical⟩ := hcache.loadable entry he
    exact ⟨file, hfile, hcanonical ▸ FileTree.known_canonical hdir hfile⟩
  intro id hid first call module hperforms hrun hsight loaded
  have hloaded : loaded.Orderly tree layouts.length := hw.step _
  obtain ⟨hpath, hcached⟩ := hw.yields hid hperforms hrun
  refine ⟨hloaded.holdsOnly hdir hpath hsight hcached, ?_⟩
  intro other module' hrun' hsight' hplace
  have hone : tree.Loadable other.path → other.path = call.path :=
    fun hpath' => hpath.eq_of_placeAt hdir hsight hpath' hsight' hplace
  refine ⟨fun hperforms' => hw.yields_held hid hperforms' hrun' hone hcached,
    fun between second hretains hperforms' => ?_⟩
  have hlater := hloaded.run between
  have hextends := HostM.extends_load (second.adds_run (loaded.run between).host.tree) id id
  have hafter : (((loaded.run between).step (.load id second)).loader id).cache.get?
      call.path.keyed = some module :=
    hextends.cache.get? (hretains.get? hloaded hcached)
  obtain ⟨hsame, hmodule⟩ := hlater.yields_held hid hperforms' hrun' hone hafter
  exact ⟨hsame, hmodule, (hlater.step _).holdsOnly hdir hpath hsight hafter⟩

def linkedFiles : FileTree :=
  ⟨[("lib", .directory [("a.svs", .file (.text "export x = 1;"))]),
    ("l", .link ⟨"lib"⟩),
    ("c.svs", .file (.text "import a from \"./l/a\"; export y = a.x;"))], []⟩

theorem shallow_linkedFiles : linkedFiles.Shallow := ⟨by decide, by simp [linkedFiles]⟩

def throughLink : Session.LoadRequest := .path ⟨"/l/a.svs"⟩

def fromModule : Session.LoadRequest := .specifier "../lib/a" (some ⟨"/l/b.svs"⟩)

theorem one_entry_linked :
    let w := (start linkedFiles [.withoutEntryDir]).run []
    let later := (w.step (.load 0 throughLink)).run [.load 0 (.path ⟨"/c.svs"⟩)]
    (∀ name ∈ linkedFiles.workingDir, IsName name) ∧ (∃ file, linkedFiles.Known file ⟨"/lib/a.svs"⟩) ∧
    ∃ module, (HostM.load 0 throughLink.run w.host).1 = .ok module ∧
      (HostM.load 0 fromModule.run later.host).1 = .ok module ∧
      (later.step (.load 0 fromModule)).HoldsOnly 0 ⟨"/lib/a.svs"⟩ module := by
  have hdir : ∀ name ∈ linkedFiles.workingDir, IsName name := shallow_linkedFiles.workingDir
  have hready : let w := (start linkedFiles [.withoutEntryDir]).run []
      let later := (w.step (.load 0 throughLink)).run [.load 0 (.path ⟨"/c.svs"⟩)]
      throughLink.target linkedFiles (w.loader 0).layout = .ok (⟨"/lib/a.svs"⟩, none) ∧
      fromModule.target linkedFiles (later.loader 0).layout =
        .ok (⟨"/lib/a.svs"⟩, some ⟨"/l/b.svs"⟩) ∧
      (HostM.load 0 throughLink.run w.host).1.isOk = true ∧
      (HostM.load 0 fromModule.run later.host).1.isOk = true ∧
      linkedFiles.isFile ⟨"/lib/a.svs"⟩ = true ∧
      Layout.withoutEntryDir.resolve linkedFiles "./l/a" none = .ok ⟨"/lib/a.svs"⟩ := by
    decide +kernel
  have htree := tree_run linkedFiles [.withoutEntryDir] []
  have hone := one_entry linkedFiles hdir [.withoutEntryDir] []
  generalize (start linkedFiles [.withoutEntryDir]).run [] = w at hready htree hone ⊢
  intro _ later
  obtain ⟨htarget, htarget', hok, hok', hfile, hresolve⟩ := hready
  obtain ⟨hsighted, hresolved, _, hloads⟩ := hone
  have hsight := hsighted shallow_linkedFiles _ hfile
  rw [← htree] at htarget htarget'
  obtain ⟨hperforms, hrun⟩ := performs_own htarget
  obtain ⟨hperforms', hrun'⟩ := performs_own (w := later) htarget'
  rcases hmodule : (HostM.load 0 throughLink.run w.host).1 with halt | module
  · rw [hmodule] at hok
    cases hok
  rcases hmodule' : (HostM.load 0 fromModule.run later.host).1 with halt | module'
  · rw [hmodule'] at hok'
    cases hok'
  rw [htree, hmodule] at hrun
  rw [show later.host.tree = linkedFiles from htree, hmodule'] at hrun'
  obtain ⟨_, htogether⟩ := hloads 0 (by decide) throughLink _ module hperforms hrun hsight
  obtain ⟨_, rfl, hholds⟩ := (htogether _ module' hrun' hsight rfl).2
    [.load 0 (.path ⟨"/c.svs"⟩)] fromModule (retains_of_loads (by simp) _ 0 _) hperforms'
  obtain ⟨file, _, hknown⟩ := hresolved _ _ _ _ hresolve
  exact ⟨hdir, ⟨file, hknown⟩, module', rfl, rfl, hholds⟩

section TwoPaths

open FileTree

theorem compiledFrom_deepFile {path : FilePath} (hpath : path ∈ [selectedPath, otherPath]) :
    CompiledFrom deepFile .native path "export x = \"p\";" := by
  obtain ⟨hfile, hcanonical, hread, _⟩ := file_deepFile path hpath
  exact .of_compiled hpath List.mem_cons_self hfile hcanonical fun require s _ hstage =>
    ⟨s.calls, Load.compileFile_native hread hstage none⟩

theorem not_isCanonical_selectedPath : ¬ deepFile.IsCanonical selectedPath := by
  rintro ⟨location, content, hnames, hfile, hpath⟩
  have hspelled : pathOf ["q", "k", "a.svs"] = selectedPath := by decide +kernel
  have hsame : (pathOf ["q", "k", "a.svs"]).same (pathOf location) = true := by
    rw [hspelled, hpath]
    exact beq_self_eq_true _
  have hlocation := FilePath.pathOf_inj (by decide) hnames hsame
  have hlink : deepFile.root.lookup "q" = some (.link (pathOf deepDir)) := rfl
  rw [← hlocation, FileTree.at?, Directory.at?, hlink] at hfile
  cases hfile

/-- A file that is out of sight is known under its paths as they are written, with the links that are
on them, and has an entry under each. -/
theorem two_entries :
    let answered := (HostM.answers 0 bothPaths (start deepFile [.withoutEntryDir]).host).1
    Layout.withoutEntryDir.resolve deepFile "/q/k/a.svs" none = .ok selectedPath ∧
      ¬ deepFile.IsCanonical selectedPath ∧
      deepFile.placeAt selectedPath = deepFile.placeAt otherPath ∧
      (answered.1.map fun answer => answer.toOption.map ModuleOf.fingerprint) =
        [some (fingerprint "export x = \"p\";"), some (fingerprint "export x = \"p\";")] ∧
      answered.2.map (·.1.path) = [selectedPath, otherPath] := by
  obtain ⟨hfile, hcanonical, _, hplace⟩ := file_deepFile selectedPath List.mem_cons_self
  obtain ⟨_, _, _, hplace'⟩ := file_deepFile otherPath (List.mem_cons_of_mem _ List.mem_cons_self)
  refine ⟨?_, not_isCanonical_selectedPath, hplace.trans hplace'.symm, ?_⟩
  · rw [Layout.resolve, Layout.candidates, if_pos (by decide), List.findSome?_singleton,
      moduleFile, if_pos (show deepFile.isFile ⟨"/q/k/a.svs"⟩ = true from hfile)]
    exact congrArg Except.ok hcanonical
  · exact answers_bothPaths_start fun path hpath => compiledFrom_deepFile hpath

end TwoPaths

end World

end Interpose
