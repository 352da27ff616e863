import Interpose.Proofs.Rewritten
import Interpose.Proofs.ScopeLoads

set_option autoImplicit false

namespace Interpose
open Edit

theorem HostM.loading_loads {id : LoaderId} {host : Host} (hid : id < host.loaders.length)
    (requests : List Session.LoadRequest) :
    (loads id requests host).2.loading id =
      requests.foldl (fun s request => (request.run host.tree s).2) (host.loading id) := by
  induction requests generalizing host with
  | nil => rfl
  | cons request rest ih =>
    rw [loads_cons, List.foldl_cons, ← loading_load hid]
    exact ih ((World.length_load ..).symm ▸ hid)

/-- How often a transformer ran on behalf of a path. -/
def transformsOf (calls : List TransformCall) (path : FilePath) : Nat :=
  calls.countP (·.path.same path)

theorem FilePath.same_iff {path other : FilePath} :
    path.same other = true ↔ path.components = other.components := beq_iff_eq

theorem transformsOf_append (calls more : List TransformCall) (path : FilePath) :
    transformsOf (calls ++ more) path = transformsOf calls path + transformsOf more path :=
  List.countP_append

theorem transformsOf_singleton (call : TransformCall) (path : FilePath) :
    transformsOf [call] path = if call.path.same path then 1 else 0 := List.countP_singleton

theorem transformsOf_same (calls : List TransformCall) {path other : FilePath}
    (h : path.same other = true) : transformsOf calls path = transformsOf calls other := by
  refine List.countP_congr fun call _ => ?_
  rw [FilePath.same_iff, FilePath.same_iff, FilePath.same_iff.mp h]

/-- The module at the path is cached or is being compiled. -/
def Loader.knows (loader : Loader) (path : FilePath) : Bool :=
  (loader.cache.get? path.keyed).isSome || loader.isInFlight path.keyed

namespace ScopeSetting

variable {g : ScopeSetting} {flight : List KeyedPath} {path : FilePath}

theorem transformsOf_callsAt_of_differ {other : FilePath} (h : path.same other = false) :
    transformsOf (g.callsAt path) other = 0 := by
  refine List.countP_eq_zero.mpr fun call hcall => ?_
  rw [(of_mem_callsAt hcall).2, h]
  exact Bool.false_ne_true

theorem Yields.transformsOf_callsAt {module : Module} (h : g.Yields path module)
    (hfresh : g.before.get? path.keyed = none) :
    transformsOf (g.callsAt path) path = if g.policy.eligible g.layout path then 1 else 0 := by
  cases h with
  | cached found => cases hfresh.symm.trans found
  | compiled parts file fresh text made resolved yields =>
    rw [← length_callsAt text]
    refine List.countP_eq_length.mpr fun call hcall => ?_
    rw [(of_mem_callsAt hcall).2]
    exact FilePath.same_iff.mpr rfl

/-- The calls that a scope has made so far. Of the paths that yield modules, those that are known
have been transformed once if they are eligible, and the others not at all. -/
structure Tally (g : ScopeSetting) (flight : List KeyedPath) (loader : Loader)
    (made : List TransformCall) : Prop where
  holds : g.Holds flight loader
  owned : ∀ call ∈ made, call.owner = g.owner
  fresh : ∀ call ∈ made, g.before.get? call.path.keyed = none
  once : ∀ {path module}, g.tree.Loadable path → g.Yields path module →
    g.before.get? path.keyed = none → transformsOf made path =
      if loader.knows path then if g.policy.eligible g.layout path then 1 else 0 else 0

namespace Tally

variable {loader later : Loader} {made : List TransformCall}

theorem start (hs : g.Holds [] loader) (hbefore : loader.cache = g.before) :
    g.Tally [] loader [] := by
  refine ⟨hs, by simp, by simp, fun {path _} _ _ hfresh => ?_⟩
  have hunknown : loader.knows path = false := by
    rw [Loader.knows, hbefore, hfresh, hs.isInFlight]
    rfl
  rw [hunknown]
  rfl

theorem begun {s : LoadState} (h : g.Tally flight s.loader made) (hspelling : g.tree.OneSpelling)
    (hpath : g.tree.Loadable path) (huncached : s.loader.cache.get? path.keyed = none)
    (hidle : s.loader.isInFlight path.keyed = false) :
    g.Tally (path.keyed :: flight) (g.begun path s).loader (made ++ g.callsAt path) := by
  have hfresh := h.holds.fresh huncached
  refine ⟨h.holds.begun path, fun call hcall => ?_, fun call hcall => ?_, ?_⟩
  · exact (List.mem_append.mp hcall).elim (h.owned call) fun hcall => (of_mem_callsAt hcall).1
  · rcases List.mem_append.mp hcall with hcall | hcall
    · exact h.fresh call hcall
    · rw [(of_mem_callsAt hcall).2, hfresh]
  · intro other module hother hyields hnew
    have hknows : (g.begun path s).loader.knows other =
        (other.same path || s.loader.knows other) := by
      have hsame : other.keyed.same path.keyed = other.same path := KeyedPath.same_eq ..
      rw [← hsame, Loader.knows, Loader.knows, Bool.or_left_comm]
      rfl
    rw [transformsOf_append, h.once hother hyields hnew, hknows]
    cases hsame : other.same path with
    | true =>
      cases hspelling hother hpath hsame
      have hunknown : s.loader.knows path = false := by
        rw [Loader.knows, huncached, hidle]
        rfl
      rw [hunknown, hyields.transformsOf_callsAt hnew]
      simp
    | false =>
      rw [transformsOf_callsAt_of_differ (by rw [← hsame]; exact Bool.beq_comm)]
      simp

theorem stands {flight' : List KeyedPath} (h : g.Tally flight loader made)
    (hlater : g.Holds flight' later)
    (hknows : ∀ {path module}, g.tree.Loadable path → g.Yields path module →
      later.knows path = loader.knows path) : g.Tally flight' later made :=
  ⟨hlater, h.owned, h.fresh, fun hpath hyields hfresh => by
    rw [hknows hpath hyields, h.once hpath hyields hfresh]⟩

theorem abandoned {t : LoadState} (h : g.Tally (path.keyed :: flight) t.loader made)
    (hspelling : g.tree.OneSpelling) (hpath : g.tree.Loadable path)
    (hlater : g.Holds flight (t.leave path.keyed).loader)
    (hyieldless : ∀ module, ¬ g.Yields path module) :
    g.Tally flight (t.leave path.keyed).loader made := by
  refine h.stands hlater fun {other module} hother hyields => ?_
  have hdiffer : other.keyed.same path.keyed = false := by
    refine Bool.eq_false_iff.mpr fun hsame => ?_
    rw [KeyedPath.same_eq] at hsame
    cases hspelling hother hpath hsame
    exact hyieldless module hyields
  rw [Loader.knows, Loader.knows, hlater.isInFlight, h.holds.isInFlight, List.any_cons, hdiffer]
  rfl

/-- A path that is cached is as well known as it was in flight. -/
theorem kept {t : LoadState} {module : Module}
    (h : g.Tally (path.keyed :: flight) t.loader made)
    (hlater : g.Holds flight
      { t.leave path.keyed with loader.cache := t.loader.cache ++ [(path.keyed, module)] }.loader) :
    g.Tally flight
      { t.leave path.keyed with loader.cache := t.loader.cache ++ [(path.keyed, module)] }.loader
      made := by
  refine h.stands hlater fun {other _} _ _ => ?_
  have hcached : ((t.loader.cache ++ [(path.keyed, module)]).get? other.keyed).isSome =
      ((t.loader.cache.get? other.keyed).isSome || other.keyed.same path.keyed) := by
    rw [Cache.get?_append, Option.isSome_or, other.keyed.same_comm]
    refine congrArg _ ?_
    rw [Cache.get?, List.find?_cons]
    cases path.keyed.same other.keyed <;> rfl
  rw [Loader.knows, Loader.knows, hlater.isInFlight, h.holds.isInFlight, hcached, List.any_cons,
    Bool.or_assoc]

end Tally

def Tallied (g : ScopeSetting) (first : List TransformCall) (flight : List KeyedPath)
    (s : LoadState) : Prop := ∃ made, s.calls = first ++ made ∧ g.Tally flight s.loader made

variable {first : List TransformCall} {s : LoadState}

theorem tallied_atPath (hspelling : g.tree.OneSpelling) {depth : Nat}
    (requester : Option FilePath) (hawaited : g.Awaited flight path)
    (hdepth : Load.maxDepth ≤ flight.length + depth) (hs : g.Tallied first flight s) :
    g.Tallied first flight (Load.atPath g.tree depth path requester s).2 := by
  -- by induction on how deep loads may nest: loads of imports keep the tally, and so does
  -- the load that asks for them, whether it fails or not
  induction depth using Nat.strongRecOn generalizing path requester s flight with
  | _ depth ih =>
  obtain ⟨made, hcalls, htally⟩ := hs
  have hpath := hawaited.loadable
  have hlater := holds_atPath hspelling depth requester hpath htally.holds
  have hyields : ∀ {module}, g.Yields path module →
      (Load.atPath g.tree depth path requester s).1 = .ok module := fun hyields =>
    hyields.atPath hspelling htally.holds hawaited hdepth requester
  have hattempt :=
    attempt_atPath htally.holds.ofLayout htally.holds.stage depth path requester
  generalize Load.atPath g.tree depth path requester s = result at hlater hyields hattempt
  have hbegun : s.loader.cache.get? path.keyed = none → s.loader.isInFlight path.keyed = false →
      g.Tallied first (path.keyed :: flight) (g.begun path s) := by
    intro huncached hidle
    refine ⟨_, ?_, htally.begun hspelling hpath huncached hidle⟩
    rw [← List.append_assoc, ← hcalls]
    rfl
  have hinside : ∀ {below} source, depth = below + 1 → g.text? path = some source →
      s.loader.cache.get? path.keyed = none → s.loader.isInFlight path.keyed = false →
        g.Tallied first (path.keyed :: flight)
          (compileNative (m := StateM LoadState) (Load.imported g.tree below g.layout)
            ⟨source, path, requester⟩ (g.begun path s)).2 := by
    rintro below source rfl htext huncached hidle
    refine preserved_compileNative (g.Tallied first (path.keyed :: flight))
      (fun hspecifier hfile ht => ?_) (hbegun huncached hidle)
    have hdeeper := hawaited.deeper ((htally.holds.isInFlight _).symm.trans hidle)
      (.stated (htally.holds.fresh huncached) htext hspecifier hfile)
    refine ih below (Nat.lt_succ_self below) (some path) hdeeper ?_ ht
    rw [List.length_cons]
    omega
  cases hattempt with
  | served found => exact ⟨made, hcalls, htally⟩
  | refused uncached barred => exact ⟨made, hcalls, htally⟩
  | textless uncached idle text =>
    obtain ⟨more, hmore, hafter⟩ := hbegun uncached idle
    exact ⟨more, hmore, hafter.abandoned hspelling hpath hlater fun module h => by
      cases hyields h⟩
  | @failed below source halt t uncached idle text fails =>
    have hafter := hinside source rfl text uncached idle
    rw [fails] at hafter
    obtain ⟨more, hmore, hafter⟩ := hafter
    exact ⟨more, hmore, hafter.abandoned hspelling hpath hlater fun module h => by
      cases hyields h⟩
  | @compiled below source module t uncached idle text made =>
    have hafter := hinside source rfl text uncached idle
    rw [made] at hafter
    obtain ⟨more, hmore, hafter⟩ := hafter
    exact ⟨more, hmore, hafter.kept hlater⟩

theorem tallied_run (hspelling : g.tree.OneSpelling) (request : Session.LoadRequest)
    (hs : g.Tallied first [] s) : g.Tallied first [] (request.run g.tree s).2 := by
  have hlayout : s.loader.layout = g.layout := by
    obtain ⟨_, _, htally⟩ := hs
    exact htally.holds.ofLayout
  rw [Session.LoadRequest.run_apply, hlayout]
  cases htarget : request.target g.tree g.layout with
  | error error => exact hs
  | ok target =>
    obtain ⟨found, requester⟩ := target
    exact tallied_atPath hspelling requester
      (.start (Session.LoadRequest.loadable_target htarget)) (Nat.le_add_left ..) hs

theorem tallied_fold (hspelling : g.tree.OneSpelling) (requests : List Session.LoadRequest)
    (hs : g.Tallied first [] s) :
    g.Tallied first [] (requests.foldl (fun s request => (request.run g.tree s).2) s) :=
  List.foldlRecOn requests _ hs fun _ hs request _ => tallied_run hspelling request hs

theorem Tally.count {loader : Loader} {made : List TransformCall} (h : g.Tally [] loader made)
    (hfresh : g.before.get? path.keyed = none)
    (hcached : (loader.cache.get? path.keyed).isSome = true) :
    transformsOf made path = if g.policy.eligible g.layout path then 1 else 0 := by
  obtain ⟨module, hmodule⟩ := Option.isSome_iff_exists.mp hcached
  obtain ⟨key, hmem, hsame⟩ := Cache.mem_of_get? hmodule
  have hkey : g.before.get? key = none := (g.before.get?_same hsame).trans hfresh
  obtain ⟨hloadable, hyields⟩ := h.holds.added _ hmem hkey
  have hknows : loader.knows key.path = true := by
    rw [Loader.knows, key.keyed_path, loader.cache.get?_same hsame, hcached, Bool.true_or]
  rw [KeyedPath.same_eq] at hsame
  change key.path.same path = true at hsame
  rw [← transformsOf_same made hsame, ← Policy.eligible_same g.policy g.layout hsame,
    h.once hloadable hyields (by rwa [key.keyed_path]), hknows, if_pos rfl]

theorem Tally.untouched {loader : Loader} {made : List TransformCall}
    (h : g.Tally flight loader made) (hcached : (g.before.get? path.keyed).isSome = true) :
    transformsOf made path = 0 := by
  refine List.countP_eq_zero.mpr fun call hcall hsame => ?_
  have hkeyed : call.path.keyed.same path.keyed = true := by
    rw [KeyedPath.same_eq]
    exact hsame
  rw [← g.before.get?_same hkeyed, h.fresh call hcall] at hcached
  cases hcached

end ScopeSetting

theorem Interceptor.calls_activate {interceptor : Interceptor} {activation : Activation}
    {host entered : Host} (h : interceptor.activate host = (.ok activation, entered)) :
    entered.calls = host.calls := by
  rcases activate_ok h with ⟨_, _, rfl⟩ | ⟨_, _, rfl⟩
  · rfl
  · rfl

theorem Activation.calls_restore (activation : Activation) (host : Host) :
    (activation.restore host).2.calls = host.calls := by
  by_cases hstands : activation.Stands host
  · rw [restore_standing hstands]
    rfl
  · rw [restore_stale hstands]

/-- A scope whose work is to answer requests: the loader with the interceptor's stage in its slot
answers them one after the other, and the calls are those that it makes. -/
theorem Interceptor.CanOpen.withScope_fold {interceptor : Interceptor} {host : Host}
    (h : interceptor.CanOpen host) (hknown : interceptor.loader < host.loaders.length)
    (requests : List Session.LoadRequest) :
    ∃ (slot : Slot) (answers : List (Outcome ModuleError Module)) (after : Host),
      slot.current.stage = interceptor.stage ∧
      let ended := requests.foldl (fun s request => (request.run host.tree s).2)
        ⟨{ host.loader interceptor.loader with slot }, host.calls⟩
      interceptor.withScope (liftM (HostM.answers interceptor.loader requests)) () host =
        ((.ok (answers, ended.loader.cache), ()), after) ∧ after.calls = ended.calls := by
  obtain ⟨activation, entered, hactivate, hopens⟩ := h.activate hknown
  obtain ⟨slot, hslot, hself⟩ := hopens.loader
  have hlift := HostedM.lift_apply (HostM.answers interceptor.loader requests) () entered
  have hscope := withScope_entered hactivate hlift
  have hloads := HostM.loading_loads (hopens.length ▸ hknown) requests
  have hentered : entered.loading interceptor.loader =
      ⟨{ host.loader interceptor.loader with slot }, host.calls⟩ := by
    rw [Host.loading, hself, calls_activate hactivate]
  rw [hentered, hopens.tree] at hloads
  rw [HostM.answers_apply] at hscope
  refine ⟨slot, (HostM.loads interceptor.loader requests entered).1,
    (activation.restore (HostM.loads interceptor.loader requests entered).2).2, hslot, ?_⟩
  rw [← hloads]
  exact ⟨hscope, activation.calls_restore _⟩

namespace World

/-- Where paths that count as the same are spelled alike, and the policy does not look at
requesters, the transformer runs once in a scope for each path that is cached at the end of its
work, if the path is eligible and was not cached when the scope began. For a path that was, it does
not run. -/
theorem transformed_once (tree : FileTree) (layouts : List Layout) (events : List Event)
    {interceptor : Interceptor}
    (hmem : interceptor ∈ ((start tree layouts).run events).interceptors) {layout : Layout}
    (hlayout : (((start tree layouts).run events).loader interceptor.loader).layout = layout)
    (hpolicy : interceptor.policy ≠ .topLevelDependencies)
    (hopen : interceptor.CanOpen ((start tree layouts).run events).host) :
    let host := ((start tree layouts).run events).host
    let before := (host.loader interceptor.loader).cache
    (tree.Shallow → tree.OneSpelling) ∧
    (tree.OneSpelling → ∀ requests : List Session.LoadRequest, ∃ answers cache after made,
      interceptor.withScope (liftM (HostM.answers interceptor.loader requests)) () host =
        ((.ok (answers, cache), ()), after) ∧
      after.calls = host.calls ++ made ∧ (∀ call ∈ made, call.owner = interceptor.id) ∧
      ∀ path : FilePath,
        ((before.get? path.keyed).isSome = true → transformsOf made path = 0) ∧
        (before.get? path.keyed = none → (cache.get? path.keyed).isSome = true →
          transformsOf made path = if interceptor.policy.eligible layout path then 1 else 0)) := by
  intro host before
  refine ⟨FileTree.Shallow.oneSpelling, fun hspelling requests => ?_⟩
  have hr := rooted_run tree layouts events
  have htree : host.tree = tree := tree_run tree layouts events
  have hidle := idle_run tree layouts events interceptor.loader
  obtain ⟨slot, answers, after, hslot, hscope, hafter⟩ :=
    hopen.withScope_fold (hr.known interceptor hmem) requests
  let g : ScopeSetting := ⟨tree, layout, interceptor.id, interceptor.policy,
    interceptor.transformer, before, hpolicy⟩
  have hstage : interceptor.stage = g.stage := hr.stage hmem
  have hholds : g.Holds [] { host.loader interceptor.loader with slot } := by
    refine ⟨hlayout, hslot.trans hstage, hidle, .refl _, fun entry he hnew => ?_⟩
    exact absurd entry.1.same_self
      (Bool.eq_false_iff.mp ((Cache.get?_eq_none_iff before entry.1).mp hnew entry he))
  have hstart : g.Tallied host.calls []
      ⟨{ host.loader interceptor.loader with slot }, host.calls⟩ :=
    ⟨[], (List.append_nil _).symm, .start hholds rfl⟩
  obtain ⟨made, hcalls, htally⟩ := ScopeSetting.tallied_fold hspelling requests hstart
  rw [show g.tree = host.tree from htree.symm] at hcalls htally
  exact ⟨answers, _, after, made, hscope, hafter.trans hcalls, htally.owned,
    fun path => ⟨htally.untouched, htally.count⟩⟩

def diamondFiles : FileTree :=
  ⟨[("a.svs", .file (.text "import b from \"./b.svs\"; import c from \"./c.svs\"; export x = \"p\";")),
    ("b.svs", .file (.text "import d from \"./d.svs\"; export x = \"p\";")),
    ("c.svs", .file (.text "import d from \"./d.svs\"; export x = \"p\";")),
    ("d.svs", .file (.text "export x = \"p\";")),
    ("e.svs", .file (.text "import d from \"./d.svs\"; import e from \"./e.svs\"; export x = \"p\";"))],
    []⟩

theorem shallow_diamondFiles : diamondFiles.Shallow := ⟨by decide, by simp [diamondFiles]⟩

/-- One of the modules in the middle is loaded before the interceptor is built, and with it the one
that it imports. -/
def loadedBefore : List Event :=
  [.load 0 (.path ⟨"/b.svs"⟩), .build 0 (.code 3) (replaceString "p" "q")]

theorem transformed_once_diamond :
    let host := ((start diamondFiles [.withoutEntryDir]).run loadedBefore).host
    let requests := [.path ⟨"/e.svs"⟩, .path ⟨"/a.svs"⟩, .path ⟨"/e.svs"⟩]
    diamondFiles.OneSpelling ∧
      ∃ interceptor ∈ ((start diamondFiles [.withoutEntryDir]).run loadedBefore).interceptors,
        (host.loader interceptor.loader).layout = .withoutEntryDir ∧
        interceptor.policy ≠ .topLevelDependencies ∧ interceptor.CanOpen host ∧
        ∃ answers cache after made,
          interceptor.withScope (liftM (HostM.answers interceptor.loader requests)) () host =
            ((.ok (answers, cache), ()), after) ∧
          after.calls = host.calls ++ made ∧ (∀ call ∈ made, call.owner = interceptor.id) ∧
          ∀ path : FilePath,
            (((host.loader interceptor.loader).cache.get? path.keyed).isSome = true →
              transformsOf made path = 0) ∧
            ((host.loader interceptor.loader).cache.get? path.keyed = none →
              (cache.get? path.keyed).isSome = true → transformsOf made path =
                if interceptor.policy.eligible .withoutEntryDir path then 1 else 0) := by
  intro host requests
  have hready : ∃ interceptor ∈
      ((start diamondFiles [.withoutEntryDir]).run loadedBefore).interceptors,
        (host.loader interceptor.loader).layout = .withoutEntryDir ∧
        interceptor.policy ≠ .topLevelDependencies ∧
        (host.loader interceptor.loader).slot.current.owner = none := by
    decide +kernel
  obtain ⟨interceptor, hmem, hlayout, hpolicy, hfree⟩ := hready
  obtain ⟨hspelling, honce⟩ := transformed_once diamondFiles [.withoutEntryDir] loadedBefore hmem
    hlayout hpolicy (.inl hfree)
  have hone : diamondFiles.OneSpelling := hspelling shallow_diamondFiles
  exact ⟨hone, interceptor, hmem, hlayout, hpolicy, .inl hfree, honce hone requests⟩

section Importing

open FileTree

def transformingAll : List Event := [.build 0 (.code 3) .ok]

def importingSetting (owner : OwnerId) : ScopeSetting :=
  ⟨deepTree importing, .withoutEntryDir, owner, .allModules, .ok, [], Policy.noConfusion⟩

theorem run_still {g : ScopeSetting} {s : LoadState} {request : Session.LoadRequest}
    {path : FilePath} {source : String} (hlayout : s.loader.layout = g.layout)
    (hstage : s.loader.slot.current.stage = g.stage)
    (hidle : s.loader.isInFlight path.keyed = false)
    (huncached : s.loader.cache.get? path.keyed = none) (htext : g.text? path = some source)
    (htarget : request.target g.tree g.layout = .ok (path, none))
    (parts : String → Outcome ModuleError Module)
    (hparts : ∀ depth, ∀ specifier ∈ CommandLine.importsOf source,
      Load.imported g.tree (depth + 1) g.layout path specifier (g.begun path s) =
        (parts specifier, g.begun path s)) :
    (request.run g.tree s).2 =
      match compileNative (m := Id) (fun _ => parts) ⟨source, path, none⟩ with
      | .error _ => g.recorded path s
      | .ok module => { g.recorded path s with
          loader.cache := s.loader.cache ++ [(path.keyed, module)] } := by
  obtain ⟨depth, hdepth⟩ := Nat.exists_eq_add_of_le' Load.two_le_maxDepth
  obtain ⟨hanswer, hafter⟩ :
      (compileNative (m := StateM LoadState) (Load.imported g.tree (depth + 1) g.layout)
          ⟨source, path, none⟩ (g.begun path s)).1 =
        compileNative (m := Id) (fun _ => parts) ⟨source, path, none⟩ ∧
      (compileNative (m := StateM LoadState) (Load.imported g.tree (depth + 1) g.layout)
          ⟨source, path, none⟩ (g.begun path s)).2 = g.begun path s :=
    compileNative_answers (· = g.begun path s) (fun specifier hspecifier {t} ht => by
      rw [ht, hparts depth specifier hspecifier]
      exact ⟨rfl, rfl⟩) rfl
  have hleft : (g.begun path s).leave path.keyed = g.recorded path s := by
    have hfilter : (path.keyed :: s.loader.inFlight).filter
        (fun other : KeyedPath => !other.same path.keyed) = s.loader.inFlight :=
      Load.filter_inFlight hidle
    simp only [LoadState.leave, ScopeSetting.begun, ScopeSetting.recorded, LoadState.enter, hfilter]
  have hattempt := ScopeSetting.attempt_atPath hlayout hstage (depth + 2) path none
  rw [Session.LoadRequest.run_apply, hlayout, htarget, hdepth]
  dsimp only
  generalize Load.atPath g.tree (depth + 2) path none s = result at hattempt ⊢
  cases hattempt with
  | served found => cases huncached.symm.trans found
  | refused uncached barred =>
    rcases barred with hflight | hdepth
    · cases hidle.symm.trans hflight
    · cases hdepth
  | textless uncached idle text => cases htext.symm.trans text
  | @failed below source halt t uncached idle text fails =>
    cases htext.symm.trans text
    rw [fails] at hanswer hafter
    obtain rfl : t = g.begun path s := hafter
    rw [← hanswer, hleft]
  | @compiled below source module t uncached idle text made =>
    cases htext.symm.trans text
    rw [made] at hanswer hafter
    obtain rfl : t = g.begun path s := hafter
    rw [← hanswer, hleft]
    rfl

theorem text?_importing (owner : OwnerId) {path : FilePath} {source : String}
    (h : (deepTree importing).read path = some (.text source)) :
    (importingSetting owner).text? path = some source := by
  unfold ScopeSetting.text?
  rw [show (importingSetting owner).tree.read path = _ from h]
  rfl

theorem callsAt_importing (owner : OwnerId) {path : FilePath} {source : String}
    (h : (deepTree importing).read path = some (.text source)) :
    (importingSetting owner).callsAt path = [⟨owner, path, source⟩] := by
  unfold ScopeSetting.callsAt
  rw [show (importingSetting owner).tree.read path = _ from h]
  rfl

def importingRequests : List Session.LoadRequest :=
  [.path (slashed 0 "q/k/./b.svs"), .path (slashed 4085 "q/k/a.svs"),
    .path (slashed 0 "q/k/a.svs")]

theorem compiles_importing : ∃ part module : Module,
    compileNative (m := Id) unanswered ⟨"export y = 2;", slashed 0 "q/k/./b.svs", none⟩ = .ok part ∧
      compileNative (m := Id) (fun _ _ => .ok part)
        ⟨"import b from \"./b.svs\"; export x = 1;", slashed 0 "q/k/a.svs", none⟩ = .ok module := by
  obtain ⟨reads, _, _, readsLeaf, _, _, compiles⟩ := pair_importing
  have hreads := (importer_importing (show 0 + 10 ≤ maxPathBytes by decide)).2.2
  have hleaf := (imported_importing (show 0 + 12 ≤ maxPathBytes by decide)).2.2
  cases reads.symm.trans hreads
  cases readsLeaf.symm.trans hleaf
  rcases hpart : compileNative (m := Id) unanswered
    ⟨"export y = 2;", slashed 0 "q/k/./b.svs", none⟩ with halt | part
  all_goals rw [hpart] at compiles
  · cases compiles
  · rcases hmodule : compileNative (m := Id) (fun _ _ => .ok part)
      ⟨"import b from \"./b.svs\"; export x = 1;", slashed 0 "q/k/a.svs", none⟩ with halt | module
    · simp only [Except.bind, hmodule] at compiles
      cases compiles
    · exact ⟨part, module, rfl, hmodule⟩

theorem importer_uncached (part : Module) (more : Nat) :
    Cache.get? [((slashed 0 "q/k/./b.svs").keyed, part)] (slashed more "q/k/a.svs").keyed =
      none := by
  rw [Cache.get?_eq_none_iff]
  intro entry he
  rw [List.mem_singleton.mp he, KeyedPath.same_eq]
  change (slashed 0 "q/k/./b.svs").same (slashed more "q/k/a.svs") = false
  rw [FilePath.same, eq_of_beq (same_slashed more "q/k/a.svs" 0)]
  decide

structure Transforming (owner : OwnerId) (s : LoadState) (cache : Cache)
    (calls : List TransformCall) : Prop where
  layout : s.loader.layout = .withoutEntryDir
  stage : s.loader.slot.current.stage = (importingSetting owner).stage
  inFlight : s.loader.inFlight = []
  cache : s.loader.cache = cache
  calls : s.calls = calls

namespace Transforming

variable {owner : OwnerId} {s : LoadState} {cache : Cache} {calls : List TransformCall}
  {part module : Module}

theorem run {path : FilePath} {source : String} (hs : Transforming owner s cache calls)
    (huncached : cache.get? path.keyed = none)
    (hreads : (deepTree importing).read path = some (.text source))
    (htarget : (Session.LoadRequest.path path).target (deepTree importing) .withoutEntryDir =
      .ok (path, none)) (parts : String → Outcome ModuleError Module)
    (hparts : ∀ depth t, t.loader.cache = cache → ∀ specifier ∈ CommandLine.importsOf source,
      Load.imported (deepTree importing) (depth + 1) .withoutEntryDir path specifier t =
        (parts specifier, t)) :
    Transforming owner ((Session.LoadRequest.path path).run (deepTree importing) s).2
      (match compileNative (m := Id) (fun _ => parts) ⟨source, path, none⟩ with
      | .error _ => cache
      | .ok module => cache ++ [(path.keyed, module)]) (calls ++ [⟨owner, path, source⟩]) := by
  obtain ⟨hlayout, hstage, hidle, rfl, rfl⟩ := hs
  have hrun := run_still (g := importingSetting owner) hlayout hstage
    (by rw [Loader.isInFlight, hidle]; rfl) huncached (text?_importing owner hreads) htarget parts
    fun depth => hparts depth _ rfl
  rw [show (importingSetting owner).tree = deepTree importing from rfl] at hrun
  rw [hrun, ← callsAt_importing owner hreads]
  cases compileNative (m := Id) (fun _ => parts) ⟨source, path, none⟩ with
  | error halt => exact ⟨hlayout, hstage, hidle, rfl, rfl⟩
  | ok module => exact ⟨hlayout, hstage, hidle, rfl, rfl⟩

theorem imported (hs : Transforming owner s [] calls)
    (hpart : compileNative (m := Id) unanswered
      ⟨"export y = 2;", slashed 0 "q/k/./b.svs", none⟩ = .ok part) :
    Transforming owner
      ((Session.LoadRequest.path (slashed 0 "q/k/./b.svs")).run (deepTree importing) s).2
      [((slashed 0 "q/k/./b.svs").keyed, part)]
      (calls ++ [⟨owner, slashed 0 "q/k/./b.svs", "export y = 2;"⟩]) := by
  obtain ⟨hfile, hcanonical, hreads⟩ :=
    imported_importing (show 0 + 12 ≤ maxPathBytes by decide)
  have htarget : (Session.LoadRequest.path (slashed 0 "q/k/./b.svs")).target (deepTree importing)
      .withoutEntryDir = .ok (slashed 0 "q/k/./b.svs", none) := by
    rw [Session.LoadRequest.target, if_pos hfile, hcanonical]
  have himportless : CommandLine.importsOf "export y = 2;" = [] := by decide +kernel
  have hrun := hs.run rfl hreads htarget (unanswered ⟨""⟩)
    fun _ _ _ specifier hspecifier => by simp [himportless] at hspecifier
  rwa [show compileNative (m := Id) (fun _ => unanswered ⟨""⟩) _ = .ok part from hpart] at hrun

/-- Under the path with no room for the import, the transformer runs in vain. -/
theorem importer_vainly
    (hs : Transforming owner s [((slashed 0 "q/k/./b.svs").keyed, part)] calls) :
    Transforming owner
      ((Session.LoadRequest.path (slashed 4085 "q/k/a.svs")).run (deepTree importing) s).2
      [((slashed 0 "q/k/./b.svs").keyed, part)]
      (calls ++ [⟨owner, slashed 4085 "q/k/a.svs", "import b from \"./b.svs\"; export x = 1;"⟩]) := by
  have hreads := (importer_importing (show 4085 + 10 ≤ maxPathBytes by decide)).2.2
  have hrun := hs.run (importer_uncached part 4085) hreads (target_importing (by decide) _)
    (fun specifier => .error (.error (.notFound specifier))) fun _ _ _ specifier hspecifier => by
      rw [importsOf_importing, List.mem_singleton] at hspecifier
      subst hspecifier
      unfold Load.imported
      rw [resolve_importing, if_neg (by decide)]
      rfl
  cases hcompile : compileNative (m := Id)
    (fun _ specifier => .error (.error (.notFound specifier)))
    ⟨"import b from \"./b.svs\"; export x = 1;", slashed 4085 "q/k/a.svs", none⟩ with
  | error halt => rwa [hcompile] at hrun
  | ok module =>
    obtain ⟨_, hanswered⟩ := compileNative_answered hcompile "./b.svs"
      (importsOf_importing ▸ List.mem_singleton_self "./b.svs")
    cases hanswered

theorem importer (hs : Transforming owner s [((slashed 0 "q/k/./b.svs").keyed, part)] calls)
    (hmodule : compileNative (m := Id) (fun _ _ => .ok part)
      ⟨"import b from \"./b.svs\"; export x = 1;", slashed 0 "q/k/a.svs", none⟩ = .ok module) :
    Transforming owner
      ((Session.LoadRequest.path (slashed 0 "q/k/a.svs")).run (deepTree importing) s).2
      [((slashed 0 "q/k/./b.svs").keyed, part), ((slashed 0 "q/k/a.svs").keyed, module)]
      (calls ++ [⟨owner, slashed 0 "q/k/a.svs", "import b from \"./b.svs\"; export x = 1;"⟩]) := by
  have hreads := (importer_importing (show 0 + 10 ≤ maxPathBytes by decide)).2.2
  have hrun := hs.run (importer_uncached part 0) hreads (target_importing (by decide) _)
    (fun _ => .ok part) fun depth t ht specifier hspecifier => by
      rw [importsOf_importing, List.mem_singleton] at hspecifier
      subst hspecifier
      unfold Load.imported
      rw [resolve_importing, if_pos (by decide)]
      refine Load.atPath_cached ?_ (depth + 1)
      rw [ht, Cache.get?, List.find?_cons, KeyedPath.same_self]
      rfl
  rwa [hmodule] at hrun

end Transforming

theorem run_transformingAll (tree : FileTree) :
    let w := (start tree [.withoutEntryDir]).run transformingAll
    w.interceptors = [⟨1, 0, .allModules, .ok, ⟨1, none, .native⟩, []⟩] ∧
      w.host.loaders = [.ofLayout .withoutEntryDir] ∧ w.host.tree = tree ∧ w.host.calls = [] :=
  ⟨rfl, rfl, rfl, rfl⟩

theorem transformed_importing {owner : OwnerId} {s t : LoadState}
    (hs : Transforming owner s [] [])
    (ht : t = importingRequests.foldl (fun s request => (request.run (deepTree importing) s).2) s) :
    (t.loader.cache.get? (slashed 0 "q/k/a.svs").keyed).isSome = true ∧
      transformsOf t.calls (slashed 0 "q/k/a.svs") = 2 := by
  obtain ⟨part, module, hpart, hmodule⟩ := compiles_importing
  have hlast := ((hs.imported hpart).importer_vainly).importer hmodule
  have hleaf : (slashed 0 "q/k/./b.svs").same (slashed 0 "q/k/a.svs") = false := by decide
  have hlong := same_slashed 4085 "q/k/a.svs" 0
  have hshort := same_slashed 0 "q/k/a.svs" 0
  rw [ht, importingRequests, List.foldl_cons, List.foldl_cons, List.foldl_cons, List.foldl_nil,
    hlast.cache, hlast.calls]
  constructor
  · rw [Cache.get?, Option.isSome_map, List.find?_isSome]
    exact ⟨_, List.mem_cons_of_mem _ List.mem_cons_self, KeyedPath.same_self _⟩
  · simp only [transformsOf_append, transformsOf_singleton, hleaf, hlong, hshort]
    rfl

/-- Where files have more than one spelling, the transformer may run twice for a path: in vain under
one that leaves no room for what the module imports, and again under a short one. -/
theorem transformed_twice :
    let w := (start (deepTree importing) [.withoutEntryDir]).run transformingAll
    let path := slashed 0 "q/k/a.svs"
    ∃ interceptor ∈ w.interceptors,
      interceptor.policy = .allModules ∧ interceptor.CanOpen w.host ∧
      (w.loader interceptor.loader).cache = [] ∧
      ∃ answers cache after made,
        interceptor.withScope (liftM (HostM.answers interceptor.loader importingRequests)) ()
          w.host = ((.ok (answers, cache), ()), after) ∧
        after.calls = w.host.calls ++ made ∧ (cache.get? path.keyed).isSome = true ∧
        interceptor.policy.eligible .withoutEntryDir path = true ∧ transformsOf made path = 2 := by
  intro w path
  obtain ⟨hinterceptors, hloaders, htree, hcalls⟩ :
      w.interceptors = _ ∧ w.host.loaders = _ ∧ w.host.tree = _ ∧ w.host.calls = _ :=
    run_transformingAll (deepTree importing)
  clear_value w
  have hloader : w.host.loader 0 = .ofLayout .withoutEntryDir := by
    rw [Host.loader, hloaders]
    rfl
  generalize hinterceptor : (⟨1, 0, .allModules, .ok, ⟨1, none, .native⟩, []⟩ : Interceptor) =
    interceptor at hinterceptors
  have hid : interceptor.loader = 0 := by rw [← hinterceptor]
  have hpolicy : interceptor.policy = .allModules := by rw [← hinterceptor]
  have hstage : interceptor.stage = (importingSetting 1).stage := by
    rw [← hinterceptor]
    rfl
  have hopen : interceptor.CanOpen w.host := by
    refine .inl ?_
    rw [hid, hloader]
    rfl
  obtain ⟨slot, answers, after, hslot, hscope, hafter⟩ := hopen.withScope_fold
    (by rw [hid, hloaders]; exact Nat.zero_lt_one) importingRequests
  rw [htree] at hscope hafter
  have hstart : Transforming 1
      ⟨{ w.host.loader interceptor.loader with slot }, w.host.calls⟩ [] [] := by
    rw [hid, hloader, hcalls]
    exact ⟨rfl, hslot.trans hstage, rfl, rfl, rfl⟩
  -- what the requests come to is too large to be looked into
  generalize hended : importingRequests.foldl
    (fun s request => (request.run (deepTree importing) s).2)
      ⟨{ w.host.loader interceptor.loader with slot }, w.host.calls⟩ = ended at hscope hafter
  obtain ⟨hcached, htwice⟩ := transformed_importing hstart hended.symm
  refine ⟨interceptor, hinterceptors ▸ List.mem_cons_self, hpolicy, hopen, ?_, answers, _, after, _,
    hscope, ?_, hcached, ?_, htwice⟩
  · rw [hid]
    exact congrArg Loader.cache hloader
  · rw [hcalls, List.nil_append]
    exact hafter
  · rw [hpolicy]
    rfl

end Importing

end World

end Interpose
