import Mathlib.Data.List.Induction
import Interpose.Proofs.LoadCalls

set_option autoImplicit false

namespace Interpose
open Script Edit

/-- Every entry was compiled by a load of its path, and by one of those in question. -/
def Cache.MadeBy (cache : Cache) (tree : FileTree) (calls : LoadCall → Prop) : Prop :=
  ∀ entry ∈ cache, ∃ origin content passed, calls origin ∧ origin.path.keyed = entry.1 ∧
    origin.Makes tree content passed entry.2

section Origins

variable {tree : FileTree} {calls : LoadCall → Prop}
  (himports : ∀ {importer call}, calls importer → importer.Imports tree call → calls call)

theorem keep_madeBy
    (hstage : ∀ call, calls call → call.start.loader.slot.current.stage.Transforms) :
    LoadCall.Keep calls tree fun cache => cache.MadeBy tree calls := by
  intro call module cache hcall huncached hrun _ hcache entry he
  rcases List.mem_append.mp he with he | he
  · exact hcache entry he
  · obtain ⟨content, passed, hmakes⟩ := LoadCall.makes_of_run (hstage call hcall) huncached hrun
    rw [List.mem_singleton.mp he]
    exact ⟨call, content, passed, hcall, rfl, hmakes⟩

include himports

theorem madeBy_run
    (hstage : ∀ call, calls call → call.start.loader.slot.current.stage.Transforms)
    {call : LoadCall} (hcall : calls call)
    (hcache : call.start.loader.cache.MadeBy tree calls) :
    (call.run tree).2.loader.cache.MadeBy tree calls ∧
      (call.cached = none → ∀ module, (call.run tree).1 = .ok module →
        ∃ content passed, call.Makes tree content passed module) :=
  ⟨kept_run himports (keep_madeBy hstage) hcall hcache,
    fun huncached _ hrun => LoadCall.makes_of_run (hstage call hcall) huncached hrun⟩

theorem madeBy_reached
    (hstage : ∀ call, calls call → call.start.loader.slot.current.stage.Transforms)
    {importer call : LoadCall} (himporter : calls importer)
    (hcache : importer.start.loader.cache.MadeBy tree calls)
    (h : importer.Imports tree call) : call.start.loader.cache.MadeBy tree calls :=
  kept_reached himports (keep_madeBy hstage) himporter hcache h

end Origins

namespace LoadCall

/-- The loads that requests to a loader consist of. -/
inductive Executed (id : LoaderId) (host : Host) (requests : List Session.LoadRequest) :
    LoadCall → Prop where
  | asked {before after : List Session.LoadRequest} {request : Session.LoadRequest}
      {path : FilePath} {requester : Option FilePath}
      (split : requests = before ++ request :: after)
      (target : request.target host.tree (host.loader id).layout = .ok (path, requester)) :
      Executed id host requests
        ⟨Load.maxDepth, path, requester, (HostM.loads id before host).2.loading id⟩
  | imported {importer call : LoadCall} (within : Executed id host requests importer)
      (imports : importer.Imports host.tree call) : Executed id host requests call

end LoadCall

structure Host.Requested (host : Host) (id : LoaderId) (before : Host) : Prop where
  known : id < host.loaders.length
  tree : host.tree = before.tree
  loader : (host.loader id).Extends (before.loader id)

section Executed

variable {id : LoaderId} {host : Host} {requests : List Session.LoadRequest}

theorem requested_load {after : Host} (h : after.Requested id host)
    (request : Session.LoadRequest) :
    (HostM.load id request.run after).2.Requested id host :=
  ⟨(World.length_load ..).symm ▸ h.known, h.tree,
    (HostM.extends_load (request.adds_run after.tree) id id).trans h.loader⟩

theorem requested_loads (hid : id < host.loaders.length) (requests : List Session.LoadRequest) :
    (HostM.loads id requests host).2.Requested id host := by
  induction requests using List.reverseRecOn with
  | nil => exact ⟨hid, rfl, .refl _⟩
  | append_singleton before request ih =>
    rw [HostM.loads_concat]
    exact requested_load ih request

theorem LoadCall.Executed.start (hid : id < host.loaders.length) {call : LoadCall}
    (h : call.Executed id host requests) :
    call.start.loader.layout = (host.loader id).layout ∧
      call.start.loader.slot = (host.loader id).slot := by
  induction h with
  | @asked before =>
    have hloader := (requested_loads hid before).loader
    exact ⟨hloader.layout, hloader.slot⟩
  | imported within imports ih =>
    exact ⟨imports.extends.1.trans ih.1, imports.extends.2.trans ih.2⟩

theorem LoadCall.Executed.madeBy (hid : id < host.loaders.length)
    (hstage : (host.loader id).slot.current.stage.Transforms) (hempty : (host.loader id).cache = [])
    {call : LoadCall} (h : call.Executed id host requests) :
    call.start.loader.cache.MadeBy host.tree (Executed id host requests) := by
  have hstages : ∀ call, Executed id host requests call →
      call.start.loader.slot.current.stage.Transforms := by
    intro call hcall
    rw [(hcall.start hid).2]
    exact hstage
  induction h with
  | @asked before after request _ _ split target =>
    clear target
    induction before using List.reverseRecOn generalizing request after with
    | nil =>
      intro entry he
      rw [show ((HostM.loads id [] host).2.loading id).loader.cache = [] from hempty] at he
      exact absurd he List.not_mem_nil
    | append_singleton before last ih =>
      rw [List.append_assoc] at split
      have hbefore := ih split
      have hrequested := requested_loads hid before
      rw [HostM.loads_concat, HostM.loading_load hrequested.known, hrequested.tree,
        Session.LoadRequest.run_apply]
      cases htarget : last.target host.tree
          ((HostM.loads id before host).2.loading id).loader.layout with
      | error error => exact hbefore
      | ok found =>
        obtain ⟨path, requester⟩ := found
        have hlayout : ((HostM.loads id before host).2.loading id).loader.layout =
            (host.loader id).layout := hrequested.loader.layout
        have hcall : Executed id host requests ⟨Load.maxDepth, path, requester,
            (HostM.loads id before host).2.loading id⟩ := .asked split (hlayout ▸ htarget)
        have hrun := (madeBy_run .imported hstages hcall hbefore).1
        simp only [LoadCall.run] at hrun
        exact hrun
  | imported within imports ih => exact madeBy_reached .imported hstages within ih imports

end Executed

/-- The host, or a module that no dependency directory is on the way to. -/
def Layout.isFirstParty (layout : Layout) (entryDir : FilePath) (requester : Option FilePath) :
    Bool :=
  requester.all fun requester => !(FilePath.isDependency entryDir requester layout.dependencyDir)

theorem Stage.passOn_decided {layout : Layout} {owner : OwnerId} {policy : Policy}
    {transformer : Transformer} {id : StageId} {request passed : StageInput} {s t : LoadState}
    {selected : Bool}
    (hselects : policy.selects layout request.path request.requester = .ok selected)
    (h : (Stage.intercepting owner policy transformer ⟨id, none, .native⟩).passOn layout request s =
      some (passed, t)) :
    if selected then transformer request.content = .ok passed.content
    else passed.content = request.content := by
  unfold passOn at h
  rw [hselects] at h
  cases selected with
  | false =>
    simp only [passOn] at h
    cases h
    rfl
  | true =>
    cases htext : transformer request.content with
    | error halt =>
      simp only [htext] at h
      cases h
    | ok content =>
      simp only [htext, passOn] at h
      cases h
      rfl

theorem Stage.passOn_topLevel {layout : Layout} {entryDir : FilePath}
    (hentry : layout.entryDir = some entryDir) {owner : OwnerId} {transformer : Transformer}
    {id : StageId} {request passed : StageInput} {s t : LoadState}
    (h : (Stage.intercepting owner .topLevelDependencies transformer ⟨id, none, .native⟩).passOn
      layout request s = some (passed, t)) :
    if layout.isFirstParty entryDir request.requester then
      transformer request.content = .ok passed.content
    else passed.content = request.content := by
  refine passOn_decided ?_ h
  simp only [Policy.selects, hentry]
  rfl

namespace World

/-- In a scope under the policy that looks at requesters, begun with nothing cached: each load that
yields a module yields the one that a load of its path compiled, which is the load itself if the path
was not cached; and the requester of the load that compiled it decides which text it was compiled
from. -/
theorem requester_decides (tree : FileTree) (layouts : List Layout) (events : List Event)
    {interceptor : Interceptor}
    (hmem : interceptor ∈ ((start tree layouts).run events).interceptors)
    (hpolicy : interceptor.policy = .topLevelDependencies)
    (hopen : interceptor.CanOpen ((start tree layouts).run events).host)
    (hempty : (((start tree layouts).run events).loader interceptor.loader).cache = [])
    {entryDir : FilePath}
    (hentry : (((start tree layouts).run events).loader interceptor.loader).layout.entryDir =
      some entryDir) :
    ∃ activation entered,
      interceptor.activate ((start tree layouts).run events).host = (.ok activation, entered) ∧
      ∀ (requests : List Session.LoadRequest) (call : LoadCall) (module : Module) (t : LoadState),
        call.Executed interceptor.loader entered requests → call.run tree = (.ok module, t) →
        ∃ origin content passed, origin.Executed interceptor.loader entered requests ∧
          origin.path.same call.path = true ∧ (call.cached = none → origin = call) ∧
          (∀ kept, call.cached = some kept → module = kept) ∧
          origin.Makes tree content passed module ∧
          if call.start.loader.layout.isFirstParty entryDir origin.requester then
            interceptor.transformer content = .ok passed.content
          else passed.content = content := by
  have hr := rooted_run tree layouts events
  have htree := tree_run tree layouts events
  generalize (start tree layouts).run events = w at *
  have hknown := hr.known interceptor hmem
  obtain ⟨activation, entered, hactivate, hopens⟩ := hopen.activate hknown
  obtain ⟨slot, hslot, hself⟩ := hopens.loader
  have hlength : interceptor.loader < entered.loaders.length := hopens.length ▸ hknown
  have hslot : (entered.loader interceptor.loader).slot.current.stage =
      .intercepting interceptor.id .topLevelDependencies interceptor.transformer
        ⟨1, none, .native⟩ := by
    rw [hself, ← hpolicy]
    exact hslot.trans (hr.stage hmem)
  have hlayout : (entered.loader interceptor.loader).layout =
      (w.loader interceptor.loader).layout := by rw [hself]
  have hcache : (entered.loader interceptor.loader).cache = [] := by
    rw [hself]
    exact hempty
  have hstage : (entered.loader interceptor.loader).slot.current.stage.Transforms :=
    hslot ▸ trivial
  have htransforms : ∀ {requests call},
      LoadCall.Executed interceptor.loader entered requests call →
        call.start.loader.slot.current.stage.Transforms := by
    intro requests call hcall
    rw [(hcall.start hlength).2]
    exact hstage
  refine ⟨activation, entered, hactivate, fun requests call module t hcall hload => ?_⟩
  have htree : entered.tree = tree := hopens.tree.trans htree
  have hmade := hcall.madeBy hlength hstage hcache
  -- whichever load made the module, what was passed on is as its requester has it
  have hpassed : ∀ {origin content passed},
      LoadCall.Executed interceptor.loader entered requests origin →
      origin.Makes tree content passed module →
      if call.start.loader.layout.isFirstParty entryDir origin.requester then
        interceptor.transformer content = .ok passed.content
      else passed.content = content := by
    intro origin content passed horigin hmakes
    obtain ⟨depth, s, u, hcompiles, _⟩ := hmakes
    have hthrough := hcompiles.passed
    rw [(horigin.start hlength).1, (horigin.start hlength).2, hslot, hlayout] at hthrough
    rw [(hcall.start hlength).1, hlayout]
    exact Stage.passOn_topLevel hentry hthrough
  cases hcached : call.cached with
  | none =>
    have hrun := (madeBy_run LoadCall.Executed.imported (fun _ => htransforms) hcall hmade).2 hcached
      module
    rw [htree, hload] at hrun
    obtain ⟨content, passed, hmakes⟩ := hrun rfl
    exact ⟨call, content, passed, hcall, beq_self_eq_true _, fun _ => rfl,
      fun kept hkept => (by cases hkept), hmakes, hpassed hcall hmakes⟩
  | some kept =>
    have hkept := LoadCall.run_cached hcached tree
    obtain ⟨rfl, rfl⟩ : kept = module ∧ call.start = t := by
      rw [hkept] at hload
      exact ⟨Except.ok.inj (Prod.mk.inj hload).1, (Prod.mk.inj hload).2⟩
    obtain ⟨key, hentry, hsame⟩ := Cache.mem_of_get? hcached
    obtain ⟨origin, content, passed, horigin, hpath, hmakes⟩ := hmade _ hentry
    rw [htree] at hmakes
    refine ⟨origin, content, passed, horigin, ?_, fun hnone => (by cases hnone),
      fun other hother => Option.some.inj hother, hmakes, hpassed horigin hmakes⟩
    have hkey : origin.path.keyed = key := hpath
    rw [← hkey, KeyedPath.same_eq] at hsame
    exact hsame

def sharedModule : FileTree :=
  ⟨[("solvra_modules", .directory
      [("w.svs", .file (.text "import l from \"l\"; export y = 1;")),
        ("l.svs", .file (.text "export x = \"p\";"))])], []⟩

def rootLayout : Layout := ⟨some ⟨"/"⟩, defaultDependencyDir, []⟩

def byRequester : List Event := [.build 0 (.code 2) (replaceString "p" "q")]

def sharedRequests : List Session.LoadRequest :=
  [.path ⟨"/solvra_modules/w.svs"⟩, .path ⟨"/solvra_modules/l.svs"⟩]

def sharedLoad (id : LoaderId) (entered : Host) : LoadCall :=
  ⟨Load.maxDepth, ⟨"/solvra_modules/l.svs"⟩, none,
    (HostM.loads id (sharedRequests.take 1) entered).2.loading id⟩

theorem requester_decides_shared :
    let w := (start sharedModule [rootLayout]).run byRequester
    ∃ interceptor ∈ w.interceptors, interceptor.policy = .topLevelDependencies ∧
      ∃ activation entered, interceptor.activate w.host = (.ok activation, entered) ∧
      ∃ module t, (sharedLoad interceptor.loader entered).Executed interceptor.loader entered
          sharedRequests ∧
        (sharedLoad interceptor.loader entered).run sharedModule = (.ok module, t) ∧
        ∃ (origin : LoadCall) (content : String) (passed : StageInput),
          origin.Executed interceptor.loader entered sharedRequests ∧
          origin.path.same ⟨"/solvra_modules/l.svs"⟩ = true ∧
          origin.Makes sharedModule content passed module ∧
          if rootLayout.isFirstParty ⟨"/"⟩ origin.requester then
            interceptor.transformer content = .ok passed.content
          else passed.content = content := by
  intro w
  have hready : ∃ interceptor ∈ w.interceptors, interceptor.policy = .topLevelDependencies ∧
      (w.loader interceptor.loader).slot.current.owner = none ∧
      (w.loader interceptor.loader).cache.isEmpty = true ∧
      (w.loader interceptor.loader).layout = rootLayout ∧
      let entered := (interceptor.activate w.host).2
      (Session.LoadRequest.path ⟨"/solvra_modules/l.svs"⟩).target entered.tree
        (entered.loader interceptor.loader).layout = .ok (⟨"/solvra_modules/l.svs"⟩, none) ∧
      (sharedLoad interceptor.loader entered).start.loader.layout = rootLayout ∧
      (sharedLoad interceptor.loader entered).cached.isSome = true := by
    decide +kernel
  obtain ⟨interceptor, hmem, hpolicy, hfree, hempty, hlayout, hready⟩ := hready
  obtain ⟨activation, entered, hactivate, hdecides⟩ := requester_decides sharedModule [rootLayout]
    byRequester hmem hpolicy (.inl hfree) (List.isEmpty_iff.mp hempty)
    (congrArg Layout.entryDir hlayout)
  have hentered : (interceptor.activate w.host).2 = entered := congrArg Prod.snd hactivate
  rw [hentered] at hready
  obtain ⟨htarget, hlayout, hcached⟩ := hready
  obtain ⟨kept, hkept⟩ := Option.isSome_iff_exists.mp hcached
  have hcall : (sharedLoad interceptor.loader entered).Executed interceptor.loader entered
      sharedRequests := .asked rfl htarget
  have hrun : (sharedLoad interceptor.loader entered).run sharedModule =
      (.ok kept, (sharedLoad interceptor.loader entered).start) :=
    LoadCall.run_cached hkept sharedModule
  obtain ⟨origin, content, passed, horigin, hsame, _, _, hmakes, htext⟩ :=
    hdecides sharedRequests _ kept _ hcall hrun
  rw [hlayout] at htext
  exact ⟨interceptor, hmem, hpolicy, activation, entered, hactivate, kept, _, hcall, hrun,
    origin, content, passed, horigin, hsame, hmakes, htext⟩

/-- The host is given the module that was compiled for a module in a dependency directory, from the
text in the file. -/
theorem host_given_original :
    let w := (start sharedModule [rootLayout]).run byRequester
    ∃ interceptor ∈ w.interceptors, interceptor.policy = .topLevelDependencies ∧
      interceptor.transformer "export x = \"p\";" = .ok "export x = \"q\";" ∧
      fingerprint "export x = \"q\";" ≠ fingerprint "export x = \"p\";" ∧
      ((HostM.loads interceptor.loader sharedRequests
        (interceptor.activate w.host).2).1.map fun answer =>
          answer.toOption.map ModuleOf.fingerprint)[1]? =
        some (some (fingerprint "export x = \"p\";")) := by
  decide +kernel

end World

end Interpose
