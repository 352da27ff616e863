import Interpose.Proofs.Chains
import Interpose.Proofs.DeepTree
import Interpose.Proofs.Imports
import Interpose.Proofs.Native
import Interpose.Proofs.Twins

set_option autoImplicit false

namespace Interpose
open Edit

def HostM.answers (id : LoaderId) (requests : List Session.LoadRequest) :
    HostM (List (Outcome ModuleError Module) × Cache) := do
  let answers ← loads id requests
  return (answers, ((← get).loader id).cache)

theorem HostM.answers_apply (id : LoaderId) (requests : List Session.LoadRequest) (host : Host) :
    answers id requests host =
      (((loads id requests host).1, ((loads id requests host).2.loader id).cache),
        (loads id requests host).2) := rfl

theorem Interceptor.CanOpen.withScope_answers {interceptor : Interceptor} {host : Host}
    (h : interceptor.CanOpen host) (hknown : interceptor.loader < host.loaders.length)
    (requests : List Session.LoadRequest) : ∃ entered after, interceptor.Opens host entered ∧
      interceptor.withScope (liftM (HostM.answers interceptor.loader requests)) () host =
        ((.ok (HostM.answers interceptor.loader requests entered).1, ()), after) := by
  obtain ⟨activation, entered, hactivate, hopens⟩ := h.activate hknown
  have hlift := HostedM.lift_apply (HostM.answers interceptor.loader requests) () entered
  exact ⟨entered, _, hopens, Interceptor.withScope_entered hactivate hlift⟩

theorem Policy.exists_marks {tree : FileTree} {layout : Layout} {policy : Policy}
    (h : policy = .allModules ∨ tree.Shallow) : ∃ files, tree.Marks (policy.eligible layout) files := by
  rcases h with rfl | htree
  · exact ⟨fun _ => true, fun _ _ _ _ => rfl⟩
  · exact ⟨_, htree.marks _⟩

namespace World

/-- In a scope that begins with nothing cached, under a policy that goes by paths alone, requests are
answered as a plain loader answers them that is given the files with the selected texts transformed
already, and the same modules are cached after them. -/
theorem scope_rewrites (tree : FileTree) (layouts : List Layout) (events : List Event)
    {interceptor : Interceptor}
    (hmem : interceptor ∈ ((start tree layouts).run events).interceptors) {layout : Layout}
    (hlayout : (((start tree layouts).run events).loader interceptor.loader).layout = layout)
    (hpolicy : interceptor.policy.ByPath layout)
    (hopen : interceptor.CanOpen ((start tree layouts).run events).host)
    (hempty : (((start tree layouts).run events).loader interceptor.loader).cache = []) :
    let eligible := interceptor.policy.eligible layout
    (interceptor.policy = .allModules ∨ tree.Shallow → ∃ files, tree.Marks eligible files) ∧
    ∀ files, tree.Marks eligible files → ∀ requests : List Session.LoadRequest,
      let twin := (HostM.answers 0 requests
        (start (tree.rewrite files interceptor.transformer) [layout]).host).1
      ∃ answers after,
        interceptor.withScope (liftM (HostM.answers interceptor.loader requests)) ()
          ((start tree layouts).run events).host = ((.ok (answers, twin.2), ()), after) ∧
        answers = twin.1.map (Except.mapError (tree.told files interceptor.transformer)) ∧
        (tree.Transformable files interceptor.transformer → answers = twin.1) := by
  intro eligible
  refine ⟨Policy.exists_marks, fun files hmarks requests => ?_⟩
  intro twin
  have hr := rooted_run tree layouts events
  have htree := tree_run tree layouts events
  have hidle := idle_run tree layouts events interceptor.loader
  generalize (start tree layouts).run events = w at *
  have hknown := hr.known interceptor hmem
  obtain ⟨entered, after, hopens, hscope⟩ := hopen.withScope_answers hknown requests
  obtain ⟨slot, hslot, hself⟩ := hopens.loader
  have hstage : (entered.loader interceptor.loader).slot.current.stage =
      .overNative interceptor.id interceptor.policy interceptor.transformer := by
    rw [hself]
    exact hslot.trans (hr.stage hmem)
  have htwins : Twins layout
      (.overNative interceptor.id interceptor.policy interceptor.transformer)
      (entered.loading interceptor.loader)
      ((start (tree.rewrite files interceptor.transformer) [layout]).host.loading 0) := by
    refine ⟨?_, rfl, hstage, rfl, ?_, ?_⟩
    · exact (congrArg Loader.layout hself).trans hlayout
    · exact (congrArg Loader.cache hself).trans hempty
    · exact (congrArg Loader.inFlight hself).trans hidle
  obtain ⟨hanswers, hafter⟩ := HostM.loads_follow hpolicy hmarks (hopens.length ▸ hknown)
    Nat.zero_lt_one (hopens.tree.trans htree) rfl htwins requests
  have hcache : ((HostM.loads interceptor.loader requests entered).2.loader
      interceptor.loader).cache = twin.2 := hafter.cache
  rw [HostM.answers_apply, hcache] at hscope
  refine ⟨_, after, hscope, hanswers, fun htransformable => ?_⟩
  rw [hanswers, FileTree.told_eq htransformable]
  exact List.map_id'' (fun answer => by cases answer <;> rfl) _

def vendoredFiles : FileTree :=
  ⟨[("a.svs", .file (.text "import l from \"l\"; export x = \"p\";")),
    ("solvra_modules", .directory [("l.svs", .file (.text "export y = \"p\";"))])], []⟩

def vendoredLayout : Layout := ⟨some ⟨"/"⟩, defaultDependencyDir, []⟩

def sparingDependencies : List Event := [.build 0 (.code 1) (replaceString "p" "q")]

theorem shallow_vendoredFiles : vendoredFiles.Shallow :=
  ⟨by decide, by simp [vendoredFiles]⟩

theorem scope_rewrites_vendored :
    let w := (start vendoredFiles [vendoredLayout]).run sparingDependencies
    ∃ interceptor ∈ w.interceptors,
      (w.loader interceptor.loader).layout = vendoredLayout ∧
      interceptor.policy.ByPath vendoredLayout ∧ interceptor.CanOpen w.host ∧
      (w.loader interceptor.loader).cache = [] ∧
      ∃ files, vendoredFiles.Marks (interceptor.policy.eligible vendoredLayout) files ∧
        let twin := (HostM.answers 0 [.path ⟨"/a.svs"⟩]
          (start (vendoredFiles.rewrite files interceptor.transformer) [vendoredLayout]).host).1
        ∃ answers after,
          interceptor.withScope (liftM (HostM.answers interceptor.loader [.path ⟨"/a.svs"⟩])) ()
            w.host = ((.ok (answers, twin.2), ()), after) ∧
          answers =
            twin.1.map (Except.mapError (vendoredFiles.told files interceptor.transformer)) ∧
          (vendoredFiles.Transformable files interceptor.transformer → answers = twin.1) := by
  intro w
  have hready : ∃ interceptor ∈ w.interceptors, interceptor.policy = .noDependencies ∧
      (w.loader interceptor.loader).layout = vendoredLayout ∧
      (w.loader interceptor.loader).slot.current.owner = none ∧
      (w.loader interceptor.loader).cache.isEmpty = true := by
    decide
  obtain ⟨interceptor, hmem, hpolicy, hlayout, hfree, hempty⟩ := hready
  have hbyPath : interceptor.policy.ByPath vendoredLayout :=
    ⟨by rw [hpolicy]; exact nofun, fun _ => rfl⟩
  have hcache := List.isEmpty_iff.mp hempty
  obtain ⟨hmarked, hrewrites⟩ := scope_rewrites vendoredFiles [vendoredLayout] sparingDependencies
    hmem hlayout hbyPath (.inl hfree) hcache
  obtain ⟨files, hmarks⟩ := hmarked (.inr shallow_vendoredFiles)
  exact ⟨interceptor, hmem, hlayout, hbyPath, .inl hfree, hcache, files, hmarks,
    hrewrites files hmarks _⟩

section TwoPaths

open FileTree

def deepFile : FileTree := deepTree [("a.svs", .file (.text "export x = \"p\";"))]

def selectedPath : FilePath := ⟨"/q/k/a.svs"⟩

def otherPath : FilePath := ⟨"/r/k/a.svs"⟩

/-- An interceptor that is told to transform the file under one of its paths. -/
def explicitPath : List Event := [.build 0 (.paths [selectedPath]) (replaceString "p" "q")]

def bothPaths : List Session.LoadRequest := [.path selectedPath, .path otherPath]

/-- A file that imports nothing, known under a path as it is written, is compiled from such a
text. -/
structure CompiledFrom (tree : FileTree) (stage : Stage) (path : FilePath) (text : String) :
    Prop where
  isFile : tree.isFile path = true
  canonical : tree.canonical path = path
  importless : CommandLine.importsOf text = []
  compiles : ∃ module, compileNative (m := Id) (fun _ _ => .error (.error (.notFound "")))
    ⟨text, path, none⟩ = .ok module
  compiled : ∀ (require : FilePath → String → Load Module) (s : LoadState),
    s.loader.layout = .withoutEntryDir → s.loader.slot.current.stage = stage →
      ∃ calls, Load.compileFile tree require path none s =
        compileNative (m := StateM LoadState) require ⟨text, path, none⟩ { s with calls }

section CompiledFrom

variable {tree : FileTree} {stage : Stage} {path : FilePath} {text : String}

theorem CompiledFrom.atPath (h : CompiledFrom tree stage path text) {s : LoadState}
    (hlayout : s.loader.layout = .withoutEntryDir) (hstage : s.loader.slot.current.stage = stage)
    (hidle : s.loader.inFlight = []) (huncached : s.loader.cache.get? path.keyed = none)
    (depth : Nat) :
    ∃ module calls, module.fingerprint = fingerprint text ∧
      Load.atPath tree (depth + 1) path none s = (.ok module,
        ⟨{ s.loader with cache := s.loader.cache ++ [(path.keyed, module)] }, calls⟩) := by
  obtain ⟨module, hmodule⟩ := h.compiles
  obtain ⟨calls, hcompiled⟩ := h.compiled (Load.imported tree depth .withoutEntryDir)
    (s.enter path.keyed) hlayout hstage
  rw [compileNative_importless ⟨text, path, none⟩ h.importless _
    (fun _ _ => .error (.error (.notFound ""))), hmodule] at hcompiled
  have hflight : ¬ s.loader.isInFlight path.keyed = true := by
    rw [Loader.isInFlight, hidle]
    exact Bool.false_ne_true
  have hfingerprint := fingerprint_of_compileNative hmodule
  refine ⟨module, calls, hfingerprint, ?_⟩
  rw [Load.atPath_succ huncached hflight, hlayout, Load.compiled_of_ok huncached hcompiled]
  have hleft : List.filter (fun other : KeyedPath => !other.same path.keyed)
      (path.keyed :: s.loader.inFlight) = s.loader.inFlight := by
    rw [hidle, List.filter_cons_of_neg (by simp [KeyedPath.same_self]), List.filter_nil]
  simp only [LoadState.leave, LoadState.enter, hleft]

theorem CompiledFrom.run (h : CompiledFrom tree stage path text) {s : LoadState}
    (hlayout : s.loader.layout = .withoutEntryDir) (hstage : s.loader.slot.current.stage = stage)
    (hidle : s.loader.inFlight = []) (huncached : s.loader.cache.get? path.keyed = none) :
    ∃ module calls, module.fingerprint = fingerprint text ∧
      (Session.LoadRequest.path path).run tree s = (.ok module,
        ⟨{ s.loader with cache := s.loader.cache ++ [(path.keyed, module)] }, calls⟩) := by
  have htarget : (Session.LoadRequest.path path).target tree s.loader.layout = .ok (path, none) := by
    rw [Session.LoadRequest.target, if_pos h.isFile, h.canonical]
  have hchain : Chain tree .withoutEntryDir [] path := .start ⟨path, h.isFile, h.canonical⟩
  obtain ⟨depth, hdepth⟩ := Nat.exists_eq_add_one.mpr (hchain.length_lt rfl)
  rw [Session.LoadRequest.run_apply, htarget, hdepth]
  exact h.atPath hlayout hstage hidle huncached depth

end CompiledFrom

/-- Each of the two paths is loaded from the text that it is compiled from, and has an entry of its
own afterwards. -/
theorem answers_bothPaths {tree : FileTree} {host : Host} {id : LoaderId} {stage : Stage}
    {text text' : String} (htree : host.tree = tree) (hid : id < host.loaders.length)
    (hlayout : (host.loader id).layout = .withoutEntryDir)
    (hstage : (host.loader id).slot.current.stage = stage) (hidle : (host.loader id).inFlight = [])
    (hempty : (host.loader id).cache = [])
    (hfirst : CompiledFrom tree stage selectedPath text)
    (hsecond : CompiledFrom tree stage otherPath text') :
    ((HostM.answers id bothPaths host).1.1.map fun answer =>
      answer.toOption.map ModuleOf.fingerprint) =
        [some (fingerprint text), some (fingerprint text')] ∧
      (HostM.answers id bothPaths host).1.2.map (·.1.path) = [selectedPath, otherPath] := by
  subst htree
  have huncached : (host.loader id).cache.get? selectedPath.keyed = none := by
    rw [hempty]
    rfl
  obtain ⟨module, calls, hmodule, hrun⟩ :=
    hfirst.run (s := host.loading id) hlayout hstage hidle huncached
  have hloading := HostM.loading_load hid (Session.LoadRequest.path selectedPath).run
  have hanswer := HostM.load_fst id (Session.LoadRequest.path selectedPath).run host
  rw [hrun] at hloading hanswer
  rw [HostM.answers_apply, bothPaths, HostM.loads_cons, HostM.loads_cons, hanswer]
  have htree := HostM.tree_load id (Session.LoadRequest.path selectedPath).run host
  have hid' := (length_load host id (.path selectedPath)).symm ▸ hid
  generalize (HostM.load id (Session.LoadRequest.path selectedPath).run host).2 = after at *
  have hdiffer : selectedPath.keyed.same otherPath.keyed = false := by decide
  have hfirstCache : (after.loading id).loader.cache = [(selectedPath.keyed, module)] := by
    rw [hloading]
    change (host.loader id).cache ++ _ = _
    rw [hempty, List.nil_append]
  have huncached' : (after.loading id).loader.cache.get? otherPath.keyed = none := by
    rw [hfirstCache, Cache.get?_eq_none_iff]
    intro entry he
    rw [List.mem_singleton.mp he]
    exact hdiffer
  obtain ⟨module', calls', hmodule', hrun'⟩ := hsecond.run (s := after.loading id)
    (by rw [hloading]; exact hlayout) (by rw [hloading]; exact hstage)
    (by rw [hloading]; exact hidle) huncached'
  have hanswer' := HostM.load_fst id (Session.LoadRequest.path otherPath).run after
  have hloading' := HostM.loading_load hid' (Session.LoadRequest.path otherPath).run
  rw [htree, hrun'] at hanswer' hloading'
  rw [hanswer', ← hmodule, ← hmodule']
  refine ⟨rfl, ?_⟩
  have hcache := congrArg (·.loader.cache.map (·.1.path)) hloading'
  simp only [hfirstCache] at hcache
  exact hcache

theorem loads_bothPaths {tree : FileTree} {host : Host} {id : LoaderId} {stage : Stage}
    {text text' : String} (htree : host.tree = tree) (hid : id < host.loaders.length)
    (hlayout : (host.loader id).layout = .withoutEntryDir)
    (hstage : (host.loader id).slot.current.stage = stage) (hidle : (host.loader id).inFlight = [])
    (hempty : (host.loader id).cache = [])
    (hfirst : CompiledFrom tree stage selectedPath text)
    (hsecond : CompiledFrom tree stage otherPath text') :
    ((HostM.answers id bothPaths host).1.1.map fun answer =>
      answer.toOption.map ModuleOf.fingerprint) =
        [some (fingerprint text), some (fingerprint text')] :=
  (answers_bothPaths htree hid hlayout hstage hidle hempty hfirst hsecond).1

theorem answers_bothPaths_start {tree : FileTree} {text : String}
    (h : ∀ path ∈ [selectedPath, otherPath], CompiledFrom tree .native path text) :
    ((HostM.answers 0 bothPaths (start tree [.withoutEntryDir]).host).1.1.map fun answer =>
      answer.toOption.map ModuleOf.fingerprint) =
        [some (fingerprint text), some (fingerprint text)] ∧
      (HostM.answers 0 bothPaths (start tree [.withoutEntryDir]).host).1.2.map (·.1.path) =
        [selectedPath, otherPath] :=
  answers_bothPaths rfl Nat.zero_lt_one rfl rfl rfl rfl (h _ List.mem_cons_self)
    (h _ (List.mem_cons_of_mem _ List.mem_cons_self))

theorem loads_bothPaths_start {tree : FileTree} {text : String}
    (h : ∀ path ∈ [selectedPath, otherPath], CompiledFrom tree .native path text) :
    ((HostM.answers 0 bothPaths (start tree [.withoutEntryDir]).host).1.1.map fun answer =>
      answer.toOption.map ModuleOf.fingerprint) =
        [some (fingerprint text), some (fingerprint text)] :=
  (answers_bothPaths_start h).1

theorem fingerprints_differ (text : String) :
    [some (fingerprint "export x = \"q\";"), some (fingerprint "export x = \"p\";")] ≠
      [some (fingerprint text), some (fingerprint text)] := by
  have hdiffer : fingerprint "export x = \"q\";" ≠ fingerprint "export x = \"p\";" := by
    decide +kernel
  generalize fingerprint "export x = \"q\";" = first, fingerprint "export x = \"p\";" = second,
    fingerprint text = either at hdiffer ⊢
  simp only [ne_eq, List.cons.injEq, Option.some.injEq, and_true, not_and]
  exact fun hfirst hsecond => hdiffer (hfirst.trans hsecond.symm)

theorem texts_deepFile :
    ∀ text ∈ ["export x = \"p\";", "export x = \"q\";"], CommandLine.importsOf text = [] ∧
      ∀ path ∈ [selectedPath, otherPath],
        (compileNative (m := Id) (fun _ _ => .error (.error (.notFound "")))
          ⟨text, path, none⟩).isOk = true := by
  decide +kernel

theorem transform_deepFile :
    replaceString "p" "q" "export x = \"p\";" = .ok "export x = \"q\";" := by
  decide +kernel

theorem file_deepFile :
    ∀ path ∈ [selectedPath, otherPath],
      deepFile.isFile path = true ∧ deepFile.canonical path = path ∧
        deepFile.read path = some (.text "export x = \"p\";") ∧
          deepFile.placeAt path = some ⟨deepDir ++ [longName] ++ ["a.svs"],
            some (.file (.text "export x = \"p\";"))⟩ := by
  have hnames : names ⟨"q/k/a.svs"⟩ = "q" :: "k" :: ([] ++ ["a.svs"]) := by decide
  have hnames' : names ⟨"r/k/a.svs"⟩ = "r" :: "k" :: ([] ++ ["a.svs"]) := by decide
  have hbytes : String.utf8ByteSize "q/k/a.svs" = 9 := by decide
  have hbytes' : String.utf8ByteSize "r/k/a.svs" = 9 := by decide
  have hselected : slashed 0 "q/k/a.svs" = selectedPath := by decide
  have hother : slashed 0 "r/k/a.svs" = otherPath := by decide
  have hthrough : ∀ path ∈ [selectedPath, otherPath], ThroughLinks "a.svs" path := by
    intro path hpath
    rw [List.mem_pair, ← hselected, ← hother] at hpath
    rcases hpath with rfl | rfl
    · exact throughLinks_slashed hnames (.inl rfl) (by simp) (by rw [hbytes]; decide)
    · exact throughLinks_slashed hnames' (.inr rfl) (by simp) (by rw [hbytes']; decide)
  intro path hpath
  have hname : IsName "a.svs" := by decide
  have hfound : List.lookup "a.svs" [("a.svs", Entry.file (.text "export x = \"p\";"))] =
      some (.file (.text "export x = \"p\";")) := rfl
  obtain ⟨hfile, hcanonical, hread⟩ := (hthrough path hpath).file hname hfound
  refine ⟨hfile, hcanonical, hread, ?_⟩
  rw [placeAt, if_pos (hthrough path hpath).fits]
  exact (hthrough path hpath).placeOf hname hfound

theorem CompiledFrom.of_compiled {tree : FileTree} {stage : Stage} {path : FilePath} {text : String}
    (hpath : path ∈ [selectedPath, otherPath])
    (htext : text ∈ ["export x = \"p\";", "export x = \"q\";"])
    (hfile : tree.isFile path = true) (hcanonical : tree.canonical path = path)
    (hcompiled : ∀ (require : FilePath → String → Load Module) (s : LoadState),
      s.loader.layout = .withoutEntryDir → s.loader.slot.current.stage = stage →
        ∃ calls, Load.compileFile tree require path none s =
          compileNative (m := StateM LoadState) require ⟨text, path, none⟩ { s with calls }) :
    CompiledFrom tree stage path text := by
  obtain ⟨himportless, hcompiles⟩ := texts_deepFile text htext
  refine ⟨hfile, hcanonical, himportless, ?_, hcompiled⟩
  have hok := hcompiles path hpath
  cases hresult : compileNative (m := Id) (fun _ _ => .error (.error (.notFound "")))
    ⟨text, path, none⟩ with
  | error halt =>
    rw [hresult] at hok
    cases hok
  | ok module => exact ⟨module, rfl⟩

/-- Whichever files are marked, the rewritten tree has the same text under both paths. -/
theorem compiledFrom_rewritten (files : Location → Bool) :
    ∃ text, ∀ path ∈ [selectedPath, otherPath],
      CompiledFrom (deepFile.rewrite files (replaceString "p" "q")) .native path text := by
  have hread : ∃ text ∈ ["export x = \"p\";", "export x = \"q\";"],
      ∀ path ∈ [selectedPath, otherPath],
        (deepFile.rewrite files (replaceString "p" "q")).read path = some (.text text) := by
    cases hmarked : files (deepDir ++ [longName] ++ ["a.svs"]) with
    | false =>
      refine ⟨_, List.mem_cons_self, fun path hpath => ?_⟩
      rw [rewrite, read_retext, (file_deepFile path hpath).2.2.2]
      simp only [hmarked, Bool.false_eq_true, if_false]
    | true =>
      refine ⟨_, List.mem_cons_of_mem _ List.mem_cons_self, fun path hpath => ?_⟩
      rw [rewrite, read_retext, (file_deepFile path hpath).2.2.2]
      simp only [hmarked, if_true, Content.rewrite, transform_deepFile]
  obtain ⟨text, htext, hread⟩ := hread
  refine ⟨text, fun path hpath => ?_⟩
  obtain ⟨hfile, hcanonical, _⟩ := file_deepFile path hpath
  refine .of_compiled hpath htext ((isFile_retext ..).trans hfile)
    ((canonical_retext ..).trans hcanonical) fun require s _ hstage => ⟨s.calls, ?_⟩
  exact Load.compileFile_native (hread path hpath) hstage none

theorem selects_explicitPath (requester : Option FilePath) :
    (Policy.ofPaths deepFile [selectedPath]).selects .withoutEntryDir selectedPath requester =
        .ok true ∧
      (Policy.ofPaths deepFile [selectedPath]).selects .withoutEntryDir otherPath requester =
        .ok false := by
  obtain ⟨_, hcanonical, _⟩ := file_deepFile _ List.mem_cons_self
  have hselected : (PathSet.ofPaths [selectedPath.plain.keyed]).contains selectedPath = true := by
    decide
  have hunselected : (PathSet.ofPaths [selectedPath.plain.keyed]).contains otherPath = false := by
    decide
  rw [Policy.ofPaths, List.map_singleton, hcanonical, Policy.selects, Policy.selects, hselected,
    hunselected]
  exact ⟨rfl, rfl⟩

theorem compiledFrom_intercepted (owner : OwnerId) :
    let stage := Stage.overNative owner (Policy.ofPaths deepFile [selectedPath])
      (replaceString "p" "q")
    CompiledFrom deepFile stage selectedPath "export x = \"q\";" ∧
      CompiledFrom deepFile stage otherPath "export x = \"p\";" := by
  intro stage
  constructor
  · obtain ⟨hfile, hcanonical, hread, _⟩ := file_deepFile _ List.mem_cons_self
    refine .of_compiled List.mem_cons_self (List.mem_cons_of_mem _ List.mem_cons_self) hfile
      hcanonical fun require s hlayout hstage => ?_
    obtain ⟨calls, hcompile⟩ := Load.compile_selected require (replaceString "p" "q")
      ⟨"export x = \"p\";", selectedPath, none⟩ (selects_explicitPath none).1 s
    rw [transform_deepFile] at hcompile
    refine ⟨calls, ?_⟩
    rw [Load.compileFile_text hread, hlayout, hstage]
    exact hcompile
  · obtain ⟨hfile, hcanonical, hread, _⟩ :=
      file_deepFile _ (List.mem_cons_of_mem _ List.mem_cons_self)
    refine .of_compiled (List.mem_cons_of_mem _ List.mem_cons_self) List.mem_cons_self hfile
      hcanonical fun require s hlayout hstage => ⟨s.calls, ?_⟩
    rw [Load.compileFile_text hread, hlayout, hstage]
    exact Load.compile_unselected ⟨"export x = \"p\";", otherPath, none⟩
      (selects_explicitPath none).2 s

theorem run_explicitPath (tree : FileTree) :
    let w := (start tree [.withoutEntryDir]).run explicitPath
    w.interceptors = [⟨1, 0, Policy.ofPaths tree [selectedPath], replaceString "p" "q",
      ⟨1, none, .native⟩, []⟩] ∧
      w.host.loaders = [.ofLayout .withoutEntryDir] ∧ w.host.tree = tree :=
  ⟨rfl, rfl, rfl⟩

/-- In the scope the file is transformed under the one path and not under the other one. No tree of
files has both texts, whether the file is marked in it or not. -/
theorem scope_unlike_rewritten :
    let w := (start deepFile [.withoutEntryDir]).run explicitPath
    ∃ interceptor ∈ w.interceptors, interceptor.policy.ByPath .withoutEntryDir ∧
      interceptor.CanOpen w.host ∧ (w.loader interceptor.loader).cache = [] ∧
      interceptor.transformer "export x = \"p\";" = .ok "export x = \"q\";" ∧
      ∃ answers cache after,
        interceptor.withScope (liftM (HostM.answers interceptor.loader bothPaths)) () w.host =
          ((.ok (answers, cache), ()), after) ∧
        ∀ files, answers ≠ (HostM.answers 0 bothPaths
          (start (deepFile.rewrite files interceptor.transformer) [.withoutEntryDir]).host).1.1 := by
  intro w
  obtain ⟨hinterceptors, hloaders, htree⟩ :
      w.interceptors = _ ∧ w.host.loaders = _ ∧ w.host.tree = _ := run_explicitPath deepFile
  clear_value w
  have hloader : w.host.loader 0 = .ofLayout .withoutEntryDir := by
    rw [Host.loader, hloaders]
    rfl
  generalize hinterceptor : (⟨1, 0, Policy.ofPaths deepFile [selectedPath],
    replaceString "p" "q", ⟨1, none, .native⟩, []⟩ : Interceptor) = interceptor at hinterceptors
  have hid : interceptor.loader = 0 := by rw [← hinterceptor]
  have htransformer : interceptor.transformer = replaceString "p" "q" := by rw [← hinterceptor]
  have hbyPath : interceptor.policy.ByPath .withoutEntryDir := by
    rw [← hinterceptor]
    exact ⟨by simp [Policy.ofPaths], by simp [Policy.ofPaths]⟩
  have hopen : interceptor.CanOpen w.host := by
    refine .inl ?_
    rw [hid, hloader]
    rfl
  obtain ⟨entered, after, hopens, hscope⟩ := hopen.withScope_answers
    (by rw [hid, hloaders]; exact Nat.zero_lt_one) bothPaths
  refine ⟨interceptor, hinterceptors ▸ List.mem_cons_self, hbyPath, hopen, ?_, ?_,
    (HostM.answers interceptor.loader bothPaths entered).1.1, _, after, hscope, fun files hsame => ?_⟩
  · exact congrArg Loader.cache (hid ▸ hloader)
  · rw [htransformer, transform_deepFile]
  obtain ⟨slot, hslot, hself⟩ := hopens.loader
  rw [hid, show w.host.loader 0 = _ from hloader] at hself
  have hstage : (entered.loader 0).slot.current.stage = .overNative 1
      (Policy.ofPaths deepFile [selectedPath]) (replaceString "p" "q") := by
    rw [hself]
    exact hslot.trans (congrArg Interceptor.stage hinterceptor.symm)
  obtain ⟨hfirst, hsecond⟩ := compiledFrom_intercepted 1
  have hanswers := loads_bothPaths (hopens.tree.trans htree)
    (by rw [hopens.length, hloaders]; exact Nat.zero_lt_one) (by rw [hself]; rfl) hstage
    (by rw [hself]; rfl) (by rw [hself]; rfl) hfirst hsecond
  obtain ⟨text, htext⟩ := compiledFrom_rewritten files
  have htwin := loads_bothPaths_start htext
  rw [← htransformer, ← hsame, hid, hanswers] at htwin
  exact fingerprints_differ text htwin

end TwoPaths

end World

end Interpose
