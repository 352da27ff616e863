import Interpose.Proofs.History

set_option autoImplicit false

namespace Interpose
open Script

namespace Load

/-- From any state with the invariant, the load leaves one with the invariant, and if it fails, it
fails in one of these ways. -/
def FailsBy (inv : LoadState → Prop) (ways : Halt ModuleError → Prop) {α : Type} (load : Load α) :
    Prop :=
  ∀ s, inv s → inv (load s).2 ∧ ∀ halt, (load s).1 = .error halt → ways halt

section FailsBy

variable {inv : LoadState → Prop} {ways : Halt ModuleError → Prop} {α β : Type}

theorem failsBy_pure (value : α) : FailsBy inv ways (pure value) :=
  fun _ hs => ⟨hs, fun _ h => by cases h⟩

theorem failsBy_throw {halt : Halt ModuleError} (h : ways halt) :
    FailsBy inv ways (throw halt : Load α) :=
  fun _ hs => ⟨hs, fun _ heq => by cases heq; exact h⟩

theorem FailsBy.bind {load : Load α} {next : α → Load β} (h : FailsBy inv ways load)
    (hnext : ∀ value, FailsBy inv ways (next value)) : FailsBy inv ways (load >>= next) := by
  intro s hs
  obtain ⟨hafter, hfails⟩ := h s hs
  rcases hload : load s with ⟨halt | value, t⟩
  all_goals rw [hload] at hafter hfails
  · rw [bind_of_error hload]
    exact ⟨hafter, fun _ heq => by cases heq; exact hfails halt rfl⟩
  · rw [bind_of_ok hload]
    exact hnext value t hafter

theorem failsBy_evaluate {path : FilePath} {require : String → Load Module}
    (hways : ∀ fault, ways (.error (.evaluate path fault))) {statements : List Stmt}
    (h : ∀ {binding source span}, Stmt.imports binding source span ∈ statements →
      FailsBy inv ways (require source.value)) (scope : Scope) (exports : Exports) :
    FailsBy inv ways
      (evaluate (m := StateM LoadState) path require statements scope exports) :=
  evaluate_related (fun load _ => FailsBy inv ways load) require require failsBy_pure
    (fun fault => failsBy_throw (hways fault)) (fun hmem _ _ => (h hmem).bind) scope exports

theorem failsBy_compileNative {require : FilePath → String → Load Module} {request : StageInput}
    (hparse : ∀ cause, ways (.error (.parse request.path cause)))
    (hways : ∀ fault, ways (.error (.evaluate request.path fault)))
    (h : ∀ specifier ∈ CommandLine.importsOf request.content,
      FailsBy inv ways (require request.path specifier)) :
    FailsBy inv ways (compileNative (m := StateM LoadState) require request) := by
  unfold compileNative
  cases hprogram : parseText request.content with
  | error cause => exact failsBy_throw (hparse cause)
  | ok program =>
    exact (failsBy_evaluate hways (fun hmem => h _ (mem_importsOf hprogram hmem)) [] []).bind
      fun _ => failsBy_pure _

end FailsBy

end Load

structure Loader.IsPlain (layout : Layout) (flight : List KeyedPath) (loader : Loader) : Prop where
  ofLayout : loader.layout = layout
  inFlight : loader.inFlight = flight
  stage : loader.slot.current.stage = .native

theorem Loader.IsPlain.extended {layout : Layout} {flight : List KeyedPath} {loader later : Loader}
    (h : loader.IsPlain layout flight) (hextends : later.Extends loader) :
    later.IsPlain layout flight :=
  ⟨hextends.layout.trans h.ofLayout, hextends.inFlight.trans h.inFlight, by
    rw [hextends.slot, h.stage]⟩

/-- Imports lead from the first module to the other one, which leads back to itself under some path
that counts as the same; such a path is in flight or lies on the way. -/
structure FileTree.LeadsBack (tree : FileTree) (layout : Layout) (flight : List KeyedPath)
    (path found : FilePath) : Prop where
  reached : Relation.ReflTransGen (tree.Imports layout) path found
  again : ∃ key : KeyedPath, key.same found.keyed = true ∧
    Relation.TransGen (tree.Imports layout) key.path found ∧
    (key ∈ flight ∨ Relation.ReflTransGen (tree.Imports layout) path key.path)

section Sound

variable {tree : FileTree} {layout : Layout} {flight : List KeyedPath} {path found : FilePath}

theorem FileTree.LeadsBack.before {importer : FilePath}
    (h : tree.LeadsBack layout (importer.keyed :: flight) path found)
    (himports : tree.Imports layout importer path) :
    tree.LeadsBack layout flight importer found := by
  obtain ⟨hreached, key, hsame, hleads, hkey⟩ := h
  refine ⟨.head himports hreached, key, hsame, hleads, ?_⟩
  rcases hkey with hkey | hkey
  · rcases List.mem_cons.mp hkey with rfl | hkey
    · exact .inr .refl
    · exact .inl hkey
  · exact .inr (.head himports hkey)

theorem Chain.leadsBack (h : Chain tree layout flight path)
    (hflight : flight.any path.keyed.same = true) : tree.LeadsBack layout flight path path := by
  obtain ⟨key, hkey, hsame⟩ := List.any_eq_true.mp hflight
  exact ⟨.refl, key, (key.same_comm _).trans hsame, (h.importer hkey).2, .inl hkey⟩

namespace Load

theorem cyclic_atPath (depth : Nat) (requester : Option FilePath)
    (hchain : Chain tree layout flight path) (hdepth : maxDepth ≤ flight.length + depth) :
    FailsBy (fun s => s.loader.IsPlain layout flight)
      (fun halt => ∀ found, halt = .error (.cyclic found) →
        tree.LeadsBack layout flight path found)
      (atPath tree depth path requester) := by
  induction depth using Nat.strongRecOn generalizing path requester flight with
  | _ depth ih =>
  intro s hs
  refine ⟨hs.extended (adds_atPath tree depth path requester s), fun halt hhalt found hfound => ?_⟩
  subst hfound
  cases hcached : s.loader.cache.get? path.keyed with
  | some module =>
    rw [atPath_cached hcached] at hhalt
    cases hhalt
  | none =>
    cases hidle : flight.any path.keyed.same with
    | true =>
      have hflight : s.loader.isInFlight path.keyed = true := by
        rw [Loader.isInFlight, hs.inFlight, hidle]
      rw [atPath_inFlight hcached hflight] at hhalt
      cases hhalt
      exact hchain.leadsBack hidle
    | false =>
      have hflight : s.loader.isInFlight path.keyed = false := by
        rw [Loader.isInFlight, hs.inFlight, hidle]
      obtain ⟨below, rfl, hdeeper⟩ := hchain.room hidle hdepth
      have hentered : (s.enter path.keyed).loader.IsPlain layout (path.keyed :: flight) :=
        ⟨hs.ofLayout, congrArg _ hs.inFlight, hs.stage⟩
      rw [atPath_succ hcached (by rw [hflight]; decide), hs.ofLayout, compiled_apply] at hhalt
      rcases htext : tree.read path with _ | content | _
      · rw [compileFile_unread (by simp [htext])] at hhalt
        cases hhalt
      · have himports : ∀ specifier ∈ CommandLine.importsOf content,
            FailsBy (fun s => s.loader.IsPlain layout (path.keyed :: flight))
              (fun halt => ∀ found, halt = .error (.cyclic found) →
                tree.LeadsBack layout flight path found)
              (imported tree below layout path specifier) := by
          intro specifier hspecifier
          unfold imported
          cases hfile : layout.resolve tree specifier (some path) with
          | error error =>
            refine failsBy_throw fun found hfound => ?_
            rw [Layout.resolve_error hfile] at hfound
            cases hfound
          | ok file =>
            have hstated : tree.Imports layout path file := .stated htext hspecifier hfile
            intro t ht
            obtain ⟨hafter, hfails⟩ := ih below (Nat.lt_succ_self below) (some path)
              (.deeper hchain hidle hstated) hdeeper t ht
            exact ⟨hafter, fun halt hhalt found hfound =>
              (hfails halt hhalt found hfound).before hstated⟩
        have hcompile : FailsBy _ _ (compileNative (m := StateM LoadState)
            (imported tree below layout) ⟨content, path, requester⟩) :=
          failsBy_compileNative (fun cause found hfound => by cases hfound)
            (fun fault found hfound => by cases hfound) himports
        have hcompile := hcompile (s.enter path.keyed) hentered
        rw [← compileFile_native htext hentered.stage] at hcompile
        rcases hrun : compileFile tree (imported tree below layout) path requester
          (s.enter path.keyed) with ⟨halt | module, t⟩
        all_goals rw [hrun] at hhalt hcompile
        · cases hhalt
          exact hcompile.2 _ rfl found rfl
        · cases hhalt
      · rw [compileFile_unread (by simp [htext])] at hhalt
        cases hhalt

end Load

theorem Session.LoadRequest.cyclic_run {request : LoadRequest} {requester : Option FilePath}
    {s : LoadState} (hs : s.loader.IsPlain layout [])
    (htarget : request.target tree layout = .ok (path, requester))
    (h : (request.run tree s).1 = .error (.error (.cyclic found))) :
    tree.LeadsBack layout [] path found := by
  rw [run_apply, hs.ofLayout, htarget] at h
  exact (Load.cyclic_atPath Load.maxDepth requester (.start (loadable_target htarget))
    (Nat.le_add_left ..) s hs).2 _ h found rfl

end Sound

section Exact

variable {tree : FileTree} {layout : Layout} {path : FilePath} {module : Module}

theorem Settled.onward (h : Settled tree layout path module) {other : FilePath}
    (hreaches : Relation.ReflTransGen (tree.Imports layout) path other) :
    ∃ part, Settled tree layout other part := by
  induction hreaches with
  | refl => exact ⟨module, h⟩
  | tail _ himports ih =>
    obtain ⟨part, hpart⟩ := ih
    cases hpart with
    | compiled parts file text made resolved settled =>
      obtain ⟨text', stated, resolved'⟩ := himports
      cases text.symm.trans text'
      obtain ⟨inner, hinner⟩ := compileNative_answered made _ stated
      cases (resolved _ inner hinner).symm.trans resolved'
      exact ⟨inner, settled _ inner hinner⟩

def FileTree.ReachesCycle (tree : FileTree) (layout : Layout) (path : FilePath) : Prop :=
  ∃ found, Relation.ReflTransGen (tree.Imports layout) path found ∧
    Relation.TransGen (tree.Imports layout) found found

theorem Settled.reachesNoCycle (h : Settled tree layout path module) :
    ¬ tree.ReachesCycle layout path := by
  rintro ⟨found, hreaches, hcycle⟩
  obtain ⟨part, hpart⟩ := h.onward hreaches
  exact hpart.acyclic hcycle

theorem FileTree.Loadable.onward (h : tree.Loadable path) {other : FilePath}
    (hreaches : Relation.ReflTransGen (tree.Imports layout) path other) : tree.Loadable other := by
  cases hreaches with
  | refl => exact h
  | tail _ himports =>
    obtain ⟨_, _, resolved⟩ := himports
    exact Layout.loadable_of_resolve resolved

theorem FileTree.LeadsBack.onCycle {found : FilePath} (h : tree.LeadsBack layout [] path found)
    (hspelling : tree.OneSpelling) (hpath : tree.Loadable path) :
    Relation.TransGen (tree.Imports layout) found found := by
  obtain ⟨hreached, key, hsame, hleads, hkey⟩ := h
  have hreaches := hkey.resolve_left List.not_mem_nil
  rw [KeyedPath.same_eq] at hsame
  have hfound : key.path = found := hspelling (hpath.onward hreaches) (hpath.onward hreached) hsame
  exact hfound ▸ hleads

end Exact

namespace World

theorem isPlain_start (tree : FileTree) (layouts : List Layout) (id : LoaderId) :
    ((start tree layouts).loader id).IsPlain ((start tree layouts).loader id).layout [] :=
  let settled := isSettled_start tree layouts id
  ⟨settled.ofLayout, settled.inFlight, settled.stage⟩

theorem isPlain_run (tree : FileTree) (layouts : List Layout) {events : List Event}
    (h : ∀ event ∈ events, event.isPlain = true) (id : LoaderId) :
    (((start tree layouts).run events).loader id).IsPlain
      ((start tree layouts).loader id).layout [] := by
  refine run_induction (p := fun w => (w.loader id).IsPlain
    ((start tree layouts).loader id).layout []) (isPlain_start tree layouts id) ?_
  intro w event he hw
  have retained : ∀ loader keep, ((HostM.retain loader keep w.host).2.loader id).IsPlain
      ((start tree layouts).loader id).layout [] := by
    intro loader keep
    refine Host.loader_setLoader_of (p := fun loader => loader.IsPlain _ []) hw fun heq => ?_
    subst heq
    exact ⟨hw.ofLayout, hw.inFlight, hw.stage⟩
  cases event with
  | load loader request =>
    exact hw.extended (HostM.extends_load (request.adds_run w.host.tree) loader id)
  | evict loader path => exact retained loader _
  | retain loader keep => exact retained loader keep
  | _ => exact absurd (h _ he) (by simp [Event.isPlain])

/-- A load that reports a cycle names a module that the requested one leads to and that leads back
to itself, maybe under another spelling. Where each file has one spelling, the module that is named
is on a cycle of imports, and a module from which imports lead into a cycle is neither loaded nor
cached at any time. -/
theorem cycles_exact (tree : FileTree) (layouts : List Layout) {events : List Event}
    (h : ∀ event ∈ events, event.isPlain = true) (id : LoaderId) :
    let w := (start tree layouts).run events
    let imports := tree.Imports (w.loader id).layout
    (tree.Shallow → tree.OneSpelling) ∧
    (∀ (request : Session.LoadRequest) (path found : FilePath) (requester : Option FilePath),
      request.target tree (w.loader id).layout = .ok (path, requester) →
      (HostM.load id request.run w.host).1 = .error (.error (.cyclic found)) →
        Relation.ReflTransGen imports path found ∧
        (∃ again, again.same found = true ∧ Relation.ReflTransGen imports path again ∧
          Relation.TransGen imports again found) ∧
        (tree.OneSpelling → Relation.TransGen imports found found)) ∧
    (tree.OneSpelling →
      (∀ entry ∈ (w.loader id).cache, ¬ tree.ReachesCycle (w.loader id).layout entry.1.path) ∧
      ∀ (request : Session.LoadRequest) (path : FilePath) (requester : Option FilePath),
        request.target tree (w.loader id).layout = .ok (path, requester) →
        tree.ReachesCycle (w.loader id).layout path →
        ∀ module, (HostM.load id request.run w.host).1 ≠ .ok module) := by
  intro w imports
  have hplain : (w.loader id).IsPlain (w.loader id).layout [] := by
    have hrun := isPlain_run tree layouts h id
    exact ⟨rfl, hrun.inFlight, hrun.stage⟩
  have htree : w.host.tree = tree := tree_run tree layouts events
  refine ⟨FileTree.Shallow.oneSpelling, fun request path found requester htarget hload => ?_,
    fun hspelling => ?_⟩
  · rw [HostM.load_fst, htree] at hload
    have hback := Session.LoadRequest.cyclic_run (s := w.host.loading id) hplain htarget hload
    obtain ⟨key, hsame, hleads, hkey⟩ := hback.again
    rw [KeyedPath.same_eq] at hsame
    exact ⟨hback.reached, ⟨key.path, hsame, hkey.resolve_left List.not_mem_nil, hleads⟩,
      fun hspelling => hback.onCycle hspelling (Session.LoadRequest.loadable_target htarget)⟩
  · have hsettled := (isSettled_run hspelling layouts h).2 id
    have hlayout : ((start tree layouts).loader id).layout = (w.loader id).layout :=
      hsettled.ofLayout.symm
    rw [hlayout] at hsettled
    refine ⟨fun entry he => (hsettled.settled entry he).2.reachesNoCycle, ?_⟩
    intro request path requester htarget hcycle module hload
    rw [HostM.load_fst, htree, (request.run_fresh hspelling (s := w.host.loading id) hsettled).1,
      Session.LoadRequest.fresh, htarget] at hload
    exact (settled_of_fresh hload).reachesNoCycle hcycle

theorem cycles_exact_cyclic :
    let w := (start cyclicFiles [.withoutEntryDir]).run loadedAndDropped
    (∀ event ∈ loadedAndDropped, event.isPlain = true) ∧ cyclicFiles.OneSpelling ∧
      (HostM.load 0 (Session.LoadRequest.path ⟨"/a.svs"⟩).run w.host).1 =
        .error (.error (.cyclic ⟨"/a.svs"⟩)) ∧
      Relation.TransGen (cyclicFiles.Imports .withoutEntryDir) ⟨"/a.svs"⟩ ⟨"/a.svs"⟩ ∧
      ∀ module,
        (HostM.load 0 (Session.LoadRequest.path ⟨"/a.svs"⟩).run w.host).1 ≠ .ok module := by
  intro w
  have hplain : ∀ event ∈ loadedAndDropped, event.isPlain = true := by decide
  have hspelling : cyclicFiles.OneSpelling := shallow_cyclicFiles.oneSpelling
  have hlayout : (w.loader 0).layout = .withoutEntryDir :=
    (isPlain_run cyclicFiles [.withoutEntryDir] hplain 0).ofLayout
  have htarget : (Session.LoadRequest.path ⟨"/a.svs"⟩).target cyclicFiles (w.loader 0).layout =
      .ok (⟨"/a.svs"⟩, none) := by
    rw [hlayout]
    decide
  have hsettled := (isSettled_run hspelling [.withoutEntryDir] hplain).2 0
  have hfresh := ((Session.LoadRequest.path ⟨"/a.svs"⟩).run_fresh hspelling
    (s := w.host.loading 0) hsettled).1
  have hfound : (match (Session.LoadRequest.path ⟨"/a.svs"⟩).fresh cyclicFiles .withoutEntryDir with
      | .error (.error (.cyclic found)) => some found
      | _ => none) = some ⟨"/a.svs"⟩ := by
    decide +kernel
  have hload : (HostM.load 0 (Session.LoadRequest.path ⟨"/a.svs"⟩).run w.host).1 =
      .error (.error (.cyclic ⟨"/a.svs"⟩)) := by
    rw [HostM.load_fst, tree_run cyclicFiles [.withoutEntryDir] loadedAndDropped]
    refine hfresh.trans ?_
    split at hfound
    next heq => exact heq.trans (by rw [Option.some.inj hfound])
    next => cases hfound
  obtain ⟨_, hsound, hcomplete⟩ := cycles_exact cyclicFiles [.withoutEntryDir] hplain 0
  obtain ⟨hreached, _, hcycle⟩ := hsound _ _ _ _ htarget hload
  have hreaches : cyclicFiles.ReachesCycle (w.loader 0).layout ⟨"/a.svs"⟩ :=
    ⟨_, hreached, hcycle hspelling⟩
  exact ⟨hplain, hspelling, hload, hlayout ▸ hcycle hspelling,
    (hcomplete hspelling).2 _ _ _ htarget hreaches⟩

/-- Files that are out of sight, with `k` for the name of dependency directories. The first one imports
the second one, which imports the first one; where there is no room for the path of the second one,
it imports the third one. -/
def looping : Directory :=
  [("a.svs", .file (.text "import l from \"l.svs\"; export x = 1;")),
    ("k", .directory
      [("l.svs", .file (.text "import a from \"/q/k/a.svs\"; export y = 2;"))]),
    ("l.svs", .file (.text "export y = 2;"))]

def loopingLayout : Layout := ⟨none, "k", []⟩

section Looping

open FileTree

theorem importer_looping {more : Nat} (h : more + 10 ≤ maxPathBytes) :
    (deepTree looping).isFile (slashed more "q/k/a.svs") = true ∧
      (deepTree looping).canonical (slashed more "q/k/a.svs") = slashed more "q/k/a.svs" ∧
      (deepTree looping).read (slashed more "q/k/a.svs") =
        some (.text "import l from \"l.svs\"; export x = 1;") := by
  have hnames : names ⟨"q/k/a.svs"⟩ = "q" :: "k" :: ([] ++ ["a.svs"]) := by decide
  have hbytes : String.utf8ByteSize "q/k/a.svs" = 9 := by decide
  exact (throughLinks_slashed hnames (.inl rfl) (by simp) (by omega)).file (by decide) rfl

theorem outer_looping {more : Nat} (h : more + 10 ≤ maxPathBytes) :
    (deepTree looping).isFile (slashed more "q/k/l.svs") = true ∧
      (deepTree looping).canonical (slashed more "q/k/l.svs") = slashed more "q/k/l.svs" ∧
      (deepTree looping).read (slashed more "q/k/l.svs") = some (.text "export y = 2;") := by
  have hnames : names ⟨"q/k/l.svs"⟩ = "q" :: "k" :: ([] ++ ["l.svs"]) := by decide
  have hbytes : String.utf8ByteSize "q/k/l.svs" = 9 := by decide
  exact (throughLinks_slashed hnames (.inl rfl) (by simp) (by omega)).file (by decide) rfl

theorem inner_looping :
    (deepTree looping).isFile (slashed 0 "q/k/k/l.svs") = true ∧
      (deepTree looping).canonical (slashed 0 "q/k/k/l.svs") = slashed 0 "q/k/k/l.svs" ∧
      (deepTree looping).read (slashed 0 "q/k/k/l.svs") =
        some (.text "import a from \"/q/k/a.svs\"; export y = 2;") := by
  obtain ⟨final, hfiles, hlocation, hleads⟩ := deepTree_leads looping
  have hnames : names (slashed 0 "q/k/k/l.svs") = "" :: "q" :: "k" :: ["k", "l.svs"] := by
    decide
  have hbelow : (deepTree looping).Leads Trail.anywhere 38 final ["k", "l.svs"]
      ⟨Trail.location (("k", [("l.svs", .file (.text "import a from \"/q/k/a.svs\"; export y = 2;"))])
        :: final) ++ ["l.svs"], some (.file (.text "import a from \"/q/k/a.svs\"; export y = 2;"))⟩ :=
    .down rfl (by decide) (by decide) (by rw [hfiles]; rfl)
      (.last rfl (by decide) (by decide) rfl fun entry hentry => ⟨_, (Option.some.inj hentry).symm⟩)
  rw [Trail.location_cons, hlocation, List.append_assoc] at hbelow
  have hplace : (deepTree looping).placeOf Trail.anywhere (slashed 0 "q/k/k/l.svs") =
      some ⟨deepDir ++ [longName] ++ ["k", "l.svs"],
        some (.file (.text "import a from \"/q/k/a.svs\"; export y = 2;"))⟩ := by
    rw [placeOf_absolute (isAbsolute_slashed ..), hnames]
    exact .stays rfl (.inl rfl) (hleads (.inl rfl) hbelow)
  exact deep_file (by decide) hplace

theorem candidates_looping (more : Nat) :
    ∃ others, loopingLayout.candidates (loopingLayout.baseDir (deepTree looping)
        (some (slashed more "q/k/a.svs"))) "l.svs" =
      slashed more "q/k/k/l.svs" :: slashed more "q/k/l.svs" :: others := by
  have hsegments : segments "q/k".toList = [['q'], ['k']] := by decide
  have htext : "q/k".toList.take 1 = "q".toList := by decide
  have htake : String.ofList ((slashed more "q/k").text.toList.take (more + 2)) =
      (slashed more "q").text := congrArg FilePath.text (take_slashed more htext)
  have hancestors : (slashed more "q/k").ancestors =
      [slashed more "q/k", slashed more "q", (slashed more "q/k").take 1] := by
    rw [FilePath.ancestors, parts_slashed, hsegments, isAbsolute_slashed]
    simp [FilePath.partsOf, htake, FilePath.take]
  have hcandidate : ∀ {rest : String}, rest.toList.getLast? ≠ none →
      rest.toList.getLast? ≠ some '/' →
        ((slashed more rest).joinName "k").joinName "l.svs" =
          slashed more (rest ++ "/" ++ "k" ++ "/" ++ "l.svs") := by
    intro rest hnonempty hslash
    obtain ⟨last, hlast⟩ := Option.ne_none_iff_exists'.mp hnonempty
    rw [joinName_slashed more hlast (fun h => hslash (hlast.trans (congrArg some h)))
      (by decide)]
    have hinside : (rest ++ "/" ++ "k").toList.getLast? = some 'k' := by
      rw [String.toList_append, List.getLast?_append]
      rfl
    exact joinName_slashed more hinside (by decide) (by decide)
  refine ⟨[(((slashed more "q/k").take 1).joinName "k").joinName "l.svs"], ?_⟩
  rw [Layout.baseDir, Option.bind_some, parent_importing, Option.some_or, Option.getD_some,
    Layout.candidates, if_neg (by decide), if_neg (by decide), hancestors]
  refine congrArg₂ List.cons (hcandidate ?_ ?_) (congrArg₂ List.cons (hcandidate ?_ ?_) rfl)
  all_goals decide

theorem resolve_looping_short :
    loopingLayout.resolve (deepTree looping) "l.svs" (some (slashed 0 "q/k/a.svs")) =
      .ok (slashed 0 "q/k/k/l.svs") := by
  obtain ⟨others, hcandidates⟩ := candidates_looping 0
  obtain ⟨hfile, hcanonical, _⟩ := inner_looping
  rw [Layout.resolve, hcandidates, List.findSome?_cons, moduleFile, if_pos hfile]
  exact congrArg Except.ok hcanonical

theorem resolve_looping_long :
    loopingLayout.resolve (deepTree looping) "l.svs" (some (slashed 4085 "q/k/a.svs")) =
      .ok (slashed 4085 "q/k/l.svs") := by
  obtain ⟨others, hcandidates⟩ := candidates_looping 4085
  obtain ⟨hfile, hcanonical, _⟩ := outer_looping (show 4085 + 10 ≤ maxPathBytes by decide)
  have hbytes : String.utf8ByteSize "q/k/k/l.svs" = 11 := by decide
  have hsegments : segments "q/k/k/l.svs".toList =
      [['q'], ['k'], ['k'], ['l', '.', 's', 'v', 's']] := by decide
  have hextension : FilePath.extensionOf (String.ofList ['l', '.', 's', 'v', 's']) = some "svs" := by
    decide
  have hinner : (deepTree looping).moduleFile (slashed 4085 "q/k/k/l.svs") = none := by
    refine moduleFile_unfit ?_ ?_
    · rw [utf8ByteSize_slashed, hbytes]
      decide
    · rw [FilePath.addExtension?, FilePath.fileName, parts_slashed, hsegments]
      simp [FilePath.partsOf, Component.ofSegment, hextension]
  rw [Layout.resolve, hcandidates, List.findSome?_cons, hinner, List.findSome?_cons, moduleFile,
    if_pos hfile]
  exact congrArg Except.ok hcanonical

theorem importsOf_looping :
    CommandLine.importsOf "import l from \"l.svs\"; export x = 1;" = ["l.svs"] := by
  decide +kernel

theorem reachesCycle_looping :
    (deepTree looping).ReachesCycle loopingLayout (slashed 0 "q/k/a.svs") := by
  have hinner : (deepTree looping).Imports loopingLayout (slashed 0 "q/k/a.svs")
      (slashed 0 "q/k/k/l.svs") :=
    .stated (importer_looping (show 0 + 10 ≤ maxPathBytes by decide)).2.2
      (importsOf_looping ▸ List.mem_singleton_self _) resolve_looping_short
  have hback : (deepTree looping).Imports loopingLayout (slashed 0 "q/k/k/l.svs")
      (slashed 0 "q/k/a.svs") := by
    obtain ⟨hfile, hcanonical, _⟩ := importer_looping (show 0 + 10 ≤ maxPathBytes by decide)
    have hspecifier : slashed 0 "q/k/a.svs" = ⟨"/q/k/a.svs"⟩ := by decide
    refine .stated inner_looping.2.2 (show "/q/k/a.svs" ∈ _ by decide +kernel) ?_
    rw [Layout.resolve, Layout.candidates, if_pos (by decide), ← hspecifier,
      List.findSome?_singleton, moduleFile, if_pos hfile]
    exact congrArg Except.ok hcanonical
  exact ⟨_, .refl, .tail (.single hinner) hback⟩

theorem pair_looping : ImportPair (deepTree looping) loopingLayout (slashed 4085 "q/k/a.svs")
    (slashed 4085 "q/k/l.svs") := by
  have hroom : 4085 + 10 ≤ maxPathBytes := by decide
  refine .pair (importer_looping hroom).2.2 importsOf_looping resolve_looping_long
    (outer_looping hroom).2.2 (by decide +kernel) ?_ (by decide +kernel)
  rw [FilePath.same, eq_of_beq (same_slashed 4085 "q/k/l.svs" 0),
    eq_of_beq (same_slashed 4085 "q/k/a.svs" 0)]
  decide

/-- Once the file that is on a cycle under its short path is loaded under a path of full length,
under which it is not, it is served under the short path. -/
theorem cycle_served :
    let w := (start (deepTree looping) [loopingLayout]).run [.load 0 (.path (slashed 4085 "q/k/a.svs"))]
    (deepTree looping).ReachesCycle loopingLayout (slashed 0 "q/k/a.svs") ∧
      (Session.LoadRequest.path (slashed 0 "q/k/a.svs")).target (deepTree looping) loopingLayout =
        .ok (slashed 0 "q/k/a.svs", none) ∧
      ∃ module, (HostM.load 0 (Session.LoadRequest.path (slashed 0 "q/k/a.svs")).run w.host).1 =
        .ok module := by
  have htarget : ∀ {more : Nat}, more + 10 ≤ maxPathBytes → ∀ layout,
      (Session.LoadRequest.path (slashed more "q/k/a.svs")).target (deepTree looping) layout =
        .ok (slashed more "q/k/a.svs", none) := by
    intro more hroom layout
    obtain ⟨hfile, hcanonical, _⟩ := importer_looping hroom
    rw [Session.LoadRequest.target, if_pos hfile, hcanonical]
  intro w
  refine ⟨reachesCycle_looping, htarget (by decide) _, ?_⟩
  have hhost : ∀ request : Session.LoadRequest,
      ((start (deepTree looping) [loopingLayout]).run [.load 0 request]).host =
        (HostM.load 0 request.run (start (deepTree looping) [loopingLayout]).host).2 := fun _ => rfl
  rw [show w.host = _ from hhost _]
  generalize hstart : (start (deepTree looping) [loopingLayout]).host = host
  have htree : host.tree = deepTree looping := congrArg Host.tree hstart.symm
  have hlayout : (host.loading 0).loader.layout = loopingLayout := hstart ▸ rfl
  obtain ⟨module, hmodule⟩ := pair_looping.load hlayout (hstart ▸ rfl) (hstart ▸ rfl)
    (hstart ▸ rfl) none
  refine ⟨module, HostM.served (by rw [← hstart]; decide) (htree ▸ htarget (by decide) _)
    (htree ▸ htarget (by decide) _) (same_slashed ..) ?_⟩
  rw [HostM.load_fst, Session.LoadRequest.run_apply, htree, htarget (by decide)]
  exact hmodule

end Looping

end World

end Interpose
