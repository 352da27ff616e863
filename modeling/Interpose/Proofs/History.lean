import Interpose.Proofs.Chains
import Interpose.Proofs.DeepTree
import Interpose.Proofs.ImportPair

set_option autoImplicit false

namespace Interpose
open Script

namespace FileTree

/-- What a load comes to by itself: nothing is cached, some modules are in flight, and so many more
may be compiled one inside the other. -/
def fresh (tree : FileTree) (layout : Layout) (depth : Nat) (flight : List KeyedPath)
    (path : FilePath) : Outcome ModuleError Module :=
  if flight.any path.keyed.same then .error (.error (.cyclic path))
  else
    match depth with
    | 0 => .error (.error (.cyclic path))
    | depth + 1 =>
      match tree.read path with
      | some (.text content) =>
        let part (importer : FilePath) (specifier : String) : Outcome ModuleError Module :=
          match layout.resolve tree specifier (some importer) with
          | .ok file => fresh tree layout depth (path.keyed :: flight) file
          | .error error => .error (.error error)
        compileNative (m := Id) part ⟨content, path, none⟩
      | _ => .error (.error (.unreadable path))

def freshPart (tree : FileTree) (layout : Layout) (depth : Nat) (flight : List KeyedPath)
    (importer : FilePath) (specifier : String) : Outcome ModuleError Module :=
  match layout.resolve tree specifier (some importer) with
  | .ok file => tree.fresh layout depth flight file
  | .error error => .error (.error error)

variable {tree : FileTree} {layout : Layout} {depth : Nat} {flight : List KeyedPath}
  {path : FilePath}

theorem fresh_inFlight (h : flight.any path.keyed.same = true) :
    tree.fresh layout depth flight path = .error (.error (.cyclic path)) := by
  unfold fresh
  rw [if_pos h]

theorem fresh_zero : tree.fresh layout 0 flight path = .error (.error (.cyclic path)) := by
  unfold fresh
  exact ite_self _

theorem fresh_succ (h : flight.any path.keyed.same = false) :
    tree.fresh layout (depth + 1) flight path =
      match tree.read path with
      | some (.text content) =>
        compileNative (m := Id) (tree.freshPart layout depth (path.keyed :: flight))
          ⟨content, path, none⟩
      | _ => .error (.error (.unreadable path)) := by
  rw [fresh, h]
  rfl

theorem freshPart_ok {specifier : String} {part : Module}
    (h : tree.freshPart layout depth flight path specifier = .ok part) :
    ∃ file, layout.resolve tree specifier (some path) = .ok file ∧
      tree.fresh layout depth flight file = .ok part := by
  unfold freshPart at h
  cases hfile : layout.resolve tree specifier (some path) with
  | error error =>
    rw [hfile] at h
    cases h
  | ok file =>
    rw [hfile] at h
    exact ⟨file, rfl, h⟩

end FileTree

theorem not_transGen_self {α : Type} {r : α → α → Prop} {a : α} (h : Acc r a) :
    ¬ Relation.TransGen r a a := by
  intro hself
  have haccessible := h.transGen
  clear h
  induction haccessible with
  | intro a _ ih => exact ih a hself hself

/-- A module that loads at its path whatever else happens; so do those that it imports. -/
inductive Settled (tree : FileTree) (layout : Layout) : FilePath → Module → Prop where
  | compiled {path : FilePath} {module : Module} {content : String}
      (parts : String → Outcome ModuleError Module) (file : String → FilePath)
      (text : tree.read path = some (.text content))
      (made : compileNative (m := Id) (fun _ => parts) ⟨content, path, none⟩ = .ok module)
      (resolved : ∀ specifier part, parts specifier = .ok part →
        layout.resolve tree specifier (some path) = .ok (file specifier))
      (settled : ∀ specifier part, parts specifier = .ok part →
        Settled tree layout (file specifier) part) :
      Settled tree layout path module

section Settled

variable {tree : FileTree} {layout : Layout} {path : FilePath} {module : Module}

theorem Settled.accessible (h : Settled tree layout path module) :
    Acc (fun file importer => tree.Imports layout importer file) path := by
  induction h with
  | compiled parts file text made resolved settled ih =>
    refine .intro _ fun imported himported => ?_
    obtain ⟨text', stated, resolved'⟩ := himported
    cases text.symm.trans text'
    obtain ⟨part, hpart⟩ := compileNative_answered made _ stated
    cases (resolved _ part hpart).symm.trans resolved'
    exact ih _ part hpart

theorem Settled.acyclic (h : Settled tree layout path module) :
    ¬ Relation.TransGen (tree.Imports layout) path path := by
  rw [← Relation.transGen_swap]
  exact not_transGen_self h.accessible

theorem Settled.idle (h : Settled tree layout path module) (hspelling : tree.OneSpelling)
    {flight : List KeyedPath} (hchain : Chain tree layout flight path) :
    flight.any path.keyed.same = false := by
  refine List.any_eq_false.mpr fun key hkey hsame => ?_
  obtain ⟨hloadable, himports⟩ := hchain.importer hkey
  rw [KeyedPath.same_eq] at hsame
  have hpath : path = key.path := hspelling hchain.loadable hloadable hsame
  exact h.acyclic (hpath ▸ himports)

theorem Settled.fresh (h : Settled tree layout path module) (hspelling : tree.OneSpelling)
    {depth : Nat} {flight : List KeyedPath} (hchain : Chain tree layout flight path)
    (hdepth : Load.maxDepth ≤ flight.length + depth) :
    tree.fresh layout depth flight path = .ok module := by
  have hidle := h.idle hspelling hchain
  induction h generalizing depth flight with
  | @compiled path module content parts file text made resolved settled ih =>
    obtain ⟨below, rfl, hbelow⟩ := hchain.room hidle hdepth
    rw [FileTree.fresh_succ hidle, text, ← made]
    refine compileNative_congr fun specifier hspecifier => ?_
    obtain ⟨part, hpart⟩ := compileNative_answered made specifier hspecifier
    have hfile := resolved _ part hpart
    have hdeeper : Chain tree layout (path.keyed :: flight) (file specifier) :=
      .deeper hchain hidle (.stated text hspecifier hfile)
    rw [FileTree.freshPart, hfile, hpart]
    exact ih _ part hpart hdeeper hbelow ((settled _ part hpart).idle hspelling hdeeper)

/-- What loads with nothing cached is settled. -/
theorem settled_of_fresh {depth : Nat} {flight : List KeyedPath}
    (h : tree.fresh layout depth flight path = .ok module) : Settled tree layout path module := by
  induction depth generalizing flight path module with
  | zero =>
    rw [FileTree.fresh_zero] at h
    cases h
  | succ depth ih =>
    cases hflight : flight.any path.keyed.same with
    | true =>
      rw [FileTree.fresh_inFlight hflight] at h
      cases h
    | false =>
      rw [FileTree.fresh_succ hflight] at h
      rcases htext : tree.read path with _ | content | _
      all_goals rw [htext] at h
      · cases h
      · dsimp only at h
        have hmade : compileNative (m := Id)
            (fun _ => tree.freshPart layout depth (path.keyed :: flight) path)
            ⟨content, path, none⟩ = .ok module := by
          rw [← h]
          exact compileNative_congr fun _ _ => rfl
        refine .compiled _
          (fun specifier => (layout.resolve tree specifier (some path)).toOption.getD path)
          htext hmade ?_ ?_
        · intro specifier part hpart
          obtain ⟨file, hfile, _⟩ := FileTree.freshPart_ok hpart
          rw [hfile]
          rfl
        · intro specifier part hpart
          obtain ⟨file, hfile, hfresh⟩ := FileTree.freshPart_ok hpart
          rw [hfile]
          exact ih hfresh
      · cases h

end Settled

structure Loader.IsSettled (tree : FileTree) (layout : Layout) (flight : List KeyedPath)
    (loader : Loader) : Prop where
  ofLayout : loader.layout = layout
  inFlight : loader.inFlight = flight
  stage : loader.slot.current.stage = .native
  settled : ∀ entry ∈ loader.cache,
    tree.Loadable entry.1.path ∧ Settled tree layout entry.1.path entry.2

section IsSettled

variable {tree : FileTree} {layout : Layout} {flight : List KeyedPath} {path : FilePath}
  {s : LoadState}

theorem Loader.IsSettled.found {loader : Loader} (h : loader.IsSettled tree layout flight)
    (hspelling : tree.OneSpelling) (hpath : tree.Loadable path) {module : Module}
    (hmodule : loader.cache.get? path.keyed = some module) : Settled tree layout path module := by
  obtain ⟨key, hmem, hsame⟩ := Cache.mem_of_get? hmodule
  obtain ⟨hkey, hsettled⟩ := h.settled _ hmem
  rw [KeyedPath.same_eq] at hsame
  have heq : key.path = path := hspelling hkey hpath hsame
  exact heq ▸ hsettled

theorem Loader.IsSettled.extended {loader later : Loader}
    (h : loader.IsSettled tree layout flight) (hextends : later.Extends loader)
    (hlater : ∀ entry ∈ later.cache,
      tree.Loadable entry.1.path ∧ Settled tree layout entry.1.path entry.2) :
    later.IsSettled tree layout flight :=
  ⟨hextends.layout.trans h.ofLayout, hextends.inFlight.trans h.inFlight, by
    rw [hextends.slot, h.stage], hlater⟩

namespace Load

variable {depth : Nat}

theorem compileFile_fresh
    (h : ∀ {file importer} {t : LoadState}, t.loader.IsSettled tree layout flight →
      Chain tree layout flight file →
        (atPath tree depth file (some importer) t).1 = tree.fresh layout depth flight file ∧
          (atPath tree depth file (some importer) t).2.loader.IsSettled tree layout flight)
    (hchain : ∀ {file}, tree.Imports layout path file → Chain tree layout flight file)
    (hs : s.loader.IsSettled tree layout flight) (requester : Option FilePath) :
    (compileFile tree (imported tree depth layout) path requester s).1 =
        (match tree.read path with
        | some (.text content) =>
          compileNative (m := Id) (tree.freshPart layout depth flight) ⟨content, path, none⟩
        | _ => .error (.error (.unreadable path))) ∧
      (compileFile tree (imported tree depth layout) path requester s).2.loader.IsSettled tree
        layout flight := by
  rcases htext : tree.read path with _ | content | _
  · rw [compileFile_unread (by simp [htext])]
    exact ⟨rfl, hs⟩
  · rw [compileFile_native htext hs.stage]
    refine compileNative_answers (fun t => t.loader.IsSettled tree layout flight)
      (fun specifier hspecifier {t} ht => ?_) hs
    unfold imported FileTree.freshPart
    cases hfile : layout.resolve tree specifier (some path) with
    | error error => exact ⟨rfl, ht⟩
    | ok file => exact h ht (hchain (.stated htext hspecifier hfile))
  · rw [compileFile_unread (by simp [htext])]
    exact ⟨rfl, hs⟩

theorem atPath_fresh (hspelling : tree.OneSpelling) (depth : Nat) (requester : Option FilePath)
    (hs : s.loader.IsSettled tree layout flight) (hchain : Chain tree layout flight path)
    (hdepth : maxDepth ≤ flight.length + depth) :
    (atPath tree depth path requester s).1 = tree.fresh layout depth flight path ∧
      (atPath tree depth path requester s).2.loader.IsSettled tree layout flight := by
  induction depth using Nat.strongRecOn generalizing path requester s flight with
  | _ depth ih =>
  cases hcached : s.loader.cache.get? path.keyed with
  | some module =>
    have hsettled := hs.found hspelling hchain.loadable hcached
    rw [atPath_cached hcached]
    exact ⟨(hsettled.fresh hspelling hchain hdepth).symm, hs⟩
  | none =>
    cases hidle : flight.any path.keyed.same with
    | true =>
      have hflight : s.loader.isInFlight path.keyed = true := by
        rw [Loader.isInFlight, hs.inFlight, hidle]
      rw [atPath_inFlight hcached hflight, FileTree.fresh_inFlight hidle]
      exact ⟨rfl, hs⟩
    | false =>
      have hflight : s.loader.isInFlight path.keyed = false := by
        rw [Loader.isInFlight, hs.inFlight, hidle]
      obtain ⟨below, rfl, hdeeper⟩ := hchain.room hidle hdepth
      have hentered : (s.enter path.keyed).loader.IsSettled tree layout (path.keyed :: flight) :=
        ⟨hs.ofLayout, congrArg _ hs.inFlight, hs.stage, hs.settled⟩
      obtain ⟨hanswer, hafter⟩ := compileFile_fresh
        (fun ht hchain => ih below (Nat.lt_succ_self below) _ ht hchain hdeeper)
        (fun himports => .deeper hchain hidle himports) hentered requester
      rw [← FileTree.fresh_succ hidle] at hanswer
      have hadds := adds_compiled (adds_atPath tree below) hflight layout requester
      rw [atPath_succ hcached (by rw [hflight]; decide), hs.ofLayout]
      rcases hrun : compileFile tree (imported tree below layout) path requester
        (s.enter path.keyed) with ⟨halt | module, t⟩
      all_goals rw [hrun] at hanswer hafter
      · rw [compiled_apply, hrun] at hadds ⊢
        exact ⟨hanswer, hs.extended hadds hafter.settled⟩
      · rw [compiled_of_ok hcached hrun] at hadds ⊢
        refine ⟨hanswer, hs.extended hadds fun entry he => ?_⟩
        rcases List.mem_append.mp he with he | he
        · exact hafter.settled entry he
        · rw [List.mem_singleton.mp he]
          exact ⟨hchain.loadable, settled_of_fresh hanswer.symm⟩

end Load

end IsSettled

namespace Session.LoadRequest

def fresh (request : LoadRequest) (tree : FileTree) (layout : Layout) :
    Outcome ModuleError Module :=
  match request.target tree layout with
  | .ok (found, _) => tree.fresh layout Load.maxDepth [] found
  | .error error => .error (.error error)

theorem run_fresh {tree : FileTree} (hspelling : tree.OneSpelling) {layout : Layout}
    {s : LoadState} (hs : s.loader.IsSettled tree layout []) (request : LoadRequest) :
    (request.run tree s).1 = request.fresh tree layout ∧
      (request.run tree s).2.loader.IsSettled tree layout [] := by
  rw [run_apply, hs.ofLayout]
  unfold fresh
  cases htarget : request.target tree layout with
  | error error => exact ⟨rfl, hs⟩
  | ok target =>
    obtain ⟨found, requester⟩ := target
    exact Load.atPath_fresh hspelling Load.maxDepth requester hs (.start (loadable_target htarget))
      (Nat.le_add_left ..)

end Session.LoadRequest

theorem HostM.served {host : Host} {id : LoaderId} (hid : id < host.loaders.length)
    {first second : Session.LoadRequest} {path other : FilePath}
    {requester requester' : Option FilePath}
    (hfirst : first.target host.tree (host.loading id).loader.layout = .ok (path, requester))
    (hsecond : second.target host.tree (host.loading id).loader.layout = .ok (other, requester'))
    (hsame : other.same path = true) {module : Module}
    (h : (HostM.load id first.run host).1 = .ok module) :
    (HostM.load id second.run (HostM.load id first.run host).2).1 = .ok module := by
  have hkeyed : other.keyed.same path.keyed = true := (KeyedPath.same_eq ..).trans hsame
  have hrun : first.run host.tree (host.loading id) =
      Load.atPath host.tree Load.maxDepth path requester (host.loading id) := by
    rw [Session.LoadRequest.run_apply, hfirst]
  have hloading := loading_load hid first.run
  have hadds := first.adds_run host.tree (host.loading id)
  rw [← hloading] at hadds
  rw [load_fst, hrun] at h
  have hkept : ((HostM.load id first.run host).2.loading id).loader.cache.get? other.keyed =
      some module := by
    rw [Cache.get?_same _ hkeyed, hloading, hrun]
    exact Load.atPath_ok (Prod.ext h rfl)
  rw [load_fst, tree_load, Session.LoadRequest.run_apply, hadds.layout, hsecond]
  exact congrArg Prod.fst (Load.atPath_cached hkept Load.maxDepth)

def Event.isPlain : Event → Bool
  | .load .. | .evict .. | .retain .. => true
  | _ => false

namespace World

theorem isSettled_start (tree : FileTree) (layouts : List Layout) (id : LoaderId) :
    ((start tree layouts).loader id).IsSettled tree ((start tree layouts).loader id).layout [] := by
  obtain ⟨layout, hlayout⟩ := loader_start tree layouts id
  rw [hlayout]
  exact ⟨rfl, rfl, rfl, fun entry he => (List.not_mem_nil he).elim⟩

theorem isSettled_retain {host : Host} {tree : FileTree} {layouts : LoaderId → Layout}
    (h : ∀ id, (host.loader id).IsSettled tree (layouts id) []) (loader : LoaderId)
    (keep : FilePath → Bool) (id : LoaderId) :
    ((HostM.retain loader keep host).2.loader id).IsSettled tree (layouts id) [] := by
  refine Host.loader_setLoader_of (p := fun loader => loader.IsSettled tree (layouts id) [])
    (h id) fun heq => ?_
  subst heq
  refine ⟨(h id).ofLayout, (h id).inFlight, (h id).stage, fun entry he => ?_⟩
  exact (h id).settled entry (Cache.mem_retain.mp he).1

theorem isSettled_load {host : Host} (hspelling : host.tree.OneSpelling)
    {layouts : LoaderId → Layout}
    (h : ∀ id, (host.loader id).IsSettled host.tree (layouts id) []) (loader : LoaderId)
    (request : Session.LoadRequest) (id : LoaderId) :
    ((HostM.load loader request.run host).2.loader id).IsSettled host.tree (layouts id) [] := by
  refine Host.loader_setLoader_of
    (p := fun loader => loader.IsSettled host.tree (layouts id) []) (h id) fun heq => ?_
  subst heq
  exact (request.run_fresh hspelling (h id)).2

theorem isSettled_run {tree : FileTree} (hspelling : tree.OneSpelling) (layouts : List Layout)
    {events : List Event} (h : ∀ event ∈ events, event.isPlain = true) :
    ((start tree layouts).run events).host.tree = tree ∧
      ∀ id, (((start tree layouts).run events).loader id).IsSettled tree
        ((start tree layouts).loader id).layout [] := by
  refine run_induction (p := fun w => w.host.tree = tree ∧ ∀ id, (w.loader id).IsSettled tree
    ((start tree layouts).loader id).layout []) ⟨rfl, isSettled_start tree layouts⟩ ?_
  rintro w event he ⟨htree, hw⟩
  subst htree
  cases event with
  | load loader request => exact ⟨rfl, isSettled_load hspelling hw loader request⟩
  | evict loader path => exact ⟨rfl, isSettled_retain hw loader _⟩
  | retain loader keep => exact ⟨rfl, isSettled_retain hw loader keep⟩
  | _ => exact absurd (h _ he) (by simp [Event.isPlain])

/-- Where paths that count as the same are spelled alike, a load comes to the same at any time as
when the loader was built, whatever was loaded and dropped in between. -/
theorem load_independent (tree : FileTree) (layouts : List Layout) {events : List Event}
    (h : ∀ event ∈ events, event.isPlain = true) :
    (tree.Shallow → tree.OneSpelling) ∧
    (tree.OneSpelling → ∀ (id : LoaderId) (request : Session.LoadRequest),
      (HostM.load id request.run ((start tree layouts).run events).host).1 =
        (HostM.load id request.run (start tree layouts).host).1) := by
  refine ⟨FileTree.Shallow.oneSpelling, fun hspelling id request => ?_⟩
  have hfirst := (request.run_fresh (s := (start tree layouts).host.loading id) hspelling
    (isSettled_start tree layouts id)).1
  obtain ⟨htree, hsettled⟩ := isSettled_run hspelling layouts h
  have hlater := (request.run_fresh
    (s := ((start tree layouts).run events).host.loading id) hspelling (hsettled id)).1
  rw [HostM.load_fst, HostM.load_fst, htree, hlater]
  exact hfirst.symm

def cyclicFiles : FileTree :=
  ⟨[("a.svs", .file (.text "import b from \"./b.svs\"; export x = 1;")),
    ("b.svs", .file (.text "import a from \"./a.svs\"; export y = 2;")),
    ("c.svs", .file (.text "export z = 3;"))], []⟩

theorem shallow_cyclicFiles : cyclicFiles.Shallow := ⟨by decide, by simp [cyclicFiles]⟩

def loadedAndDropped : List Event :=
  [.load 0 (.path ⟨"/c.svs"⟩), .load 0 (.path ⟨"/b.svs"⟩), .evict 0 ⟨"/c.svs"⟩]

theorem load_independent_cyclic :
    (∀ event ∈ loadedAndDropped, event.isPlain = true) ∧ cyclicFiles.OneSpelling ∧
      (HostM.load 0 (Session.LoadRequest.path ⟨"/a.svs"⟩).run
        ((start cyclicFiles [.withoutEntryDir]).run loadedAndDropped).host).1 =
      (HostM.load 0 (Session.LoadRequest.path ⟨"/a.svs"⟩).run
        (start cyclicFiles [.withoutEntryDir]).host).1 := by
  have hplain : ∀ event ∈ loadedAndDropped, event.isPlain = true := by decide
  obtain ⟨hspelling, hindependent⟩ := load_independent cyclicFiles [.withoutEntryDir] hplain
  have hone : cyclicFiles.OneSpelling := hspelling shallow_cyclicFiles
  exact ⟨hplain, hone, hindependent hone 0 _⟩

/-- Two files that are out of sight, one of which imports the other. -/
def importing : Directory :=
  [("a.svs", .file (.text "import b from \"./b.svs\"; export x = 1;")),
    ("b.svs", .file (.text "export y = 2;"))]

section Importing

open FileTree

theorem parent_importing (more : Nat) :
    (slashed more "q/k/a.svs").parent = some (slashed more "q/k") := by
  have hsegments : segments "q/k/a.svs".toList = [['q'], ['k'], ['a', '.', 's', 'v', 's']] := by
    decide
  have htext : "q/k/a.svs".toList.take 3 = "q/k".toList := by decide
  have htake : (slashed more "q/k/a.svs").take (more + 4) = slashed more "q/k" :=
    take_slashed more htext
  rw [FilePath.parent, parts_slashed, hsegments]
  simp [FilePath.partsOf, htake]

theorem join_importing (more : Nat) :
    (slashed more "q/k").joinName "./b.svs" = slashed more "q/k/./b.svs" :=
  joinName_slashed more (show "q/k".toList.getLast? = some 'k' by decide) (by decide)
    (by decide)

theorem importer_importing {more : Nat} (h : more + 10 ≤ maxPathBytes) :
    (deepTree importing).isFile (slashed more "q/k/a.svs") = true ∧
      (deepTree importing).canonical (slashed more "q/k/a.svs") = slashed more "q/k/a.svs" ∧
      (deepTree importing).read (slashed more "q/k/a.svs") =
        some (.text "import b from \"./b.svs\"; export x = 1;") := by
  have hnames : names ⟨"q/k/a.svs"⟩ = "q" :: "k" :: ([] ++ ["a.svs"]) := by decide
  have hbytes : String.utf8ByteSize "q/k/a.svs" = 9 := by decide
  exact (throughLinks_slashed hnames (.inl rfl) (by simp) (by omega)).file (by decide) rfl

theorem imported_importing {more : Nat} (h : more + 12 ≤ maxPathBytes) :
    (deepTree importing).isFile (slashed more "q/k/./b.svs") = true ∧
      (deepTree importing).canonical (slashed more "q/k/./b.svs") = slashed more "q/k/./b.svs" ∧
      (deepTree importing).read (slashed more "q/k/./b.svs") =
        some (.text "export y = 2;") := by
  have hnames : names ⟨"q/k/./b.svs"⟩ = "q" :: "k" :: (["."] ++ ["b.svs"]) := by decide
  have hbytes : String.utf8ByteSize "q/k/./b.svs" = 11 := by decide
  exact (throughLinks_slashed hnames (.inl rfl) (by simp) (by omega)).file (by decide) rfl

theorem moduleFile_importing {more : Nat} (h : maxPathBytes < more + 12) :
    (deepTree importing).moduleFile (slashed more "q/k/./b.svs") = none := by
  have hbytes : String.utf8ByteSize "q/k/./b.svs" = 11 := by decide
  have hsegments : segments "q/k/./b.svs".toList =
      [['q'], ['k'], ['.'], ['b', '.', 's', 'v', 's']] := by decide
  have hextension : FilePath.extensionOf (String.ofList ['b', '.', 's', 'v', 's']) = some "svs" := by
    decide
  refine moduleFile_unfit ?_ ?_
  · rw [utf8ByteSize_slashed, hbytes]
    omega
  · rw [FilePath.addExtension?, FilePath.fileName, parts_slashed, hsegments]
    simp [FilePath.partsOf, Component.ofSegment, hextension]

theorem resolve_importing (more : Nat) :
    Layout.withoutEntryDir.resolve (deepTree importing) "./b.svs"
        (some (slashed more "q/k/a.svs")) =
      if more + 12 ≤ maxPathBytes then .ok (slashed more "q/k/./b.svs")
      else .error (.notFound "./b.svs") := by
  have hcandidates : Layout.withoutEntryDir.candidates
      (Layout.withoutEntryDir.baseDir (deepTree importing) (some (slashed more "q/k/a.svs")))
        "./b.svs" = [slashed more "q/k/./b.svs"] := by
    rw [Layout.baseDir, Option.bind_some, parent_importing, Layout.candidates,
      if_neg (by decide), if_pos (by decide), Option.some_or, Option.getD_some,
      join_importing]
  rw [Layout.resolve, hcandidates, List.findSome?_singleton]
  by_cases hroom : more + 12 ≤ maxPathBytes
  · obtain ⟨hfile, hcanonical, _⟩ := imported_importing hroom
    rw [moduleFile, if_pos hfile, if_pos hroom]
    exact congrArg Except.ok hcanonical
  · rw [moduleFile_importing (Nat.lt_of_not_le hroom), if_neg hroom]

theorem importsOf_importing :
    CommandLine.importsOf "import b from \"./b.svs\"; export x = 1;" = ["./b.svs"] := by
  decide +kernel

theorem pair_importing : ImportPair (deepTree importing) .withoutEntryDir
    (slashed 0 "q/k/a.svs") (slashed 0 "q/k/./b.svs") := by
  have hreads := (importer_importing (show 0 + 10 ≤ maxPathBytes by decide)).2.2
  have hleaf := (imported_importing (show 0 + 12 ≤ maxPathBytes by decide)).2.2
  refine .pair hreads importsOf_importing ?_ hleaf (by decide +kernel) (by decide)
    (by decide +kernel)
  rw [resolve_importing, if_pos (by decide)]

theorem target_importing {more : Nat} (h : more + 10 ≤ maxPathBytes) (layout : Layout) :
    (Session.LoadRequest.path (slashed more "q/k/a.svs")).target (deepTree importing) layout =
      .ok (slashed more "q/k/a.svs", none) := by
  obtain ⟨hfile, hcanonical, _⟩ := importer_importing h
  rw [Session.LoadRequest.target, if_pos hfile, hcanonical]

theorem load_failing {s : LoadState} (hlayout : s.loader.layout = .withoutEntryDir)
    (hstage : s.loader.slot.current.stage = .native) (hempty : s.loader.cache = []) (depth : Nat)
    {module : Module} :
    (Load.atPath (deepTree importing) depth (slashed 4085 "q/k/a.svs") none s).1 ≠ .ok module := by
  have huncached : s.loader.cache.get? (slashed 4085 "q/k/a.svs").keyed = none := by
    rw [hempty]
    rfl
  have htext := (importer_importing (show 4085 + 10 ≤ maxPathBytes by decide)).2.2
  intro hok
  rcases Load.atPath_cases (deepTree importing) depth (slashed 4085 "q/k/a.svs") none s with
    ⟨kept, hkept, _⟩ | ⟨_, hload⟩ | ⟨below, _, _, _, hload⟩
  · rw [huncached] at hkept
    cases hkept
  · rw [hload] at hok
    cases hok
  · rw [hload, hlayout, Load.compiled_apply] at hok
    have hcompile : (compileNative (m := StateM LoadState)
        (Load.imported (deepTree importing) below .withoutEntryDir)
        ⟨"import b from \"./b.svs\"; export x = 1;", slashed 4085 "q/k/a.svs", none⟩
        (s.enter (slashed 4085 "q/k/a.svs").keyed)).1 =
        compileNative (m := Id) (fun _ _ => .error (.error (.notFound "./b.svs")))
          ⟨"import b from \"./b.svs\"; export x = 1;", slashed 4085 "q/k/a.svs", none⟩ := by
      refine (compileNative_answers (fun _ => True) (fun specifier hspecifier {t} _ => ?_)
        trivial).1
      rw [importsOf_importing, List.mem_singleton] at hspecifier
      subst hspecifier
      unfold Load.imported
      rw [resolve_importing, if_neg (by decide)]
      exact ⟨rfl, trivial⟩
    have hentered : (s.enter (slashed 4085 "q/k/a.svs").keyed).loader.slot.current.stage = .native :=
      hstage
    rw [← Load.compileFile_native htext hentered] at hcompile
    rcases hrun : Load.compileFile (deepTree importing)
      (Load.imported (deepTree importing) below .withoutEntryDir) (slashed 4085 "q/k/a.svs") none
      (s.enter (slashed 4085 "q/k/a.svs").keyed) with ⟨halt | compiled, t⟩
    all_goals rw [hrun] at hok hcompile
    · cases hok
    · obtain ⟨part, hpart⟩ := compileNative_answered hcompile.symm "./b.svs"
        (importsOf_importing ▸ List.mem_singleton_self "./b.svs")
      cases hpart

theorem run_importing {more : Nat} (h : more + 10 ≤ maxPathBytes) (s : LoadState) :
    (Session.LoadRequest.path (slashed more "q/k/a.svs")).run (deepTree importing) s =
      Load.atPath (deepTree importing) Load.maxDepth (slashed more "q/k/a.svs") none s := by
  rw [Session.LoadRequest.run_apply, target_importing h]

theorem served_importing {more : Nat} (h : more + 10 ≤ maxPathBytes) :
    ∃ module, (HostM.load 0 (Session.LoadRequest.path (slashed more "q/k/a.svs")).run
      (HostM.load 0 (Session.LoadRequest.path (slashed 0 "q/k/a.svs")).run
        (start (deepTree importing) [.withoutEntryDir]).host).2).1 = .ok module := by
  generalize hhost : (start (deepTree importing) [.withoutEntryDir]).host = host
  have htree : host.tree = deepTree importing := hhost ▸ rfl
  obtain ⟨module, hmodule⟩ := pair_importing.load (s := host.loading 0) (hhost ▸ rfl) (hhost ▸ rfl)
    (hhost ▸ rfl) (hhost ▸ rfl) none
  rw [← run_importing (by decide), ← htree, ← HostM.load_fst] at hmodule
  have htarget : ∀ {more : Nat}, more + 10 ≤ maxPathBytes →
      (Session.LoadRequest.path (slashed more "q/k/a.svs")).target host.tree
        (host.loading 0).loader.layout = .ok (slashed more "q/k/a.svs", none) := fun h => by
    rw [htree, target_importing h]
  exact ⟨module, HostM.served (by rw [← hhost]; decide) (htarget (by decide)) (htarget h)
    (same_slashed ..) hmodule⟩

theorem refused_importing {module : Module} :
    (HostM.load 0 (Session.LoadRequest.path (slashed 4085 "q/k/a.svs")).run
      (start (deepTree importing) [.withoutEntryDir]).host).1 ≠ .ok module := by
  generalize hhost : (start (deepTree importing) [.withoutEntryDir]).host = host
  have htree : host.tree = deepTree importing := hhost ▸ rfl
  have hlayout : (host.loading 0).loader.layout = .withoutEntryDir := hhost ▸ rfl
  have hstage : (host.loading 0).loader.slot.current.stage = .native := hhost ▸ rfl
  have hempty : (host.loading 0).loader.cache = [] := hhost ▸ rfl
  rw [HostM.load_fst, htree, run_importing (by decide)]
  exact load_failing hlayout hstage hempty _

/-- The file that is imported is not where a path of full length would have it. A load under such a
path succeeds after one under a shorter path, and not by itself. -/
theorem load_dependent :
    let w := start (deepTree importing) [.withoutEntryDir]
    (∃ module, (HostM.load 0 (Session.LoadRequest.path (slashed 4085 "q/k/a.svs")).run
      (w.run [.load 0 (.path (slashed 0 "q/k/a.svs"))]).host).1 = .ok module) ∧
    ¬ ∃ module, (HostM.load 0 (Session.LoadRequest.path (slashed 4085 "q/k/a.svs")).run
      w.host).1 = .ok module := by
  intro w
  have hhost : ∀ request, (w.run [.load 0 request]).host =
      (HostM.load 0 request.run w.host).2 := fun _ => rfl
  rw [hhost]
  exact ⟨served_importing (by decide), fun ⟨module, hmodule⟩ => refused_importing hmodule⟩

end Importing

end World

end Interpose
