import Interpose.Proofs.Extensions
import Interpose.Proofs.ImportPair
import Interpose.Proofs.OneEntry
import Interpose.Proofs.Respacing

set_option autoImplicit false

namespace Interpose
open Script

namespace FileTree

def locate (tree : FileTree) (path : FilePath) : Option Location :=
  (tree.placeAt path).map Place.location

def withText (tree : FileTree) (path : FilePath) (text : String) : FileTree :=
  tree.retext fun location content =>
    if tree.locate path = some location then .text text else content

/-- Loads know the file under this path only, however it may be spelled. -/
def KnownBy (tree : FileTree) (found : FilePath) : Prop :=
  ∀ path, tree.Loadable path → tree.locate path = tree.locate found → path.same found = true

section WithText

variable {tree : FileTree} {path file : FilePath} {text : String}

theorem read_withText (h : tree.locate file = tree.locate path) :
    (tree.withText path text).read file = (tree.read file).map fun _ => .text text := by
  rw [withText, read_retext, ← h, read, entryAt, locate]
  rcases tree.placeAt file with _ | ⟨location, _ | content | target | inner⟩
  · rfl
  · rfl
  · exact congrArg some (if_pos rfl)
  · rfl
  · rfl

theorem read_withText_ne (h : tree.locate file ≠ tree.locate path) :
    (tree.withText path text).read file = tree.read file := by
  rw [withText, read_retext, read, entryAt]
  rw [locate] at h
  generalize tree.placeAt file = place at h ⊢
  rcases place with _ | ⟨location, _ | content | target | inner⟩
  · rfl
  · rfl
  · exact congrArg some (if_neg (Ne.symm h))
  · rfl
  · rfl

theorem Shallow.knownBy (htree : tree.Shallow) (hfile : tree.Loadable file) : tree.KnownBy file := by
  have hlocated : ∀ {path}, tree.Loadable path →
      ∃ location, path = pathOf location ∧ tree.locate path = some location := by
    intro path hpath
    obtain ⟨file, hfile, rfl⟩ := hpath
    obtain ⟨trail, name, content, hat, hcanonical⟩ :=
      (htree.inSight hfile).fileAt htree.workingDir hfile
    rw [hcanonical]
    exact ⟨_, rfl, by rw [locate, hat.placeAt]; rfl⟩
  intro path hpath hsame
  obtain ⟨location, rfl, hlocation⟩ := hlocated hpath
  obtain ⟨location', rfl, hlocation'⟩ := hlocated hfile
  rw [hlocation, hlocation'] at hsame
  rw [Option.some.inj hsame]
  exact beq_self_eq_true _

theorem loadable_withText : (tree.withText path text).Loadable file ↔ tree.Loadable file := by
  simp only [Loadable, withText, isFile_retext, canonical_retext]

theorem resolve_withText {layout : Layout} {specifier : String} {requester : Option FilePath} :
    layout.resolve (tree.withText path text) specifier requester =
      layout.resolve tree specifier requester :=
  Layout.resolve_retext ..

end WithText

def unplaced (tree : FileTree) (path : FilePath) : FilePath → Position → Position :=
  fun file position => if tree.locate file = tree.locate path then .nowhere else position

section Respaced

variable {tree : FileTree} {path : FilePath} {first second : String}
  (htokens : SameTokens first second)

include htokens

theorem outline_unplaced {file : FilePath} (h : tree.locate file = tree.locate path) :
    outline (tree.unplaced path file) first = outline (tree.unplaced path file) second := by
  have hmove : tree.unplaced path file = fun _ => .nowhere := funext fun _ => if_pos h
  rw [hmove]
  exact outline_eq htokens .nowhere

theorem respaced_read {marks : String → String}
    (hmarks : marks (fingerprint first) = marks (fingerprint second)) (file : FilePath) :
    Content.Respaced marks (tree.unplaced path file) ((tree.withText path first).read file)
      ((tree.withText path second).read file) := by
  by_cases hown : tree.locate file = tree.locate path
  · rw [read_withText hown, read_withText hown]
    cases tree.read file with
    | none => exact .unread nofun nofun
    | some content => exact .texts (outline_unplaced htokens hown) hmarks
  · rw [read_withText_ne hown, read_withText_ne hown]
    rcases tree.read file with _ | text | _
    · exact .unread nofun nofun
    · exact .texts rfl rfl
    · exact .unread nofun nofun

theorem parallel_withText {marks : String → String}
    (hmarks : marks (fingerprint first) = marks (fingerprint second)) (layout : Layout) :
    Pairing.Parallel (.respaced layout marks (tree.unplaced path)) (tree.withText path first)
      (tree.withText path second) := by
  refine parallel_respaced (fun specifier requester => ?_) (respaced_read htokens hmarks)
  rw [resolve_withText, resolve_withText]

end Respaced

end FileTree

/-- What a load comes to, with the fingerprints of modules read in some way and with places moved in
errors. -/
def blurred (marks : String → String) (move : FilePath → Position → Position)
    (answer : Outcome ModuleError Module) : Outcome ModuleError Module :=
  (answer.map (ModuleOf.exchanged id marks)).mapError (Halt.moved move)

def oneMark (first second : String) (mark : String) : String :=
  if mark = fingerprint second then fingerprint first else mark

theorem oneMark_eq (first second : String) :
    oneMark first second (fingerprint first) = oneMark first second (fingerprint second) := by
  unfold oneMark
  rw [if_pos rfl, ite_self]

section Pairs

variable {layout : Layout} {marks : String → String} {move : FilePath → Position → Position}

theorem Pairing.Results.blurred_eq {answer answer' : Outcome ModuleError Module}
    (h : Pairing.Results (.respaced layout marks move)
      (Pairing.modules (.respaced layout marks move)) answer answer') :
    blurred marks move answer = blurred marks move answer' := by
  cases h with
  | ok hmodules => exact congrArg Except.ok hmodules
  | error hhalts => exact congrArg Except.error hhalts

theorem Pairing.states_respaced {s s' : LoadState} (hlayout : s.loader.layout = layout)
    (hstage : s.loader.slot.current.stage = .native) (hloader : s'.loader = s.loader) :
    Pairing.States (.respaced layout marks move) s s' where
  layout_eq := hlayout
  layout_eq' := hloader ▸ hlayout
  stage_eq := hstage
  stage_eq' := hloader ▸ hstage
  cache := hloader ▸ List.forall₂_same.mpr fun _ _ => ⟨rfl, rfl⟩
  inFlight := hloader ▸ rfl

end Pairs

/-- A native loader of a layout in whose way a file is that it compiles. -/
structure LoadState.Amid (layout : Layout) (found : FilePath) (s : LoadState) : Prop where
  layout_eq : s.loader.layout = layout
  stage : s.loader.slot.current.stage = .native
  inFlight : s.loader.isInFlight found.keyed = true

section Amid

variable {layout : Layout} {found : FilePath} {s t : LoadState}

theorem LoadState.Amid.later (h : s.Amid layout found) (hextends : t.loader.Extends s.loader) :
    t.Amid layout found := by
  refine ⟨hextends.layout.trans h.layout_eq, by rw [hextends.slot, h.stage], ?_⟩
  rw [Loader.isInFlight, hextends.inFlight]
  exact h.inFlight

theorem LoadState.Amid.enter (h : s.Amid layout found) (path : KeyedPath) :
    (s.enter path).Amid layout found := by
  refine ⟨h.layout_eq, h.stage, ?_⟩
  rw [s.isInFlight_enter, h.inFlight, Bool.or_true]

/-- What is not in flight is another file than one that is. -/
theorem LoadState.Amid.apart (h : s.Amid layout found) {path : FilePath}
    (hidle : ¬ s.loader.isInFlight path.keyed = true) : path.same found = false := by
  refine Bool.eq_false_iff.mpr fun hsame => hidle ?_
  have hkeyed : path.keyed.same found.keyed = true := (KeyedPath.same_eq ..).trans hsame
  obtain ⟨flying, hmem, hflying⟩ := List.any_eq_true.mp h.inFlight
  rw [KeyedPath.same_iff] at hkeyed hflying
  exact List.any_eq_true.mpr ⟨flying, hmem, (KeyedPath.same_iff ..).mpr (hkeyed.trans hflying)⟩

namespace Load

theorem evaluate_amid {path : FilePath} {require require' : String → Load Module}
    (hadds : ∀ specifier, (require specifier).Adds)
    (hrequire : ∀ specifier {s}, s.Amid layout found → require' specifier s = require specifier s)
    (stmts : List Stmt) (scope : Scope) (exports : Exports) (hs : s.Amid layout found) :
    evaluate (m := StateM LoadState) path require' stmts scope exports s =
      evaluate (m := StateM LoadState) path require stmts scope exports s := by
  refine evaluate_related
    (fun load other : Load Exports => ∀ s, LoadState.Amid layout found s → load s = other s)
    require' require (fun _ _ _ => rfl) (fun _ _ _ => rfl) (fun {_ source _} _ _ _ hnext s hs => ?_) scope exports s hs
  have hafter := hadds source.value s
  rcases hrun : require source.value s with ⟨halt | module, t⟩
  all_goals
    rw [hrun] at hafter
    have hrun' := (hrequire source.value hs).trans hrun
  · rw [bind_of_error hrun, bind_of_error hrun']
  · rw [bind_of_ok hrun, bind_of_ok hrun']
    exact hnext module t (hs.later hafter)

theorem compileNative_amid {require require' : FilePath → String → Load Module}
    (hadds : ∀ importer specifier, (require importer specifier).Adds)
    (hrequire : ∀ importer specifier {s}, s.Amid layout found →
      require' importer specifier s = require importer specifier s)
    (request : StageInput) (hs : s.Amid layout found) :
    compileNative (m := StateM LoadState) require' request s =
      compileNative (m := StateM LoadState) require request s := by
  unfold compileNative
  cases parseText request.content with
  | error cause => rfl
  | ok program =>
    exact bind_congr (evaluate_amid (hadds request.path) (hrequire request.path)
      program.statements [] [] hs) _

variable {tree tree' : FileTree}
  (hresolve : ∀ specifier requester,
    layout.resolve tree' specifier requester = layout.resolve tree specifier requester)
  (hread : ∀ path, tree.Loadable path → path.same found = false →
    tree'.read path = tree.read path)

include hresolve

theorem imported_amid {depth : ℕ}
    (hpath : ∀ {path requester s}, tree.Loadable path → s.Amid layout found →
      atPath tree' depth path requester s = atPath tree depth path requester s)
    (importer : FilePath) (specifier : String) (hs : s.Amid layout found) :
    imported tree' depth layout importer specifier s =
      imported tree depth layout importer specifier s := by
  unfold imported
  rw [hresolve]
  cases hfile : layout.resolve tree specifier (some importer) with
  | error error =>
    have hrefused : (ofExcept (.error error) : Load FilePath) s = (.error (.error error), s) := rfl
    rw [bind_of_error hrefused, bind_of_error hrefused]
  | ok file =>
    have hfound : (ofExcept (.ok file) : Load FilePath) s = (.ok file, s) := rfl
    rw [bind_of_ok hfound, bind_of_ok hfound]
    exact hpath (Layout.loadable_of_resolve hfile) hs

include hread

/-- While a file is compiled, what it says makes no difference to loads, as they do not read it. -/
theorem atPath_amid (depth : ℕ) {path : FilePath} {requester : Option FilePath}
    (hpath : tree.Loadable path) (hs : s.Amid layout found) :
    atPath tree' depth path requester s = atPath tree depth path requester s := by
  induction depth generalizing path requester s with
  | zero =>
    cases hcached : s.loader.cache.get? path.keyed with
    | some module => rw [atPath_cached hcached, atPath_cached hcached]
    | none => rw [atPath_zero hcached, atPath_zero hcached]
  | succ below ih =>
    cases hcached : s.loader.cache.get? path.keyed with
    | some module => rw [atPath_cached hcached, atPath_cached hcached]
    | none =>
      by_cases hflight : s.loader.isInFlight path.keyed = true
      · rw [atPath_inFlight hcached hflight, atPath_inFlight hcached hflight]
      · have htext := hread path hpath (hs.apart hflight)
        have hentered := hs.enter path.keyed
        have hcompile : compileFile tree' (imported tree' below layout) path requester
            (s.enter path.keyed) =
          compileFile tree (imported tree below layout) path requester (s.enter path.keyed) := by
          by_cases hcontent : ∃ content, tree.read path = some (.text content)
          · obtain ⟨content, hcontent⟩ := hcontent
            rw [compileFile_native (htext.trans hcontent) hentered.stage,
              compileFile_native hcontent hentered.stage]
            exact compileNative_amid (keeps_imported (adds_atPath tree below) layout)
              (fun importer specifier _ ht => imported_amid hresolve ih importer specifier ht)
              _ hentered
          · have hunread := not_exists.mp hcontent
            rw [compileFile_unread (htext ▸ hunread), compileFile_unread hunread]
        rw [atPath_succ hcached hflight, atPath_succ hcached hflight, hs.layout_eq,
          compiled_apply, compiled_apply, hcompile]

end Load

end Amid

section Exports

variable {tree : FileTree} {path found : FilePath} {first second : String}
  (htokens : SameTokens first second) (hown : tree.locate found = tree.locate path)
  (hknown : tree.KnownBy found)

namespace Load

include hown hknown

theorem imported_withText (depth : ℕ) (layout : Layout) (importer : FilePath) (specifier : String)
    {s : LoadState} (hs : s.Amid layout found) :
    imported (tree.withText path first) depth layout importer specifier s =
      imported (tree.withText path second) depth layout importer specifier s := by
  have hresolve : ∀ specifier requester,
      layout.resolve (tree.withText path first) specifier requester =
        layout.resolve (tree.withText path second) specifier requester := by
    intro specifier requester
    rw [FileTree.resolve_withText, FileTree.resolve_withText]
  have hread : ∀ file, (tree.withText path second).Loadable file → file.same found = false →
      (tree.withText path first).read file = (tree.withText path second).read file := by
    intro file hfile hapart
    have hother : tree.locate file ≠ tree.locate path := by
      intro hsame
      have hfound := hknown file (FileTree.loadable_withText.mp hfile) (hsame.trans hown.symm)
      rw [hapart] at hfound
      cases hfound
    rw [FileTree.read_withText_ne hother, FileTree.read_withText_ne hother]
  exact imported_amid hresolve (fun hfile ht => atPath_amid hresolve hread depth hfile ht)
    importer specifier hs

include htokens

theorem exports_compileFile {depth : ℕ} {requester : Option FilePath} {s t : LoadState}
    (hstage : s.loader.slot.current.stage = .native) {module : Module}
    (h : compileFile (tree.withText path first)
      (imported (tree.withText path first) depth s.loader.layout) found requester
        (s.enter found.keyed) = (.ok module, t)) :
    ∃ module' t', compileFile (tree.withText path second)
        (imported (tree.withText path second) depth s.loader.layout) found requester
          (s.enter found.keyed) = (.ok module', t') ∧
      module'.exports = module.exports := by
  have hentered : (s.enter found.keyed).Amid s.loader.layout found := by
    refine ⟨rfl, hstage, ?_⟩
    rw [s.isInFlight_enter, KeyedPath.same_self, Bool.true_or]
  obtain ⟨content, hcontent, _⟩ := compileFile_ok h
  rw [FileTree.read_withText hown, Option.map_eq_some_iff] at hcontent
  obtain ⟨former, hformer, _⟩ := hcontent
  have hread : ∀ text, (tree.withText path text).read found = some (.text text) := by
    intro text
    rw [FileTree.read_withText hown, hformer]
    rfl
  have hagree : ∀ request, compileNative (m := StateM LoadState)
      (imported (tree.withText path first) depth s.loader.layout) request (s.enter found.keyed) =
        compileNative (m := StateM LoadState)
          (imported (tree.withText path second) depth s.loader.layout) request
            (s.enter found.keyed) := fun request =>
    compileNative_amid (keeps_imported (adds_atPath _ depth) s.loader.layout)
      (fun importer specifier _ ht =>
        imported_withText hown hknown depth s.loader.layout importer specifier ht) request hentered
  have himported : ∀ importer specifier, Pairing.Loads
      (.respaced s.loader.layout id (tree.unplaced path))
      (imported (tree.withText path second) depth s.loader.layout importer specifier)
      (imported (tree.withText path second) depth s.loader.layout importer specifier) :=
    (FileTree.parallel_withText htokens.self rfl s.loader.layout).imported depth
  obtain ⟨hresult, -⟩ := respaced_compileNative (FileTree.outline_unplaced htokens hown) himported
    requester (s.enter found.keyed) (s.enter found.keyed)
    (Pairing.states_respaced rfl hentered.stage rfl)
  rw [compileFile_native (hread first) hentered.stage, hagree] at h
  rw [compileFile_native (hread second) hentered.stage]
  rw [h] at hresult
  generalize compileNative (m := StateM LoadState)
    (imported (tree.withText path second) depth s.loader.layout) ⟨second, found, requester⟩
      (s.enter found.keyed) = run at hresult ⊢
  obtain ⟨result, t'⟩ := run
  cases hresult with
  | ok hmade =>
    cases hmade with
    | made halike =>
      rw [Value.exchangedAll_id, Value.exchangedAll_id] at halike
      exact ⟨_, t', rfl, halike.symm⟩

theorem exports_atPath {depth : ℕ} {requester : Option FilePath} {s : LoadState}
    (hstage : s.loader.slot.current.stage = .native) {module : Module}
    (h : (atPath (tree.withText path first) depth found requester s).1 = .ok module) :
    ∃ module', (atPath (tree.withText path second) depth found requester s).1 = .ok module' ∧
      module'.exports = module.exports := by
  rcases atPath_cases (tree.withText path first) depth found requester s with
    ⟨kept, hkept, hload⟩ | ⟨_, hload⟩ | ⟨below, rfl, huncached, hidle, hload⟩
  · rw [hload] at h
    cases h
    exact ⟨module, by rw [atPath_cached hkept], rfl⟩
  · rw [hload] at h
    cases h
  · rw [hload, compiled_apply] at h
    rcases hrun : compileFile (tree.withText path first)
      (imported (tree.withText path first) below s.loader.layout) found requester
      (s.enter found.keyed) with ⟨halt | made, t⟩
    · rw [hrun] at h
      cases h
    · have hmade := congrArg Prod.fst (compiled_of_ok huncached hrun)
      rw [compiled_apply] at hmade
      cases h.symm.trans hmade
      obtain ⟨module', t', hrun', hexports⟩ :=
        exports_compileFile htokens hown hknown hstage hrun
      refine ⟨module', ?_, hexports⟩
      rw [atPath_succ huncached (by rw [hidle]; decide), compiled_of_ok huncached hrun']

end Load

end Exports

/-- Two hosts that differ in the text of one file, where both texts have the same tokens. Native loads
come to the same on both, but for the fingerprints of the two texts and for places in errors of the
file. The exports of the file are the same altogether if loads know it by one path, as they do in
shallow trees. -/
theorem HostM.loads_respaced (host : Host) {id : LoaderId} (hid : id < host.loaders.length)
    (hnative : (host.loader id).slot.current.stage = .native) (path : FilePath)
    {first second : String} (htokens : SameTokens first second) :
    let within := fun text => { host with tree := host.tree.withText path text }
    let answers := fun requests text => (HostM.loads id requests (within text)).1.map
      (blurred (oneMark first second) (host.tree.unplaced path))
    (∀ requests, answers requests first = answers requests second) ∧
    (∀ (request : Session.LoadRequest) (found : FilePath) (requester : Option FilePath),
      request.target host.tree (host.loader id).layout = .ok (found, requester) →
      host.tree.locate found = host.tree.locate path → host.tree.KnownBy found →
      ∀ module, (HostM.load id request.run (within first)).1 = .ok module →
        ∃ module', (HostM.load id request.run (within second)).1 = .ok module' ∧
          module'.exports = module.exports) ∧
    (host.tree.Shallow → ∀ found, host.tree.Loadable found → host.tree.KnownBy found) := by
  intro within answers
  have htarget : ∀ (text : String) (request : Session.LoadRequest),
      request.target (within text).tree (host.loader id).layout =
        request.target host.tree (host.loader id).layout :=
    fun text request => request.target_retext ..
  refine ⟨?_, ?_, fun hshallow _ hfound => hshallow.knownBy hfound⟩
  · intro requests
    have hparallel : Pairing.Parallel (.respaced (host.loader id).layout (oneMark first second)
        (host.tree.unplaced path)) (within first).tree (within second).tree :=
      FileTree.parallel_withText htokens (oneMark_eq first second) (host.loader id).layout
    have hstates : Pairing.States (.respaced (host.loader id).layout (oneMark first second)
        (host.tree.unplaced path)) ((within first).loading id) ((within second).loading id) :=
      Pairing.states_respaced rfl hnative rfl
    have hanswers := hstates.loads hparallel hid hid
      (fun request => (htarget second request).trans (htarget first request).symm) requests
    have hblurred := hanswers.imp fun _ _ h => h.blurred_eq
    rwa [← List.forall₂_map_right_iff, ← List.forall₂_map_left_iff, List.forall₂_eq_eq_eq]
      at hblurred
  · intro request found requester hfound hown hknown module hmodule
    have hrun : ∀ text, (HostM.load id request.run (within text)).1 =
        (Load.atPath (host.tree.withText path text) Load.maxDepth found requester
          (host.loading id)).1 := by
      intro text
      have hloading : (within text).loading id = host.loading id := rfl
      have htree : (within text).tree = host.tree.withText path text := rfl
      have hasked : request.target (host.tree.withText path text) (host.loading id).loader.layout =
          .ok (found, requester) := (htarget text request).trans hfound
      rw [HostM.load_fst, hloading, htree, Session.LoadRequest.run_apply, hasked]
    rw [hrun] at hmodule ⊢
    exact Load.exports_atPath htokens hown hknown hnative hmodule

section Linked

open World

def spacedOut : String := "// one\nexport  x = 1 ;"

theorem loads_respaced_linked :
    let host := (start linkedFiles [.withoutEntryDir]).host
    let within := fun text => { host with tree := host.tree.withText ⟨"/l/a.svs"⟩ text }
    let answers := fun requests text => (HostM.loads 0 requests (within text)).1.map
      (blurred (oneMark "export x = 1;" spacedOut) (host.tree.unplaced ⟨"/l/a.svs"⟩))
    SameTokens "export x = 1;" spacedOut ∧
      answers [.path ⟨"/c.svs"⟩, throughLink] "export x = 1;" =
        answers [.path ⟨"/c.svs"⟩, throughLink] spacedOut ∧
      ∃ module module', (HostM.load 0 throughLink.run (within "export x = 1;")).1 = .ok module ∧
        (HostM.load 0 throughLink.run (within spacedOut)).1 = .ok module' ∧
        module'.exports = module.exports := by
  intro host within answers
  have htokens : SameTokens "export x = 1;" spacedOut := by decide +kernel
  have htarget : throughLink.target host.tree (host.loader 0).layout =
      .ok (⟨"/lib/a.svs"⟩, none) := by decide +kernel
  have hown : host.tree.locate ⟨"/lib/a.svs"⟩ = host.tree.locate ⟨"/l/a.svs"⟩ := by decide +kernel
  have hloads : (HostM.load 0 throughLink.run (within "export x = 1;")).1.isOk = true := by
    decide +kernel
  obtain ⟨hanswers, hexports, hshallow⟩ :=
    HostM.loads_respaced host (show 0 < host.loaders.length by decide) rfl ⟨"/l/a.svs"⟩ htokens
  have hknown : host.tree.KnownBy ⟨"/lib/a.svs"⟩ :=
    hshallow shallow_linkedFiles _ (Session.LoadRequest.loadable_target htarget)
  rcases hload : (HostM.load 0 throughLink.run (within "export x = 1;")).1 with halt | module
  · rw [hload] at hloads
    cases hloads
  · obtain ⟨module', hload', hsame⟩ := hexports throughLink _ _ htarget hown hknown module hload
    exact ⟨htokens, hanswers _, module, module', rfl, hload', hsame⟩

end Linked

def nestedBelow : Directory :=
  [("x.svs", .link ⟨"../p.svs"⟩), ("d", .directory [("x.svs", .file (.text "export x = 1;"))])]

/-- A file, a link to it from below and a file below that link. -/
def nestedLinks : Directory :=
  [("p.svs", .file (.text "")), ("d", .directory nestedBelow)]

def passing : String := "import m from \"./d/x.svs\"; export m = m;"

namespace FileTree

def nestedPath : FilePath := ⟨"/q/k/p.svs"⟩

def nestedLink : FilePath := ⟨"/q/k/./d/x.svs"⟩

def nestedLeaf : FilePath := ⟨"/q/k/./d/./d/x.svs"⟩

theorem placeOf_nestedLinks :
    (deepTree nestedLinks).placeOf Trail.anywhere nestedPath =
        some ⟨deepDir ++ [longName] ++ ["p.svs"], some (.file (.text ""))⟩ ∧
      (deepTree nestedLinks).placeOf Trail.anywhere nestedLink =
        some ⟨deepDir ++ [longName] ++ ["p.svs"], some (.file (.text ""))⟩ ∧
      (deepTree nestedLinks).placeOf Trail.anywhere nestedLeaf =
        some ⟨deepDir ++ [longName] ++ ["d", "d", "x.svs"],
          some (.file (.text "export x = 1;"))⟩ := by
  obtain ⟨final, hfiles, hlocation, hleads⟩ := deepTree_leads nestedLinks
  have hfile : ∀ {links}, (deepTree nestedLinks).Leads Trail.anywhere links final ["p.svs"]
      ⟨final.location ++ ["p.svs"], some (.file (.text ""))⟩ := fun {links} =>
    .last rfl (by decide) (by decide) (by rw [hfiles]; rfl) fun _ h => ⟨_, (Option.some.inj h).symm⟩
  have hinner : ∀ {links rest place},
      (deepTree nestedLinks).Leads Trail.anywhere links (("d", nestedBelow) :: final) rest place →
      (deepTree nestedLinks).Leads Trail.anywhere links final ("." :: "d" :: rest) place := by
    intro links rest place onward
    refine .stays rfl (.inr rfl) (.down rfl (by decide) (by decide) ?_ onward)
    rw [hfiles]
    rfl
  have hplace : ∀ {path rest place}, path.isAbsolute = true → names path = "" :: "q" :: "k" :: rest →
      (deepTree nestedLinks).Leads Trail.anywhere 38 final rest place →
        (deepTree nestedLinks).placeOf Trail.anywhere path = some place := by
    intro path rest place habsolute hnames honward
    rw [placeOf_absolute habsolute, hnames]
    exact .stays rfl (.inl rfl) (hleads (.inl rfl) honward)
  rw [← hlocation]
  refine ⟨hplace (by decide) rfl hfile, hplace (by decide) rfl (hinner ?_),
    hplace (by decide) rfl (hinner ?_)⟩
  · exact .link rfl (by decide) (by decide) rfl (.up rfl hfile)
  · have hleaf : (deepTree nestedLinks).Leads Trail.anywhere 38
        (("d", [("x.svs", .file (.text "export x = 1;"))]) :: ("d", nestedBelow) :: final) ["x.svs"]
        ⟨_, some (.file (.text "export x = 1;"))⟩ :=
      .last rfl (by decide) (by decide) rfl fun _ h => ⟨_, (Option.some.inj h).symm⟩
    rw [Trail.location_cons, Trail.location_cons, List.append_assoc, List.append_assoc] at hleaf
    exact .stays rfl (.inr rfl) (.down rfl (by decide) (by decide) rfl hleaf)

theorem files_nestedLinks (text : String) :
    let tree := (deepTree nestedLinks).withText nestedPath text
    (∀ path ∈ [nestedPath, nestedLink, nestedLeaf],
      tree.isFile path = true ∧ tree.canonical path = path) ∧
    tree.read nestedPath = some (.text text) ∧ tree.read nestedLink = some (.text text) ∧
      tree.read nestedLeaf = some (.text "export x = 1;") := by
  intro tree
  obtain ⟨hfile, hlink, hleaf⟩ := placeOf_nestedLinks
  have hlocate : ∀ {path place}, fits path = true →
      (deepTree nestedLinks).placeOf Trail.anywhere path = some place →
        (deepTree nestedLinks).locate path = some place.location := by
    intro path place hfits hplace
    rw [locate, placeAt, if_pos hfits, hplace]
    rfl
  have hself := hlocate (by decide) hfile
  have hsame := (hlocate (by decide) hlink).trans hself.symm
  have hother : (deepTree nestedLinks).locate nestedLeaf ≠
      (deepTree nestedLinks).locate nestedPath := by
    rw [hlocate (by decide) hleaf, hself]
    exact fun h => absurd (List.append_cancel_left (Option.some.inj h)) (by decide)
  obtain ⟨hisFile, hcanonical, hread⟩ := deep_file (by decide) hfile
  obtain ⟨hisFile', hcanonical', hread'⟩ := deep_file (by decide) hlink
  obtain ⟨hisFile'', hcanonical'', hread''⟩ := deep_file (by decide) hleaf
  refine ⟨?_, ?_, ?_, ?_⟩
  · simp only [List.forall_mem_cons, tree, withText, isFile_retext, canonical_retext]
    exact ⟨⟨hisFile, hcanonical⟩, ⟨hisFile', hcanonical'⟩, ⟨hisFile'', hcanonical''⟩,
      List.forall_mem_nil _⟩
  · rw [read_withText rfl, hread]
    rfl
  · rw [read_withText hsame, hread']
    rfl
  · rw [read_withText_ne hother, hread'']

theorem resolve_nestedLinks (text : String) :
    let tree := (deepTree nestedLinks).withText nestedPath text
    Layout.withoutEntryDir.resolve tree "./d/x.svs" (some nestedPath) = .ok nestedLink ∧
      Layout.withoutEntryDir.resolve tree "./d/x.svs" (some nestedLink) = .ok nestedLeaf := by
  intro tree
  obtain ⟨hfiles, -⟩ := files_nestedLinks text
  have hresolve : ∀ {requester dir file : FilePath}, requester.parent = some dir →
      dir.joinName "./d/x.svs" = file → file ∈ [nestedPath, nestedLink, nestedLeaf] →
      Layout.withoutEntryDir.resolve tree "./d/x.svs" (some requester) = .ok file := by
    intro requester dir file hparent hjoin hmem
    obtain ⟨hfile, hcanonical⟩ := hfiles file hmem
    have hmeant : tree.moduleFile (dir.joinName ("./" ++ "d/x.svs")) = some file := by
      rw [show dir.joinName ("./" ++ "d/x.svs") = file from hjoin, moduleFile, if_pos hfile]
    have hresolved : Layout.withoutEntryDir.resolve tree ("./" ++ "d/x.svs") (some requester) = _ :=
      Layout.resolve_behindDot hparent
    rw [hmeant] at hresolved
    exact hresolved.trans (congrArg Except.ok hcanonical)
  have hparent : nestedPath.parent = some ⟨"/q/k"⟩ := by decide
  have hparent' : nestedLink.parent = some ⟨"/q/k/./d"⟩ := by decide
  exact ⟨hresolve hparent (by decide +kernel) (by simp),
    hresolve hparent' (by decide +kernel) (by simp)⟩

end FileTree

section Nested

open FileTree CommandLine

theorem compile_passing {text : String} (h : text ∈ [passing, passing ++ " // m"])
    (path : FilePath) (part : Module) :
    importsOf text = ["./d/x.svs"] ∧ compileNative (m := Id) (fun _ _ => .ok part)
      ⟨text, path, none⟩ = .ok ⟨path, [("m", .module part)], fingerprint text⟩ := by
  let place (first stop : ℕ) : Span := ⟨⟨1, first + 1, first⟩, ⟨1, stop + 1, stop⟩⟩
  have hread : ∀ text ∈ [passing, passing ++ " // m"],
      (parseText text).toOption.map Program.statements =
        some [.imports ⟨"m", place 7 8⟩ ⟨"./d/x.svs", place 14 25⟩ (place 0 26),
          .exports ⟨"m", place 34 35⟩ (.identifier ⟨"m", place 38 39⟩) (place 27 40)] := by
    decide +kernel
  have hprogram := hread text h
  unfold importsOf compileNative
  dsimp only
  generalize parseText text = read at hprogram ⊢
  rcases read with cause | program
  · cases hprogram
  · dsimp only
    rw [Option.some.inj hprogram]
    exact ⟨rfl, rfl⟩

theorem atPath_nestedLinks {text : String} (h : text ∈ [passing, passing ++ " // m"])
    {s : LoadState} (hlayout : s.loader.layout = .withoutEntryDir)
    (hstage : s.loader.slot.current.stage = .native) (hidle : s.loader.inFlight = [])
    (hempty : s.loader.cache = []) (depth : ℕ) :
    ∃ part module, (Load.atPath ((deepTree nestedLinks).withText nestedPath text) (depth + 3)
        nestedPath none s).1 = .ok module ∧
      module.exports = [("m", .module part)] ∧ part.fingerprint = fingerprint text := by
  obtain ⟨_, hread, hreadLink, hreadLeaf⟩ := files_nestedLinks text
  obtain ⟨hresolved, hresolvedLink⟩ := resolve_nestedLinks text
  have huncached : ∀ path, s.loader.cache.get? path = none := by
    intro path
    rw [hempty]
    rfl
  have hfree : ∀ path, s.loader.isInFlight path = false := by
    intro path
    rw [Loader.isInFlight, hidle, List.any_nil]
  have hfreeLink : (s.enter nestedPath.keyed).loader.isInFlight nestedLink.keyed = false := by
    rw [s.isInFlight_enter, hfree]
    decide
  have hfreeLeaf : ((s.enter nestedPath.keyed).enter nestedLink.keyed).loader.isInFlight
      nestedLeaf.keyed = false := by
    rw [LoadState.isInFlight_enter, s.isInFlight_enter, hfree]
    decide
  have hcompiles : (compileNative (m := Id) unanswered
      ⟨"export x = 1;", nestedLeaf, none⟩).isOk = true := by decide +kernel
  rcases hleaf : compileNative (m := Id) unanswered ⟨"export x = 1;", nestedLeaf, none⟩ with halt | leaf
  · rw [hleaf] at hcompiles
    cases hcompiles
  · obtain ⟨himports, hmade⟩ := compile_passing h nestedLink leaf
    have hload : (Load.atPath _ _ nestedLink (some nestedPath) (s.enter nestedPath.keyed)).1 = _ :=
      Load.atPath_importing (s := s.enter nestedPath.keyed) hreadLink hstage (huncached _) hfreeLink
        himports (hlayout ▸ hresolvedLink) (Load.atPath_importless
          (s := (s.enter nestedPath.keyed).enter nestedLink.keyed) hreadLeaf hstage (huncached _)
            hfreeLeaf (by decide +kernel) hleaf depth) hmade
    obtain ⟨_, hmade'⟩ := compile_passing h nestedPath
      ⟨nestedLink, [("m", .module leaf)], fingerprint text⟩
    exact ⟨_, _, Load.atPath_importing hread hstage (huncached _) (hfree _) himports
      (hlayout ▸ hresolved) hload hmade', rfl, rfl⟩

/-- A comment that is added to the file makes a difference to its exports, in which the file is found
once more. -/
theorem exports_respaced_differ :
    let host := (World.start (deepTree nestedLinks) [.withoutEntryDir]).host
    let within := fun text => { host with tree := host.tree.withText nestedPath text }
    SameTokens passing (passing ++ " // m") ∧
    ∃ module module',
      (HostM.load 0 (Session.LoadRequest.path nestedPath).run (within passing)).1 = .ok module ∧
      (HostM.load 0 (Session.LoadRequest.path nestedPath).run (within (passing ++ " // m"))).1 =
        .ok module' ∧ module'.exports ≠ module.exports := by
  intro host within
  refine ⟨by decide +kernel, ?_⟩
  have hload : ∀ text ∈ [passing, passing ++ " // m"], ∃ part module,
      (HostM.load 0 (Session.LoadRequest.path nestedPath).run (within text)).1 = .ok module ∧
        module.exports = [("m", .module part)] ∧ part.fingerprint = fingerprint text := by
    intro text htext
    obtain ⟨hfiles, -⟩ := files_nestedLinks text
    obtain ⟨hfile, hcanonical⟩ := hfiles nestedPath List.mem_cons_self
    obtain ⟨depth, hdepth⟩ := Nat.exists_eq_add_of_le' (Load.le_maxDepth (show 3 ≤ 256 by decide))
    have htree : (within text).tree = (deepTree nestedLinks).withText nestedPath text := rfl
    have hrun : ∀ s, (Session.LoadRequest.path nestedPath).run
        ((deepTree nestedLinks).withText nestedPath text) s =
          Load.atPath ((deepTree nestedLinks).withText nestedPath text) Load.maxDepth nestedPath
            none s := by
      intro s
      rw [Session.LoadRequest.run_apply, Session.LoadRequest.target, if_pos hfile, hcanonical]
    rw [HostM.load_fst, htree, hrun, hdepth]
    exact atPath_nestedLinks htext rfl rfl rfl rfl depth
  obtain ⟨part, module, hmodule, hexports, hfingerprint⟩ := hload _ List.mem_cons_self
  obtain ⟨part', module', hmodule', hexports', hfingerprint'⟩ :=
    hload _ (List.mem_cons_of_mem _ List.mem_cons_self)
  refine ⟨module, module', hmodule, hmodule', fun hsame => ?_⟩
  rw [hexports, hexports'] at hsame
  have hparts : part' = part := Value.module.inj (Prod.mk.inj (List.cons.inj hsame).1).2
  have hdiffer : fingerprint (passing ++ " // m") ≠ fingerprint passing := by decide +kernel
  -- a rewrite would compare the two fingerprints by computing them
  exact hdiffer (hfingerprint'.symm.trans
    ((congrArg ModuleOf.fingerprint hparts).trans hfingerprint))

end Nested

end Interpose
