import Interpose.Proofs.History
import Interpose.Proofs.Requesters

/-!
That every load ends. The modules in flight are those that are being compiled, one inside the other;
no two of them have the same path, so loads nest no deeper than there are paths under which files are
known. The limit that the definition of a load sets on this is out of reach.
-/

set_option autoImplicit false

namespace Interpose
open Script

def FileTree.KnowsAtMost (tree : FileTree) (bound : Nat) : Prop :=
  ∀ paths : List FilePath, paths.Pairwise (fun a b => a.same b = false) →
    (∀ path ∈ paths, tree.Loadable path) → paths.length ≤ bound

section Bound

variable {tree : FileTree}

theorem nodup_of_differ {paths : List FilePath} (h : paths.Pairwise fun a b => a.same b = false) :
    paths.Nodup := by
  refine h.imp fun {a b} hdiffer heq => ?_
  rw [heq, FilePath.same, beq_self_eq_true] at hdiffer
  cases hdiffer

theorem differ_cons {loader : Loader} {path : FilePath} {flight : List FilePath}
    (hflight : loader.inFlight = flight.map FilePath.keyed)
    (hidle : loader.isInFlight path.keyed = false)
    (hdiffer : flight.Pairwise fun a b => a.same b = false) :
    (path :: flight).Pairwise fun a b => a.same b = false := by
  refine List.pairwise_cons.mpr ⟨fun other hother => ?_, hdiffer⟩
  rw [Loader.isInFlight, hflight] at hidle
  have hother := List.any_eq_false.mp hidle _ (List.mem_map_of_mem hother)
  rw [KeyedPath.same_eq] at hother
  exact Bool.eq_false_iff.mpr hother

theorem FileTree.knowsAtMost_maxDepth (tree : FileTree) : tree.KnowsAtMost Load.maxDepth := by
  intro paths hdiffer hloadable
  have htexts : (paths.map FilePath.text).Nodup :=
    (nodup_of_differ hdiffer).map fun _ _ => congrArg FilePath.mk
  have hlength := length_le_of_nodup htexts fun text htext => by
    obtain ⟨path, hpath, rfl⟩ := List.mem_map.mp htext
    exact (hloadable path hpath).bounded
  rw [List.length_map] at hlength
  delta Load.maxDepth
  exact hlength

theorem Directory.filesOf_subset {dir : Directory} {name : String} {entry : Entry}
    (h : dir.lookup name = some entry) (here : Location) :
    filesOf (here ++ [name]) entry ⊆ filesBelow here dir := by
  induction dir with
  | nil => cases h
  | cons first rest ih =>
    obtain ⟨other, found⟩ := first
    intro file hfile
    rw [filesBelow, List.mem_append]
    rw [List.lookup_cons] at h
    split at h
    next heq =>
      cases h
      exact .inl (eq_of_beq heq ▸ hfile)
    next => exact .inr (ih h hfile)

theorem Trail.Stands.filesBelow_subset {trail : Trail} (h : trail.Stands tree.root) :
    Directory.filesBelow trail.location (trail.here tree.root) ⊆ tree.files := by
  induction h with
  | root => exact List.Subset.refl _
  | @down trail name inner above named found ih =>
    have hbelow := Directory.filesOf_subset found trail.location
    rw [Directory.filesOf] at hbelow
    rw [Trail.location_cons]
    exact List.Subset.trans hbelow ih

theorem FileTree.Shallow.knowsAtMost (htree : tree.Shallow) :
    tree.KnowsAtMost tree.files.length := by
  intro paths hdiffer hloadable
  have hsubset : paths ⊆ tree.files.map fun file => pathOf file.1 := by
    intro path hpath
    obtain ⟨trail, name, content, htrail, _, hfile, rfl⟩ := htree.loadable (hloadable path hpath)
    have hmem := Directory.filesOf_subset hfile trail.location
    rw [Directory.filesOf] at hmem
    exact List.mem_map.mpr ⟨_, htrail.filesBelow_subset (hmem List.mem_cons_self), rfl⟩
  have hlength := (List.subperm_of_subset (nodup_of_differ hdiffer) hsubset).length_le
  rwa [List.length_map] at hlength

end Bound

namespace Load

/-- Loads without a limit on nesting. A load ends with a result, after at most so many modules were
compiled one inside the other; the loads for imports end in the same way, whatever state they begin
in, as long as the modules that are in flight in it are those that are being compiled. -/
inductive Returns (tree : FileTree) : Nat → FilePath → Option FilePath → LoadState →
    Outcome ModuleError Module × LoadState → Prop where
  | cached {depth : Nat} {path : FilePath} {requester : Option FilePath} {s : LoadState}
      {module : Module} (found : s.loader.cache.get? path.keyed = some module) :
      Returns tree depth path requester s (.ok module, s)
  | cyclic {depth : Nat} {path : FilePath} {requester : Option FilePath} {s : LoadState}
      (uncached : s.loader.cache.get? path.keyed = none)
      (flying : s.loader.isInFlight path.keyed = true) :
      Returns tree depth path requester s (.error (.error (.cyclic path)), s)
  | compiled {depth : Nat} {path : FilePath} {requester : Option FilePath} {s : LoadState}
      {require : FilePath → String → Load Module}
      (uncached : s.loader.cache.get? path.keyed = none)
      (idle : s.loader.isInFlight path.keyed = false)
      (unresolved : ∀ importer specifier error t,
        s.loader.layout.resolve tree specifier (some importer) = .error error →
          require importer specifier t = (.error (.error error), t))
      (ends : ∀ importer specifier file t,
        s.loader.layout.resolve tree specifier (some importer) = .ok file →
        t.loader.inFlight = path.keyed :: s.loader.inFlight →
          Returns tree depth file (some importer) t (require importer specifier t)) :
      Returns tree (depth + 1) path requester s (compiledBy tree require path requester s)

variable {tree : FileTree} {path : FilePath} {requester : Option FilePath} {s : LoadState}

/-- As long as the paths in flight are different ones of those under which files are known, the
limit makes no difference. -/
theorem returns_atPath {bound : Nat} (hbound : tree.KnowsAtMost bound)
    {flight : List FilePath} (hflight : s.loader.inFlight = flight.map FilePath.keyed)
    (hdiffer : flight.Pairwise fun a b => a.same b = false)
    (hloadable : ∀ path ∈ flight, tree.Loadable path) (hpath : tree.Loadable path)
    {height depth : Nat} (hheight : bound ≤ flight.length + height)
    (hdepth : maxDepth ≤ flight.length + depth) :
    Returns tree height path requester s (atPath tree depth path requester s) := by
  induction height using Nat.strongRecOn generalizing path requester s flight depth with
  | _ height ih =>
  cases hcached : s.loader.cache.get? path.keyed with
  | some module =>
    rw [atPath_cached hcached]
    exact .cached hcached
  | none =>
    cases hidle : s.loader.isInFlight path.keyed with
    | true =>
      rw [atPath_inFlight hcached hidle]
      exact .cyclic hcached hidle
    | false =>
      have hdiffer' := differ_cons hflight hidle hdiffer
      have hloadable' : ∀ other ∈ path :: flight, tree.Loadable other := by
        intro other hother
        rcases List.mem_cons.mp hother with rfl | hother
        · exact hpath
        · exact hloadable other hother
      have hroom := hbound _ hdiffer' hloadable'
      have hroom' := tree.knowsAtMost_maxDepth _ hdiffer' hloadable'
      rw [List.length_cons] at hroom hroom'
      obtain ⟨higher, rfl⟩ : ∃ higher, height = higher + 1 := ⟨height - 1, by omega⟩
      obtain ⟨deeper, rfl⟩ : ∃ deeper, depth = deeper + 1 := ⟨depth - 1, by omega⟩
      rw [atPath_succ hcached (by rw [hidle]; decide)]
      refine .compiled hcached hidle (fun importer specifier error t hfile => ?_)
        fun importer specifier file t hfile ht => ?_
      · rw [imported, hfile]
        rfl
      · have hflight' : t.loader.inFlight = (path :: flight).map FilePath.keyed := by
          rw [ht, hflight, List.map_cons]
        rw [imported, hfile]
        refine ih higher (Nat.lt_succ_self higher) hflight' hdiffer' hloadable'
          (Layout.loadable_of_resolve hfile) ?_ ?_
        · rw [List.length_cons]
          omega
        · rw [List.length_cons]
          omega

section Unique

variable {α β : Type}

instance (flight : List KeyedPath) :
    Lasting fun before after => before.inFlight = flight → after.inFlight = flight where
  refl _ h := h
  trans h h' before := h' (h before)

theorem Returns.inFlight {depth : Nat} {result : Outcome ModuleError Module × LoadState}
    (h : Returns tree depth path requester s result) :
    result.2.loader.inFlight = s.loader.inFlight := by
  induction h with
  | cached found => rfl
  | cyclic uncached flying => rfl
  | @compiled depth path requester s require uncached idle unresolved ends ih =>
    have hrequire : ∀ importer specifier, (require importer specifier).Keeps fun before after =>
        before.inFlight = path.keyed :: s.loader.inFlight →
          after.inFlight = path.keyed :: s.loader.inFlight := by
      intro importer specifier t ht
      cases hfile : s.loader.layout.resolve tree specifier (some importer) with
      | error error =>
        rw [unresolved importer specifier error t hfile]
        exact ht
      | ok file => rw [ih importer specifier file t hfile ht, ht]
    have hinside : (compileFile tree require path requester
        (s.enter path.keyed)).2.loader.inFlight = path.keyed :: s.loader.inFlight :=
      keeps_compileFile tree hrequire path requester (s.enter path.keyed) rfl
    have hleft : ((compileFile tree require path requester
        (s.enter path.keyed)).2.leave path.keyed).loader.inFlight = s.loader.inFlight := by
      rw [LoadState.leave, hinside]
      exact filter_inFlight idle
    rw [compiledBy_apply]
    rcases hc : compileFile tree require path requester (s.enter path.keyed) with ⟨halt | module, t⟩
    all_goals rw [hc] at hleft
    · exact hleft
    · exact hleft

/-- Two loads do the same in any state that has these modules in flight, and leave them so. -/
def Agrees (flight : List KeyedPath) (load other : Load α) : Prop :=
  ∀ s, s.loader.inFlight = flight → load s = other s ∧ (load s).2.loader.inFlight = flight

variable {flight : List KeyedPath}

theorem agrees_refl {load : Load α}
    (h : load.Keeps fun before after => before.inFlight = flight → after.inFlight = flight) :
    Agrees flight load load :=
  fun s hs => ⟨rfl, h s hs⟩

theorem Agrees.bind {load other : Load α} {next next' : α → Load β} (h : Agrees flight load other)
    (hnext : ∀ value, Agrees flight (next value) (next' value)) :
    Agrees flight (load >>= next) (other >>= next') := by
  intro s hs
  obtain ⟨hsame, hafter⟩ := h s hs
  rcases hother : other s with ⟨halt | value, t⟩
  all_goals
    rw [hother] at hsame
    rw [hsame] at hafter
  · rw [bind_of_error hsame, bind_of_error hother]
    exact ⟨rfl, hafter⟩
  · rw [bind_of_ok hsame, bind_of_ok hother]
    exact hnext value t hafter

theorem agrees_evaluate {require require' : String → Load Module}
    (h : ∀ specifier, Agrees flight (require specifier) (require' specifier))
    (statements : List Stmt) (scope : Scope) (exports : Exports) :
    Agrees flight (evaluate (m := StateM LoadState) path require statements scope exports)
      (evaluate (m := StateM LoadState) path require' statements scope exports) :=
  evaluate_related (Agrees flight) require require'
    (fun exports => agrees_refl (keeps_pure exports)) (fun _ => agrees_refl (keeps_throw _)) (fun _ _ _ => (h _).bind) scope exports

variable {require require' : FilePath → String → Load Module}
  (h : ∀ importer specifier, Agrees flight (require importer specifier)
    (require' importer specifier))

include h

theorem agrees_compile (layout : Layout) :
    ∀ (stage : Stage) (request : StageInput),
      Agrees flight (compile layout require stage request) (compile layout require' stage request)
  | .native, request => by
    unfold compile compileNative
    cases parseText request.content with
    | error cause => exact agrees_refl (keeps_throw _)
    | ok program =>
      exact (agrees_evaluate (h request.path) program.statements [] []).bind fun _ =>
        agrees_refl (keeps_pure _)
  | .echo, request => by
    unfold compile
    exact agrees_refl (keeps_pure _)
  | .refuse, request => by
    unfold compile
    exact agrees_refl (keeps_fail _)
  | .intercepting owner policy transformer ⟨_, _, underlying⟩, request => by
    unfold compile
    refine (agrees_refl (keeps_ofExcept _)).bind fun selected => ?_
    have hbelow := agrees_compile layout underlying
    cases selected with
    | true =>
      exact (agrees_refl (keeps_record _)).bind fun _ =>
        (agrees_refl (keeps_transform transformer request)).bind fun request => hbelow request
    | false => exact hbelow request

theorem agrees_compileFile (tree : FileTree) (path : FilePath) (requester : Option FilePath) :
    Agrees flight (compileFile tree require path requester)
      (compileFile tree require' path requester) := by
  unfold compileFile
  split
  · intro s hs
    exact agrees_compile h s.loader.layout s.loader.slot.current.stage _ s hs
  · exact agrees_refl (keeps_fail _)

omit h

theorem Returns.unique {depth depth' : Nat} {result result' : Outcome ModuleError Module × LoadState}
    (h : Returns tree depth path requester s result)
    (h' : Returns tree depth' path requester s result') : result = result' := by
  induction h generalizing depth' result' with
  | cached found =>
    cases h' with
    | cached found' =>
      cases found.symm.trans found'
      rfl
    | cyclic uncached flying => cases found.symm.trans uncached
    | compiled uncached idle unresolved ends => cases found.symm.trans uncached
  | cyclic uncached flying =>
    cases h' with
    | cached found => cases found.symm.trans uncached
    | cyclic uncached' flying' => rfl
    | compiled uncached' idle unresolved ends => cases flying.symm.trans idle
  | @compiled depth path requester s require uncached idle unresolved ends ih =>
    cases h' with
    | cached found => cases found.symm.trans uncached
    | cyclic uncached' flying => cases flying.symm.trans idle
    | @compiled _ _ _ _ require' uncached' idle' unresolved' ends' =>
      have hagrees : ∀ importer specifier, Agrees (path.keyed :: s.loader.inFlight)
          (require importer specifier) (require' importer specifier) := by
        intro importer specifier t ht
        cases hfile : s.loader.layout.resolve tree specifier (some importer) with
        | error error =>
          rw [unresolved importer specifier error t hfile,
            unresolved' importer specifier error t hfile]
          exact ⟨rfl, ht⟩
        | ok file =>
          refine ⟨ih importer specifier file t hfile ht
            (ends' importer specifier file t hfile ht), ?_⟩
          rw [(ends importer specifier file t hfile ht).inFlight, ht]
      rw [compiledBy_apply, compiledBy_apply,
        (agrees_compileFile hagrees tree path requester (s.enter path.keyed) rfl).1]

end Unique

end Load

/-- The load for the host's request or for an import, with the loads that it is nested in, innermost
first: in each module that they compile, evaluation has got to the import that the next one is for. -/
inductive LoadCall.Nested (tree : FileTree) (first : LoadCall) : List LoadCall → LoadCall → Prop where
  | start : Nested tree first [] first
  | imported {outer : List LoadCall} {importer call : LoadCall}
      (within : Nested tree first outer importer) (imports : importer.Imports tree call) :
      Nested tree first (importer :: outer) call

namespace LoadCall

variable {tree : FileTree} {first importer call : LoadCall} {outer : List LoadCall}

theorem Imports.inFlight (h : importer.Imports tree call) :
    call.start.loader.inFlight = importer.path.keyed :: importer.start.loader.inFlight := by
  cases h with
  | executed compiles parsed reached resolved =>
    have hreached := reached.extends
      (Load.keeps_imported (Load.adds_atPath tree _) _ importer.path)
    rw [(Stage.passOn_same compiles.passed).2] at hreached
    exact hreached.inFlight

theorem Imports.idle (h : importer.Imports tree call) :
    importer.start.loader.isInFlight importer.path.keyed = false := by
  cases h with
  | executed compiles parsed reached resolved => exact compiles.idle

theorem Imports.loadable (h : importer.Imports tree call) : tree.Loadable call.path := by
  cases h with
  | executed compiles parsed reached resolved => exact Layout.loadable_of_resolve resolved

namespace Nested

theorem inFlight (h : Nested tree first outer call) (hfirst : first.start.loader.inFlight = []) :
    call.start.loader.inFlight = (outer.map LoadCall.path).map FilePath.keyed := by
  induction h with
  | start => exact hfirst
  | imported within imports ih => rw [imports.inFlight, ih, List.map_cons, List.map_cons]

theorem differ (h : Nested tree first outer call) (hfirst : first.start.loader.inFlight = []) :
    (outer.map LoadCall.path).Pairwise fun a b => a.same b = false := by
  induction h with
  | start => exact List.Pairwise.nil
  | imported within imports ih => exact differ_cons (within.inFlight hfirst) imports.idle ih

theorem loadable (h : Nested tree first outer call) (hfirst : tree.Loadable first.path) :
    ∀ path ∈ (call :: outer).map LoadCall.path, tree.Loadable path := by
  induction h with
  | start => simpa using hfirst
  | imported within imports ih =>
    rw [List.map_cons]
    exact List.forall_mem_cons.mpr ⟨imports.loadable, ih⟩

end Nested

end LoadCall

def Session.LoadRequest.Returns (request : LoadRequest) (tree : FileTree) (depth : Nat)
    (s : LoadState) (result : Outcome ModuleError Module × LoadState) : Prop :=
  match request.target tree s.loader.layout with
  | .ok (found, requester) => Load.Returns tree depth found requester s result
  | .error error => result = (.error (.error error), s)

namespace World

/-- Whatever happened before, and whatever stage is in the slot, a request ends as loads without any
limit on nesting do. The loads that a load is nested in are those of the modules in flight, no two of
which have the same path, and there are no more of them than paths under which files are known; in a
shallow tree, no more than files. -/
theorem load_returns (tree : FileTree) (layouts : List Layout) (events : List Event)
    (id : LoaderId) (request : Session.LoadRequest) :
    let s := ((start tree layouts).run events).host.loading id
    tree.KnowsAtMost Load.maxDepth ∧ (tree.Shallow → tree.KnowsAtMost tree.files.length) ∧
    ∀ bound, tree.KnowsAtMost bound →
      request.Returns tree bound s (request.run tree s) ∧
      ∀ (path : FilePath) (requester : Option FilePath) (outer : List LoadCall) (call : LoadCall),
        request.target tree s.loader.layout = .ok (path, requester) →
        LoadCall.Nested tree ⟨Load.maxDepth, path, requester, s⟩ outer call →
          call.start.loader.inFlight = (outer.map LoadCall.path).map FilePath.keyed ∧
          (call.start.loader.isInFlight call.path.keyed = false →
            ((call :: outer).map LoadCall.path).Pairwise (fun a b => a.same b = false) ∧
            (call :: outer).length ≤ bound) := by
  intro s
  have hidle : s.loader.inFlight = [] := idle_run tree layouts events id
  refine ⟨tree.knowsAtMost_maxDepth, fun htree => htree.knowsAtMost, fun bound hbound => ⟨?_, ?_⟩⟩
  · rw [Session.LoadRequest.Returns, Session.LoadRequest.run_apply]
    cases htarget : request.target tree s.loader.layout with
    | error error => rfl
    | ok target =>
      have hflight : s.loader.inFlight = ([] : List FilePath).map FilePath.keyed := hidle
      exact Load.returns_atPath hbound hflight List.Pairwise.nil
        (fun _ hpath => (List.not_mem_nil hpath).elim)
        (Session.LoadRequest.loadable_target htarget) (Nat.le_add_left ..) (Nat.le_add_left ..)
  · intro path requester outer call htarget hnested
    have hflight := hnested.inFlight hidle
    refine ⟨hflight, fun hcall => ?_⟩
    have hdiffer : ((call :: outer).map LoadCall.path).Pairwise fun a b => a.same b = false :=
      differ_cons hflight hcall (hnested.differ hidle)
    have hlength := hbound _ hdiffer
      (hnested.loadable (Session.LoadRequest.loadable_target htarget))
    rw [List.length_map] at hlength
    exact ⟨hdiffer, hlength⟩

end World

def firstImport (content : String) : Option String :=
  match parseText content with
  | .ok ⟨.imports _ source _ :: _, _⟩ => some source.value
  | _ => none

theorem LoadCall.imports_first {tree : FileTree} {depth : Nat} {path file : FilePath}
    {requester : Option FilePath} {s : LoadState} {content specifier : String}
    (hstage : s.loader.slot.current.stage = .native)
    (huncached : s.loader.cache.get? path.keyed = none)
    (hidle : s.loader.isInFlight path.keyed = false)
    (htext : tree.read path = some (.text content))
    (hfirst : firstImport content = some specifier)
    (hfile : s.loader.layout.resolve tree specifier (some path) = .ok file) :
    LoadCall.Imports tree ⟨depth + 1, path, requester, s⟩
      ⟨depth, file, some path, s.enter path.keyed⟩ := by
  have hpassed : s.loader.slot.current.stage.passOn s.loader.layout ⟨content, path, requester⟩
      (s.enter path.keyed) = some (⟨content, path, requester⟩, s.enter path.keyed) := by
    rw [hstage]
    rfl
  unfold firstImport at hfirst
  split at hfirst
  next binding source span rest whole hparse =>
    cases hfirst
    exact .executed ⟨rfl, huncached, hidle, htext, hpassed⟩ hparse .start hfile
  next => cases hfirst

namespace World

theorem load_returns_cyclic :
    let s := ((start cyclicFiles [.withoutEntryDir]).run loadedAndDropped).host.loading 0
    let request := Session.LoadRequest.path ⟨"/a.svs"⟩
    let first : LoadCall := ⟨Load.maxDepth, ⟨"/a.svs"⟩, none, s⟩
    cyclicFiles.KnowsAtMost 3 ∧ request.Returns cyclicFiles 3 s (request.run cyclicFiles s) ∧
      request.target cyclicFiles s.loader.layout = .ok (⟨"/a.svs"⟩, none) ∧
      ∃ call : LoadCall, call.path = ⟨"/b.svs"⟩ ∧ LoadCall.Nested cyclicFiles first [first] call ∧
        call.start.loader.isInFlight call.path.keyed = false ∧
        [call.path, first.path].Pairwise (fun a b => a.same b = false) := by
  intro s request first
  have hready : s.loader.layout = .withoutEntryDir ∧ s.loader.inFlight = [] ∧
      (s.loader.cache.get? (FilePath.mk "/a.svs").keyed).isNone = true ∧
      cyclicFiles.read ⟨"/a.svs"⟩ =
        some (.text "import b from \"./b.svs\"; export x = 1;") ∧
      firstImport "import b from \"./b.svs\"; export x = 1;" = some "./b.svs" ∧
      Layout.withoutEntryDir.resolve cyclicFiles "./b.svs" (some ⟨"/a.svs"⟩) =
        .ok ⟨"/b.svs"⟩ ∧
      request.target cyclicFiles .withoutEntryDir = .ok (⟨"/a.svs"⟩, none) ∧
      cyclicFiles.files.length = 3 ∧
      (FilePath.mk "/b.svs").keyed.same (FilePath.mk "/a.svs").keyed = false := by
    decide +kernel
  obtain ⟨hlayout, hidle, hcached, htext, hfirst, hfile, htarget, hfiles, hdiffer⟩ := hready
  have hstage : s.loader.slot.current.stage = .native :=
    ((isSettled_run shallow_cyclicFiles.oneSpelling [.withoutEntryDir]
      (show ∀ event ∈ loadedAndDropped, event.isPlain = true by decide)).2 0).stage
  obtain ⟨below, hbelow⟩ := Nat.exists_eq_add_of_le' Load.two_le_maxDepth
  have hfirstIdle : s.loader.isInFlight (FilePath.mk "/a.svs").keyed = false := by
    rw [Loader.isInFlight, hidle, List.any_nil]
  have himports : LoadCall.Imports cyclicFiles ⟨below + 2, ⟨"/a.svs"⟩, none, s⟩
      ⟨below + 1, ⟨"/b.svs"⟩, some ⟨"/a.svs"⟩, s.enter (FilePath.mk "/a.svs").keyed⟩ :=
    LoadCall.imports_first hstage (Option.isNone_iff_eq_none.mp hcached) hfirstIdle htext hfirst
      (hlayout ▸ hfile)
  rw [← hbelow] at himports
  have hcallIdle : (s.enter (FilePath.mk "/a.svs").keyed).loader.isInFlight
      (FilePath.mk "/b.svs").keyed = false := by
    rw [s.isInFlight_enter, hdiffer, Loader.isInFlight, hidle, List.any_nil]
    rfl
  rw [← hlayout] at htarget
  obtain ⟨_, hshallow, hbounded⟩ := load_returns cyclicFiles [.withoutEntryDir] loadedAndDropped 0
    request
  have hbound : cyclicFiles.KnowsAtMost 3 := hfiles ▸ hshallow shallow_cyclicFiles
  obtain ⟨hreturns, hchain⟩ := hbounded 3 hbound
  obtain ⟨_, hdistinct⟩ := hchain _ _ _ _ htarget (.imported .start himports)
  exact ⟨hbound, hreturns, htarget, _, rfl, .imported .start himports, hcallIdle,
    (hdistinct hcallIdle).1⟩

def importingItself : Directory :=
  [("a.svs", .file (.text "import a from \"/r/k/a.svs\"; export x = 1;"))]

section ImportingItself

open FileTree

theorem file_importingItself {link : String} (hlink : link = "q" ∨ link = "r") :
    (deepTree importingItself).isFile ⟨"/" ++ link ++ "/k/a.svs"⟩ = true ∧
      (deepTree importingItself).canonical ⟨"/" ++ link ++ "/k/a.svs"⟩ =
        ⟨"/" ++ link ++ "/k/a.svs"⟩ ∧
      (deepTree importingItself).read ⟨"/" ++ link ++ "/k/a.svs"⟩ =
        some (.text "import a from \"/r/k/a.svs\"; export x = 1;") := by
  have hthrough : ThroughLinks "a.svs" ⟨"/" ++ link ++ "/k/a.svs"⟩ := by
    rcases hlink with rfl | rfl
    · exact ⟨by decide, by decide, [""], "q", [], by simp, .inl rfl, by simp,
        by decide⟩
    · exact ⟨by decide, by decide, [""], "r", [], by simp, .inr rfl, by simp,
        by decide⟩
  exact hthrough.file (by decide) rfl

/-- The only file that there is is compiled inside its own compilation, under another path. -/
theorem nested_importingItself :
    let tree := deepTree importingItself
    let s := (start tree [.withoutEntryDir]).host.loading 0
    let first : LoadCall := ⟨Load.maxDepth, ⟨"/q/k/a.svs"⟩, none, s⟩
    tree.files.length = 1 ∧
      (Session.LoadRequest.path ⟨"/q/k/a.svs"⟩).target tree s.loader.layout =
        .ok (⟨"/q/k/a.svs"⟩, none) ∧
      ∃ call content, LoadCall.Nested tree first [first] call ∧ call.cached = none ∧
        call.start.loader.isInFlight call.path.keyed = false ∧
        tree.read call.path = some (.text content) := by
  intro tree s first
  obtain ⟨hfile, hcanonical, htext⟩ := file_importingItself (.inl rfl)
  obtain ⟨hfile', hcanonical', htext'⟩ := file_importingItself (.inr rfl)
  change tree.isFile ⟨"/q/k/a.svs"⟩ = true at hfile
  change tree.canonical ⟨"/q/k/a.svs"⟩ = ⟨"/q/k/a.svs"⟩ at hcanonical
  change tree.isFile ⟨"/r/k/a.svs"⟩ = true at hfile'
  change tree.canonical ⟨"/r/k/a.svs"⟩ = ⟨"/r/k/a.svs"⟩ at hcanonical'
  obtain ⟨below, hbelow⟩ := Nat.exists_eq_add_of_le' Load.two_le_maxDepth
  have hresolved : Layout.withoutEntryDir.resolve tree "/r/k/a.svs" (some ⟨"/q/k/a.svs"⟩) =
      .ok ⟨"/r/k/a.svs"⟩ := by
    rw [Layout.resolve, Layout.candidates, if_pos (by decide), List.findSome?_singleton,
      moduleFile, if_pos hfile']
    exact congrArg Except.ok hcanonical'
  have himports : LoadCall.Imports tree ⟨below + 2, ⟨"/q/k/a.svs"⟩, none, s⟩
      ⟨below + 1, ⟨"/r/k/a.svs"⟩, some ⟨"/q/k/a.svs"⟩, s.enter (FilePath.mk "/q/k/a.svs").keyed⟩ :=
    LoadCall.imports_first rfl rfl rfl htext (by decide +kernel) hresolved
  rw [← hbelow] at himports
  have hidle : (s.enter (FilePath.mk "/q/k/a.svs").keyed).loader.isInFlight
      (FilePath.mk "/r/k/a.svs").keyed = false := by
    change ((FilePath.mk "/r/k/a.svs").keyed.same (FilePath.mk "/q/k/a.svs").keyed || false) = false
    decide
  refine ⟨by decide, ?_, _, _, .imported .start himports, rfl, hidle, htext'⟩
  rw [Session.LoadRequest.target, if_pos hfile, hcanonical]

end ImportingItself

end World

end Interpose
