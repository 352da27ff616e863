import Interpose.Proofs.Nesting

set_option autoImplicit false

namespace Interpose
open Script

section Evaluation

variable {path : FilePath} {require : String → Load Module} {first : List Stmt} {begun : LoadState}

theorem Reaches.evaluate {rest : List Stmt} {scope : Scope} {s : LoadState}
    (h : Reaches path require first begun rest scope s) :
    ∃ exports, evaluate (m := StateM LoadState) path require first [] [] begun =
      evaluate (m := StateM LoadState) path require rest scope exports s := by
  induction h with
  | start => exact ⟨[], rfl⟩
  | @imports binding source span rest scope s t module before required ih =>
    obtain ⟨exports, hrun⟩ := ih
    refine ⟨exports, hrun.trans ?_⟩
    rw [Interpose.evaluate]
    exact Load.bind_of_ok required _
  | @binds name value span rest scope s result before evaluated ih =>
    obtain ⟨exports, hrun⟩ := ih
    refine ⟨exports, hrun.trans ?_⟩
    simp only [Interpose.evaluate, evaluated]
  | @exports name value span rest scope s result before evaluated ih =>
    obtain ⟨exports, hrun⟩ := ih
    refine ⟨exports.insert name.name result, hrun.trans ?_⟩
    simp only [Interpose.evaluate, evaluated]

end Evaluation

namespace LoadCall

variable {tree : FileTree} {importer call first : LoadCall} {outer : List LoadCall}

/-- The load compiles the module, and evaluation gets to the end of its statements. -/
inductive Evaluates (tree : FileTree) (call : LoadCall) (module : Module) : Prop where
  | through {depth : Nat} {content : String} {passed : StageInput} {s t : LoadState}
      {program : Program} {scope : Scope} (compiles : call.Compiles tree depth content passed s)
      (parsed : parseText passed.content = .ok program)
      (reached : Reaches call.path
        (Load.imported tree depth call.start.loader.layout call.path) program.statements s [] scope t)
      (made : compileNative (m := StateM LoadState)
        (Load.imported tree depth call.start.loader.layout) passed s = (.ok module, t)) :
      Evaluates tree call module

theorem Makes.evaluates {content : String} {passed : StageInput} {module : Module}
    (h : call.Makes tree content passed module) : call.Evaluates tree module := by
  obtain ⟨depth, s, t, hcompiles, hmade⟩ := h
  have hrun := hmade
  unfold compileNative at hrun
  cases hparse : parseText passed.content with
  | error cause =>
    rw [hparse] at hrun
    cases hrun
  | ok program =>
    simp only [hparse, (Stage.passOn_same hcompiles.passed).1] at hrun
    obtain ⟨exports, middle, hevaluated, hmodule⟩ := Load.bind_ok hrun
    cases hmodule
    have hends := ends_evaluate call.path
      (Load.imported tree depth call.start.loader.layout call.path) program.statements s
    rw [hevaluated] at hends
    cases hends with
    | through reached => exact .through hcompiles hparse reached hmade

theorem uncached_of_error {halt : Halt ModuleError} {t : LoadState}
    (h : call.run tree = (.error halt, t)) : t.loader.cache.get? call.path.keyed = none := by
  unfold run at h
  rcases Load.atPath_cases tree call.depth call.path call.requester call.start with
    ⟨module, _, hload⟩ | ⟨huncached, hload⟩ | ⟨below, _, huncached, _, hload⟩
  · rw [hload] at h
    cases h
  · rw [hload] at h
    cases h
    exact huncached
  · have hstill := call.uncached_compileFile tree below huncached
    rw [hload, Load.compiled_apply] at h
    rcases hcompile : Load.compileFile tree (Load.imported tree below call.start.loader.layout)
      call.path call.requester (call.start.enter call.path.keyed) with ⟨halt' | module, u⟩
    all_goals rw [hcompile] at h hstill
    · cases h
      exact hstill
    · cases h

theorem Imports.compiling (h : importer.Imports tree call) :
    ∃ (below : Nat) (next : Module → Load Module), (∀ module, (next module).Adds) ∧
      importer.run tree = Load.compiled tree below importer.start.loader.layout importer.path
        importer.requester importer.start ∧
      Load.compileFile tree (Load.imported tree below importer.start.loader.layout) importer.path
          importer.requester (importer.start.enter importer.path.keyed) =
        (Load.atPath tree call.depth call.path call.requester >>= next) call.start := by
  obtain @⟨depth, content, passed, s, begun, program, binding, source, span, rest, scope, file,
    hcompiles, hparse, hreached, hfile⟩ := h
  obtain ⟨exports, hrun⟩ := hreached.evaluate
  have hidle : ¬ importer.start.loader.isInFlight importer.path.keyed = true := by
    rw [hcompiles.idle]
    exact Bool.false_ne_true
  refine ⟨depth, fun module => do
    let exports ← evaluate (m := StateM LoadState) importer.path
      (Load.imported tree depth importer.start.loader.layout importer.path) rest
      ((binding.name, .module module) :: scope) exports
    return ⟨importer.path, exports, fingerprint passed.content⟩, fun module => ?_, ?_, ?_⟩
  · exact (Load.keeps_evaluate importer.path _ (Load.keeps_imported (Load.adds_atPath tree depth) _
      importer.path) rest _ exports).bind fun _ => Load.keeps_pure _
  · rw [run, hcompiles.deep, Load.atPath_succ hcompiles.uncached hidle]
  · have hrequire : Load.imported tree depth importer.start.loader.layout importer.path
        source.value = Load.atPath tree depth file (some importer.path) := by
      unfold Load.imported
      rw [hfile]
      rfl
    rw [Load.compileFile_text hcompiles.text]
    refine (Stage.compile_of_passOn _ hcompiles.passed).trans ?_
    unfold compileNative
    simp only [hparse, (Stage.passOn_same hcompiles.passed).1]
    rw [Load.bind_congr hrun, evaluate, bind_assoc, hrequire]

theorem Imports.fails (h : importer.Imports tree call) {halt : Halt ModuleError} {t : LoadState}
    (hfails : call.run tree = (.error halt, t)) :
    ∃ u, importer.run tree = (.error halt, u) ∧ u.loader.cache = t.loader.cache := by
  obtain ⟨below, next, _, hrun, hcompile⟩ := h.compiling
  rw [Load.bind_of_error hfails] at hcompile
  refine ⟨t.leave importer.path.keyed, ?_, rfl⟩
  rw [hrun, Load.compiled_apply, hcompile]

namespace Nested

theorem first_mem (h : Nested tree first outer call) : first ∈ call :: outer := by
  induction h with
  | start => exact List.mem_cons_self
  | imported _ _ ih => exact List.mem_cons_of_mem _ ih

theorem slot (h : Nested tree first outer call) :
    call.start.loader.slot = first.start.loader.slot := by
  induction h with
  | start => rfl
  | imported _ imports ih => exact imports.extends.2.trans ih

theorem layout (h : Nested tree first outer call) :
    call.start.loader.layout = first.start.loader.layout := by
  induction h with
  | start => rfl
  | imported _ imports ih => exact imports.extends.1.trans ih

theorem fails (h : Nested tree first outer call) {halt : Halt ModuleError} {t : LoadState}
    (hfails : call.run tree = (.error halt, t)) : ∀ failed ∈ call :: outer,
      ∃ u, failed.run tree = (.error halt, u) ∧ u.loader.cache = t.loader.cache := by
  induction h generalizing t with
  | start => simpa using ⟨t, hfails, rfl⟩
  | imported within imports ih =>
    obtain ⟨u, hu, hcache⟩ := imports.fails hfails
    refine List.forall_mem_cons.mpr ⟨⟨t, hfails, rfl⟩, fun failed hfailed => ?_⟩
    obtain ⟨v, hv, hsame⟩ := ih hu failed hfailed
    exact ⟨v, hv, hsame.trans hcache⟩

theorem innermost (h : Nested tree first outer call) {halt : Halt ModuleError} {t : LoadState}
    (hfails : call.run tree = (.error halt, t)) :
    ∃ outer failing u, Nested tree first outer failing ∧ failing.run tree = (.error halt, u) ∧
      ∀ imported, failing.Imports tree imported → ∃ module, (imported.run tree).1 = .ok module := by
  -- behind every failure there is one that no import of the module accounts for: by
  -- induction on how deep loads may still nest
  induction hdepth : call.depth using Nat.strongRecOn generalizing outer call t with
  | _ depth ih =>
  by_cases hinner : ∃ imported, call.Imports tree imported ∧
      ∃ halt', (imported.run tree).1 = .error halt'
  · obtain ⟨imported, himports, halt', herror⟩ := hinner
    have hrun : imported.run tree = (.error halt', (imported.run tree).2) := Prod.ext herror rfl
    obtain ⟨u, hu, _⟩ := himports.fails hrun
    obtain ⟨hhalt, _⟩ := Prod.mk.inj (hu.symm.trans hfails)
    have hdeeper : imported.depth < depth := by
      cases himports with
      | executed compiles parsed reached resolved =>
        rw [← hdepth, compiles.deep]
        exact Nat.lt_succ_self _
    exact ih _ hdeeper (.imported h himports) (Except.error.inj hhalt ▸ hrun) rfl
  · refine ⟨outer, call, t, h, hfails, fun imported himports => ?_⟩
    cases hrun : (imported.run tree).1 with
    | ok module => exact ⟨module, rfl⟩
    | error halt' => exact absurd ⟨imported, himports, halt', hrun⟩ hinner

/-- Whatever the loads that a load consists of have added, each added a module of which it has
evaluated all statements. -/
theorem added (hstage : first.start.loader.slot.current.stage.Transforms)
    {entry : KeyedPath × Module} (he : entry ∈ (first.run tree).2.loader.cache)
    (hnew : first.start.loader.cache.get? entry.1 = none) :
    ∃ outer call, Nested tree first outer call ∧ call.path.keyed = entry.1 ∧
      call.Evaluates tree entry.2 := by
  have hkeep : Keep (fun call => ∃ outer, Nested tree first outer call) tree fun cache =>
      ∀ entry ∈ cache, first.start.loader.cache.get? entry.1 = none →
        ∃ outer call, Nested tree first outer call ∧ call.path.keyed = entry.1 ∧
          call.Evaluates tree entry.2 := by
    intro call module cache hcall huncached hrun _ hcache entry he hnew
    obtain ⟨outer, hnested⟩ := hcall
    rcases List.mem_append.mp he with he | he
    · exact hcache entry he hnew
    · have hcallStage : call.start.loader.slot.current.stage.Transforms := hnested.slot ▸ hstage
      obtain ⟨content, passed, hmakes⟩ := makes_of_run hcallStage huncached hrun
      rw [List.mem_singleton.mp he]
      exact ⟨outer, call, hnested, rfl, hmakes.evaluates⟩
  have hdeeper : ∀ {importer call : LoadCall}, (∃ outer, Nested tree first outer importer) →
      importer.Imports tree call → ∃ outer, Nested tree first outer call :=
    fun ⟨_, hwithin⟩ himports => ⟨_, hwithin.imported himports⟩
  refine kept_run hdeeper hkeep ⟨[], .start⟩ ?_ entry he hnew
  intro entry he hnew
  have hfound := (Cache.get?_eq_none_iff _ _).mp hnew entry he
  rw [entry.1.same_self] at hfound
  cases hfound

end Nested

end LoadCall

/-- A load that fails, by an error or because it unwinds, in a loader that nothing was being loaded
in: nothing is in flight afterwards, the slot is as it was, and what was cached is cached still. There
is a module whose own compilation failed, and the loads that this one was nested in fail with it; no
module whose load fails is cached. What is cached besides are modules all of whose statements were
evaluated in the course of the load, where the native stage or transformers over it are at work. -/
theorem failed_load (tree : FileTree) (request : Session.LoadRequest) {s t : LoadState}
    {halt : Halt ModuleError} (hidle : s.loader.inFlight = [])
    (h : request.run tree s = (.error halt, t)) :
    t.loader.inFlight = [] ∧ t.loader.slot = s.loader.slot ∧
    (∀ key module, s.loader.cache.get? key = some module →
      t.loader.cache.get? key = some module) ∧
    (∀ error, request.target tree s.loader.layout = .error error →
      halt = .error error ∧ t.loader.cache = s.loader.cache) ∧
    ∀ path requester, request.target tree s.loader.layout = .ok (path, requester) →
      let first : LoadCall := ⟨Load.maxDepth, path, requester, s⟩
      (∃ outer failing u, LoadCall.Nested tree first outer failing ∧
        failing.run tree = (.error halt, u) ∧
        ∀ imported, failing.Imports tree imported →
          ∃ module, (imported.run tree).1 = .ok module) ∧
      (∀ outer failing halt' u, LoadCall.Nested tree first outer failing →
        failing.run tree = (.error halt', u) → halt' = halt ∧
          ∀ failed ∈ failing :: outer, t.loader.cache.get? failed.path.keyed = none) ∧
      (s.loader.slot.current.stage.Transforms → ∀ entry ∈ t.loader.cache,
        s.loader.cache.get? entry.1 = none →
          ∃ outer call, LoadCall.Nested tree first outer call ∧ call.path.keyed = entry.1 ∧
            call.Evaluates tree entry.2) := by
  have hextends : t.loader.Extends s.loader := by
    have hadds := request.adds_run tree s
    rwa [h] at hadds
  refine ⟨hextends.inFlight.trans hidle, hextends.slot, fun _ _ => hextends.cache.get?, ?_, ?_⟩
  · intro error htarget
    rw [request.run_apply, htarget] at h
    cases h
    exact ⟨rfl, rfl⟩
  · intro path requester htarget first
    have hrun : first.run tree = (.error halt, t) := by
      rw [request.run_apply, htarget] at h
      simp only [first, LoadCall.run]
      exact h
    refine ⟨LoadCall.Nested.start.innermost hrun, ?_, ?_⟩
    · intro outer failing halt' u hnested hfails
      -- the first load fails as the nested one does, and it fails in one way only
      have hchain := hnested.fails hfails
      obtain ⟨v, hfirst, hcache⟩ := hchain first hnested.first_mem
      obtain ⟨hhalt, rfl⟩ := Prod.mk.inj (hfirst.symm.trans hrun)
      refine ⟨Except.error.inj hhalt, fun failed hfailed => ?_⟩
      obtain ⟨u', hfailedRun, hsame⟩ := hchain failed hfailed
      rw [hcache, ← hsame]
      exact LoadCall.uncached_of_error hfailedRun
    · intro hstage entry he hnew
      exact LoadCall.Nested.added hstage (hrun ▸ he) hnew

def sharingFiles : FileTree :=
  ⟨[("a.svs", .file (.text "import b from \"./b.svs\"; import c from \"./c.svs\"; export x = b.y;")),
    ("b.svs", .file (.text "export y = 2;")),
    ("c.svs", .file (.text "import b from \"./b.svs\"; export z = b.y;"))], []⟩

def panickingOn (text : String) : Edit.Transformer := fun source =>
  if source = text then .error (.panic "no") else .ok source

/-- A loader in a scope whose transformer panics on the second of the modules that are imported. -/
def panickingScope : LoadState :=
  ⟨{ Loader.ofLayout .withoutEntryDir with
    slot := ⟨⟨2, some 1, .intercepting 1 .allModules
      (panickingOn "import b from \"./b.svs\"; export z = b.y;") ⟨1, none, .native⟩⟩, 3⟩ }, []⟩

theorem failed_load_panicking :
    let request := Session.LoadRequest.path ⟨"/a.svs"⟩
    let first : LoadCall := ⟨Load.maxDepth, ⟨"/a.svs"⟩, none, panickingScope⟩
    panickingScope.loader.inFlight = [] ∧
      request.target sharingFiles panickingScope.loader.layout = .ok (⟨"/a.svs"⟩, none) ∧
      ∃ t, request.run sharingFiles panickingScope = (.error (.panic "no"), t) ∧
        t.loader.inFlight = [] ∧ t.loader.slot = panickingScope.loader.slot ∧
        t.loader.cache.map (·.1.path) = [⟨"/b.svs"⟩] ∧
        t.loader.cache.get? first.path.keyed = none ∧
        (∃ outer failing u, LoadCall.Nested sharingFiles first outer failing ∧
          failing.run sharingFiles = (.error (.panic "no"), u) ∧
          ∀ imported, failing.Imports sharingFiles imported →
            ∃ module, (imported.run sharingFiles).1 = .ok module) ∧
        ∀ entry ∈ t.loader.cache, ∃ outer call, LoadCall.Nested sharingFiles first outer call ∧
          call.path.keyed = entry.1 ∧ call.Evaluates sharingFiles entry.2 := by
  intro request first
  have hrun : request.target sharingFiles panickingScope.loader.layout =
        .ok (⟨"/a.svs"⟩, none) ∧
      ((request.run sharingFiles panickingScope).1.map fun _ => ()) = .error (.panic "no") ∧
      (request.run sharingFiles panickingScope).2.loader.cache.map (·.1.path) = [⟨"/b.svs"⟩] := by
    decide +kernel
  obtain ⟨htarget, hpanics, hcached⟩ := hrun
  rcases hresult : request.run sharingFiles panickingScope with ⟨halt | module, t⟩
  all_goals rw [hresult] at hpanics hcached
  · cases hpanics
    obtain ⟨hflight, hslot, _, _, hload⟩ := failed_load sharingFiles request rfl hresult
    obtain ⟨hinnermost, hfailed, hadded⟩ := hload _ _ htarget
    have hfirst : first.run sharingFiles = (.error (.panic "no"), t) := by
      rw [request.run_apply, htarget] at hresult
      simp only [first, LoadCall.run]
      exact hresult
    exact ⟨rfl, htarget, t, rfl, hflight, hslot, hcached,
      (hfailed _ _ _ _ .start hfirst).2 first List.mem_cons_self, hinnermost,
      fun entry he => hadded trivial entry he rfl⟩
  · cases hpanics

end Interpose
