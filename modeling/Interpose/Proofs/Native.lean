import Interpose.Proofs.Loading

set_option autoImplicit false

namespace Interpose
open Script Edit

theorem fingerprint_of_compileNative
    {parts : FilePath → String → Outcome ModuleError Module} {request : StageInput}
    {module : Module} (h : compileNative (m := Id) parts request = .ok module) :
    module.fingerprint = fingerprint request.content := by
  unfold compileNative at h
  cases hparse : parseText request.content with
  | error cause =>
    rw [hparse] at h
    cases h
  | ok program =>
    simp only [hparse] at h
    rcases hrun : evaluate (m := Id) request.path (parts request.path) program.statements [] []
      with halt | exports
    all_goals
      change ExceptT.bindCont (m := Id) _ (evaluate (m := Id) request.path _ _ [] []) = _ at h
      rw [hrun] at h
    · cases h
    · exact (congrArg ModuleOf.fingerprint (Except.ok.inj h)).symm

/-- A module that the native stage makes of the text in its own file, given modules for its imports
that are those of the files it imports and are made the same way. -/
inductive Native (tree : FileTree) (layout : Layout) : Module → Prop where
  | compiled {module : Module} {content : String} (parts : String → Outcome ModuleError Module)
      (text : tree.read module.id = some (.text content))
      (made : compileNative (m := Id) (fun _ => parts) ⟨content, module.id, none⟩ = .ok module)
      (resolved : ∀ specifier part, parts specifier = .ok part → ∃ file,
        layout.resolve tree specifier (some module.id) = .ok file ∧ part.id.same file = true)
      (native : ∀ specifier part, parts specifier = .ok part → Native tree layout part) :
      Native tree layout module

theorem Native.fingerprint_eq {tree : FileTree} {layout : Layout} {module : Module}
    (h : Native tree layout module) : ∃ content,
      tree.read module.id = some (.text content) ∧ module.fingerprint = fingerprint content := by
  cases h with
  | compiled parts text made resolved native =>
    have hfingerprint := fingerprint_of_compileNative made
    exact ⟨_, text, hfingerprint⟩

def Cache.importFrom (cache : Cache) (tree : FileTree) (layout : Layout) (importer : FilePath)
    (specifier : String) : Outcome ModuleError Module :=
  match layout.resolve tree specifier (some importer) with
  | .error error => .error (.error error)
  | .ok file =>
    match cache.get? file.keyed with
    | some module => .ok module
    | none => .error (.error (.cyclic file))

namespace Cache

variable {tree : FileTree} {layout : Layout} {importer : FilePath}

theorem importFrom_ok {cache : Cache} {specifier : String} {module : Module}
    (h : cache.importFrom tree layout importer specifier = .ok module) : ∃ file,
      layout.resolve tree specifier (some importer) = .ok file ∧
        cache.get? file.keyed = some module := by
  unfold importFrom at h
  cases hfile : layout.resolve tree specifier (some importer) with
  | error error => simp [hfile] at h
  | ok file =>
    cases hmodule : cache.get? file.keyed with
    | none => simp [hfile, hmodule] at h
    | some found =>
      simp only [hfile, hmodule] at h
      cases h
      exact ⟨file, rfl, hmodule⟩

theorem Extends.importFrom {later earlier : Cache} (h : later.Extends earlier) {specifier : String}
    {module : Module} (hfound : earlier.importFrom tree layout importer specifier = .ok module) :
    later.importFrom tree layout importer specifier = .ok module := by
  obtain ⟨file, hfile, hmodule⟩ := importFrom_ok hfound
  unfold Cache.importFrom
  simp only [hfile, h.get? hmodule]

end Cache

namespace Load

variable {tree : FileTree} {depth : Nat} {layout : Layout}

theorem compiled_ok {path : FilePath} {requester : Option FilePath} {s t : LoadState}
    {module : Module} (h : compiled tree depth layout path requester s = (.ok module, t)) :
    t.loader.cache.get? path.keyed = some module := by
  obtain ⟨made, middle, _, hkeep⟩ := bind_ok h
  cases hkeep
  exact Cache.get?_getOrInsert _ _ _

theorem atPath_ok {path : FilePath} {requester : Option FilePath} {s t : LoadState}
    {module : Module} (h : atPath tree depth path requester s = (.ok module, t)) :
    t.loader.cache.get? path.keyed = some module := by
  rcases atPath_cases tree depth path requester s with
    ⟨kept, hcached, hload⟩ | ⟨_, hload⟩ | ⟨below, _, _, _, hload⟩
  all_goals rw [hload] at h
  · cases h
    exact hcached
  · cases h
  · exact compiled_ok h

theorem imported_ok {importer : FilePath} {specifier : String} {s t : LoadState} {module : Module}
    (h : imported tree depth layout importer specifier s = (.ok module, t)) :
    t.loader.cache.importFrom tree layout importer specifier = .ok module := by
  obtain ⟨file, middle, hresolve, hload⟩ := bind_ok h
  have hfound := atPath_ok hload
  unfold Cache.importFrom
  cases hfile : layout.resolve tree specifier (some importer) with
  | error error =>
    rw [hfile] at hresolve
    cases hresolve
  | ok found =>
    rw [hfile] at hresolve
    cases hresolve
    simp only [hfound]

/-- An evaluation that succeeds can be had again from the cache it leaves, without any load. -/
theorem evaluate_replay {path : FilePath} (statements : List Stmt) (scope : Scope)
    (exports : Exports) {s t : LoadState} {result : Exports}
    (h : evaluate (m := StateM LoadState) path (imported tree depth layout path) statements scope
      exports s = (.ok result, t)) {later : Cache} (hlater : later.Extends t.loader.cache) :
    evaluate (m := Id) path (later.importFrom tree layout path) statements scope exports =
      .ok result := by
  refine (evaluate_related
    (fun (load : Load Exports) (answer : ExceptT (Halt ModuleError) Id Exports) =>
      Adds load ∧ ∀ {s t result}, load s = (.ok result, t) → later.Extends t.loader.cache →
        answer = .ok result)
    (imported tree depth layout path) (later.importFrom tree layout path)
    (fun _ => ⟨keeps_pure _, fun h _ => by cases h; rfl⟩)
    (fun _ => ⟨keeps_throw _, fun h _ => by cases h⟩)
    (fun _ _ _ hnext => ⟨(keeps_imported (adds_atPath tree depth) layout path _).bind
      fun part => (hnext part).1, fun h hlater => ?_⟩) scope exports).2 h hlater
  obtain ⟨part, middle, hpart, hrest⟩ := bind_ok h
  -- the loads of the statements behind this one leave what it found in the cache
  have hadds := (hnext part).1 middle
  rw [hrest] at hadds
  rw [(hlater.trans hadds.cache).importFrom (imported_ok hpart)]
  exact (hnext part).2 hrest hlater

theorem compileNative_replay {request : StageInput} {s t : LoadState} {module : Module}
    (h : compileNative (m := StateM LoadState) (imported tree depth layout) request s =
      (.ok module, t)) :
    compileNative (m := Id) (fun _ => t.loader.cache.importFrom tree layout module.id)
      ⟨request.content, module.id, none⟩ = .ok module := by
  unfold compileNative at h ⊢
  cases hparse : parseText request.content with
  | error cause =>
    rw [hparse] at h
    cases h
  | ok program =>
    simp only [hparse] at h ⊢
    obtain ⟨exports, middle, hrun, hmodule⟩ := bind_ok h
    cases hmodule
    have hreplay := evaluate_replay program.statements [] [] hrun (.refl _)
    change ExceptT.bindCont (m := Id) _ (evaluate (m := Id) request.path _ _ [] []) = _
    rw [hreplay]
    rfl

end Load

/-- A loader whose slot holds the native stage and whose cache holds native modules only. -/
structure Loader.IsNative (tree : FileTree) (loader : Loader) : Prop where
  stage : loader.slot.current.stage = .native
  keyed : loader.cache.Keyed
  native : ∀ entry ∈ loader.cache, Native tree loader.layout entry.2

theorem Loader.IsNative.part {tree : FileTree} {loader : Loader} (h : loader.IsNative tree)
    {importer : FilePath} {specifier : String} {part : Module}
    (hpart : loader.cache.importFrom tree loader.layout importer specifier = .ok part) :
    Native tree loader.layout part ∧ ∃ file,
      loader.layout.resolve tree specifier (some importer) = .ok file ∧
        part.id.same file = true := by
  obtain ⟨file, hfile, hmodule⟩ := Cache.importFrom_ok hpart
  obtain ⟨key, hmem, hsame⟩ := Cache.mem_of_get? hmodule
  have hid : part.id = key.path := h.keyed _ hmem
  rw [KeyedPath.same_eq] at hsame
  exact ⟨h.native _ hmem, file, hfile, hid ▸ hsame⟩

namespace Load

variable {tree : FileTree} {depth : Nat}

instance (tree : FileTree) :
    Lasting fun before after => before.IsNative tree → after.IsNative tree where
  refl _ h := h
  trans h h' before := h' (h before)

abbrev KeepsNative (tree : FileTree) {α : Type} (load : Load α) : Prop :=
  load.Keeps fun before after => before.IsNative tree → after.IsNative tree

theorem keepsNative_whileInFlight {α : Type} {load : Load α} (h : load.KeepsNative tree)
    (path : KeyedPath) : (whileInFlight path load).KeepsNative tree := by
  intro s hs
  have hrun := h { s with loader.inFlight := path :: s.loader.inFlight }
    ⟨hs.stage, hs.keyed, hs.native⟩
  exact ⟨hrun.stage, hrun.keyed, hrun.native⟩

theorem native_of_compileFile {layout : Layout} {path : FilePath} {requester : Option FilePath}
    {s t : LoadState} {module : Module}
    (h : compileFile tree (imported tree depth layout) path requester s = (.ok module, t))
    (hstage : s.loader.slot.current.stage = .native)
    (ht : t.loader.IsNative tree) (hlayout : t.loader.layout = layout) :
    Native tree layout module := by
  obtain ⟨content, htext, hcompile⟩ := compileFile_ok h
  have hid := id_of_compileFile h
  rw [hstage] at hcompile
  unfold compile at hcompile
  have hmade := compileNative_replay hcompile
  subst hlayout
  refine .compiled _ (hid ▸ htext) hmade ?_ ?_
  · intro specifier part hpart
    exact (ht.part hpart).2
  · intro specifier part hpart
    exact (ht.part hpart).1

theorem keepsNative_compiled
    (h : ∀ path requester, (atPath tree depth path requester).KeepsNative tree)
    {path : FilePath} {s : LoadState} (hpath : s.loader.isInFlight path.keyed = false)
    (hs : s.loader.IsNative tree) (requester : Option FilePath) :
    (compiled tree depth s.loader.layout path requester s).2.loader.IsNative tree := by
  have hfile := keeps_compileFile tree (keeps_imported h s.loader.layout) path requester
  have hrun := keepsNative_whileInFlight hfile path.keyed s hs
  have hadds := adds_whileInFlight
    (keeps_compileFile tree (keeps_imported (adds_atPath tree depth) s.loader.layout) path requester)
    hpath
  unfold compiled
  rcases hw : whileInFlight path.keyed
    (compileFile tree (imported tree depth s.loader.layout) path requester) s
      with ⟨halt | module, t⟩
  all_goals rw [hw] at hrun
  · rw [bind_of_error hw]
    exact hrun
  · rw [bind_of_ok hw]
    rw [hw] at hadds
    obtain ⟨u, hu, hinner⟩ := whileInFlight_ok hw
    have hu_native : u.loader.IsNative tree := by
      rw [hinner] at hrun
      exact ⟨hrun.stage, hrun.keyed, hrun.native⟩
    have hu_layout : u.loader.layout = s.loader.layout := by
      rw [hinner] at hadds
      exact hadds.layout
    have hmodule := native_of_compileFile hu hs.stage hu_native hu_layout
    refine ⟨hrun.stage, ?_, ?_⟩
    · exact (t.loader.cache.getOrInsert_extends path.keyed module (id_of_compileFile hu)).keyed
        hrun.keyed
    · intro entry he
      change Native tree t.loader.layout entry.2
      rcases Cache.mem_getOrInsert he with he | rfl
      · exact hrun.native entry he
      · rw [hadds.layout]
        exact hmodule

theorem keepsNative_atPath (tree : FileTree) (depth : Nat) (path : FilePath)
    (requester : Option FilePath) : (atPath tree depth path requester).KeepsNative tree :=
  keeps_atPath (fun _ ih _ requester _ hpath hs => keepsNative_compiled ih hpath hs requester)
    depth path requester

end Load

end Interpose
