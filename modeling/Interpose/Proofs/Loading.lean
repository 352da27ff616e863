import Interpose.Loader.Load
import Interpose.Proofs.Cache

set_option autoImplicit false

namespace Interpose
open Script Edit

structure Loader.Extends (later earlier : Loader) : Prop where
  layout : later.layout = earlier.layout
  slot : later.slot = earlier.slot
  inFlight : later.inFlight = earlier.inFlight
  cache : later.cache.Extends earlier.cache

namespace Loader

theorem Extends.refl (loader : Loader) : loader.Extends loader := ⟨rfl, rfl, rfl, .refl _⟩

theorem Extends.trans {first second third : Loader} (h : third.Extends second)
    (h' : second.Extends first) : third.Extends first :=
  ⟨h.layout.trans h'.layout, h.slot.trans h'.slot, h.inFlight.trans h'.inFlight,
    h.cache.trans h'.cache⟩

end Loader

namespace Load

variable {α β : Type}

theorem bind_of_ok {load : Load α} {s t : LoadState} {value : α} (h : load s = (.ok value, t))
    (next : α → Load β) : (load >>= next) s = next value t := by
  change ExceptT.bindCont next (load s).1 (load s).2 = _
  rw [h]
  rfl

theorem bind_of_error {load : Load α} {s t : LoadState} {halt : Halt ModuleError}
    (h : load s = (.error halt, t)) (next : α → Load β) :
    (load >>= next) s = (.error halt, t) := by
  change ExceptT.bindCont next (load s).1 (load s).2 = _
  rw [h]
  rfl

theorem bind_ok {load : Load α} {next : α → Load β} {s t : LoadState} {value : β}
    (h : (load >>= next) s = (.ok value, t)) :
    ∃ first middle, load s = (.ok first, middle) ∧ next first middle = (.ok value, t) := by
  rcases hl : load s with ⟨halt | first, middle⟩
  · rw [bind_of_error hl] at h
    cases h
  · rw [bind_of_ok hl] at h
    exact ⟨first, middle, rfl, h⟩

theorem bind_congr {load other : Load α} {s t : LoadState} (h : load s = other t)
    (next : α → Load β) : (load >>= next) s = (other >>= next) t := by
  change ExceptT.bindCont next (load s).1 (load s).2 = ExceptT.bindCont next (other t).1 (other t).2
  rw [h]

theorem evalExpr_error {path : FilePath} {scope : Scope} {value : Expr} {error : ModuleError}
    (h : evalExpr path scope value = .error error) : ∃ fault, error = .evaluate path fault := by
  induction value generalizing error with
  | literal value span => cases h
  | identifier name =>
    unfold evalExpr at h
    split at h
    · cases h
    · cases h
      exact ⟨_, rfl⟩
  | member object property span ih =>
    unfold evalExpr at h
    split at h
    next error' hobject =>
      cases h
      exact ih hobject
    · split at h
      · cases h
      · cases h
        exact ⟨_, rfl⟩
    · cases h
      exact ⟨_, rfl⟩

/-- A rule for two evaluations of the same statements, which may get modules in different ways and
in different monads: they are related when the same exports, the same faults, and continuations that
are related for every module that an import gets, are. -/
theorem evaluate_related {m m' : Type → Type} [Monad m] [Monad m'] {path : FilePath}
    (rel : ExceptT (Halt ModuleError) m Exports → ExceptT (Halt ModuleError) m' Exports → Prop)
    (require : String → ExceptT (Halt ModuleError) m Module)
    (require' : String → ExceptT (Halt ModuleError) m' Module)
    (hpure : ∀ exports, rel (pure exports) (pure exports))
    (hthrow : ∀ fault, rel (throw (.error (.evaluate path fault)))
      (throw (.error (.evaluate path fault))))
    {statements : List Stmt}
    (himports : ∀ {binding source span}, Stmt.imports binding source span ∈ statements →
      ∀ {next next'}, (∀ module, rel (next module) (next' module)) →
        rel (require source.value >>= next) (require' source.value >>= next'))
    (scope : Scope) (exports : Exports) :
    rel (evaluate path require statements scope exports)
      (evaluate path require' statements scope exports) := by
  induction statements generalizing scope exports with
  | nil => exact hpure exports
  | cons statement rest ih =>
    have hrest := ih fun hmem => himports (List.mem_cons_of_mem statement hmem)
    cases statement with
    | imports binding source span => exact himports List.mem_cons_self fun module => hrest _ _
    | binds name value span =>
      simp only [evaluate]
      cases hvalue : evalExpr path scope value with
      | ok result => exact hrest _ _
      | error error =>
        obtain ⟨fault, rfl⟩ := evalExpr_error hvalue
        exact hthrow fault
    | exports name value span =>
      simp only [evaluate]
      cases hvalue : evalExpr path scope value with
      | ok result => exact hrest _ _
      | error error =>
        obtain ⟨fault, rfl⟩ := evalExpr_error hvalue
        exact hthrow fault

/-- A relation of a loader to what it becomes that holds over any number of changes. -/
class Lasting (R : Loader → Loader → Prop) : Prop where
  refl : ∀ loader, R loader loader
  trans : ∀ {first second third : Loader}, R first second → R second third → R first third

def Keeps (R : Loader → Loader → Prop) (load : Load α) : Prop := ∀ s, R s.loader (load s).2.loader

section Keeps

variable {R : Loader → Loader → Prop} [Lasting R]

theorem keeps_pure (value : α) : (pure value : Load α).Keeps R := fun s => Lasting.refl s.loader

theorem keeps_throw (halt : Halt ModuleError) : (throw halt : Load α).Keeps R :=
  fun s => Lasting.refl s.loader

theorem keeps_fail (error : ModuleError) : (fail error : Load α).Keeps R :=
  keeps_throw (.error error)

theorem Keeps.bind {load : Load α} {next : α → Load β} (h : load.Keeps R)
    (hnext : ∀ value, (next value).Keeps R) : (load >>= next).Keeps R := by
  intro s
  have hs := h s
  rcases hl : load s with ⟨halt | value, t⟩
  all_goals rw [hl] at hs
  · rw [bind_of_error hl]
    exact hs
  · rw [bind_of_ok hl]
    exact Lasting.trans hs (hnext value t)

theorem keeps_ofExcept (result : Except ModuleError α) : (ofExcept result).Keeps R := by
  cases result with
  | ok value => exact keeps_pure value
  | error error => exact keeps_fail error

theorem keeps_record (call : TransformCall) : (record call).Keeps R :=
  fun s => Lasting.refl s.loader

theorem keeps_transform (transformer : Transformer) (request : StageInput) :
    (transform transformer request).Keeps R := by
  unfold transform
  split
  · exact keeps_pure _
  · exact keeps_fail _
  · exact keeps_throw _

theorem keeps_evaluate (path : FilePath) (require : String → Load Module)
    (h : ∀ specifier, (require specifier).Keeps R) (statements : List Stmt) (scope : Scope)
    (exports : Exports) :
    Keeps R (evaluate (m := StateM LoadState) path require statements scope exports) :=
  evaluate_related (fun load _ => Keeps R load) require require keeps_pure
    (fun _ => keeps_throw _) (fun _ _ _ => (h _).bind) scope exports

variable {require : FilePath → String → Load Module}

theorem keeps_compileNative (h : ∀ importer specifier, (require importer specifier).Keeps R)
    (request : StageInput) :
    Keeps R (compileNative (m := StateM LoadState) require request) := by
  unfold compileNative
  cases parseText request.content with
  | error cause => exact keeps_throw _
  | ok program =>
    exact (keeps_evaluate request.path _ (h request.path) program.statements [] []).bind fun _ =>
      keeps_pure _

theorem keeps_compile (layout : Layout)
    (h : ∀ importer specifier, (require importer specifier).Keeps R) :
    ∀ (stage : Stage) (request : StageInput), (compile layout require stage request).Keeps R
  | .native, request => by
    unfold compile
    exact keeps_compileNative h request
  | .echo, request => by
    unfold compile
    exact keeps_pure _
  | .refuse, request => by
    unfold compile
    exact keeps_fail _
  | .intercepting owner policy transformer ⟨_, _, underlying⟩, request => by
    unfold compile
    refine (keeps_ofExcept _).bind fun selected => ?_
    have hbelow := keeps_compile layout h underlying
    cases selected with
    | true =>
      exact (keeps_record _).bind fun _ => (keeps_transform transformer request).bind fun request =>
        hbelow request
    | false => exact hbelow request

theorem keeps_compileFile (tree : FileTree)
    (h : ∀ importer specifier, (require importer specifier).Keeps R) (path : FilePath)
    (requester : Option FilePath) : (compileFile tree require path requester).Keeps R := by
  unfold compileFile
  split
  · intro s
    exact keeps_compile s.loader.layout h s.loader.slot.current.stage _ s
  · exact keeps_fail _

end Keeps

instance : Lasting fun before after => after.Extends before where
  refl := Loader.Extends.refl
  trans h h' := h'.trans h

/-- Adds to the cache and leaves all else in the loader as it is. -/
abbrev Adds (load : Load α) : Prop := load.Keeps fun before after => after.Extends before

theorem whileInFlight_ok {path : KeyedPath} {load : Load α} {s t : LoadState} {value : α}
    (h : Load.whileInFlight path load s = (.ok value, t)) :
    ∃ u, load { s with loader.inFlight := path :: s.loader.inFlight } = (.ok value, u) ∧
      t = { u with loader.inFlight := u.loader.inFlight.filter (! ·.same path) } := by
  obtain ⟨hvalue, ht⟩ := Prod.mk.inj h
  exact ⟨_, Prod.ext hvalue rfl, ht.symm⟩

theorem filter_inFlight {path : KeyedPath} {flight : List KeyedPath}
    (h : flight.any path.same = false) :
    (path :: flight).filter (fun other : KeyedPath => !other.same path) = flight := by
  rw [List.filter_cons_of_neg (by simp [KeyedPath.same_self]), List.filter_eq_self]
  intro other hother
  have hdiffers := List.any_eq_false.mp h other hother
  rw [other.same_comm path]
  simpa using hdiffers

theorem adds_whileInFlight {load : Load α} (h : load.Adds) {path : KeyedPath} {s : LoadState}
    (hpath : s.loader.isInFlight path = false) :
    (Load.whileInFlight path load s).2.loader.Extends s.loader := by
  have hs := h { s with loader.inFlight := path :: s.loader.inFlight }
  refine ⟨hs.layout, hs.slot, ?_, hs.cache⟩
  have hflight := hs.inFlight
  change List.filter (fun other : KeyedPath => !other.same path) _ = _
  rw [hflight]
  exact filter_inFlight hpath

theorem path_of_transform {transformer : Transformer} {request transformed : StageInput}
    {s t : LoadState} (h : transform transformer request s = (.ok transformed, t)) :
    transformed.path = request.path := by
  unfold transform at h
  rcases htext : transformer request.content with (cause | message) | content
  all_goals
    rw [htext] at h
    cases h
  rfl

theorem id_of_compile (layout : Layout) (require : FilePath → String → Load Module) :
    ∀ (stage : Stage) (request : StageInput) {s t : LoadState} {module : Module},
      compile layout require stage request s = (.ok module, t) → module.id = request.path
  | .native, request, s, t, module, h => by
    unfold compile compileNative at h
    cases hparse : parseText request.content with
    | error cause =>
      rw [hparse] at h
      cases h
    | ok program =>
      rw [hparse] at h
      obtain ⟨exports, middle, _, hmodule⟩ := bind_ok h
      cases hmodule
      rfl
  | .echo, request, s, t, module, h => by
    unfold compile at h
    cases h
    rfl
  | .refuse, request, s, t, module, h => by
    unfold compile at h
    cases h
  | .intercepting owner policy transformer ⟨_, _, underlying⟩, request, s, t, module, h => by
    unfold compile at h
    obtain ⟨selected, first, _, h⟩ := bind_ok h
    cases selected with
    | true =>
      obtain ⟨_, second, _, h⟩ := bind_ok h
      obtain ⟨transformed, third, htransform, h⟩ := bind_ok h
      rw [id_of_compile layout require underlying transformed h]
      exact path_of_transform htransform
    | false => exact id_of_compile layout require underlying request h

theorem compileFile_text {tree : FileTree} {path : FilePath} {content : String}
    (h : tree.read path = some (.text content)) (require : FilePath → String → Load Module)
    (requester : Option FilePath) (s : LoadState) :
    compileFile tree require path requester s =
      compile s.loader.layout require s.loader.slot.current.stage ⟨content, path, requester⟩ s := by
  unfold compileFile
  rw [h]
  rfl

theorem compileFile_native {tree : FileTree} {path : FilePath} {content : String} {s : LoadState}
    {require : FilePath → String → Load Module} (h : tree.read path = some (.text content))
    (hstage : s.loader.slot.current.stage = .native) (requester : Option FilePath) :
    compileFile tree require path requester s =
      compileNative (m := StateM LoadState) require ⟨content, path, requester⟩ s := by
  rw [compileFile_text h, hstage]
  unfold compile
  rfl

theorem compileFile_unread {tree : FileTree} {path : FilePath}
    (h : ∀ content, tree.read path ≠ some (.text content))
    (require : FilePath → String → Load Module) (requester : Option FilePath) (s : LoadState) :
    compileFile tree require path requester s = (.error (.error (.unreadable path)), s) := by
  unfold compileFile
  rcases hread : tree.read path with _ | content | _
  · rfl
  · exact absurd hread (h content)
  · rfl

theorem compileFile_ok {tree : FileTree} {require : FilePath → String → Load Module}
    {path : FilePath} {requester : Option FilePath} {s t : LoadState} {module : Module}
    (h : compileFile tree require path requester s = (.ok module, t)) :
    ∃ content, tree.read path = some (.text content) ∧
      compile s.loader.layout require s.loader.slot.current.stage ⟨content, path, requester⟩ s =
        (.ok module, t) := by
  unfold compileFile at h
  rcases hread : tree.read path with _ | content | _
  all_goals rw [hread] at h
  · cases h
  · exact ⟨content, rfl, h⟩
  · cases h

theorem id_of_compileFile {tree : FileTree} {require : FilePath → String → Load Module}
    {path : FilePath} {requester : Option FilePath} {s t : LoadState} {module : Module}
    (h : compileFile tree require path requester s = (.ok module, t)) : module.id = path := by
  obtain ⟨content, _, hcompile⟩ := compileFile_ok h
  exact id_of_compile s.loader.layout require s.loader.slot.current.stage _ hcompile

def imported (tree : FileTree) (depth : Nat) (layout : Layout) (importer : FilePath)
    (specifier : String) : Load Module := do
  let file ← ofExcept (layout.resolve tree specifier (some importer))
  atPath tree depth file (some importer)

theorem keeps_imported {R : Loader → Loader → Prop} [Lasting R] {tree : FileTree} {depth : Nat}
    (h : ∀ path requester, (atPath tree depth path requester).Keeps R) (layout : Layout)
    (importer : FilePath) (specifier : String) :
    (imported tree depth layout importer specifier).Keeps R :=
  (keeps_ofExcept _).bind fun file => h file (some importer)

def compiled (tree : FileTree) (depth : Nat) (layout : Layout) (path : FilePath)
    (requester : Option FilePath) : Load Module := do
  let module ← whileInFlight path.keyed
    (compileFile tree (imported tree depth layout) path requester)
  keep path.keyed module

section AtPath

variable {tree : FileTree} {path : FilePath} {requester : Option FilePath} {s : LoadState}

theorem get_apply (s : LoadState) : (get : Load LoadState) s = (.ok s, s) := rfl

theorem atPath_cached {module : Module} (h : s.loader.cache.get? path.keyed = some module)
    (depth : Nat) : atPath tree depth path requester s = (.ok module, s) := by
  unfold atPath
  rw [bind_of_ok (get_apply s)]
  simp only [h]
  rfl

theorem atPath_inFlight (h : s.loader.cache.get? path.keyed = none)
    (hflight : s.loader.isInFlight path.keyed = true) (depth : Nat) :
    atPath tree depth path requester s = (.error (.error (.cyclic path)), s) := by
  unfold atPath
  rw [bind_of_ok (get_apply s)]
  simp only [h, if_pos hflight]
  rfl

theorem atPath_zero (h : s.loader.cache.get? path.keyed = none) :
    atPath tree 0 path requester s = (.error (.error (.cyclic path)), s) := by
  unfold atPath
  rw [bind_of_ok (get_apply s)]
  simp only [h, ite_self]
  rfl

theorem atPath_succ (h : s.loader.cache.get? path.keyed = none)
    (hflight : ¬ s.loader.isInFlight path.keyed = true) (depth : Nat) :
    atPath tree (depth + 1) path requester s =
      compiled tree depth s.loader.layout path requester s := by
  unfold atPath
  rw [bind_of_ok (get_apply s)]
  simp only [h, if_neg hflight]
  rfl

/-- A load finds its module in the cache, or refuses, or compiles it. -/
theorem atPath_cases (tree : FileTree) (depth : Nat) (path : FilePath)
    (requester : Option FilePath) (s : LoadState) :
    (∃ module, s.loader.cache.get? path.keyed = some module ∧
      atPath tree depth path requester s = (.ok module, s)) ∨
    (s.loader.cache.get? path.keyed = none ∧
      atPath tree depth path requester s = (.error (.error (.cyclic path)), s)) ∨
    ∃ below, depth = below + 1 ∧ s.loader.cache.get? path.keyed = none ∧
      s.loader.isInFlight path.keyed = false ∧
      atPath tree depth path requester s =
        compiled tree below s.loader.layout path requester s := by
  cases hcached : s.loader.cache.get? path.keyed with
  | some module => exact .inl ⟨module, rfl, atPath_cached hcached depth⟩
  | none =>
    by_cases hflight : s.loader.isInFlight path.keyed = true
    · exact .inr (.inl ⟨rfl, atPath_inFlight hcached hflight depth⟩)
    · cases depth with
      | zero => exact .inr (.inl ⟨rfl, atPath_zero hcached⟩)
      | succ below =>
        exact .inr (.inr ⟨below, rfl, rfl, Bool.not_eq_true _ ▸ hflight,
          atPath_succ hcached hflight below⟩)

theorem keeps_atPath {R : Loader → Loader → Prop} [Lasting R]
    (h : ∀ depth, (∀ path requester, (atPath tree depth path requester).Keeps R) →
      ∀ path requester s, s.loader.isInFlight path.keyed = false →
        R s.loader (compiled tree depth s.loader.layout path requester s).2.loader)
    (depth : Nat) (path : FilePath) (requester : Option FilePath) :
    (atPath tree depth path requester).Keeps R := by
  induction depth using Nat.strongRecOn generalizing path requester with
  | _ depth ih =>
  intro s
  rcases atPath_cases tree depth path requester s with
    ⟨module, _, hload⟩ | ⟨_, hload⟩ | ⟨below, rfl, _, hidle, hload⟩
  all_goals rw [hload]
  · exact Lasting.refl s.loader
  · exact Lasting.refl s.loader
  · exact h below (ih below below.lt_succ_self) path requester s hidle

end AtPath

theorem adds_compiled {tree : FileTree} {depth : Nat}
    (h : ∀ path requester, (atPath tree depth path requester).Adds) {path : FilePath}
    {s : LoadState} (hpath : s.loader.isInFlight path.keyed = false) (layout : Layout)
    (requester : Option FilePath) :
    (compiled tree depth layout path requester s).2.loader.Extends s.loader := by
  have hrun := adds_whileInFlight
    (keeps_compileFile tree (keeps_imported h layout) path requester) hpath
  unfold compiled
  rcases hw : whileInFlight path.keyed
    (compileFile tree (imported tree depth layout) path requester) s with ⟨halt | module, t⟩
  all_goals rw [hw] at hrun
  · rw [bind_of_error hw]
    exact hrun
  · rw [bind_of_ok hw]
    obtain ⟨u, hu, _⟩ := whileInFlight_ok hw
    have hkeep : (keep path.keyed module t).2.loader.Extends t.loader :=
      ⟨rfl, rfl, rfl, t.loader.cache.getOrInsert_extends path.keyed module (id_of_compileFile hu)⟩
    exact hkeep.trans hrun

theorem adds_atPath (tree : FileTree) (depth : Nat) (path : FilePath)
    (requester : Option FilePath) : (atPath tree depth path requester).Adds :=
  keeps_atPath (fun _ ih _ requester s hpath => adds_compiled ih hpath s.loader.layout requester)
    depth path requester

end Load

namespace LoadState

def enter (s : LoadState) (path : KeyedPath) : LoadState :=
  { s with loader.inFlight := path :: s.loader.inFlight }

def leave (s : LoadState) (path : KeyedPath) : LoadState :=
  { s with loader.inFlight := s.loader.inFlight.filter (! ·.same path) }

theorem isInFlight_enter (s : LoadState) (path other : KeyedPath) :
    (s.enter path).loader.isInFlight other = (other.same path || s.loader.isInFlight other) := rfl

end LoadState

namespace Load

/-- A path that is in flight and not cached stays so. -/
def StaysUncached (before after : Loader) : Prop :=
  after.inFlight = before.inFlight ∧ ∀ path, before.isInFlight path = true →
    before.cache.get? path = none → after.cache.get? path = none

instance : Lasting StaysUncached where
  refl _ := ⟨rfl, fun _ _ h => h⟩
  trans h h' := by
    refine ⟨h'.1.trans h.1, fun path hflight huncached => ?_⟩
    refine h'.2 path ?_ (h.2 path hflight huncached)
    unfold Loader.isInFlight at hflight ⊢
    rwa [h.1]

/-- Compiles a module, which is in flight meanwhile, and keeps it. -/
def compiledBy (tree : FileTree) (require : FilePath → String → Load Module) (path : FilePath)
    (requester : Option FilePath) : Load Module := do
  let module ← whileInFlight path.keyed (compileFile tree require path requester)
  keep path.keyed module

theorem compiledBy_apply (tree : FileTree) (require : FilePath → String → Load Module)
    (path : FilePath) (requester : Option FilePath) (s : LoadState) :
    compiledBy tree require path requester s =
      match compileFile tree require path requester (s.enter path.keyed) with
      | (.error halt, t) => (.error halt, t.leave path.keyed)
      | (.ok module, t) => keep path.keyed module (t.leave path.keyed) := by
  have hw : whileInFlight path.keyed (compileFile tree require path requester) s =
      ((compileFile tree require path requester (s.enter path.keyed)).1,
        (compileFile tree require path requester (s.enter path.keyed)).2.leave path.keyed) := rfl
  unfold compiledBy
  rcases hc : compileFile tree require path requester (s.enter path.keyed) with ⟨halt | module, t⟩
  all_goals rw [hc] at hw
  · exact bind_of_error hw _
  · exact bind_of_ok hw _

section Compiled

variable {tree : FileTree} {depth : Nat} {layout : Layout} {path : FilePath}
  {requester : Option FilePath} {s : LoadState}

theorem compiled_apply (s : LoadState) :
    compiled tree depth layout path requester s =
      match compileFile tree (imported tree depth layout) path requester (s.enter path.keyed) with
      | (.error halt, t) => (.error halt, t.leave path.keyed)
      | (.ok module, t) => keep path.keyed module (t.leave path.keyed) :=
  compiledBy_apply tree (imported tree depth layout) path requester s

/-- Compiling a module caches nothing that is in flight, as long as that holds of what it imports. -/
theorem uncached_compileFile
    (h : ∀ path requester, (atPath tree depth path requester).Keeps StaysUncached)
    {other : KeyedPath} (hflight : s.loader.isInFlight other = true)
    (huncached : s.loader.cache.get? other = none) :
    (compileFile tree (imported tree depth layout) path requester s).2.loader.cache.get? other =
      none :=
  (keeps_compileFile tree (keeps_imported h layout) path requester s).2 other hflight huncached

theorem extends_compiled (s : LoadState) :
    (compiled tree depth layout path requester s).2.loader.cache.Extends
      (compileFile tree (imported tree depth layout) path requester
        (s.enter path.keyed)).2.loader.cache := by
  rw [compiled_apply]
  rcases hc : compileFile tree (imported tree depth layout) path requester (s.enter path.keyed)
    with ⟨halt | module, t⟩
  · exact .refl _
  · exact Cache.getOrInsert_extends _ path.keyed module (id_of_compileFile hc)

theorem staysUncached_compiled
    (h : ∀ path requester, (atPath tree depth path requester).Keeps StaysUncached)
    (hpath : s.loader.isInFlight path.keyed = false) :
    StaysUncached s.loader (compiled tree depth layout path requester s).2.loader := by
  have hadds := adds_compiled (adds_atPath tree depth) hpath layout requester
  refine ⟨hadds.inFlight, fun other hflight huncached => ?_⟩
  -- the new module is under the path that was not in flight before
  have hother : path.keyed.same other = false := by
    refine Bool.eq_false_iff.mpr fun hsame => ?_
    obtain ⟨flying, hmem, hflying⟩ := List.any_eq_true.mp hflight
    refine List.any_eq_false.mp hpath flying hmem ?_
    rw [KeyedPath.same_iff] at hsame hflying ⊢
    exact hsame.trans hflying
  have hinside : (compileFile tree (imported tree depth layout) path requester
      (s.enter path.keyed)).2.loader.cache.get? other = none :=
    uncached_compileFile h (by rw [s.isInFlight_enter, hflight, Bool.or_true]) huncached
  rw [compiled_apply]
  rcases hc : compileFile tree (imported tree depth layout) path requester (s.enter path.keyed)
    with ⟨halt | module, t⟩
  all_goals rw [hc] at hinside
  · exact hinside
  · change ((t.loader.cache.getOrInsert path.keyed module).2).get? other = none
    unfold Cache.getOrInsert
    split
    · exact hinside
    · rw [Cache.get?_append, hinside]
      simp [Cache.get?, hother]

end Compiled

theorem staysUncached_atPath (tree : FileTree) (depth : Nat) (path : FilePath)
    (requester : Option FilePath) : (atPath tree depth path requester).Keeps StaysUncached :=
  keeps_atPath (fun _ ih _ _ _ hpath => staysUncached_compiled ih hpath) depth path requester

theorem compiled_of_ok {tree : FileTree} {depth : Nat} {layout : Layout} {path : FilePath}
    {requester : Option FilePath} {s t : LoadState} {module : Module}
    (huncached : s.loader.cache.get? path.keyed = none)
    (h : compileFile tree (imported tree depth layout) path requester (s.enter path.keyed) =
      (.ok module, t)) :
    compiled tree depth layout path requester s = (.ok module,
      { t.leave path.keyed with loader.cache := t.loader.cache ++ [(path.keyed, module)] }) := by
  have hstill : (compileFile tree (imported tree depth layout) path requester
      (s.enter path.keyed)).2.loader.cache.get? path.keyed = none :=
    uncached_compileFile (staysUncached_atPath tree depth)
      (by rw [s.isInFlight_enter, KeyedPath.same_self, Bool.true_or]) huncached
  rw [h] at hstill
  rw [compiled_apply, h]
  unfold keep Cache.getOrInsert
  simp only [LoadState.leave, hstill]

section Request

variable {R : Loader → Loader → Prop} [Lasting R] {tree : FileTree}
  (h : ∀ depth path requester, (atPath tree depth path requester).Keeps R)

include h

theorem keeps_bySpecifier (specifier : String) (requester : Option FilePath) :
    (bySpecifier tree specifier requester).Keeps R := by
  intro s
  exact (keeps_ofExcept (s.loader.layout.resolve tree specifier requester)).bind
    (fun path => h maxDepth path requester) s

theorem keeps_byPath (path : FilePath) : (byPath tree path).Keeps R := by
  unfold byPath
  split
  · exact h maxDepth _ none
  · exact keeps_fail _

end Request

end Load

end Interpose
