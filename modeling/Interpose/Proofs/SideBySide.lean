import Mathlib.Data.List.Forall2
import Interpose.Proofs.Loading
import Interpose.Proofs.Requests

set_option autoImplicit false

namespace Interpose

/-- The stages of two loaders with one layout, and what counts as alike of what they come to. -/
structure Pairing where
  layout : Layout
  stage : Stage
  stage' : Stage
  modules : Module → Module → Prop
  halts : Halt ModuleError → Halt ModuleError → Prop

namespace Pairing

variable {pair : Pairing}

structure States (pair : Pairing) (s s' : LoadState) : Prop where
  layout_eq : s.loader.layout = pair.layout
  layout_eq' : s'.loader.layout = pair.layout
  stage_eq : s.loader.slot.current.stage = pair.stage
  stage_eq' : s'.loader.slot.current.stage = pair.stage'
  cache : List.Forall₂ (fun entry entry' => entry.1 = entry'.1 ∧ pair.modules entry.2 entry'.2)
    s.loader.cache s'.loader.cache
  inFlight : s.loader.inFlight = s'.loader.inFlight

inductive Results (pair : Pairing) {α : Type} (values : α → α → Prop) :
    Outcome ModuleError α → Outcome ModuleError α → Prop where
  | ok {value value' : α} (h : values value value') : pair.Results values (.ok value) (.ok value')
  | error {halt halt' : Halt ModuleError} (h : pair.halts halt halt') :
      pair.Results values (.error halt) (.error halt')

namespace States

variable {s s' : LoadState}

theorem called (hs : pair.States s s') (calls : List TransformCall) :
    pair.States { s with calls } s' := { hs with }

theorem enter (hs : pair.States s s') (path : KeyedPath) :
    pair.States (s.enter path) (s'.enter path) :=
  { hs with inFlight := congrArg (path :: ·) hs.inFlight }

theorem leave (hs : pair.States s s') (path : KeyedPath) :
    pair.States (s.leave path) (s'.leave path) :=
  { hs with
    inFlight := congrArg (List.filter fun other : KeyedPath => !other.same path) hs.inFlight }

theorem isInFlight (hs : pair.States s s') (path : KeyedPath) :
    s.loader.isInFlight path = s'.loader.isInFlight path := by
  rw [Loader.isInFlight, Loader.isInFlight, hs.inFlight]

theorem get?_cases (hs : pair.States s s') (path : KeyedPath) :
    (s.loader.cache.get? path = none ∧ s'.loader.cache.get? path = none) ∨
    ∃ module module', s.loader.cache.get? path = some module ∧
      s'.loader.cache.get? path = some module' ∧ pair.modules module module' := by
  have hcache := hs.cache
  generalize s.loader.cache = cache, s'.loader.cache = cache' at hcache
  induction hcache with
  | nil => exact .inl ⟨rfl, rfl⟩
  | @cons entry entry' cache cache' hentry _ ih =>
    obtain ⟨hkey, hmodule⟩ := hentry
    unfold Cache.get? at ih ⊢
    rw [List.find?_cons, List.find?_cons, ← hkey]
    cases entry.1.same path with
    | true => exact .inr ⟨entry.2, entry'.2, rfl, rfl, hmodule⟩
    | false => exact ih

theorem keep (hs : pair.States s s') (path : KeyedPath) {module module' : Module}
    (h : pair.modules module module') :
    pair.Results pair.modules (Load.keep path module s).1 (Load.keep path module' s').1 ∧
      pair.States (Load.keep path module s).2 (Load.keep path module' s').2 := by
  unfold Load.keep Cache.getOrInsert
  rcases hs.get?_cases path with ⟨hnone, hnone'⟩ | ⟨kept, kept', hkept, hkept', hmodules⟩
  · rw [hnone, hnone']
    exact ⟨.ok h, { hs with cache := List.rel_append hs.cache (.cons ⟨rfl, h⟩ .nil) }⟩
  · rw [hkept, hkept']
    exact ⟨.ok hmodules, { hs with }⟩

end States

end Pairing

namespace Load

variable {pair : Pairing} {α β : Type}

/-- Both loads succeed with alike values or fail alike, and leave their loaders alike. -/
def Pairs (pair : Pairing) (values : α → α → Prop) (load load' : Load α) : Prop :=
  ∀ s s' : LoadState, pair.States s s' →
    pair.Results values (load s).1 (load' s').1 ∧ pair.States (load s).2 (load' s').2

theorem pairs_pure {values : α → α → Prop} {value value' : α} (h : values value value') :
    Pairs pair values (pure value) (pure value') := fun _ _ hs => ⟨.ok h, hs⟩

theorem pairs_throw {values : α → α → Prop} {halt halt' : Halt ModuleError}
    (h : pair.halts halt halt') : Pairs pair values (throw halt) (throw halt') :=
  fun _ _ hs => ⟨.error h, hs⟩

theorem Pairs.imp {values values' : α → α → Prop} {load load' : Load α}
    (h : Pairs pair values load load')
    (himp : ∀ value value', values value value' → values' value value') :
    Pairs pair values' load load' := by
  intro s s' hs
  obtain ⟨hresult, hafter⟩ := h s s' hs
  generalize (load s).1 = result, (load' s').1 = result' at hresult ⊢
  cases hresult with
  | ok hvalue => exact ⟨.ok (himp _ _ hvalue), hafter⟩
  | error hhalt => exact ⟨.error hhalt, hafter⟩

theorem Pairs.bind {values : α → α → Prop} {results : β → β → Prop} {load load' : Load α}
    {next next' : α → Load β} (h : Pairs pair values load load')
    (hnext : ∀ value value', values value value' → Pairs pair results (next value) (next' value')) :
    Pairs pair results (load >>= next) (load' >>= next') := by
  intro s s' hs
  obtain ⟨hresult, hafter⟩ := h s s' hs
  rcases hload : load s with ⟨result, t⟩
  rcases hload' : load' s' with ⟨result', t'⟩
  rw [hload, hload'] at hresult hafter
  cases hresult with
  | @ok value value' hvalue =>
    rw [bind_of_ok hload, bind_of_ok hload']
    exact hnext value value' hvalue t t' hafter
  | error hhalt =>
    rw [bind_of_error hload, bind_of_error hload']
    exact ⟨.error hhalt, hafter⟩

end Load

namespace Pairing

abbrev Loads (pair : Pairing) (load load' : Load Module) : Prop :=
  Load.Pairs pair pair.modules load load'

/-- What loads need to stay alike: failures that do not come from the files count as alike, imports
mean the same files, and compiling a file keeps to what holds of the loads of its imports. -/
structure Parallel (pair : Pairing) (tree tree' : FileTree) : Prop where
  cyclic : ∀ path, pair.halts (.error (.cyclic path)) (.error (.cyclic path))
  notFound : ∀ name, pair.halts (.error (.notFound name)) (.error (.notFound name))
  resolve : ∀ specifier requester, pair.layout.resolve tree' specifier requester =
    pair.layout.resolve tree specifier requester
  compileFile : ∀ path requester (require require' : FilePath → String → Load Module),
    tree.Loadable path →
    (∀ importer specifier,
      pair.Loads (require importer specifier) (require' importer specifier)) →
    pair.Loads (Load.compileFile tree require path requester)
      (Load.compileFile tree' require' path requester)

namespace Parallel

variable {pair : Pairing} {tree tree' : FileTree} (h : pair.Parallel tree tree')

include h

theorem compiled {depth : Nat} {path : FilePath} (hpath : tree.Loadable path)
    (himported : ∀ importer specifier,
      pair.Loads (Load.imported tree depth pair.layout importer specifier)
        (Load.imported tree' depth pair.layout importer specifier))
    (requester : Option FilePath) :
    pair.Loads (Load.compiled tree depth pair.layout path requester)
      (Load.compiled tree' depth pair.layout path requester) := by
  intro s s' hs
  obtain ⟨hresult, hafter⟩ :=
    h.compileFile path requester _ _ hpath himported _ _ (hs.enter path.keyed)
  rw [Load.compiled_apply, Load.compiled_apply]
  rcases hload : Load.compileFile tree (Load.imported tree depth pair.layout) path requester
    (s.enter path.keyed) with ⟨result, t⟩
  rcases hload' : Load.compileFile tree' (Load.imported tree' depth pair.layout) path requester
    (s'.enter path.keyed) with ⟨result', t'⟩
  rw [hload, hload'] at hresult hafter
  cases hresult with
  | ok hmodules => exact (hafter.leave path.keyed).keep path.keyed hmodules
  | error hhalt => exact ⟨.error hhalt, hafter.leave path.keyed⟩

theorem imported_of_atPath {depth : Nat}
    (hpath : ∀ {path}, tree.Loadable path → ∀ requester,
      pair.Loads (Load.atPath tree depth path requester) (Load.atPath tree' depth path requester))
    (importer : FilePath) (specifier : String) :
    pair.Loads (Load.imported tree depth pair.layout importer specifier)
      (Load.imported tree' depth pair.layout importer specifier) := by
  unfold Load.imported
  rw [h.resolve]
  cases hfile : pair.layout.resolve tree specifier (some importer) with
  | error error =>
    rw [Layout.resolve_error hfile]
    exact Load.pairs_throw (h.notFound specifier)
  | ok file => exact hpath (Layout.loadable_of_resolve hfile) (some importer)

theorem atPath (depth : Nat) {path : FilePath} (hpath : tree.Loadable path)
    (requester : Option FilePath) :
    pair.Loads (Load.atPath tree depth path requester)
      (Load.atPath tree' depth path requester) := by
  -- by induction on how deep loads may nest: what holds of the loads of imports holds of
  -- the load
  induction depth generalizing path requester with
  | zero =>
    intro s s' hs
    rcases hs.get?_cases path.keyed with ⟨hnone, hnone'⟩ | ⟨kept, kept', hkept, hkept', hmodules⟩
    · rw [Load.atPath_zero hnone, Load.atPath_zero hnone']
      exact ⟨.error (h.cyclic path), hs⟩
    · rw [Load.atPath_cached hkept, Load.atPath_cached hkept']
      exact ⟨.ok hmodules, hs⟩
  | succ below ih =>
    intro s s' hs
    rcases hs.get?_cases path.keyed with ⟨hnone, hnone'⟩ | ⟨kept, kept', hkept, hkept', hmodules⟩
    · by_cases hflight : s.loader.isInFlight path.keyed = true
      · rw [Load.atPath_inFlight hnone hflight,
          Load.atPath_inFlight hnone' (hs.isInFlight path.keyed ▸ hflight)]
        exact ⟨.error (h.cyclic path), hs⟩
      · rw [Load.atPath_succ hnone hflight,
          Load.atPath_succ hnone' (hs.isInFlight path.keyed ▸ hflight), hs.layout_eq, hs.layout_eq']
        exact h.compiled hpath (h.imported_of_atPath ih) requester s s' hs
    · rw [Load.atPath_cached hkept, Load.atPath_cached hkept']
      exact ⟨.ok hmodules, hs⟩

theorem imported (depth : Nat) (importer : FilePath) (specifier : String) :
    pair.Loads (Load.imported tree depth pair.layout importer specifier)
      (Load.imported tree' depth pair.layout importer specifier) :=
  h.imported_of_atPath (fun hpath => h.atPath depth hpath) importer specifier

theorem run (request : Session.LoadRequest)
    (htarget : request.target tree' pair.layout = request.target tree pair.layout) :
    pair.Loads (request.run tree) (request.run tree') := by
  intro s s' hs
  rw [Session.LoadRequest.run_apply, Session.LoadRequest.run_apply, hs.layout_eq, hs.layout_eq',
    htarget]
  cases hfound : request.target tree pair.layout with
  | error error =>
    obtain ⟨text, rfl⟩ := Session.LoadRequest.target_error hfound
    exact ⟨.error (h.notFound text), hs⟩
  | ok target =>
    obtain ⟨found, requester⟩ := target
    exact h.atPath Load.maxDepth (Session.LoadRequest.loadable_target hfound) requester s s' hs

end Parallel

theorem States.load {pair : Pairing} {host host' : Host} {id id' : LoaderId}
    (hs : pair.States (host.loading id) (host'.loading id'))
    (h : pair.Parallel host.tree host'.tree) (hid : id < host.loaders.length)
    (hid' : id' < host'.loaders.length) (request : Session.LoadRequest)
    (htarget : request.target host'.tree pair.layout = request.target host.tree pair.layout) :
    pair.Results pair.modules (HostM.load id request.run host).1
        (HostM.load id' request.run host').1 ∧
      pair.States ((HostM.load id request.run host).2.loading id)
        ((HostM.load id' request.run host').2.loading id') := by
  rw [HostM.load_fst, HostM.load_fst, HostM.loading_load hid, HostM.loading_load hid']
  exact h.run request htarget _ _ hs

theorem States.loads {pair : Pairing} {host host' : Host} {id id' : LoaderId}
    (hs : pair.States (host.loading id) (host'.loading id'))
    (h : pair.Parallel host.tree host'.tree) (hid : id < host.loaders.length)
    (hid' : id' < host'.loaders.length) (htarget : ∀ request : Session.LoadRequest,
      request.target host'.tree pair.layout = request.target host.tree pair.layout)
    (requests : List Session.LoadRequest) :
    List.Forall₂ (pair.Results pair.modules) (HostM.loads id requests host).1
      (HostM.loads id' requests host').1 := by
  -- by induction on the requests: each is answered alike and leaves the loaders alike
  induction requests generalizing host host' with
  | nil => exact .nil
  | cons request rest ih =>
    obtain ⟨hanswer, hafter⟩ := hs.load h hid hid' request (htarget request)
    rw [HostM.loads_cons, HostM.loads_cons]
    refine .cons hanswer (ih hafter h ?_ ?_ htarget)
    · exact (Host.length_setLoader _).symm ▸ hid
    · exact (Host.length_setLoader _).symm ▸ hid'

end Pairing

end Interpose
