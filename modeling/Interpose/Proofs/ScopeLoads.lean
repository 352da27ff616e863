import Interpose.Proofs.Cycles
import Interpose.Proofs.Twins

/-!
Loads through the stage of an interceptor, where modules may be cached before. Whether such a load
succeeds does not depend on when it happens: a path either *yields* a module, and then each load of it
gives that module, whatever else is cached and in flight, or nothing is ever cached under it.
-/

set_option autoImplicit false

namespace Interpose
open Script Edit CommandLine

namespace Policy

variable {policy : Policy} {layout : Layout} {path other : FilePath}

theorem selects_any (h : policy ≠ .topLevelDependencies) (requester : Option FilePath) :
    policy.selects layout path requester = policy.selects layout path none := by
  cases policy with
  | topLevelDependencies => exact absurd rfl h
  | allModules => rfl
  | explicit paths => rfl
  | noDependencies => cases hentry : layout.entryDir <;> simp only [selects, hentry]

theorem eligible_same (policy : Policy) (layout : Layout) (h : path.same other = true) :
    policy.eligible layout path = policy.eligible layout other := by
  have hcomponents : path.components = other.components := eq_of_beq h
  have hkey : path.keyed.key = other.keyed.key := by
    rw [path.keyed.key_eq, other.keyed.key_eq]
    exact congrArg (fun components : List Component => PathKey.mk components.length components)
      hcomponents
  have hsame : path.keyed.same = other.keyed.same := by
    funext key
    rw [KeyedPath.same, KeyedPath.same, hkey]
  cases policy with
  | allModules => rfl
  | explicit paths => exact congrArg (List.any paths) hsame
  | noDependencies | topLevelDependencies =>
    cases hentry : layout.entryDir <;>
      simp only [eligible, selects, hentry, FilePath.isDependency, FilePath.relative, hcomponents]

end Policy

/-- What the loads of a scope depend on: the files, the layout, what the interceptor brings, and
what was cached before. The policy does not look at requesters. -/
structure ScopeSetting where
  tree : FileTree
  layout : Layout
  owner : OwnerId
  policy : Policy
  transformer : Transformer
  before : Cache
  unasked : policy ≠ .topLevelDependencies

namespace ScopeSetting

variable (g : ScopeSetting)

def stage : Stage := .overNative g.owner g.policy g.transformer

def text? (path : FilePath) : Option String :=
  match g.tree.read path with
  | some (.text content) =>
    match g.policy.selects g.layout path none with
    | .ok true => (g.transformer content).toOption
    | .ok false => some content
    | .error _ => none
  | _ => none

def callsAt (path : FilePath) : List TransformCall :=
  match g.tree.read path with
  | some (.text content) =>
    if g.policy.eligible g.layout path then [⟨g.owner, path, content⟩] else []
  | _ => []

theorem of_mem_callsAt {g : ScopeSetting} {path : FilePath} {call : TransformCall}
    (h : call ∈ g.callsAt path) : call.owner = g.owner ∧ call.path = path := by
  unfold callsAt at h
  split at h
  · split at h
    · rw [List.mem_singleton.mp h]
      exact ⟨rfl, rfl⟩
    · cases h
  · cases h

theorem length_callsAt {g : ScopeSetting} {path : FilePath} {text : String}
    (h : g.text? path = some text) :
    (g.callsAt path).length = if g.policy.eligible g.layout path then 1 else 0 := by
  unfold text? at h
  unfold callsAt
  split at h
  · split <;> rfl
  · cases h

def recorded (path : FilePath) (s : LoadState) : LoadState :=
  { s with calls := s.calls ++ g.callsAt path }

theorem compileFile_apply {s : LoadState} (hlayout : s.loader.layout = g.layout)
    (hstage : s.loader.slot.current.stage = g.stage) (require : FilePath → String → Load Module)
    (path : FilePath) (requester : Option FilePath) :
    match g.text? path with
    | some text => Load.compileFile g.tree require path requester s =
        compileNative (m := StateM LoadState) require ⟨text, path, requester⟩ (g.recorded path s)
    | none => ∃ halt, Load.compileFile g.tree require path requester s =
        (.error halt, g.recorded path s) := by
  have hsame : { s with calls := s.calls ++ [] } = s := by rw [List.append_nil]
  unfold text? recorded callsAt Policy.eligible
  rcases hread : g.tree.read path with _ | content | _
  · exact ⟨_, by rw [Load.compileFile_unread (by simp [hread]), hsame]⟩
  · have hselects : g.policy.selects g.layout path requester = g.policy.selects g.layout path none :=
      Policy.selects_any g.unasked requester
    dsimp only
    rw [Load.compileFile_text hread, hlayout, hstage]
    rcases hselected : g.policy.selects g.layout path none with error | _ | _
    all_goals rw [hselected] at hselects
    · rw [stage, Load.compile_unplaced ⟨content, path, requester⟩ hselects]
      exact ⟨_, congrArg _ hsame.symm⟩
    · rw [stage, Load.compile_unselected ⟨content, path, requester⟩ hselects]
      exact congrArg _ hsame.symm
    · dsimp only
      rw [stage, Load.compile_recorded require g.transformer ⟨content, path, requester⟩ hselects]
      rcases g.transformer content with (cause | message) | text
      · exact ⟨_, rfl⟩
      · exact ⟨_, rfl⟩
      · rfl
  · exact ⟨_, by rw [Load.compileFile_unread (by simp [hread]), hsame]⟩

/-- An import in the text that the first module is compiled from means the other one. What was
cached before is not compiled. -/
inductive Imports (importer file : FilePath) : Prop where
  | stated {source specifier : String} (fresh : g.before.get? importer.keyed = none)
      (text : g.text? importer = some source) (stated : specifier ∈ importsOf source)
      (resolved : g.layout.resolve g.tree specifier (some importer) = .ok file) :
      Imports importer file

/-- A module that loads at its path whatever else happens: it was cached before, or it compiles and
so do those that it imports. -/
inductive Yields : FilePath → Module → Prop where
  | cached {path : FilePath} {module : Module} (found : g.before.get? path.keyed = some module) :
      Yields path module
  | compiled {path : FilePath} {module : Module} {source : String}
      (parts : String → Outcome ModuleError Module) (file : String → FilePath)
      (fresh : g.before.get? path.keyed = none) (text : g.text? path = some source)
      (made : compileNative (m := Id) (fun _ => parts) ⟨source, path, none⟩ = .ok module)
      (resolved : ∀ specifier part, parts specifier = .ok part →
        g.layout.resolve g.tree specifier (some path) = .ok (file specifier))
      (yields : ∀ specifier part, parts specifier = .ok part → Yields (file specifier) part) :
      Yields path module

variable {g} {path : FilePath} {module other : Module}

namespace Yields

theorem unique (h : g.Yields path module) (hother : g.Yields path other) : module = other := by
  induction h generalizing other with
  | cached found =>
    cases hother with
    | cached found' => exact Option.some.inj (found.symm.trans found')
    | compiled _ _ fresh => cases found.symm.trans fresh
  | @compiled path module source parts file fresh text made resolved yields ih =>
    cases hother with
    | cached found => cases fresh.symm.trans found
    | compiled parts' file' fresh' text' made' resolved' yields' =>
      cases text.symm.trans text'
      refine Except.ok.inj (made.symm.trans (Eq.trans ?_ made'))
      refine compileNative_congr fun specifier hspecifier => ?_
      obtain ⟨part, hpart⟩ := compileNative_answered made specifier hspecifier
      obtain ⟨part', hpart'⟩ := compileNative_answered made' specifier hspecifier
      have hfile := Except.ok.inj
        ((resolved _ part hpart).symm.trans (resolved' _ part' hpart'))
      rw [hpart, hpart', ih _ part hpart (hfile ▸ yields' _ part' hpart')]

theorem accessible (h : g.Yields path module) :
    Acc (fun file importer => g.Imports importer file) path := by
  induction h with
  | cached found =>
    refine .intro _ fun imported himported => ?_
    obtain ⟨fresh, _, _, _⟩ := himported
    cases fresh.symm.trans found
  | compiled parts file fresh text made resolved yields ih =>
    refine .intro _ fun imported himported => ?_
    obtain ⟨_, text', stated, resolved'⟩ := himported
    cases text.symm.trans text'
    obtain ⟨part, hpart⟩ := compileNative_answered made _ stated
    cases (resolved _ part hpart).symm.trans resolved'
    exact ih _ part hpart

theorem acyclic (h : g.Yields path module) : ¬ Relation.TransGen g.Imports path path := by
  rw [← Relation.transGen_swap]
  exact not_transGen_self h.accessible

end Yields

/-- The modules in flight when a path is asked for: imports lead from each of them to the path, and
none is in flight twice. -/
structure Awaited (g : ScopeSetting) (flight : List KeyedPath) (path : FilePath) : Prop where
  loadable : g.tree.Loadable path
  importer : ∀ key ∈ flight, g.tree.Loadable key.path ∧ Relation.TransGen g.Imports key.path path
  nodup : (flight.map fun key => key.path.text).Nodup

namespace Awaited

variable {flight : List KeyedPath}

theorem start (hpath : g.tree.Loadable path) : g.Awaited [] path :=
  ⟨hpath, fun _ hkey => (List.not_mem_nil hkey).elim, List.nodup_nil⟩

theorem deeper {file : FilePath} (h : g.Awaited flight path)
    (hidle : flight.any path.keyed.same = false) (himports : g.Imports path file) :
    g.Awaited (path.keyed :: flight) file := by
  refine ⟨?_, fun key hkey => ?_, List.nodup_cons.mpr ⟨text_not_mem hidle, h.nodup⟩⟩
  · obtain ⟨_, _, _, resolved⟩ := himports
    exact Layout.loadable_of_resolve resolved
  · rcases List.mem_cons.mp hkey with rfl | hkey
    · exact ⟨h.loadable, .single himports⟩
    · exact ⟨(h.importer key hkey).1, (h.importer key hkey).2.tail himports⟩

theorem length_lt (h : g.Awaited flight path) (hidle : flight.any path.keyed.same = false) :
    flight.length < Load.maxDepth :=
  length_lt_maxDepth h.nodup (fun key hkey => (h.importer key hkey).1) h.loadable hidle

theorem idle (h : g.Awaited flight path) (hspelling : g.tree.OneSpelling)
    (hyields : g.Yields path module) : flight.any path.keyed.same = false := by
  refine List.any_eq_false.mpr fun key hkey hsame => ?_
  obtain ⟨hloadable, himports⟩ := h.importer key hkey
  rw [KeyedPath.same_eq] at hsame
  have hpath : path = key.path := hspelling h.loadable hloadable hsame
  exact hyields.acyclic (hpath ▸ himports)

end Awaited

def begun (g : ScopeSetting) (path : FilePath) (s : LoadState) : LoadState :=
  g.recorded path (s.enter path.keyed)

/-- A loader in the scope, with so many modules in flight: what it has cached since are modules that
their paths yield. -/
structure Holds (g : ScopeSetting) (flight : List KeyedPath) (loader : Loader) : Prop where
  ofLayout : loader.layout = g.layout
  stage : loader.slot.current.stage = g.stage
  inFlight : loader.inFlight = flight
  grown : loader.cache.Extends g.before
  added : ∀ entry ∈ loader.cache, g.before.get? entry.1 = none →
    g.tree.Loadable entry.1.path ∧ g.Yields entry.1.path entry.2

namespace Holds

variable {flight : List KeyedPath} {loader later : Loader}

theorem isInFlight (h : g.Holds flight loader) (key : KeyedPath) :
    loader.isInFlight key = flight.any key.same := by
  rw [Loader.isInFlight, h.inFlight]

theorem fresh (h : g.Holds flight loader) {key : KeyedPath}
    (huncached : loader.cache.get? key = none) : g.before.get? key = none := by
  cases hbefore : g.before.get? key with
  | none => rfl
  | some module => cases huncached.symm.trans (h.grown.get? hbefore)

theorem found (h : g.Holds flight loader) (hspelling : g.tree.OneSpelling)
    (hpath : g.tree.Loadable path) (hmodule : loader.cache.get? path.keyed = some module) :
    g.Yields path module := by
  cases hbefore : g.before.get? path.keyed with
  | some kept =>
    cases (h.grown.get? hbefore).symm.trans hmodule
    exact .cached hbefore
  | none =>
    obtain ⟨key, hmem, hsame⟩ := Cache.mem_of_get? hmodule
    obtain ⟨hkey, hyields⟩ := h.added _ hmem ((g.before.get?_same hsame).trans hbefore)
    rw [KeyedPath.same_eq] at hsame
    have heq : key.path = path := hspelling hkey hpath hsame
    exact heq ▸ hyields

theorem extended (h : g.Holds flight loader) (hextends : later.Extends loader)
    (hadded : ∀ entry ∈ later.cache, g.before.get? entry.1 = none →
      g.tree.Loadable entry.1.path ∧ g.Yields entry.1.path entry.2) : g.Holds flight later :=
  ⟨hextends.layout.trans h.ofLayout, by rw [hextends.slot, h.stage],
    hextends.inFlight.trans h.inFlight, hextends.cache.trans h.grown, hadded⟩

theorem begun {s : LoadState} (h : g.Holds flight s.loader) (path : FilePath) :
    g.Holds (path.keyed :: flight) (g.begun path s).loader :=
  { h with inFlight := congrArg _ h.inFlight }

end Holds

/-- What a load of a path can come to, when at most so many modules are compiled one inside the
other. -/
inductive Attempt (g : ScopeSetting) (path : FilePath) (requester : Option FilePath)
    (s : LoadState) : Nat → Outcome ModuleError Module × LoadState → Prop where
  | served {depth : Nat} {module : Module} (found : s.loader.cache.get? path.keyed = some module) :
      Attempt g path requester s depth (.ok module, s)
  | refused {depth : Nat} (uncached : s.loader.cache.get? path.keyed = none)
      (barred : s.loader.isInFlight path.keyed = true ∨ depth = 0) :
      Attempt g path requester s depth (.error (.error (.cyclic path)), s)
  | textless {depth : Nat} {halt : Halt ModuleError}
      (uncached : s.loader.cache.get? path.keyed = none)
      (idle : s.loader.isInFlight path.keyed = false) (text : g.text? path = none) :
      Attempt g path requester s (depth + 1) (.error halt, (g.begun path s).leave path.keyed)
  | failed {depth : Nat} {source : String} {halt : Halt ModuleError} {t : LoadState}
      (uncached : s.loader.cache.get? path.keyed = none)
      (idle : s.loader.isInFlight path.keyed = false) (text : g.text? path = some source)
      (fails : compileNative (m := StateM LoadState) (Load.imported g.tree depth g.layout)
        ⟨source, path, requester⟩ (g.begun path s) = (.error halt, t)) :
      Attempt g path requester s (depth + 1) (.error halt, t.leave path.keyed)
  | compiled {depth : Nat} {source : String} {module : Module} {t : LoadState}
      (uncached : s.loader.cache.get? path.keyed = none)
      (idle : s.loader.isInFlight path.keyed = false) (text : g.text? path = some source)
      (made : compileNative (m := StateM LoadState) (Load.imported g.tree depth g.layout)
        ⟨source, path, requester⟩ (g.begun path s) = (.ok module, t)) :
      Attempt g path requester s (depth + 1) (.ok module,
        { t.leave path.keyed with loader.cache := t.loader.cache ++ [(path.keyed, module)] })

section Loads

variable {flight : List KeyedPath} {s : LoadState}

theorem attempt_atPath (hlayout : s.loader.layout = g.layout)
    (hstage : s.loader.slot.current.stage = g.stage) (depth : Nat) (path : FilePath)
    (requester : Option FilePath) :
    g.Attempt path requester s depth (Load.atPath g.tree depth path requester s) := by
  cases hcached : s.loader.cache.get? path.keyed with
  | some module =>
    rw [Load.atPath_cached hcached]
    exact .served hcached
  | none =>
    cases hflight : s.loader.isInFlight path.keyed with
    | true =>
      rw [Load.atPath_inFlight hcached hflight]
      exact .refused hcached (.inl hflight)
    | false =>
      cases depth with
      | zero =>
        rw [Load.atPath_zero hcached]
        exact .refused hcached (.inr rfl)
      | succ depth =>
        have hcompile := g.compileFile_apply (s := s.enter path.keyed) hlayout hstage
          (Load.imported g.tree depth g.layout) path requester
        rw [Load.atPath_succ hcached (by rw [hflight]; decide), hlayout]
        cases htext : g.text? path with
        | none =>
          rw [htext] at hcompile
          obtain ⟨halt, hcompile⟩ := hcompile
          rw [Load.compiled_apply, hcompile]
          exact .textless hcached hflight htext
        | some source =>
          rw [htext] at hcompile
          dsimp only at hcompile
          rcases hrun : compileNative (m := StateM LoadState) (Load.imported g.tree depth g.layout)
            ⟨source, path, requester⟩ (g.begun path s) with ⟨halt | module, t⟩
          · rw [Load.compiled_apply, hcompile.trans hrun]
            exact .failed hcached hflight htext hrun
          · rw [Load.compiled_of_ok hcached (hcompile.trans hrun)]
            exact .compiled hcached hflight htext hrun

theorem preserved_imported {inv : LoadState → Prop} {depth : Nat} {importer : FilePath}
    {specifier : String}
    (h : ∀ {file t}, g.layout.resolve g.tree specifier (some importer) = .ok file → inv t →
      inv (Load.atPath g.tree depth file (some importer) t).2) :
    Load.FailsBy inv (fun _ => True) (Load.imported g.tree depth g.layout importer specifier) := by
  intro t ht
  unfold Load.imported
  cases hfile : g.layout.resolve g.tree specifier (some importer) with
  | error error => exact ⟨ht, fun _ _ => trivial⟩
  | ok file => exact ⟨h hfile ht, fun _ _ => trivial⟩

theorem preserved_compileNative (inv : LoadState → Prop) {depth : Nat} {source : String}
    {requester : Option FilePath}
    (h : ∀ {specifier file t}, specifier ∈ importsOf source →
      g.layout.resolve g.tree specifier (some path) = .ok file → inv t →
        inv (Load.atPath g.tree depth file (some path) t).2) (hs : inv s) :
    inv (compileNative (m := StateM LoadState) (Load.imported g.tree depth g.layout)
      ⟨source, path, requester⟩ s).2 := by
  have hpreserves : Load.FailsBy inv (fun _ => True) (compileNative (m := StateM LoadState)
      (Load.imported g.tree depth g.layout) ⟨source, path, requester⟩) :=
    Load.failsBy_compileNative (fun _ => trivial) (fun _ => trivial) fun _ hspecifier =>
      preserved_imported fun hfile ht => h hspecifier hfile ht
  exact (hpreserves s hs).1

theorem yields_of_made (hspelling : g.tree.OneSpelling) {depth : Nat} {source : String}
    {requester : Option FilePath} {t : LoadState} (hfresh : g.before.get? path.keyed = none)
    (htext : g.text? path = some source)
    (hmade : compileNative (m := StateM LoadState) (Load.imported g.tree depth g.layout)
      ⟨source, path, requester⟩ s = (.ok module, t)) (ht : g.Holds flight t.loader) :
    g.Yields path module := by
  have hid : module.id = path := Load.id_of_compile g.layout _ .native ⟨source, path, requester⟩
    (by unfold Load.compile; exact hmade)
  have hreplay := Load.compileNative_replay hmade
  rw [hid] at hreplay
  refine .compiled _
    (fun specifier => (g.layout.resolve g.tree specifier (some path)).toOption.getD path)
    hfresh htext hreplay ?_ ?_
  all_goals
    intro specifier part hpart
    obtain ⟨file, hfile, hmodule⟩ := Cache.importFrom_ok hpart
    rw [hfile]
  · rfl
  · exact ht.found hspelling (Layout.loadable_of_resolve hfile) hmodule

theorem holds_atPath (hspelling : g.tree.OneSpelling) (depth : Nat) (requester : Option FilePath)
    (hpath : g.tree.Loadable path) (hs : g.Holds flight s.loader) :
    g.Holds flight (Load.atPath g.tree depth path requester s).2.loader := by
  induction depth using Nat.strongRecOn generalizing path requester s flight with
  | _ depth ih =>
  have hadds := Load.adds_atPath g.tree depth path requester s
  have hattempt := attempt_atPath hs.ofLayout hs.stage depth path requester
  generalize Load.atPath g.tree depth path requester s = result at hadds hattempt
  have hinside : ∀ {below} source, depth = below + 1 → g.Holds (path.keyed :: flight)
      (compileNative (m := StateM LoadState) (Load.imported g.tree below g.layout)
        ⟨source, path, requester⟩ (g.begun path s)).2.loader := by
    rintro below source rfl
    refine preserved_compileNative (fun t => g.Holds (path.keyed :: flight) t.loader)
      (fun _ hfile ht => ?_) (hs.begun path)
    exact ih below (Nat.lt_succ_self below) _ (Layout.loadable_of_resolve hfile) ht
  cases hattempt with
  | served found => exact hs
  | refused uncached barred => exact hs
  | textless uncached idle text => exact hs.extended hadds hs.added
  | @failed below source halt t uncached idle text fails =>
    have hafter := hinside source rfl
    rw [fails] at hafter
    exact hs.extended hadds hafter.added
  | @compiled below source module t uncached idle text made =>
    have hafter := hinside source rfl
    rw [made] at hafter
    refine hs.extended hadds fun entry he hnew => ?_
    rcases List.mem_append.mp he with he | he
    · exact hafter.added entry he hnew
    · rw [List.mem_singleton.mp he]
      exact ⟨hpath, yields_of_made hspelling (hs.fresh uncached) text made hafter⟩

/-- A path that yields a module does so whatever is cached and in flight. -/
theorem Yields.atPath (h : g.Yields path module) (hspelling : g.tree.OneSpelling)
    (hs : g.Holds flight s.loader) (hawaited : g.Awaited flight path) {depth : Nat}
    (hdepth : Load.maxDepth ≤ flight.length + depth) (requester : Option FilePath) :
    (Load.atPath g.tree depth path requester s).1 = .ok module := by
  induction h generalizing flight s depth requester with
  | cached found => rw [Load.atPath_cached (hs.grown.get? found)]
  | @compiled path module source parts file fresh text made resolved yields ih =>
    have hyields : g.Yields path module := .compiled parts file fresh text made resolved yields
    have hidle := hawaited.idle hspelling hyields
    have hlength := hawaited.length_lt hidle
    have hinside : ∀ {below}, depth = below + 1 →
        (compileNative (m := StateM LoadState) (Load.imported g.tree below g.layout)
          ⟨source, path, requester⟩ (g.begun path s)).1 = .ok module := by
      rintro below rfl
      have hmade : compileNative (m := Id) (fun _ => parts) ⟨source, path, requester⟩ =
          .ok module := made
      rw [← hmade]
      refine (compileNative_answers (fun t => g.Holds (path.keyed :: flight) t.loader)
        (fun specifier hspecifier {t} ht => ?_) (hs.begun path)).1
      obtain ⟨part, hpart⟩ := compileNative_answered made specifier hspecifier
      have hfile := resolved _ part hpart
      have hdeeper := hawaited.deeper hidle (.stated fresh text hspecifier hfile)
      rw [hpart]
      unfold Load.imported
      rw [hfile]
      refine ⟨ih _ part hpart ht hdeeper ?_ (some path),
        holds_atPath hspelling below (some path) hdeeper.loadable ht⟩
      rw [List.length_cons]
      omega
    have hattempt := attempt_atPath hs.ofLayout hs.stage depth path requester
    generalize Load.atPath g.tree depth path requester s = result at hattempt
    cases hattempt with
    | served found => rw [(hs.found hspelling hawaited.loadable found).unique hyields]
    | refused uncached barred =>
      rcases barred with hflight | rfl
      · rw [hs.isInFlight, hidle] at hflight
        cases hflight
      · omega
    | textless uncached idle textless => cases text.symm.trans textless
    | failed uncached idle text' fails =>
      cases text.symm.trans text'
      have hmade := hinside rfl
      rw [fails] at hmade
      cases hmade
    | compiled uncached idle text' compiled =>
      cases text.symm.trans text'
      have hmade := hinside rfl
      rw [compiled] at hmade
      exact hmade

end Loads

end ScopeSetting

end Interpose
