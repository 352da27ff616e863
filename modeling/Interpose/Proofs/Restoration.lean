import Interpose.Proofs.Failures

set_option autoImplicit false

namespace Interpose

/-- What can run inside a scope. What comes next may depend on what came of the step before, unless
that step panicked. -/
inductive ScopeWork where
  | done
  | panic (message : String)
  | load (loader : LoaderId) (request : Session.LoadRequest)
      (next : Except ModuleError Module → ScopeWork)
  | scope (interceptor : Interceptor) (inner : ScopeWork)
      (next : Except InterceptError Unit → ScopeWork)
  | build (loader : LoaderId) (policy : PolicySpec) (transformer : Edit.Transformer)
      (next : Except InterceptError Interceptor → ScopeWork)
  | activate (interceptor : Interceptor) (next : Except InterceptError Activation → ScopeWork)

namespace ScopeWork

/-- Runs the work, which may unwind with the message of a panic. The host is noted down before each
load. -/
def run : ScopeWork → HostedM (List Host) (Except String Unit)
  | done => return .ok ()
  | panic message => return .error message
  | load loader request next => do
    let host ← (get : HostM Host)
    modify (· ++ [host])
    match ← (HostM.load loader request.run : HostM (Outcome ModuleError Module)) with
    | .ok module => (next (.ok module)).run
    | .error (.error error) => (next (.error error)).run
    | .error (.panic message) => return .error message
  | scope interceptor inner next => do
    match ← interceptor.withScope inner.run with
    | .ok (.ok ()) => (next (.ok ())).run
    | .ok (.error message) => return .error message
    | .error error => (next (.error error)).run
  | build loader policy transformer next => do
    (next (← (Interceptor.build loader policy transformer : HostM _))).run
  | activate interceptor next => do
    (next (← (interceptor.activate : HostM _))).run

variable {hosts : List Host} {host : Host}

theorem run_load (loader : LoaderId) (request : Session.LoadRequest)
    (next : Except ModuleError Module → ScopeWork) :
    (load loader request next).run hosts host =
      match HostM.load loader request.run host with
      | (.ok module, after) => (next (.ok module)).run (hosts ++ [host]) after
      | (.error (.error error), after) => (next (.error error)).run (hosts ++ [host]) after
      | (.error (.panic message), after) => ((.error message, hosts ++ [host]), after) := by
  rw [run]
  change (match (HostM.load loader request.run host).1 with
    | .ok module => (next (.ok module)).run
    | .error (.error error) => (next (.error error)).run
    | .error (.panic message) => pure (.error message)) (hosts ++ [host])
      (HostM.load loader request.run host).2 = _
  rcases HostM.load loader request.run host with ⟨(error | message) | module, after⟩ <;> rfl

end ScopeWork

/-- From one host to another nothing happened to the interceptor's loader but loads, and no host was
noted down in which its slot was any other. -/
structure Interceptor.Stays (interceptor : Interceptor) (hosts : List Host) (host : Host)
    (hosts' : List Host) (host' : Host) : Prop where
  loader : (host'.loader interceptor.loader).Extends (host.loader interceptor.loader)
  noted : ∀ other ∈ hosts', other ∈ hosts ∨
    (other.loader interceptor.loader).slot = (host.loader interceptor.loader).slot

namespace Interceptor.Stays

variable {interceptor : Interceptor} {hosts hosts' hosts'' : List Host} {host host' host'' : Host}

theorem of_loader (h : (host'.loader interceptor.loader).Extends (host.loader interceptor.loader)) :
    interceptor.Stays hosts host hosts host' := ⟨h, fun _ hother => .inl hother⟩

theorem of_loader_eq (h : host'.loader interceptor.loader = host.loader interceptor.loader) :
    interceptor.Stays hosts host hosts host' := by
  refine of_loader ?_
  rw [h]
  exact .refl _

theorem trans (h : interceptor.Stays hosts host hosts' host')
    (h' : interceptor.Stays hosts' host' hosts'' host'') :
    interceptor.Stays hosts host hosts'' host'' := by
  refine ⟨h'.loader.trans h.loader, fun other hother => ?_⟩
  rcases h'.noted other hother with hother | hslot
  · exact h.noted other hother
  · exact .inr (hslot.trans h.loader.slot)

theorem active (h : interceptor.Stays hosts host hosts' host')
    (hactive : interceptor.isActive host = true) : interceptor.isActive host' = true := by
  rw [isActive_iff] at hactive ⊢
  rw [h.loader.slot]
  exact hactive

theorem intercepts (h : interceptor.Stays [] host hosts host')
    (hhost : interceptor.Intercepts host) : ∀ other ∈ hosts, interceptor.Intercepts other := by
  intro other hother
  have hslot := (h.noted other hother).resolve_left List.not_mem_nil
  refine ⟨isActive_iff.mpr ?_, ?_⟩
  · rw [hslot]
    exact isActive_iff.mp hhost.active
  · rw [hslot]
    exact hhost.stage

end Interceptor.Stays

namespace ScopeWork

variable {interceptor : Interceptor} {hosts : List Host} {host : Host}

theorem stays_load (loader : LoaderId) (request : Session.LoadRequest) :
    interceptor.Stays hosts host (hosts ++ [host]) (HostM.load loader request.run host).2 := by
  refine ⟨HostM.extends_load (request.adds_run host.tree) loader interceptor.loader, ?_⟩
  intro other hother
  refine (List.mem_append.mp hother).imp_right fun hother => ?_
  rw [List.mem_singleton.mp hother]

theorem stays_run (work : ScopeWork) (hactive : interceptor.isActive host = true) :
    interceptor.Stays hosts host (work.run hosts host).1.2 (work.run hosts host).2 := by
  induction work generalizing hosts host with
  | done => exact .of_loader (.refl _)
  | panic message => exact .of_loader (.refl _)
  | load loader request next ih =>
    have hload : interceptor.Stays hosts host (hosts ++ [host])
        (HostM.load loader request.run host).2 := stays_load loader request
    rw [run_load]
    rcases hrun : HostM.load loader request.run host with ⟨(error | message) | module, after⟩
    all_goals rw [hrun] at hload
    · exact hload.trans (ih (.error error) (hload.active hactive))
    · exact hload
    · exact hload.trans (ih (.ok module) (hload.active hactive))
  | scope other inner next ihInner ihNext =>
    rw [run, HostedM.bind_apply]
    rcases hactivate : other.activate host with ⟨error | activation, entered⟩
    · have hhost := Interceptor.activate_error hactivate
      rw [Interceptor.withScope_refused hactivate, hhost]
      exact ihNext (.error error) hactive
    · have howner := Interceptor.isActive_iff.mp hactive
      obtain ⟨hloader, helsewhere⟩ := Interceptor.activate_elsewhere hactivate howner
      have hentered : interceptor.Stays hosts host hosts entered := .of_loader_eq hloader
      have hinner : interceptor.Stays hosts entered (inner.run hosts entered).1.2
          (inner.run hosts entered).2 := ihInner (hentered.active hactive)
      rcases hrun : inner.run hosts entered with ⟨⟨result, noted⟩, left⟩
      rw [hrun] at hinner
      rw [Interceptor.withScope_entered hactivate hrun]
      -- the scope did not fill the interceptor's slot, so its end leaves the loader alone
      have hrestored : interceptor.Stays noted left noted (activation.restore left).2 :=
        .of_loader_eq (Activation.loader_restore helsewhere)
      have hscope := (hentered.trans hinner).trans hrestored
      rcases result with message | _
      · exact hscope
      · exact hscope.trans (ihNext (.ok ()) (hscope.active hactive))
  | build loader policy transformer next ih =>
    rw [run, HostedM.bind_apply]
    have hbuild : interceptor.Stays hosts host hosts
        (Interceptor.build loader policy transformer host).2 :=
      .of_loader_eq (Interceptor.loader_build loader policy transformer host _)
    exact hbuild.trans (ih _ (hbuild.active hactive))
  | activate other next ih =>
    rw [run, HostedM.bind_apply, HostedM.lift_apply]
    rcases hactivate : other.activate host with ⟨error | activation, entered⟩
    · rw [Interceptor.activate_error hactivate]
      exact ih (.error error) hactive
    · have howner := Interceptor.isActive_iff.mp hactive
      have hentered : interceptor.Stays hosts host hosts entered :=
        .of_loader_eq (Interceptor.activate_elsewhere hactivate howner).1
      exact hentered.trans (ih (.ok activation) (hentered.active hactive))

end ScopeWork

theorem Interceptor.Intercepts.nested {interceptor : Interceptor} {host : Host}
    (h : interceptor.Intercepts host) {first call : LoadCall} {outer : List LoadCall}
    (hfirst : first.start = host.loading interceptor.loader)
    (hnested : LoadCall.Nested host.tree first outer call) :
    call.start.loader.slot.current.owner = some interceptor.id ∧
      call.start.loader.slot.current.stage = interceptor.stage := by
  rw [hnested.slot, hfirst]
  exact ⟨isActive_iff.mp h.active, h.stage⟩

/-- All that was loaded, by requests and by the imports that they lead to, went through the
interceptor's stage, and then the loader was given back: the slot as it was, nothing more in flight,
and of the cache what the interceptor keeps, if all of that was there. -/
structure Interceptor.Restores (interceptor : Interceptor) (hosts : List Host)
    (before after : Host) : Prop where
  intercepted : ∀ host ∈ hosts, interceptor.Intercepts host
  nested : ∀ host ∈ hosts, ∀ (first call : LoadCall) (outer : List LoadCall),
    first.start = host.loading interceptor.loader → LoadCall.Nested host.tree first outer call →
      call.start.loader.slot.current.owner = some interceptor.id ∧
        call.start.loader.slot.current.stage = interceptor.stage
  slot : (after.loader interceptor.loader).slot.current =
    (before.loader interceptor.loader).slot.current
  inFlight : (after.loader interceptor.loader).inFlight =
    (before.loader interceptor.loader).inFlight
  cache : (∀ key ∈ interceptor.cachedPaths,
      ((before.loader interceptor.loader).cache.get? key).isSome) →
    (after.loader interceptor.loader).cache =
      (before.loader interceptor.loader).cache.retain interceptor.cachedPaths.contains

def Host.cachedIn (host : Host) (id : LoaderId) : List FilePath :=
  (host.loader id).cache.map (·.1.path)

namespace World

/-- A scope on a free slot restores the loader whatever its work is, and however the work ends. -/
theorem scope_restores (tree : FileTree) (layouts : List Layout) (events : List Event)
    {interceptor : Interceptor}
    (hmem : interceptor ∈ ((start tree layouts).run events).interceptors)
    (hfree :
      (((start tree layouts).run events).loader interceptor.loader).slot.current.owner = none)
    (work : ScopeWork) :
    ∃ result hosts host,
      interceptor.withScope work.run [] ((start tree layouts).run events).host =
        ((.ok result, hosts), host) ∧
      interceptor.Restores hosts ((start tree layouts).run events).host host := by
  have hr := rooted_run tree layouts events
  generalize (start tree layouts).run events = w at *
  have hknown := hr.known interceptor hmem
  have hself : (w.install interceptor).loader interceptor.loader =
      interceptor.installed (w.loader interceptor.loader) := loader_install hknown
  have hinstalled : interceptor.Intercepts (w.install interceptor) := by
    refine ⟨Interceptor.isActive_iff.mpr ?_, ?_⟩
    · rw [hself]
      rfl
    · rw [hself]
      rfl
  have hstays : interceptor.Stays [] (w.install interceptor)
      (work.run [] (w.install interceptor)).1.2 (work.run [] (w.install interceptor)).2 :=
    work.stays_run hinstalled.active
  rcases hrun : work.run [] (w.install interceptor) with ⟨⟨result, hosts⟩, left⟩
  rw [hrun] at hstays
  have hslot := hstays.loader.slot
  rw [hself] at hslot
  have hstands : Activation.Stands
      ⟨interceptor, (w.loader interceptor.loader).slot.nextId, true⟩ left :=
    ⟨rfl, by rw [hslot]; rfl, by rw [hslot]; rfl⟩
  have hscope := Interceptor.withScope_entered (Interceptor.activate_free hfree) hrun
  rw [Activation.restore_standing hstands] at hscope
  have hleft : interceptor.loader < left.loaders.length := Host.lt_of_owner hstands.2.1
  have hintercepts := hstays.intercepts hinstalled
  refine ⟨result, hosts, _, hscope, hintercepts, ?_, ?_, ?_, ?_⟩
  · intro other hother first call outer hfirst hnested
    exact (hintercepts other hother).nested hfirst hnested
  · rw [Host.loader_setLoader_self hleft]
    exact (hr.underlying interceptor hmem).trans (hr.free _ hfree).symm
  · rw [Host.loader_setLoader_self hleft]
    exact hstays.loader.inFlight.trans (by rw [hself]; rfl)
  · rw [Host.loader_setLoader_self hleft]
    intro hcached
    have hextends := hstays.loader.cache
    rw [hself] at hextends
    exact hextends.retain_contains interceptor.cachedPaths hcached

def loadedFirst : List Event :=
  [.load 0 (.path ⟨"/b.svs"⟩),
    .build 0 (.code 3) (panickingOn "import b from \"./b.svs\"; export z = b.y;")]

def panicking (interceptor : Interceptor) : ScopeWork :=
  .load 0 (.path ⟨"/d.svs"⟩) fun _ =>
    .scope interceptor (.load 0 (.path ⟨"/b.svs"⟩) fun _ => .done) fun _ =>
      .load 0 (.path ⟨"/a.svs"⟩) fun _ => .done

theorem scope_restores_panicking :
    let w := (start ⟨("d.svs", .file (.text "export w = 1;")) :: sharingFiles.root, []⟩
      [.withoutEntryDir]).run loadedFirst
    ∃ interceptor ∈ w.interceptors,
      (w.loader interceptor.loader).slot.current.owner = none ∧
        w.host.cachedIn 0 = [⟨"/b.svs"⟩] ∧
        ∃ hosts host,
          interceptor.withScope (panicking interceptor).run [] w.host =
            ((.ok (.error "no"), hosts), host) ∧ interceptor.Restores hosts w.host host ∧
          hosts.map (Host.cachedIn · 0) =
            [[⟨"/b.svs"⟩], [⟨"/b.svs"⟩, ⟨"/d.svs"⟩], [⟨"/b.svs"⟩, ⟨"/d.svs"⟩]] ∧
          host.cachedIn 0 = [⟨"/b.svs"⟩] := by
  intro w
  obtain ⟨interceptor, hmem⟩ := List.exists_mem_of_length_pos
    (show 0 < w.interceptors.length by decide +kernel)
  have hran : ∀ interceptor ∈ w.interceptors,
      let ran := interceptor.withScope (panicking interceptor).run [] w.host
      (w.loader interceptor.loader).slot.current.owner = none ∧ ran.1.1 = .ok (.error "no") ∧
        ran.1.2.map (Host.cachedIn · 0) =
          [[⟨"/b.svs"⟩], [⟨"/b.svs"⟩, ⟨"/d.svs"⟩], [⟨"/b.svs"⟩, ⟨"/d.svs"⟩]] ∧
        ran.2.cachedIn 0 = [⟨"/b.svs"⟩] := by decide +kernel
  obtain ⟨hfree, hresult, hnoted, hleft⟩ := hran interceptor hmem
  obtain ⟨result, hosts, host, hscope, hrestores⟩ :=
    scope_restores _ _ _ hmem hfree (panicking interceptor)
  rw [hscope] at hresult hnoted hleft
  cases hresult
  exact ⟨interceptor, hmem, hfree, by decide +kernel, hosts, host, hscope, hrestores, hnoted, hleft⟩

end World

end Interpose
