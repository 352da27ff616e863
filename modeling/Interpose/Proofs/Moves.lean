import Interpose.Proofs.Events

set_option autoImplicit false

namespace Interpose

namespace Slot

/-- An occupant that nobody put into a slot is the one of a new slot. -/
def Original (occupant : Occupant) : Prop :=
  occupant.owner = none → occupant = initial.current

theorem original_claim {slot : Slot} (h : Original slot.current) (owner : OwnerId)
    (stage : Stage) : Original (slot.claim owner stage).2.current := by
  unfold SlotOf.claim
  cases slot.current.owner with
  | none =>
    intro howner
    cases howner
  | some holder =>
    simp only
    split
    · exact h
    · exact h

theorem original_release {slot : Slot} (h : Original slot.current) (owner : OwnerId)
    (expected : Option StageId) {former : Occupant} (hformer : Original former) :
    Original (slot.release owner expected former).2.current := by
  unfold SlotOf.release
  split
  · exact hformer
  · exact h

end Slot

namespace HostM

variable {α : Type} {host : Host}

theorem original_onSlot {id other : LoaderId} {change : Slot → α × Slot}
    (h : Slot.Original (host.loader other).slot.current)
    (hchange : ∀ {slot : Slot}, Slot.Original slot.current →
      Slot.Original (change slot).2.current) :
    Slot.Original ((onSlot id change host).2.loader other).slot.current :=
  Host.loader_setLoader_of (p := fun loader => Slot.Original loader.slot.current) h
    fun hid => hchange (hid ▸ h)

theorem extends_load {load : FileTree → Load α} (h : (load host.tree).Adds) (id other : LoaderId) :
    ((HostM.load id load host).2.loader other).Extends (host.loader other) :=
  Host.loader_setLoader_of (p := fun loader => loader.Extends (host.loader other)) (.refl _)
    fun hid => hid ▸ h ⟨host.loader id, host.calls⟩

theorem slot_retain (id other : LoaderId) (keep : FilePath → Bool) :
    ((retain id keep host).2.loader other).slot = (host.loader other).slot :=
  Host.loader_setLoader_of (p := fun loader => loader.slot = (host.loader other).slot) rfl
    fun hid => hid ▸ rfl

end HostM

theorem Session.LoadRequest.adds_run (request : LoadRequest) (tree : FileTree) :
    (request.run tree).Adds := by
  cases request with
  | path file => exact Load.keeps_byPath (Load.adds_atPath tree) file
  | specifier text requester => exact Load.keeps_bySpecifier (Load.adds_atPath tree) text requester

namespace World

def install (w : World) (interceptor : Interceptor) : Host :=
  w.host.setLoader interceptor.loader (interceptor.installed (w.loader interceptor.loader))

def restore (w : World) (interceptor : Interceptor) : Host :=
  w.host.setLoader interceptor.loader (interceptor.restored (w.loader interceptor.loader))

/-- Interceptors are of loaders that were built, and a slot that nobody holds is as it was when the
loader was built, at any time that anything remembers. -/
structure Rooted (w : World) : Prop where
  known : ∀ interceptor ∈ w.interceptors, interceptor.loader < w.host.loaders.length
  underlying : ∀ interceptor ∈ w.interceptors, interceptor.underlying = Slot.initial.current
  issuer : ∀ activation ∈ w.issued, activation.interceptor ∈ w.interceptors
  free : ∀ id, Slot.Original (w.loader id).slot.current
  snapshots : ∀ former ∈ w.snapshots, Slot.Original former

section Loaders

variable {w : World} {interceptor : Interceptor} {id : LoaderId}

theorem loader_install (h : interceptor.loader < w.host.loaders.length) :
    (w.install interceptor).loader interceptor.loader =
      interceptor.installed (w.loader interceptor.loader) := Host.loader_setLoader_self h _

theorem loader_install_of_ne (h : id ≠ interceptor.loader) :
    (w.install interceptor).loader id = w.loader id := Host.loader_setLoader_of_ne h _

theorem loader_restore (h : interceptor.loader < w.host.loaders.length) :
    (w.restore interceptor).loader interceptor.loader =
      interceptor.restored (w.loader interceptor.loader) := Host.loader_setLoader_self h _

theorem loader_restore_of_ne (h : id ≠ interceptor.loader) :
    (w.restore interceptor).loader id = w.loader id := Host.loader_setLoader_of_ne h _

theorem Rooted.stage (hw : w.Rooted) (hmem : interceptor ∈ w.interceptors) :
    interceptor.stage = .intercepting interceptor.id interceptor.policy interceptor.transformer
      ⟨1, none, .native⟩ := by
  rw [Interceptor.stage, hw.underlying interceptor hmem]
  rfl

end Loaders

/-- What an event that goes through an interceptor, or that changes no slot, can make of a world. -/
inductive Move (w : World) : World → Prop where
  | idle (holder : Nat → Option Holder)
      (unopened : ∀ n kept, holder n = some kept → kept.isScope = true →
        w.holder n = some kept) : Move w { w with holder }
  | snapshot (loader : LoaderId) :
      Move w { w with snapshots := w.snapshots ++ [(w.loader loader).slot.current] }
  | load (loader : LoaderId) (request : Session.LoadRequest) :
      Move w { w with host := (HostM.load loader request.run w.host).2 }
  | retain (loader : LoaderId) (keep : FilePath → Bool) :
      Move w { w with host := (HostM.retain loader keep w.host).2 }
  | built (interceptor : Interceptor) (known : interceptor.loader < w.host.loaders.length)
      (counted : interceptor.id = w.host.nextOwner)
      (underlying : interceptor.underlying = (w.loader interceptor.loader).slot.current)
      (free : interceptor.underlying.owner = none)
      (cached : interceptor.cachedPaths = (w.loader interceptor.loader).cache.keys) :
      Move w { w with
        host := { w.host with nextOwner := w.host.nextOwner + 1 }
        interceptors := w.interceptors ++ [interceptor] }
  | filled (interceptor : Interceptor) (holder : Holder) (mem : interceptor ∈ w.interceptors)
      (free : (w.loader interceptor.loader).slot.current.owner = none) :
      Move w ({ w with host := w.install interceptor }.issue
        ⟨interceptor, (w.loader interceptor.loader).slot.nextId, true⟩ holder)
  | joined (interceptor : Interceptor) (holder : Holder) (mem : interceptor ∈ w.interceptors)
      (held : interceptor.isActive w.host = true) :
      Move w (w.issue
        ⟨interceptor, (w.loader interceptor.loader).slot.current.id, false⟩ holder)
  | deactivated (interceptor : Interceptor) (mem : interceptor ∈ w.interceptors)
      (held : interceptor.isActive w.host = true) :
      Move w { w with
        host := w.restore interceptor
        ended := fun n => w.ended n || w.isBy interceptor n }
  | inactive (interceptor : Interceptor) (mem : interceptor ∈ w.interceptors)
      (idle : ¬ interceptor.isActive w.host = true) :
      Move w { w with ended := fun n => w.ended n || w.isBy interceptor n }
  | finished (n : Nat) (activation : Activation) (issued : w.issued[n]? = some activation)
      (stands : activation.Stands w.host) :
      Move w { w with
        host := w.restore activation.interceptor
        holder := Function.update w.holder n none
        ended := Function.update w.ended n true }
  | stale (n : Nat) (activation : Activation) (issued : w.issued[n]? = some activation)
      (stale : ¬ activation.Stands w.host) :
      Move w { w with
        holder := Function.update w.holder n none
        ended := Function.update w.ended n true }

theorem Move.refl (w : World) : Move w w := .idle w.holder fun _ _ h _ => h

theorem Move.putAway (w : World) {n : Nat} {holder : Option Holder}
    (h : ∀ kept, holder = some kept → kept.isScope = false) :
    Move w { w with holder := Function.update w.holder n holder } := by
  refine .idle _ fun m kept hkept hscope => ?_
  by_cases hm : m = n
  · subst hm
    rw [Function.update_self] at hkept
    rw [h kept hkept] at hscope
    cases hscope
  · rwa [Function.update_of_ne hm] at hkept

theorem move_build (w : World) {loader : LoaderId} (hknown : loader < w.host.loaders.length)
    (policy : PolicySpec) (transformer : Edit.Transformer) :
    Move w (w.build loader policy transformer) := by
  unfold build Interceptor.build
  cases Policy.ofSpec w.host.tree policy with
  | error error => exact .refl w
  | ok policy =>
    cases hfree : (w.loader loader).slot.current.owner with
    | some holder =>
      simp only [Interceptor.new, hfree]
      exact .refl w
    | none =>
      simp only [Interceptor.new, hfree]
      exact .built ⟨w.host.nextOwner, loader, policy, transformer, _, _⟩ hknown rfl rfl hfree rfl

theorem move_activate (w : World) {interceptor : Interceptor} (hmem : interceptor ∈ w.interceptors)
    (holder : Holder) : Move w (w.activate interceptor holder) := by
  unfold activate
  cases howner : (w.loader interceptor.loader).slot.current.owner with
  | none =>
    rw [Interceptor.activate_free howner]
    exact .filled interceptor holder hmem howner
  | some other =>
    by_cases hother : other = interceptor.id
    · subst hother
      rw [Interceptor.activate_held howner]
      exact .joined interceptor holder hmem (Interceptor.isActive_iff.mpr howner)
    · rw [Interceptor.activate_busy howner hother]
      exact .refl w

theorem host_deactivate_held {w : World} {interceptor : Interceptor}
    (hheld : interceptor.isActive w.host = true) :
    (w.deactivate interceptor).host = w.restore interceptor := by
  have howner := Interceptor.isActive_iff.mp hheld
  have hrelease := Interceptor.release_held howner
    (Option.all_none (p := (· == (w.loader interceptor.loader).slot.current.id)))
  exact congrArg Prod.snd hrelease

theorem host_deactivate_idle {w : World} {interceptor : Interceptor}
    (hidle : ¬ interceptor.isActive w.host = true) :
    (w.deactivate interceptor).host = w.host :=
  congrArg Prod.snd (Interceptor.release_refused
    fun h => hidle (Interceptor.isActive_iff.mpr h.1))

theorem move_deactivate {w : World} {interceptor : Interceptor}
    (hmem : interceptor ∈ w.interceptors) : Move w (w.deactivate interceptor) := by
  by_cases hheld : interceptor.isActive w.host = true
  · have hhost : (interceptor.deactivate w.host).2 = w.restore interceptor :=
      host_deactivate_held hheld
    unfold deactivate
    rw [hhost]
    exact .deactivated interceptor hmem hheld
  · have hhost : (interceptor.deactivate w.host).2 = w.host := host_deactivate_idle hheld
    unfold deactivate
    rw [hhost]
    exact .inactive interceptor hmem hheld

theorem move_finish {w : World} {n : Nat} {activation : Activation}
    (hn : w.issued[n]? = some activation) (ending : Ending) :
    Move w (w.finish n activation ending) := by
  rw [finish, ending.run_eq]
  by_cases hstands : activation.Stands w.host
  · rw [Activation.restore_standing hstands]
    exact .finished n activation hn hstands
  · rw [Activation.restore_stale hstands]
    exact .stale n activation hn hstands

theorem step_move (w : World) {event : Event} (h : event.isRaw = false) :
    Move w (w.step event) := by
  cases event with
  | build loader policy transformer =>
    simp only [step]
    split
    · exact move_build w ‹_› policy transformer
    · exact .refl w
  | activate i holder =>
    simp only [step]
    cases hi : w.interceptors[i]? with
    | none => exact .refl w
    | some interceptor => exact move_activate w (List.mem_of_getElem? hi) holder
  | deactivate i =>
    simp only [step]
    cases hi : w.interceptors[i]? with
    | none => exact .refl w
    | some interceptor => exact move_deactivate (List.mem_of_getElem? hi)
  | guard n =>
    simp only [step]
    split
    · exact .putAway w fun kept hkept => by rw [← Option.some.inj hkept]; rfl
    · exact .refl w
  | forget n =>
    simp only [step]
    split
    · exact .putAway w fun kept hkept => by cases hkept
    · exact .refl w
  | finish n ending =>
    simp only [step]
    cases hn : w.issued[n]? with
    | none => exact .refl w
    | some activation =>
      simp only [Option.elim]
      split
      · exact move_finish hn ending
      · exact .refl w
  | poll n =>
    simp only [step]
    cases w.issued[n]? with
    | none => exact .refl w
    | some activation =>
      simp only [Option.elim, poll_eq, ite_self]
      exact .refl w
  | load loader request => exact .load loader request
  | evict loader path => exact .retain loader _
  | retain loader keep => exact .retain loader keep
  | snapshot loader => exact .snapshot loader
  | claim => cases h
  | release => cases h

theorem length_load (host : Host) (id : LoaderId) (request : Session.LoadRequest) :
    (HostM.load id request.run host).2.loaders.length = host.loaders.length := List.length_set

theorem slot_load (host : Host) (id other : LoaderId) (request : Session.LoadRequest) :
    ((HostM.load id request.run host).2.loader other).slot = (host.loader other).slot :=
  (HostM.extends_load (request.adds_run host.tree) id other).slot

theorem Rooted.restored {w : World} (hw : w.Rooted) {interceptor : Interceptor}
    (hmem : interceptor ∈ w.interceptors) {holder : Nat → Option Holder} {ended : Nat → Bool} :
    Rooted { w with host := w.restore interceptor, holder, ended } := by
  refine ⟨?_, hw.underlying, hw.issuer, ?_, hw.snapshots⟩
  · intro other hother
    exact (Host.length_setLoader _).symm ▸ hw.known other hother
  · intro id
    exact Host.loader_setLoader_of (p := fun loader => Slot.Original loader.slot.current)
      (hw.free id) fun _ _ => hw.underlying interceptor hmem

theorem Rooted.move {w w' : World} (hw : w.Rooted) (h : Move w w') : w'.Rooted := by
  cases h with
  | idle holder unopened => exact ⟨hw.known, hw.underlying, hw.issuer, hw.free, hw.snapshots⟩
  | snapshot loader =>
    refine ⟨hw.known, hw.underlying, hw.issuer, hw.free, ?_⟩
    intro former hformer
    rcases List.mem_append.mp hformer with hformer | hformer
    · exact hw.snapshots former hformer
    · rw [List.mem_singleton.mp hformer]
      exact hw.free loader
  | load loader request =>
    refine ⟨?_, hw.underlying, hw.issuer, ?_, hw.snapshots⟩
    · intro interceptor hmem
      exact (length_load ..).symm ▸ hw.known interceptor hmem
    · intro id
      rw [slot_load]
      exact hw.free id
  | retain loader keep =>
    refine ⟨?_, hw.underlying, hw.issuer, ?_, hw.snapshots⟩
    · intro interceptor hmem
      exact (Host.length_setLoader _).symm ▸ hw.known interceptor hmem
    · intro id
      rw [HostM.slot_retain]
      exact hw.free id
  | built interceptor known counted underlying free cached =>
    refine ⟨?_, ?_, ?_, hw.free, hw.snapshots⟩
    · intro other hmem
      rcases List.mem_append.mp hmem with hmem | hmem
      · exact hw.known other hmem
      · exact List.mem_singleton.mp hmem ▸ known
    · intro other hmem
      rcases List.mem_append.mp hmem with hmem | hmem
      · exact hw.underlying other hmem
      · rw [List.mem_singleton.mp hmem, underlying]
        exact hw.free _ (underlying ▸ free)
    · intro activation hissued
      exact List.mem_append_left _ (hw.issuer activation hissued)
  | filled interceptor holder mem free =>
    refine ⟨?_, hw.underlying, ?_, ?_, hw.snapshots⟩
    · intro other hmem
      exact (Host.length_setLoader _).symm ▸ hw.known other hmem
    · intro activation hissued
      rcases List.mem_append.mp hissued with hissued | hissued
      · exact hw.issuer activation hissued
      · rw [List.mem_singleton.mp hissued]
        exact mem
    · intro id
      refine Host.loader_setLoader_of (p := fun loader => Slot.Original loader.slot.current)
        (hw.free id) fun _ howner => ?_
      cases howner
  | joined interceptor holder mem held =>
    refine ⟨hw.known, hw.underlying, ?_, hw.free, hw.snapshots⟩
    intro activation hissued
    rcases List.mem_append.mp hissued with hissued | hissued
    · exact hw.issuer activation hissued
    · rw [List.mem_singleton.mp hissued]
      exact mem
  | deactivated interceptor mem held => exact hw.restored mem
  | inactive interceptor mem idle =>
    exact ⟨hw.known, hw.underlying, hw.issuer, hw.free, hw.snapshots⟩
  | finished n activation issued stands =>
    exact hw.restored (hw.issuer activation (List.mem_of_getElem? issued))
  | stale n activation issued stale =>
    exact ⟨hw.known, hw.underlying, hw.issuer, hw.free, hw.snapshots⟩

theorem Rooted.step {w : World} (hw : w.Rooted) (event : Event) : (w.step event).Rooted := by
  have known : ∀ {host : Host}, host.loaders.length = w.host.loaders.length →
      ∀ interceptor ∈ w.interceptors, interceptor.loader < host.loaders.length := by
    intro host hlength interceptor hmem
    exact hlength.symm ▸ hw.known interceptor hmem
  cases event with
  | claim loader owner stage =>
    refine ⟨known (Host.length_setLoader _), hw.underlying, hw.issuer, ?_, hw.snapshots⟩
    intro id
    change Slot.Original ((HostM.onSlot loader (·.claim owner stage) w.host).2.loader id).slot.current
    apply HostM.original_onSlot (hw.free id)
    exact fun h => Slot.original_claim h owner stage
  | release loader owner expected k =>
    simp only [World.step]
    cases hk : w.snapshots[k]? with
    | none => exact hw
    | some former =>
      refine ⟨known (Host.length_setLoader _), hw.underlying, hw.issuer, ?_, hw.snapshots⟩
      have hformer := hw.snapshots former (List.mem_of_getElem? hk)
      intro id
      change Slot.Original
        ((HostM.onSlot loader (·.release owner expected former) w.host).2.loader id).slot.current
      apply HostM.original_onSlot (hw.free id)
      exact fun h => Slot.original_release h owner expected hformer
  | _ => exact hw.move (w.step_move rfl)

theorem length_step (w : World) (event : Event) :
    (w.step event).host.loaders.length = w.host.loaders.length := by
  have moved : ∀ {w' : World}, Move w w' → w'.host.loaders.length = w.host.loaders.length := by
    intro w' h
    cases h with
    | load loader request => exact length_load ..
    | retain loader keep => exact Host.length_setLoader _
    | filled interceptor holder mem free => exact Host.length_setLoader _
    | deactivated interceptor mem held => exact Host.length_setLoader _
    | finished n activation issued stands => exact Host.length_setLoader _
    | _ => rfl
  cases event with
  | claim loader owner stage => exact Host.length_setLoader _
  | release loader owner expected k =>
    simp only [World.step]
    cases w.snapshots[k]? with
    | none => rfl
    | some former => exact Host.length_setLoader _
  | _ => exact moved (w.step_move rfl)

theorem loader_start (tree : FileTree) (layouts : List Layout) (id : LoaderId) :
    ∃ layout, (start tree layouts).loader id = .ofLayout layout := by
  unfold start loader Host.loader
  rw [List.getD_eq_getElem?_getD, List.getElem?_map]
  cases layouts[id]? with
  | none => exact ⟨.withoutEntryDir, rfl⟩
  | some layout => exact ⟨layout, rfl⟩

theorem rooted_start (tree : FileTree) (layouts : List Layout) : (start tree layouts).Rooted := by
  refine ⟨by simp [start], by simp [start], by simp [start], ?_, by simp [start]⟩
  intro id _
  obtain ⟨layout, hlayout⟩ := loader_start tree layouts id
  rw [hlayout]
  rfl

theorem rooted_run (tree : FileTree) (layouts : List Layout) (events : List Event) :
    ((start tree layouts).run events).Rooted :=
  run_induction (rooted_start tree layouts) fun _ hw => hw.step _

/-- A scope on a free slot. If its work leaves the slot alone, the loader is restored from what the
work has made of it. -/
theorem withScope_free {σ α : Type} {w : World} (hw : w.Rooted) {interceptor : Interceptor}
    (hmem : interceptor ∈ w.interceptors)
    (hfree : (w.loader interceptor.loader).slot.current.owner = none)
    {work : HostedM σ α} {state state' : σ} {left : Host} {result : α}
    (hwork : work state (w.install interceptor) = ((result, state'), left))
    (hslot : (left.loader interceptor.loader).slot =
      ((w.install interceptor).loader interceptor.loader).slot) :
    interceptor.withScope work state w.host =
      ((.ok result, state'), left.setLoader interceptor.loader
        (interceptor.restored (left.loader interceptor.loader))) := by
  have hself := loader_install (hw.known interceptor hmem)
  have hstands : Activation.Stands
      ⟨interceptor, (w.loader interceptor.loader).slot.nextId, true⟩ left := by
    rw [hself] at hslot
    exact ⟨rfl, by rw [hslot]; rfl, by rw [hslot]; rfl⟩
  rw [Interceptor.withScope_entered (Interceptor.activate_free hfree) hwork,
    Activation.restore_standing hstands]

end World

end Interpose
