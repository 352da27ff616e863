import Interpose.Interception.Scope
import Interpose.Proofs.Loading

set_option autoImplicit false

namespace Interpose

namespace Host

variable {host : Host} {id other : LoaderId}

theorem loader_setLoader_self (h : id < host.loaders.length) (loader : Loader) :
    (host.setLoader id loader).loader id = loader := by
  unfold Host.loader Host.setLoader
  rw [List.getD_eq_getElem?_getD, List.getElem?_set_self h]
  rfl

theorem loader_setLoader_of_ne (h : other ≠ id) (loader : Loader) :
    (host.setLoader id loader).loader other = host.loader other := by
  unfold Host.loader Host.setLoader
  rw [List.getD_eq_getElem?_getD, List.getElem?_set_ne h.symm, ← List.getD_eq_getElem?_getD]

theorem length_setLoader (loader : Loader) :
    (host.setLoader id loader).loaders.length = host.loaders.length := List.length_set

theorem lt_of_owner {owner : OwnerId} (h : (host.loader id).slot.current.owner = some owner) :
    id < host.loaders.length := by
  refine Nat.lt_of_not_le fun hid => ?_
  unfold Host.loader at h
  rw [List.getD_eq_getElem?_getD, List.getElem?_eq_none hid] at h
  cases h

theorem setLoader_loader (host : Host) (id : LoaderId) :
    host.setLoader id (host.loader id) = host := by
  by_cases h : id < host.loaders.length
  · simp [setLoader, Host.loader, List.getD_eq_getElem?_getD, h]
  · simp [setLoader, List.set_eq_of_length_le (Nat.not_lt.mp h)]

theorem setLoader_setLoader (host : Host) (id : LoaderId) (first second : Loader) :
    (host.setLoader id first).setLoader id second = host.setLoader id second := by
  simp [setLoader]

theorem loader_setLoader_of {p : Loader → Prop} {loader : Loader} (h : p (host.loader other))
    (hloader : other = id → p loader) : p ((host.setLoader id loader).loader other) := by
  by_cases hid : other = id
  · subst hid
    by_cases hknown : other < host.loaders.length
    · rw [loader_setLoader_self hknown]
      exact hloader rfl
    · rw [show host.setLoader other loader = host by
        simp [setLoader, List.set_eq_of_length_le (Nat.not_lt.mp hknown)]]
      exact h
  · rw [loader_setLoader_of_ne hid]
    exact h

end Host

namespace HostM

variable {host : Host}

theorem bind_apply {α β : Type} (action : HostM α) (next : α → HostM β) (host : Host) :
    (action >>= next) host = next (action host).1 (action host).2 := rfl

theorem onSlot_same {α : Type} {id : LoaderId} {change : Slot → α × Slot} {result : α}
    (h : change (host.loader id).slot = (result, (host.loader id).slot)) :
    onSlot id change host = (result, host) := by
  unfold onSlot
  simp only [h]
  exact Prod.ext rfl (host.setLoader_loader id)

theorem onSlot_of {α : Type} {id : LoaderId} {change : Slot → α × Slot} {result : α} {slot : Slot}
    (h : change (host.loader id).slot = (result, slot)) :
    onSlot id change host = (result, host.setLoader id { host.loader id with slot }) := by
  unfold onSlot
  simp only [h]

end HostM

namespace Interceptor

variable {interceptor : Interceptor} {host : Host}

def installed (interceptor : Interceptor) (loader : Loader) : Loader :=
  { loader with
    slot := ⟨⟨loader.slot.nextId, some interceptor.id, interceptor.stage⟩, loader.slot.nextId + 1⟩ }

def restored (interceptor : Interceptor) (loader : Loader) : Loader :=
  { loader with
    slot := { loader.slot with current := interceptor.underlying }
    cache := loader.cache.retain interceptor.cachedPaths.contains }

theorem isActive_iff : interceptor.isActive host = true ↔
    (host.loader interceptor.loader).slot.current.owner = some interceptor.id := beq_iff_eq

/-- Loads go through the interceptor's stage. -/
structure Intercepts (interceptor : Interceptor) (host : Host) : Prop where
  active : interceptor.isActive host = true
  stage : (host.loader interceptor.loader).slot.current.stage = interceptor.stage

theorem activate_apply (interceptor : Interceptor) (host : Host) :
    interceptor.activate host =
      match HostM.onSlot interceptor.loader (·.claim interceptor.id interceptor.stage) host with
      | (.ok claim, host) => (.ok ⟨interceptor, claim.stage, claim.fresh⟩, host)
      | (.error holder, host) => (.error (.busy holder), host) := by
  unfold activate
  rw [HostM.bind_apply]
  rcases HostM.onSlot interceptor.loader
    (fun slot => slot.claim interceptor.id interceptor.stage) host with ⟨holder | claim, host'⟩ <;> rfl

theorem activate_free (h : (host.loader interceptor.loader).slot.current.owner = none) :
    interceptor.activate host =
      (.ok ⟨interceptor, (host.loader interceptor.loader).slot.nextId, true⟩,
        host.setLoader interceptor.loader
          (interceptor.installed (host.loader interceptor.loader))) := by
  have hclaim : (host.loader interceptor.loader).slot.claim interceptor.id interceptor.stage =
      (.ok ⟨(host.loader interceptor.loader).slot.nextId, true⟩,
        (interceptor.installed (host.loader interceptor.loader)).slot) := by
    simp only [SlotOf.claim, h, installed]
  rw [activate_apply, HostM.onSlot_of hclaim]
  rfl

theorem activate_held
    (h : (host.loader interceptor.loader).slot.current.owner = some interceptor.id) :
    interceptor.activate host =
      (.ok ⟨interceptor, (host.loader interceptor.loader).slot.current.id, false⟩, host) := by
  have hclaim : (host.loader interceptor.loader).slot.claim interceptor.id interceptor.stage =
      (.ok ⟨(host.loader interceptor.loader).slot.current.id, false⟩,
        (host.loader interceptor.loader).slot) := by
    simp only [SlotOf.claim, h, if_true]
  rw [activate_apply, HostM.onSlot_same hclaim]

theorem activate_busy {holder : OwnerId}
    (h : (host.loader interceptor.loader).slot.current.owner = some holder)
    (hholder : holder ≠ interceptor.id) :
    interceptor.activate host = (.error (.busy holder), host) := by
  have hclaim : (host.loader interceptor.loader).slot.claim interceptor.id interceptor.stage =
      (.error holder, (host.loader interceptor.loader).slot) := by
    simp only [SlotOf.claim, h, if_neg hholder]
  rw [activate_apply, HostM.onSlot_same hclaim]

theorem activate_error {error : InterceptError} {host' : Host}
    (h : interceptor.activate host = (.error error, host')) : host' = host := by
  cases howner : (host.loader interceptor.loader).slot.current.owner with
  | none =>
    rw [activate_free howner] at h
    cases congrArg Prod.fst h
  | some holder =>
    by_cases hholder : holder = interceptor.id
    · rw [activate_held (hholder ▸ howner)] at h
      cases congrArg Prod.fst h
    · rw [activate_busy howner hholder] at h
      exact (congrArg Prod.snd h).symm

/-- An activation fills a free slot, or joins in where its interceptor holds the slot. -/
theorem activate_ok {activation : Activation} {host' : Host}
    (h : interceptor.activate host = (.ok activation, host')) :
    ((host.loader interceptor.loader).slot.current.owner = none ∧
      activation = ⟨interceptor, (host.loader interceptor.loader).slot.nextId, true⟩ ∧
      host' = host.setLoader interceptor.loader
        (interceptor.installed (host.loader interceptor.loader))) ∨
    ((host.loader interceptor.loader).slot.current.owner = some interceptor.id ∧
      activation = ⟨interceptor, (host.loader interceptor.loader).slot.current.id, false⟩ ∧
      host' = host) := by
  cases howner : (host.loader interceptor.loader).slot.current.owner with
  | none =>
    rw [activate_free howner] at h
    cases h
    exact .inl ⟨rfl, rfl, rfl⟩
  | some holder =>
    by_cases hholder : holder = interceptor.id
    · subst hholder
      rw [activate_held howner] at h
      cases h
      exact .inr ⟨rfl, rfl, rfl⟩
    · rw [activate_busy howner hholder] at h
      cases congrArg Prod.fst h

/-- While the slot of a loader is held, no activation fills it. -/
theorem activate_elsewhere {activation : Activation} {host' : Host} {id : LoaderId}
    {owner : OwnerId} (h : interceptor.activate host = (.ok activation, host'))
    (hheld : (host.loader id).slot.current.owner = some owner) :
    host'.loader id = host.loader id ∧
      (activation.fresh = true → id ≠ activation.interceptor.loader) := by
  rcases activate_ok h with ⟨hfree, rfl, rfl⟩ | ⟨_, rfl, rfl⟩
  · have hid : id ≠ interceptor.loader := by
      rintro rfl
      rw [hheld] at hfree
      cases hfree
    exact ⟨Host.loader_setLoader_of_ne hid _, fun _ => hid⟩
  · exact ⟨rfl, fun hfresh => by cases hfresh⟩

theorem release_apply (interceptor : Interceptor) (expected : Option StageId) (host : Host) :
    interceptor.release expected host =
      match HostM.onSlot interceptor.loader
        (·.release interceptor.id expected interceptor.underlying) host with
      | (true, host) =>
        (true, (HostM.retain interceptor.loader interceptor.cachedPaths.contains host).2)
      | (false, host) => (false, host) := by
  unfold release
  rw [HostM.bind_apply]
  rcases HostM.onSlot interceptor.loader
    (fun slot => slot.release interceptor.id expected interceptor.underlying) host
      with ⟨_ | _, host'⟩ <;> rfl

theorem release_held {expected : Option StageId}
    (h : (host.loader interceptor.loader).slot.current.owner = some interceptor.id)
    (hexpected : expected.all (· == (host.loader interceptor.loader).slot.current.id) = true) :
    interceptor.release expected host =
      (true, host.setLoader interceptor.loader
        (interceptor.restored (host.loader interceptor.loader))) := by
  have hrelease : (host.loader interceptor.loader).slot.release interceptor.id expected
      interceptor.underlying =
        (true, (interceptor.restored (host.loader interceptor.loader)).slot) := by
    rw [SlotOf.release, if_pos ⟨h, hexpected⟩]
    rfl
  rw [release_apply, HostM.onSlot_of hrelease]
  simp only [HostM.retain, Host.loader_setLoader_self (Host.lt_of_owner h), Host.setLoader_setLoader]
  rfl

theorem release_refused {expected : Option StageId}
    (h : ¬ ((host.loader interceptor.loader).slot.current.owner = some interceptor.id ∧
      expected.all (· == (host.loader interceptor.loader).slot.current.id) = true)) :
    interceptor.release expected host = (false, host) := by
  have hrelease : (host.loader interceptor.loader).slot.release interceptor.id expected
      interceptor.underlying = (false, (host.loader interceptor.loader).slot) := by
    rw [SlotOf.release, if_neg h]
  rw [release_apply, HostM.onSlot_same hrelease]

theorem loader_release_of_ne {expected : Option StageId} {id : LoaderId}
    (h : id ≠ interceptor.loader) :
    (interceptor.release expected host).2.loader id = host.loader id := by
  have hreleased : (HostM.onSlot interceptor.loader
      (·.release interceptor.id expected interceptor.underlying) host).2.loader id =
        host.loader id := Host.loader_setLoader_of_ne h _
  rw [release_apply]
  rcases hrun : HostM.onSlot interceptor.loader
    (fun slot => slot.release interceptor.id expected interceptor.underlying) host
      with ⟨_ | _, host'⟩
  · rw [hrun] at hreleased
    exact hreleased
  · rw [hrun] at hreleased
    exact (Host.loader_setLoader_of_ne h _).trans hreleased

end Interceptor

namespace Activation

variable {activation : Activation} {host : Host}

/-- The activation filled the slot, and its stage is the one that is there. -/
def Stands (activation : Activation) (host : Host) : Prop :=
  activation.fresh = true ∧
    (host.loader activation.interceptor.loader).slot.current.owner =
      some activation.interceptor.id ∧
    (host.loader activation.interceptor.loader).slot.current.id = activation.stage

theorem restore_standing (h : activation.Stands host) :
    activation.restore host =
      (true, host.setLoader activation.interceptor.loader
        (activation.interceptor.restored (host.loader activation.interceptor.loader))) := by
  obtain ⟨hfresh, howner, hid⟩ := h
  unfold restore
  rw [if_pos hfresh]
  exact Interceptor.release_held howner (by simp [hid])

theorem restore_stale (h : ¬ activation.Stands host) :
    activation.restore host = (false, host) := by
  unfold restore
  by_cases hfresh : activation.fresh = true
  · rw [if_pos hfresh]
    refine Interceptor.release_refused fun hheld => h ⟨hfresh, hheld.1, ?_⟩
    simpa using (eq_comm.mp (by simpa using hheld.2))
  · rw [if_neg hfresh]
    rfl

theorem loader_restore {id : LoaderId}
    (h : activation.fresh = true → id ≠ activation.interceptor.loader) :
    (activation.restore host).2.loader id = host.loader id := by
  unfold restore
  by_cases hfresh : activation.fresh = true
  · rw [if_pos hfresh]
    exact Interceptor.loader_release_of_ne (h hfresh)
  · rw [if_neg hfresh]
    rfl

end Activation

section Scopes

variable {σ ε α φ : Type}

theorem HostedM.bind_apply {β : Type} (action : HostedM σ α) (next : α → HostedM σ β) (state : σ)
    (host : Host) : (action >>= next) state host =
      next (action state host).1.1 (action state host).1.2 (action state host).2 := rfl

theorem HostedM.lift_apply (action : HostM α) (state : σ) (host : Host) :
    (liftM action : HostedM σ α) state host = (((action host).1, state), (action host).2) := rfl

theorem ScopedWork.poll_pending {step : φ → HostedM σ (Except ε (Polled α φ))}
    {work : ScopedWork φ} {state state' : σ} {host host' : Host} {inner : φ}
    (h : step work.inner state host = ((.ok (.pending inner), state'), host')) :
    work.poll step state host = ((.ok (none, { work with inner }), state'), host') := by
  unfold ScopedWork.poll
  rw [HostedM.bind_apply, h]
  rfl

theorem ScopedWork.poll_ready {step : φ → HostedM σ (Except ε (Polled α φ))} {inner after : φ}
    {guard : ScopeGuard} {state state' : σ} {host host' : Host} {output : α}
    (h : step inner state host = ((.ok (.ready output after), state'), host')) :
    (ScopedWork.mk inner (some guard)).poll step state host =
      ((.ok (some output, ⟨after, none⟩), state'), (guard.activation.restore host').2) := by
  unfold ScopedWork.poll
  rw [HostedM.bind_apply, h]
  rfl

theorem Interceptor.withScope_refused {interceptor : Interceptor} {work : HostedM σ α}
    {state : σ} {host host' : Host} {error : InterceptError}
    (h : interceptor.activate host = (.error error, host')) :
    interceptor.withScope work state host = ((.error error, state), host') := by
  unfold withScope
  rw [HostedM.bind_apply, HostedM.lift_apply, h]
  rfl

/-- The scope ends with the activation that it began with, whatever its work comes to. -/
theorem Interceptor.withScope_entered {interceptor : Interceptor} {work : HostedM σ α}
    {state state' : σ} {host entered left : Host} {activation : Activation} {result : α}
    (h : interceptor.activate host = (.ok activation, entered))
    (hwork : work state entered = ((result, state'), left)) :
    interceptor.withScope work state host =
      ((.ok result, state'), (activation.restore left).2) := by
  unfold withScope
  rw [HostedM.bind_apply, HostedM.lift_apply, h]
  dsimp only
  rw [HostedM.bind_apply, hwork]
  rfl

end Scopes

end Interpose
