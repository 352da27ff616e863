import Interpose.Proofs.Native
import Interpose.Proofs.Moves
import Mathlib.Data.List.Induction

set_option autoImplicit false

namespace Interpose

theorem Session.LoadRequest.keepsNative_run (request : LoadRequest) (tree : FileTree) :
    (request.run tree).KeepsNative tree := by
  cases request with
  | path file => exact Load.keeps_byPath (Load.keepsNative_atPath tree) file
  | specifier text requester =>
    exact Load.keeps_bySpecifier (Load.keepsNative_atPath tree) text requester

/-- The modules of the loader whose paths pass the test are native. -/
def Loader.NativeAt (tree : FileTree) (loader : Loader) (keep : FilePath → Bool) : Prop :=
  ∀ entry ∈ loader.cache, keep entry.1.path = true → Native tree loader.layout entry.2

theorem Loader.NativeAt.retain {tree : FileTree} {loader : Loader} {keep : FilePath → Bool}
    (h : loader.NativeAt tree keep) (test : FilePath → Bool) :
    Loader.NativeAt tree { loader with cache := loader.cache.retain test } keep :=
  fun entry he hkeep => h entry (Cache.mem_retain.mp he).1 hkeep

theorem Loader.NativeAt.restored {tree : FileTree} {loader : Loader} {interceptor : Interceptor}
    (h : loader.NativeAt tree interceptor.cachedPaths.contains) (keep : FilePath → Bool) :
    (interceptor.restored loader).NativeAt tree keep := by
  intro entry he _
  obtain ⟨hmem, hkept⟩ := Cache.mem_retain.mp he
  exact h entry hmem hkept

/-- Where no interceptor is at work, all modules are native. -/
def Host.NativeWhenFree (host : Host) : Prop :=
  ∀ id, (host.loader id).slot.current.owner = none →
    (host.loader id).NativeAt host.tree fun _ => true

structure Host.Clean (host : Host) (interceptors : List Interceptor) : Prop where
  keyed : ∀ id, (host.loader id).cache.Keyed
  free : host.NativeWhenFree
  held : ∀ interceptor ∈ interceptors, interceptor.isActive host = true →
    (host.loader interceptor.loader).NativeAt host.tree interceptor.cachedPaths.contains

namespace World

/-- While an interceptor is at work, a module that is not native is added under a path that the
interceptor will keep. -/
def Spoiled (w w' : World) : Prop :=
  ∃ interceptor ∈ w.interceptors, interceptor.isActive w.host = true ∧
    ∃ entry ∈ (w'.loader interceptor.loader).cache,
      entry ∉ (w.loader interceptor.loader).cache ∧
        interceptor.cachedPaths.contains entry.1.path = true ∧
          ¬ Native w.host.tree (w.loader interceptor.loader).layout entry.2

section Clean

variable {w : World}

theorem clean_restore (hw : w.host.Clean w.interceptors) (hr : w.Rooted) {interceptor : Interceptor}
    (hmem : interceptor ∈ w.interceptors) (hheld : interceptor.isActive w.host = true) :
    (w.restore interceptor).Clean w.interceptors := by
  have hself := loader_restore (hr.known interceptor hmem)
  have hnative := hw.held interceptor hmem hheld
  refine ⟨?_, ?_, ?_⟩
  · intro id
    refine Host.loader_setLoader_of (p := fun loader => loader.cache.Keyed) (hw.keyed id) ?_
    intro _ entry he
    exact hw.keyed interceptor.loader entry (Cache.mem_retain.mp he).1
  · intro id howner
    by_cases hid : id = interceptor.loader
    · subst hid
      rw [hself]
      exact hnative.restored _
    · rw [loader_restore_of_ne hid] at howner ⊢
      exact hw.free id howner
  · intro other hother hactive
    by_cases hid : other.loader = interceptor.loader
    · rw [hid, hself]
      exact hnative.restored _
    · rw [Interceptor.isActive_iff, loader_restore_of_ne hid] at hactive
      rw [loader_restore_of_ne hid]
      exact hw.held other hother (Interceptor.isActive_iff.mpr hactive)

theorem clean_install (hw : w.host.Clean w.interceptors) (hr : w.Rooted) {interceptor : Interceptor}
    (hmem : interceptor ∈ w.interceptors)
    (hfree : (w.loader interceptor.loader).slot.current.owner = none) :
    (w.install interceptor).Clean w.interceptors := by
  have hself := loader_install (hr.known interceptor hmem)
  refine ⟨?_, ?_, ?_⟩
  · intro id
    refine Host.loader_setLoader_of (p := fun loader => loader.cache.Keyed) (hw.keyed id) ?_
    intro _
    exact hw.keyed interceptor.loader
  · intro id howner
    by_cases hid : id = interceptor.loader
    · subst hid
      rw [hself] at howner
      cases howner
    · rw [loader_install_of_ne hid] at howner ⊢
      exact hw.free id howner
  · intro other hother hactive
    by_cases hid : other.loader = interceptor.loader
    · rw [hid, hself]
      intro entry he _
      exact hw.free interceptor.loader hfree entry he rfl
    · rw [Interceptor.isActive_iff, loader_install_of_ne hid] at hactive
      rw [loader_install_of_ne hid]
      exact hw.held other hother (Interceptor.isActive_iff.mpr hactive)

theorem clean_retain (hw : w.host.Clean w.interceptors) (loader : LoaderId)
    (test : FilePath → Bool) : (HostM.retain loader test w.host).2.Clean w.interceptors := by
  have hslot : ∀ id, ((HostM.retain loader test w.host).2.loader id).slot = (w.loader id).slot :=
    fun id => HostM.slot_retain loader id test
  have hnative : ∀ {id keep}, (w.loader id).NativeAt w.host.tree keep →
      ((HostM.retain loader test w.host).2.loader id).NativeAt w.host.tree keep := by
    intro id keep h
    refine Host.loader_setLoader_of (p := fun loader => loader.NativeAt w.host.tree keep) h ?_
    rintro rfl
    exact h.retain test
  refine ⟨?_, ?_, ?_⟩
  · intro id
    refine Host.loader_setLoader_of (p := fun loader => loader.cache.Keyed) (hw.keyed id) ?_
    intro _ entry he
    exact hw.keyed loader entry (Cache.mem_retain.mp he).1
  · intro id howner
    rw [hslot] at howner
    exact hnative (hw.free id howner)
  · intro interceptor hmem hactive
    rw [Interceptor.isActive_iff, hslot] at hactive
    exact hnative (hw.held interceptor hmem (Interceptor.isActive_iff.mpr hactive))

theorem clean_load (hw : w.host.Clean w.interceptors) (hr : w.Rooted) (loader : LoaderId)
    (request : Session.LoadRequest)
    (hspoiled : ¬ w.Spoiled { w with host := (HostM.load loader request.run w.host).2 }) :
    (HostM.load loader request.run w.host).2.Clean w.interceptors := by
  have hextends : ∀ id, ((HostM.load loader request.run w.host).2.loader id).Extends (w.loader id) :=
    HostM.extends_load (request.adds_run w.host.tree) loader
  refine ⟨fun id => (hextends id).cache.keyed (hw.keyed id), ?_, ?_⟩
  · intro id howner
    rw [(hextends id).slot] at howner
    -- a free slot has the native stage, which adds native modules only
    have hstage : (w.loader id).slot.current.stage = .native := by
      rw [hr.free id howner]
      rfl
    refine Host.loader_setLoader_of
      (p := fun loader => loader.NativeAt w.host.tree fun _ => true) (hw.free id howner) ?_
    rintro rfl entry he _
    have hbefore : (w.loader id).IsNative w.host.tree :=
      ⟨hstage, hw.keyed id, fun entry he => hw.free id howner entry he rfl⟩
    exact (request.keepsNative_run w.host.tree ⟨_, w.host.calls⟩ hbefore).native entry he
  · intro interceptor hmem hactive entry he hkept
    rw [Interceptor.isActive_iff, (hextends _).slot] at hactive
    have hactive := Interceptor.isActive_iff.mpr hactive
    rw [(hextends _).layout]
    by_contra hforeign
    by_cases hold : entry ∈ (w.loader interceptor.loader).cache
    · exact hforeign (hw.held interceptor hmem hactive entry hold hkept)
    · exact hspoiled ⟨interceptor, hmem, hactive, entry, he, hold, hkept, hforeign⟩

theorem clean_move (hw : w.host.Clean w.interceptors) (hr : w.Rooted) {w' : World} (h : Move w w')
    (hspoiled : ¬ w.Spoiled w') : w'.host.Clean w'.interceptors := by
  cases h with
  | load loader request => exact clean_load hw hr loader request hspoiled
  | retain loader keep => exact clean_retain hw loader keep
  | built interceptor known counted underlying free cached =>
    refine ⟨hw.keyed, hw.free, ?_⟩
    intro other hother hactive
    rcases List.mem_append.mp hother with hother | hother
    · exact hw.held other hother hactive
    · rw [List.mem_singleton] at hother
      subst hother
      have howner := Interceptor.isActive_iff.mp hactive
      change (w.loader other.loader).slot.current.owner = _ at howner
      rw [← underlying, free] at howner
      cases howner
  | filled interceptor holder mem free => exact clean_install hw hr mem free
  | deactivated interceptor mem held => exact clean_restore hw hr mem held
  | finished n activation issued stands =>
    have hmem := hr.issuer activation (List.mem_of_getElem? issued)
    exact clean_restore hw hr hmem (Interceptor.isActive_iff.mpr stands.2.1)
  | _ => exact hw

theorem Move.cache_sublist {w' : World} (h : Move w w') :
    (∃ loader, ∃ request : Session.LoadRequest,
      w' = { w with host := (HostM.load loader request.run w.host).2 }) ∨
      ∀ id, (w'.loader id).cache.Sublist (w.loader id).cache := by
  have kept : ∀ {id : LoaderId} {loader : Loader},
      loader.cache.Sublist (w.loader id).cache →
        ∀ other, ((w.host.setLoader id loader).loader other).cache.Sublist
          (w.loader other).cache := by
    intro id loader hsublist other
    exact Host.loader_setLoader_of (p := fun loader => loader.cache.Sublist (w.loader other).cache)
      (List.Sublist.refl _) fun hid => hid ▸ hsublist
  cases h with
  | load loader request => exact .inl ⟨loader, request, rfl⟩
  | retain loader keep => exact .inr (kept List.filter_sublist)
  | filled interceptor holder mem free => exact .inr (kept (List.Sublist.refl _))
  | deactivated interceptor mem held => exact .inr (kept List.filter_sublist)
  | finished n activation issued stands => exact .inr (kept List.filter_sublist)
  | _ => exact .inr fun id => List.Sublist.refl _

theorem Spoiled.left {w' : World} (h : w.Spoiled w') (hr : w.Rooted) (hmove : Move w w') :
    ∃ i, ¬ (w'.step (.deactivate i)).host.NativeWhenFree := by
  obtain ⟨interceptor, hmem, hactive, entry, he, hnew, hkept, hforeign⟩ := h
  have hr' := hr.move hmove
  -- only a load adds to a cache, and its interceptor is at work still when it is done
  rcases hmove.cache_sublist with ⟨loader, request, rfl⟩ | hsublist
  · have hextends : ((HostM.load loader request.run w.host).2.loader interceptor.loader).Extends
        (w.loader interceptor.loader) := HostM.extends_load (request.adds_run w.host.tree) loader _
    obtain ⟨i, hi⟩ := List.getElem?_of_mem hmem
    have hactive' : interceptor.isActive (HostM.load loader request.run w.host).2 = true := by
      rw [Interceptor.isActive_iff, hextends.slot]
      exact Interceptor.isActive_iff.mp hactive
    refine ⟨i, fun hnative => hforeign ?_⟩
    simp only [step, hi, Option.elim] at hnative
    have hheld := host_deactivate_held
      (w := { w with host := (HostM.load loader request.run w.host).2 }) hactive'
    rw [hheld] at hnative
    have hself := loader_restore (hr'.known interceptor hmem)
    have howner : interceptor.underlying.owner = none := by
      rw [hr.underlying interceptor hmem]
      rfl
    have hentry := hnative interceptor.loader (hself ▸ howner) entry
    rw [hself] at hentry
    exact hextends.layout ▸ hentry (Cache.mem_retain.mpr ⟨he, hkept⟩) rfl
  · exact absurd ((hsublist _).subset he) hnew

theorem clean_deactivate (hw : w.host.Clean w.interceptors) (hr : w.Rooted) (i : Nat) :
    (w.step (.deactivate i)).host.Clean w.interceptors := by
  simp only [step]
  cases hi : w.interceptors[i]? with
  | none => exact hw
  | some interceptor =>
    have hmem := List.mem_of_getElem? hi
    by_cases hactive : interceptor.isActive w.host = true
    · exact host_deactivate_held hactive ▸ clean_restore hw hr hmem hactive
    · exact host_deactivate_idle hactive ▸ hw

end Clean

theorem cache_start (tree : FileTree) (layouts : List Layout) (id : LoaderId) :
    ((start tree layouts).host.loader id).cache = [] := by
  obtain ⟨layout, hlayout⟩ := loader_start tree layouts id
  exact congrArg Loader.cache hlayout

theorem clean_start (tree : FileTree) (layouts : List Layout) :
    (start tree layouts).host.Clean (start tree layouts).interceptors := by
  refine ⟨?_, ?_, by simp [start]⟩
  · intro id
    rw [cache_start]
    exact fun entry he => absurd he List.not_mem_nil
  · intro id _ entry he
    rw [cache_start] at he
    exact absurd he List.not_mem_nil

/-- Throughout a run and after ending any interception then, modules are native where no interceptor
is at work, just in case no step of the run spoils what its interceptor will keep. -/
theorem native_when_free_iff (tree : FileTree) (layouts : List Layout) {events : List Event}
    (h : ∀ event ∈ events, event.isRaw = false) :
    (∀ before, before <+: events → ((start tree layouts).run before).host.NativeWhenFree ∧
      ∀ i, (((start tree layouts).run before).step (.deactivate i)).host.NativeWhenFree) ↔
    ∀ before event, before ++ [event] <+: events →
      ¬ ((start tree layouts).run before).Spoiled
        (((start tree layouts).run before).step event) := by
  constructor
  · intro hnative before event hwithin hspoiled
    have hr := rooted_run tree layouts before
    have hraw := h event (hwithin.subset (by simp))
    obtain ⟨i, hi⟩ := hspoiled.left hr (step_move _ hraw)
    rw [← run_concat] at hi
    exact hi ((hnative _ hwithin).2 i)
  · intro hunspoiled before hwithin
    have hr := rooted_run tree layouts before
    have hclean : ((start tree layouts).run before).host.Clean
        ((start tree layouts).run before).interceptors := by
      clear hr
      induction before using List.reverseRecOn with
      | nil => exact clean_start tree layouts
      | append_singleton before event ih =>
        have hr := rooted_run tree layouts before
        have hraw := h event (hwithin.subset (by simp))
        rw [run_concat]
        exact clean_move (ih ((List.prefix_append before [event]).trans hwithin)) hr
          (step_move _ hraw) (hunspoiled before event hwithin)
    exact ⟨hclean.free, fun i => (clean_deactivate hclean hr i).free⟩

def oneFile : FileTree := ⟨[("a.svs", .file (.text "export x = 1;"))], []⟩

/-- The file is cached when the second interceptor is built. The first one drops it, and the second
one loads it anew in a scope. -/
def reloaded : List Event :=
  [.build 0 (.code 3) .ok, .load 0 (.path ⟨"/a.svs"⟩),
    .build 0 (.code 3) fun _ => .ok "export x = 2;",
    .activate 0 .scope, .finish 0 .leaveScope,
    .activate 1 .scope, .load 0 (.path ⟨"/a.svs"⟩), .finish 1 .leaveScope]

theorem native_when_free_iff_reloaded : (∀ event ∈ reloaded, event.isRaw = false) ∧
    ((∀ before, before <+: reloaded →
      ((start oneFile [.withoutEntryDir]).run before).host.NativeWhenFree ∧
        ∀ i, (((start oneFile [.withoutEntryDir]).run before).step
          (.deactivate i)).host.NativeWhenFree) ↔
    ∀ before event, before ++ [event] <+: reloaded →
      ¬ ((start oneFile [.withoutEntryDir]).run before).Spoiled
        (((start oneFile [.withoutEntryDir]).run before).step event)) :=
  ⟨by decide, native_when_free_iff _ _ (by decide)⟩

/-- The file as the second interceptor has rewritten it stays in the cache. -/
theorem rewritten_module_left :
    ¬ ((start oneFile [.withoutEntryDir]).run reloaded).host.NativeWhenFree := by
  intro hnative
  have hfree : (((start oneFile [.withoutEntryDir]).run reloaded).host.loader
      0).slot.current.owner = none := by decide +kernel
  have hcache : (⟨"/a.svs"⟩, fingerprint "export x = 2;") ∈
      (((start oneFile [.withoutEntryDir]).run reloaded).host.loader 0).cache.map
        fun entry => (entry.2.id, entry.2.fingerprint) := by decide +kernel
  obtain ⟨entry, he, hentry⟩ := List.mem_map.mp hcache
  obtain ⟨hid, hfingerprint⟩ := Prod.mk.inj hentry
  obtain ⟨content, hread, hcontent⟩ := (hnative 0 hfree entry he rfl).fingerprint_eq
  have htext : ((start oneFile [.withoutEntryDir]).run reloaded).host.tree.read ⟨"/a.svs"⟩ =
      some (.text "export x = 1;") := by decide +kernel
  rw [hid] at hread
  cases htext.symm.trans hread
  rw [hfingerprint] at hcontent
  exact absurd hcontent (by decide +kernel)

end World

end Interpose
