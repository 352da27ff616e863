import Interpose.Proofs.Restoration

set_option autoImplicit false

namespace Interpose

namespace PathSet

theorem mem_insert {path key : KeyedPath} {set : PathSet} (h : key ∈ set.insert path) :
    key = path ∨ key ∈ set := by
  induction set with
  | nil => exact .inl (List.mem_singleton.mp h)
  | cons first rest ih =>
    unfold insert at h
    split at h
    · exact (List.mem_cons.mp h).imp_right (List.mem_cons_of_mem first)
    · split at h
      · exact List.mem_cons.mp h
      · rcases List.mem_cons.mp h with rfl | h
        · exact .inr List.mem_cons_self
        · exact (ih h).imp_right (List.mem_cons_of_mem first)

theorem mem_ofPaths {key : KeyedPath} {paths : List KeyedPath} (h : key ∈ ofPaths paths) :
    key ∈ paths := by
  induction paths with
  | nil => exact h
  | cons first rest ih =>
    rcases mem_insert h with rfl | h
    · exact List.mem_cons_self
    · exact List.mem_cons_of_mem first (ih h)

theorem contains_insert (path : KeyedPath) (set : PathSet) (other : FilePath) :
    (set.insert path).contains other = (other.keyed.same path || set.contains other) := by
  induction set with
  | nil => rfl
  | cons first rest ih =>
    unfold insert
    split
    next hsame =>
      -- the new path takes the place of one that it is the same as
      have hfirst : other.keyed.same first = other.keyed.same path := by
        rw [Bool.eq_iff_iff, KeyedPath.same_iff, KeyedPath.same_iff,
          (KeyedPath.same_iff path first).mp hsame]
      simp only [contains, List.any_cons, hfirst, Bool.or_self_left]
    next =>
      split
      · rfl
      · simp only [contains, List.any_cons] at ih ⊢
        rw [ih, Bool.or_left_comm]

theorem contains_ofPaths (paths : List KeyedPath) (path : FilePath) :
    (ofPaths paths).contains path = paths.any path.keyed.same := by
  induction paths with
  | nil => rfl
  | cons first rest ih => exact (contains_insert ..).trans (congrArg _ ih)

end PathSet

namespace Cache

theorem isSome_get?_iff (cache : Cache) (path : KeyedPath) :
    (cache.get? path).isSome = true ↔ ∃ entry ∈ cache, entry.1.same path = true := by
  rw [← not_iff_not, Bool.not_eq_true, Option.isSome_eq_false_iff, Option.isNone_iff_eq_none,
    get?_eq_none_iff]
  simp

theorem contains_keys (cache : Cache) (path : FilePath) :
    cache.keys.contains path = (cache.get? path.keyed).isSome := by
  rw [Bool.eq_iff_iff, isSome_get?_iff, keys, PathSet.contains_ofPaths, List.any_map,
    List.any_eq_true]
  simp only [Function.comp, KeyedPath.same_comm path.keyed]

theorem isSome_of_mem_keys {cache : Cache} {key : KeyedPath} (h : key ∈ cache.keys) :
    (cache.get? key).isSome = true := by
  obtain ⟨entry, he, rfl⟩ := List.mem_map.mp (PathSet.mem_ofPaths h)
  exact (isSome_get?_iff cache entry.1).mpr ⟨entry, he, entry.1.same_self⟩

theorem retain_keys (cache : Cache) : cache.retain cache.keys.contains = cache := by
  refine List.filter_eq_self.mpr fun entry he => ?_
  rw [contains_keys, entry.1.keyed_path]
  exact (isSome_get?_iff cache entry.1).mpr ⟨entry, he, entry.1.same_self⟩

theorem Extends.retain_keys {later earlier : Cache} (h : later.Extends earlier) :
    later.retain earlier.keys.contains = earlier :=
  (h.retain_contains earlier.keys fun _ => isSome_of_mem_keys).trans earlier.retain_keys

end Cache

/-- Loads a module, or builds an interceptor, which changes no loader. -/
def Event.loadsOnly : Event → Bool
  | .load .. | .build .. => true
  | _ => false

namespace World

/-- No slot is held, and of each interceptor's loader the cache has only grown since the interceptor
was built. -/
structure Unscoped (w : World) : Prop where
  free : ∀ id, (w.loader id).slot.current.owner = none
  grown : ∀ interceptor ∈ w.interceptors, ∃ cache : Cache,
    interceptor.cachedPaths = cache.keys ∧ (w.loader interceptor.loader).cache.Extends cache

theorem unscoped_start (tree : FileTree) (layouts : List Layout) :
    (start tree layouts).Unscoped := by
  refine ⟨fun id => ?_, by simp [start]⟩
  obtain ⟨layout, hlayout⟩ := loader_start tree layouts id
  rw [hlayout]
  rfl

theorem Unscoped.load {w : World} (hw : w.Unscoped) (loader : LoaderId)
    (request : Session.LoadRequest) : (w.step (.load loader request)).Unscoped := by
  refine ⟨fun id => ?_, fun interceptor hmem => ?_⟩
  · exact (congrArg (·.current.owner) (slot_load w.host loader id request)).trans (hw.free id)
  · obtain ⟨cache, hkeys, hgrown⟩ := hw.grown interceptor hmem
    have hextends := HostM.extends_load (request.adds_run w.host.tree) loader interceptor.loader
    exact ⟨cache, hkeys, hextends.cache.trans hgrown⟩

theorem Unscoped.build {w : World} (hw : w.Unscoped) (loader : LoaderId) (policy : PolicySpec)
    (transformer : Edit.Transformer) : (w.step (.build loader policy transformer)).Unscoped := by
  simp only [step]
  split
  · unfold World.build Interceptor.build
    cases Policy.ofSpec w.host.tree policy with
    | error error => exact hw
    | ok policy =>
      simp only [Interceptor.new, hw.free loader]
      refine ⟨hw.free, fun interceptor hmem => ?_⟩
      rcases List.mem_append.mp hmem with hmem | hmem
      · exact hw.grown interceptor hmem
      · rw [List.mem_singleton.mp hmem]
        exact ⟨_, rfl, .refl _⟩
  · exact hw

theorem unscoped_run (tree : FileTree) (layouts : List Layout) {events : List Event}
    (h : ∀ event ∈ events, event.loadsOnly = true) : ((start tree layouts).run events).Unscoped := by
  refine run_induction (unscoped_start tree layouts) fun {w event} he hw => ?_
  cases event with
  | load loader request => exact hw.load loader request
  | build loader policy transformer => exact hw.build loader policy transformer
  | _ => exact absurd (h _ he) (by simp [Event.loadsOnly])

/-- After loads only, a scope leaves the paths that were cached when its interceptor was built. These
are those of the paths cached just before the scope that were cached already then. -/
theorem keys_after_scope (tree : FileTree) (layouts : List Layout) {events : List Event}
    (h : ∀ event ∈ events, event.loadsOnly = true) {interceptor : Interceptor}
    (hmem : interceptor ∈ ((start tree layouts).run events).interceptors) (work : ScopeWork) :
    ∃ result hosts after,
      interceptor.withScope work.run [] ((start tree layouts).run events).host =
        ((.ok result, hosts), after) ∧
      (after.loader interceptor.loader).cache.keys = interceptor.cachedPaths ∧
      ∀ path, (after.loader interceptor.loader).cache.keys.contains path =
        ((((start tree layouts).run events).loader interceptor.loader).cache.keys.contains path &&
          interceptor.cachedPaths.contains path) := by
  have hr := rooted_run tree layouts events
  have hw := unscoped_run tree layouts h
  generalize (start tree layouts).run events = w at *
  have hknown := hr.known interceptor hmem
  have hself := loader_install hknown
  have hactive : interceptor.isActive (w.install interceptor) = true := by
    rw [Interceptor.isActive_iff, hself]
    rfl
  obtain ⟨cache, hkeys, hgrown⟩ := hw.grown interceptor hmem
  have hstays : interceptor.Stays [] (w.install interceptor)
      (work.run [] (w.install interceptor)).1.2 (work.run [] (w.install interceptor)).2 :=
    work.stays_run hactive
  rcases hrun : work.run [] (w.install interceptor) with ⟨⟨result, hosts⟩, left⟩
  rw [hrun] at hstays
  have hscope := withScope_free hr hmem (hw.free _) hrun hstays.loader.slot
  have hleft : interceptor.loader < left.loaders.length := by
    refine Host.lt_of_owner (show _ = some interceptor.id from ?_)
    rw [hstays.loader.slot, hself]
    rfl
  have hcache : (left.loader interceptor.loader).cache.Extends cache := by
    have hadded := hstays.loader.cache
    rw [hself] at hadded
    exact hadded.trans hgrown
  have hafter : ((left.setLoader interceptor.loader
      (interceptor.restored (left.loader interceptor.loader))).loader
        interceptor.loader).cache = cache := by
    rw [Host.loader_setLoader_self hleft, Interceptor.restored, hkeys]
    exact hcache.retain_keys
  refine ⟨result, hosts, _, hscope, by rw [hafter, hkeys], fun path => ?_⟩
  rw [hafter, hkeys, Bool.eq_iff_iff, Bool.and_eq_true]
  refine ⟨fun hpath => ⟨?_, hpath⟩, And.right⟩
  rw [Cache.contains_keys, Option.isSome_iff_exists] at hpath ⊢
  obtain ⟨module, hmodule⟩ := hpath
  exact ⟨module, hgrown.get? hmodule⟩

def twoFiles : FileTree :=
  ⟨[("a.svs", .file (.text "export x = 1;")), ("b.svs", .file (.text "export y = 2;"))], []⟩

def loadedSince : List Event :=
  [.load 0 (.path ⟨"/b.svs"⟩), .build 0 (.code 3) .ok, .load 0 (.path ⟨"/a.svs"⟩)]

def loadAgain : ScopeWork := .load 0 (.path ⟨"/a.svs"⟩) fun _ => .done

theorem keys_after_scope_loadedSince :
    let w := (start twoFiles [.withoutEntryDir]).run loadedSince
    (∀ event ∈ loadedSince, event.loadsOnly = true) ∧
      ∃ interceptor ∈ w.interceptors, ∃ result hosts after,
        interceptor.withScope loadAgain.run [] w.host = ((.ok result, hosts), after) ∧
        (after.loader interceptor.loader).cache.keys = interceptor.cachedPaths ∧
        ∀ path, (after.loader interceptor.loader).cache.keys.contains path =
          ((w.loader interceptor.loader).cache.keys.contains path &&
            interceptor.cachedPaths.contains path) := by
  intro w
  have hloads : ∀ event ∈ loadedSince, event.loadsOnly = true := by decide
  have hbuilt : w.interceptors.map Interceptor.loader = [0] := by decide +kernel
  obtain ⟨interceptor, hmem, _⟩ := List.mem_map.mp (hbuilt ▸ List.mem_singleton_self 0)
  exact ⟨hloads, interceptor, hmem, keys_after_scope _ _ hloads hmem loadAgain⟩

theorem key_lost_by_scope :
    let w := (start twoFiles [.withoutEntryDir]).run loadedSince
    ∃ interceptor ∈ w.interceptors,
      (w.loader interceptor.loader).cache.keys.contains ⟨"/a.svs"⟩ = true ∧
      ((interceptor.withScope loadAgain.run [] w.host).2.loader
        interceptor.loader).cache.keys.contains ⟨"/a.svs"⟩ = false := by
  decide +kernel

end World

end Interpose
