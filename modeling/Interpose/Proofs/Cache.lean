import Interpose.Loader.Cache

set_option autoImplicit false

namespace Interpose

namespace KeyedPath

theorem same_iff (a b : KeyedPath) : a.same b = true ↔ a.key = b.key := beq_iff_eq

theorem same_self (a : KeyedPath) : a.same a = true := (same_iff a a).mpr rfl

theorem same_comm (a b : KeyedPath) : a.same b = b.same a := by
  rw [Bool.eq_iff_iff, same_iff, same_iff]
  exact eq_comm

theorem keyed_path (a : KeyedPath) : a.path.keyed = a := by
  obtain ⟨path, key, key_eq⟩ := a
  subst key_eq
  rfl

end KeyedPath

theorem PathSet.contains_iff (set : PathSet) (path : FilePath) :
    set.contains path = true ↔ ∃ key ∈ set, path.keyed.same key = true := List.any_eq_true

namespace Cache

theorem get?_append (earlier added : Cache) (path : KeyedPath) :
    get? (earlier ++ added) path = (get? earlier path).or (get? added path) := by
  simp only [get?, List.find?_append]
  cases List.find? (fun entry => entry.1.same path) earlier <;> rfl

theorem get?_eq_none_iff (cache : Cache) (path : KeyedPath) :
    cache.get? path = none ↔ ∀ entry ∈ cache, entry.1.same path = false := by
  simp [get?, List.find?_eq_none]

theorem get?_same (cache : Cache) {path other : KeyedPath} (h : path.same other = true) :
    cache.get? path = cache.get? other := by
  have hkey := (KeyedPath.same_iff path other).mp h
  simp only [get?, KeyedPath.same, hkey]

theorem mem_of_get? {cache : Cache} {path : KeyedPath} {module : Module}
    (h : cache.get? path = some module) :
    ∃ key, (key, module) ∈ cache ∧ key.same path = true := by
  obtain ⟨⟨key, found⟩, hfind, rfl⟩ := Option.map_eq_some_iff.mp h
  have hsame := List.find?_some hfind
  exact ⟨key, List.mem_of_find?_eq_some hfind, hsame⟩

/-- All entries keep the path that their module was compiled under. -/
def Keyed (cache : Cache) : Prop := ∀ entry ∈ cache, entry.2.id = entry.1.path

/-- What loads make of a cache: entries are added, under paths that were not cached and that are the
paths of their modules. -/
def Extends (later earlier : Cache) : Prop :=
  ∃ added : Cache, later = earlier ++ added ∧ added.Keyed ∧
    ∀ entry ∈ added, earlier.get? entry.1 = none

theorem Extends.refl (cache : Cache) : cache.Extends cache :=
  ⟨[], (List.append_nil cache).symm, by simp [Keyed], by simp⟩

theorem Extends.trans {first second third : Cache} (h : third.Extends second)
    (h' : second.Extends first) : third.Extends first := by
  obtain ⟨added, rfl, hkeyed, hnew⟩ := h
  obtain ⟨added', rfl, hkeyed', hnew'⟩ := h'
  refine ⟨added' ++ added, List.append_assoc .., ?_, ?_⟩
  · intro entry he
    rcases List.mem_append.mp he with he | he
    · exact hkeyed' entry he
    · exact hkeyed entry he
  · intro entry he
    rcases List.mem_append.mp he with he | he
    · exact hnew' entry he
    · have hboth := hnew entry he
      rw [get?_append, Option.or_eq_none_iff] at hboth
      exact hboth.1

theorem Extends.get? {later earlier : Cache} (h : later.Extends earlier) {path : KeyedPath}
    {module : Module} (hfound : earlier.get? path = some module) :
    later.get? path = some module := by
  obtain ⟨added, rfl, _⟩ := h
  rw [get?_append, hfound]
  rfl

theorem Extends.keyed {later earlier : Cache} (h : later.Extends earlier) (hk : earlier.Keyed) :
    later.Keyed := by
  obtain ⟨added, rfl, hadded, _⟩ := h
  intro entry he
  rcases List.mem_append.mp he with he | he
  · exact hk entry he
  · exact hadded entry he

theorem getOrInsert_extends (cache : Cache) (path : KeyedPath) (module : Module)
    (hid : module.id = path.path) : (cache.getOrInsert path module).2.Extends cache := by
  unfold getOrInsert
  cases hfound : cache.get? path with
  | some kept => exact .refl cache
  | none =>
    refine ⟨[(path, module)], rfl, ?_, ?_⟩
    · intro entry he
      rw [List.mem_singleton] at he
      rw [he]
      exact hid
    · intro entry he
      rw [List.mem_singleton] at he
      rw [he]
      exact hfound

theorem mem_getOrInsert {cache : Cache} {path : KeyedPath} {module : Module}
    {entry : KeyedPath × Module} (h : entry ∈ (cache.getOrInsert path module).2) :
    entry ∈ cache ∨ entry = (path, module) := by
  unfold getOrInsert at h
  cases hfound : cache.get? path with
  | some kept =>
    rw [hfound] at h
    exact .inl h
  | none =>
    rw [hfound] at h
    exact (List.mem_append.mp h).imp_right List.mem_singleton.mp

theorem get?_getOrInsert (cache : Cache) (path : KeyedPath) (module : Module) :
    (cache.getOrInsert path module).2.get? path = some (cache.getOrInsert path module).1 := by
  unfold getOrInsert
  cases hfound : cache.get? path with
  | some kept => exact hfound
  | none =>
    rw [get?_append, hfound]
    simp [get?, KeyedPath.same_self]

theorem mem_retain {cache : Cache} {keep : FilePath → Bool} {entry : KeyedPath × Module} :
    entry ∈ cache.retain keep ↔ entry ∈ cache ∧ keep entry.1.path = true := List.mem_filter

theorem Extends.retain_contains {later earlier : Cache} (h : later.Extends earlier) (set : PathSet)
    (hset : ∀ key ∈ set, (earlier.get? key).isSome) :
    later.retain set.contains = earlier.retain set.contains := by
  obtain ⟨added, rfl, _, hnew⟩ := h
  have hdropped : List.filter (fun entry => set.contains entry.1.path) added = [] := by
    rw [List.filter_eq_nil_iff]
    intro entry he hkept
    -- the entry would be under a path of the set, where there was one before
    obtain ⟨key, hkey, hsame⟩ := (set.contains_iff _).mp hkept
    obtain ⟨module, hmodule⟩ := Option.isSome_iff_exists.mp (hset key hkey)
    obtain ⟨other, hother, hothersame⟩ := mem_of_get? hmodule
    have hnone := (get?_eq_none_iff earlier entry.1).mp (hnew entry he) _ hother
    rw [entry.1.keyed_path, KeyedPath.same_iff] at hsame
    rw [KeyedPath.same_iff] at hothersame
    rw [(KeyedPath.same_iff _ _).mpr (hothersame.trans hsame.symm)] at hnone
    cases hnone
  simp only [retain, List.filter_append, hdropped, List.append_nil]

end Cache

end Interpose
