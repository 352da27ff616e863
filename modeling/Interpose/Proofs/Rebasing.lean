import Interpose.Config
import Interpose.Proofs.Joins

set_option autoImplicit false

namespace Interpose

namespace PolicySpec

def mapPaths (f : FilePath → FilePath) : PolicySpec → PolicySpec
  | .code number => .code number
  | .name text => .name text
  | .paths all => .paths (all.map f)

def listed : PolicySpec → List FilePath
  | .code _ | .name _ => []
  | .paths all => all

variable (f g : FilePath → FilePath) (policy : PolicySpec)

theorem mapPaths_mapPaths : (policy.mapPaths f).mapPaths g = policy.mapPaths (g ∘ f) := by
  cases policy with
  | code | name => rfl
  | paths paths => exact congrArg PolicySpec.paths List.map_map

theorem listed_mapPaths : (policy.mapPaths f).listed = policy.listed.map f := by
  cases policy <;> rfl

theorem mapPaths_unlisted (h : ∀ paths, policy ≠ .paths paths) : policy.mapPaths f = policy := by
  cases policy with
  | code | name => rfl
  | paths paths => exact absurd rfl (h paths)

end PolicySpec

namespace Config

/-- The places at which a configuration has paths. -/
inductive Place where
  | entryDir
  | scriptPath (index : ℕ)
  | policyPath (index : ℕ)

def pathAt (config : Config) : Place → Option FilePath
  | .entryDir => config.entryDir
  | .scriptPath index => config.scriptPaths[index]?
  | .policyPath index => config.policy.listed[index]?

def mapPaths (f : FilePath → FilePath) (config : Config) : Config :=
  { config with
    policy := config.policy.mapPaths f
    entryDir := config.entryDir.map f
    scriptPaths := config.scriptPaths.map f }

variable (config : Config)

theorem rebase_eq_mapPaths (base : FilePath) : config.rebase base = config.mapPaths base.join := by
  obtain ⟨policy, _, _, _, _, _⟩ := config
  cases policy <;> rfl

theorem mapPaths_mapPaths (f g : FilePath → FilePath) :
    (config.mapPaths f).mapPaths g = config.mapPaths (g ∘ f) := by
  simp only [mapPaths, PolicySpec.mapPaths_mapPaths, Option.map_map, List.map_map]

theorem pathAt_mapPaths (f : FilePath → FilePath) (place : Place) :
    (config.mapPaths f).pathAt place = (config.pathAt place).map f := by
  cases place with
  | entryDir => rfl
  | scriptPath index => exact List.getElem?_map
  | policyPath index =>
    simp only [pathAt, mapPaths, PolicySpec.listed_mapPaths, List.getElem?_map]

theorem rebase_rebase (base base' : FilePath) :
    (config.rebase base).rebase base' = config.rebase (base'.join base) := by
  have hjoin : base'.join ∘ base.join = (base'.join base).join :=
    funext fun path => base'.join_join base path
  simp only [rebase_eq_mapPaths, mapPaths_mapPaths, hjoin]

theorem pathAt_rebase (base : FilePath) (place : Place) :
    (config.rebase base).pathAt place = (config.pathAt place).map base.join := by
  rw [rebase_eq_mapPaths, pathAt_mapPaths]

/-- Rebasing on one path and then on another is rebasing once, on the first as seen from the second,
so that rebasing again on an absolute path makes no difference. Each path is joined with the base,
an absolute one stays as it is, and so does all that is not a path. -/
theorem rebase_composes (base base' : FilePath) :
    (config.rebase base).rebase base' = config.rebase (base'.join base) ∧
      (base.isAbsolute = true → (config.rebase base).rebase base = config.rebase base) ∧
      (∀ place, (config.rebase base).pathAt place = (config.pathAt place).map base.join) ∧
      (∀ place path, config.pathAt place = some path → path.isAbsolute = true →
        (config.rebase base).pathAt place = some path) ∧
      ((∀ paths, config.policy ≠ .paths paths) → (config.rebase base).policy = config.policy) ∧
      ∃ policy entryDir scriptPaths,
        config.rebase base = { config with policy, entryDir, scriptPaths } := by
  refine ⟨rebase_rebase config base base', fun hbase => ?_, pathAt_rebase config base,
    fun place path hpath habsolute => ?_, fun hpolicy => ?_, _, _, _, rfl⟩
  · rw [rebase_rebase, FilePath.join_absolute _ hbase]
  · rw [pathAt_rebase, hpath, Option.map_some, FilePath.join_absolute _ habsolute]
  · rw [rebase_eq_mapPaths]
    exact config.policy.mapPaths_unlisted base.join hpolicy

def severalPaths : Config :=
  { initial with
    policy := .paths [⟨"a.svs"⟩, ⟨"/b.svs"⟩]
    entryDir := some ⟨""⟩
    scriptPaths := [⟨"lib/"⟩, ⟨"../lib"⟩] }

theorem rebase_composes_severalPaths :
    (severalPaths.rebase ⟨"conf"⟩).rebase ⟨"/srv/"⟩ = severalPaths.rebase ⟨"/srv/conf"⟩ ∧
      severalPaths.rebase ⟨"/srv/conf"⟩ =
        { initial with
          policy := .paths [⟨"/srv/conf/a.svs"⟩, ⟨"/b.svs"⟩]
          entryDir := some ⟨"/srv/conf/"⟩
          scriptPaths := [⟨"/srv/conf/lib/"⟩, ⟨"/srv/conf/../lib"⟩] } ∧
      (severalPaths.rebase ⟨"/srv/conf"⟩).rebase ⟨"/srv/conf"⟩ = severalPaths.rebase ⟨"/srv/conf"⟩ ∧
      (severalPaths.rebase ⟨"conf"⟩).pathAt (.policyPath 1) = some ⟨"/b.svs"⟩ ∧
      (initial.rebase ⟨"conf"⟩).policy = .name "all" := by
  have hjoin : (FilePath.mk "/srv/").join ⟨"conf"⟩ = ⟨"/srv/conf"⟩ := by decide +kernel
  obtain ⟨htwice, _, _, hkept, _⟩ := rebase_composes severalPaths ⟨"conf"⟩ ⟨"/srv/"⟩
  obtain ⟨_, hagain, _⟩ := rebase_composes severalPaths ⟨"/srv/conf"⟩ ⟨""⟩
  obtain ⟨_, _, _, _, hpolicy, _⟩ := rebase_composes initial ⟨"conf"⟩ ⟨""⟩
  exact ⟨htwice.trans (by rw [hjoin]), by decide +kernel, hagain (by decide +kernel),
    hkept (.policyPath 1) ⟨"/b.svs"⟩ rfl (by decide +kernel), hpolicy nofun⟩

end Config

end Interpose
