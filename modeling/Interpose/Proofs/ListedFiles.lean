import Mathlib.Data.List.Lex
import Mathlib.Data.List.Sort
import Interpose.Proofs.OneEntry
import Interpose.Proofs.RelativePaths
import Interpose.Proofs.SameFile
import Interpose.Proofs.Snapshot

set_option autoImplicit false

namespace Interpose
open Edit

section Order

namespace Component

variable {a b c : Component}

theorem before_iff : a.before b = true ↔
    a.rank < b.rank ∨ ∃ text text', a = .name text ∧ b = .name text' ∧ text < text' := by
  cases a <;> cases b <;> simp [before, rank]

theorem before_trans (h : a.before b = true) (h' : b.before c = true) : a.before c = true := by
  rw [before_iff] at h h' ⊢
  rcases h with hrank | ⟨text, _, rfl, rfl, htext⟩
  · rcases h' with hrank' | ⟨_, _, rfl, rfl, _⟩
    · exact .inl (hrank.trans hrank')
    · exact .inl hrank
  · rcases h' with hrank' | ⟨_, text'', hname, rfl, htext'⟩
    · exact .inl hrank'
    · cases hname
      exact .inr ⟨text, text'', rfl, rfl, String.lt_trans htext htext'⟩

instance : Std.Asymm fun a b : Component => a.before b = true where
  asymm a b h h' := by
    rw [before_iff] at h h'
    rcases h with hrank | ⟨text, text', rfl, rfl, htext⟩
    · rcases h' with hrank' | ⟨_, _, rfl, rfl, _⟩
      · exact Nat.lt_asymm hrank hrank'
      · exact Nat.lt_irrefl _ hrank
    · rcases h' with hrank' | ⟨_, _, hname, hname', htext'⟩
      · exact Nat.lt_irrefl _ hrank'
      · cases hname
        cases hname'
        exact String.lt_asymm htext htext'

instance : Std.Trichotomous fun a b : Component => a.before b = true where
  trichotomous a b h h' := by
    rw [before_iff, not_or] at h h'
    have hrank : a.rank = b.rank := Nat.le_antisymm (Nat.not_lt.mp h'.1) (Nat.not_lt.mp h.1)
    cases a with
    | name text =>
      cases b with
      | name text' =>
        have hle : text ≤ text' := fun hlt => h'.2 ⟨text', text, rfl, rfl, hlt⟩
        have hle' : text' ≤ text := fun hlt => h.2 ⟨text, text', rfl, rfl, hlt⟩
        exact congrArg name (String.le_antisymm hle hle')
      | _ => cases hrank
    | _ => cases b <;> first | rfl | cases hrank

end Component

namespace KeyedPath

variable {a b c : KeyedPath}

theorem before_iff : a.before b = true ↔
    List.Lex (fun x y : Component => x.before y = true) a.key.components b.key.components :=
  List.lex_eq_true_iff_lex _

theorem before_trans (h : a.before b = true) (h' : b.before c = true) : a.before c = true := by
  rw [before_iff] at h h' ⊢
  exact List.lex_trans Component.before_trans h h'

instance : Std.Asymm fun a b : KeyedPath => a.before b = true where
  asymm a b h h' := by
    rw [before_iff] at h h'
    exact Std.Asymm.asymm _ _ h h'

theorem same_of_components (h : a.key.components = b.key.components) : a.same b = true := by
  rw [a.key_eq, b.key_eq] at h
  rw [same_iff, a.key_eq, b.key_eq]
  exact congrArg (fun components => PathKey.mk components.length components) h

theorem before_of_not (hsame : ¬ a.same b = true) (hbefore : ¬ a.before b = true) :
    b.before a = true := by
  rw [before_iff] at hbefore ⊢
  by_contra hafter
  exact hsame (same_of_components (Std.Trichotomous.trichotomous _ _ hbefore hafter))

end KeyedPath

end Order

namespace PathSet

variable {paths others : List KeyedPath}

theorem pairwise_insert (path : KeyedPath) {set : PathSet}
    (h : set.Pairwise fun a b => a.before b = true) :
    (set.insert path).Pairwise fun a b => a.before b = true := by
  induction set with
  | nil => exact List.pairwise_singleton _ _
  | cons first rest ih =>
    obtain ⟨hfirst, hrest⟩ := List.pairwise_cons.mp h
    unfold insert
    split
    next hsame =>
      have hkey := (KeyedPath.same_iff path first).mp hsame
      refine List.pairwise_cons.mpr ⟨fun other hother => ?_, hrest⟩
      rw [KeyedPath.before, hkey]
      exact hfirst other hother
    next hsame =>
      split
      next hbefore =>
        refine List.pairwise_cons.mpr ⟨fun other hother => ?_, h⟩
        rcases List.mem_cons.mp hother with rfl | hother
        · exact hbefore
        · exact KeyedPath.before_trans hbefore (hfirst other hother)
      next hbefore =>
        refine List.pairwise_cons.mpr ⟨fun other hother => ?_, ih hrest⟩
        rcases mem_insert hother with rfl | hother
        · exact KeyedPath.before_of_not hsame hbefore
        · exact hfirst other hother

theorem pairwise_ofPaths (paths : List KeyedPath) :
    (ofPaths paths).Pairwise fun a b => a.before b = true := by
  induction paths with
  | nil => exact .nil
  | cons path paths ih => exact pairwise_insert path ih

theorem exists_same {key : KeyedPath} (h : key ∈ paths) :
    ∃ kept ∈ ofPaths paths, key.same kept = true := by
  have hcontains : (ofPaths paths).contains key.path = true := by
    rw [contains_ofPaths, key.keyed_path]
    exact List.any_eq_true.mpr ⟨key, h, key.same_self⟩
  rw [contains, key.keyed_path] at hcontains
  exact List.any_eq_true.mp hcontains

theorem ofPaths_congr (hone : ∀ a ∈ paths, ∀ b ∈ paths, a.same b = true → a = b)
    (h : ∀ key, key ∈ paths ↔ key ∈ others) : ofPaths paths = ofPaths others := by
  have hmem : ∀ {paths : List KeyedPath}, (∀ a ∈ paths, ∀ b ∈ paths, a.same b = true → a = b) →
      ∀ {key}, key ∈ paths → key ∈ ofPaths paths := by
    intro paths hone key hkey
    obtain ⟨kept, hkept, hsame⟩ := exists_same hkey
    exact hone key hkey kept (mem_ofPaths hkept) hsame ▸ hkept
  have hone' : ∀ a ∈ others, ∀ b ∈ others, a.same b = true → a = b :=
    fun a ha b hb => hone a ((h a).mpr ha) b ((h b).mpr hb)
  refine List.Subset.antisymm_of_pairwise (pairwise_ofPaths paths) (pairwise_ofPaths others) ?_ ?_
  · exact fun key hkey => hmem hone' ((h key).mp (mem_ofPaths hkey))
  · exact fun key hkey => hmem hone ((h key).mpr (mem_ofPaths hkey))

end PathSet

namespace FilePath

theorem components_plain (path : FilePath) : path.plain.components = path.components := by
  unfold plain
  rcases path.components_cases with hempty | ⟨first, rest, hcomponents, hfirst, hrest⟩
  · rw [hempty]
    decide
  · rw [hcomponents, components_ofComponents hfirst hrest]

theorem plain_of_same {path other : FilePath} (h : path.same other = true) :
    path.plain = other.plain := by
  rw [same, beq_iff_eq] at h
  rw [plain, plain, h]

theorem same_plain (path other : FilePath) : path.plain.same other.plain = path.same other := by
  rw [same, same, components_plain, components_plain]

end FilePath

namespace Policy

variable {tree : FileTree} {listed others : List FilePath}

theorem selects_ofPaths (tree : FileTree) (listed : List FilePath) (layout : Layout)
    (path : FilePath) (requester : Option FilePath) :
    (ofPaths tree listed).selects layout path requester =
      .ok (listed.any fun other => (tree.canonical other).same path) := by
  rw [ofPaths, selects, PathSet.contains_ofPaths, List.any_map]
  congr 2
  funext other
  rw [Function.comp_apply, KeyedPath.same_eq, FilePath.same_comm]
  rw [FilePath.keyed, FilePath.keyed, FilePath.same, FilePath.same, FilePath.components_plain]

/-- A policy depends on the canonical forms of the listed paths only. -/
theorem ofPaths_congr
    (h : ∀ path ∈ listed, ∃ other ∈ others,
      (tree.canonical path).same (tree.canonical other) = true)
    (h' : ∀ other ∈ others, ∃ path ∈ listed,
      (tree.canonical other).same (tree.canonical path) = true) :
    ofPaths tree others = ofPaths tree listed := by
  have hkey : ∀ {path other}, (tree.canonical path).same (tree.canonical other) = true →
      (tree.canonical path).plain.keyed = (tree.canonical other).plain.keyed :=
    fun hsame => congrArg FilePath.keyed (FilePath.plain_of_same hsame)
  refine congrArg explicit (PathSet.ofPaths_congr ?_ fun key => ?_)
  · intro a ha b hb hsame
    obtain ⟨path, _, rfl⟩ := List.mem_map.mp ha
    obtain ⟨other, _, rfl⟩ := List.mem_map.mp hb
    rw [KeyedPath.same_eq] at hsame
    exact hkey ((FilePath.same_plain _ _).symm.trans hsame)
  · rw [List.mem_map, List.mem_map]
    constructor
    · rintro ⟨other, hother, rfl⟩
      obtain ⟨path, hpath, hsame⟩ := h' other hother
      exact ⟨path, hpath, (hkey hsame).symm⟩
    · rintro ⟨path, hpath, rfl⟩
      obtain ⟨other, hother, hsame⟩ := h path hpath
      exact ⟨other, hother, (hkey hsame).symm⟩

section Listed

variable (hdir : ∀ name ∈ tree.workingDir, IsName name)
  (hlisted : ∀ path ∈ listed, tree.isFile path = true)

include hdir hlisted

/-- A file that a load comes to is selected if the load knows it by one path with a listed file. -/
theorem selects_listed {file : FilePath} (hfile : tree.isFile file = true) (layout : Layout)
    (requester : Option FilePath) : ∃ selected,
      (ofPaths tree listed).selects layout (tree.canonical file) requester = .ok selected ∧
        (selected = true ↔ ∃ path ∈ listed, tree.KnownAlike path file) := by
  refine ⟨_, selects_ofPaths tree listed layout _ requester, ?_⟩
  rw [List.any_eq_true]
  constructor
  · rintro ⟨path, hpath, hsame⟩
    exact ⟨path, hpath, (FileTree.same_canonical_iff (hlisted path hpath) hfile hdir).mp hsame⟩
  · rintro ⟨path, hpath, hknown⟩
    exact ⟨path, hpath, (FileTree.same_canonical_iff (hlisted path hpath) hfile hdir).mpr hknown⟩

theorem ofPaths_knownAlike (hothers : ∀ other ∈ others, tree.isFile other = true)
    (h : ∀ path ∈ listed, ∃ other ∈ others, tree.KnownAlike path other)
    (h' : ∀ other ∈ others, ∃ path ∈ listed, tree.KnownAlike other path) :
    ofPaths tree others = ofPaths tree listed := by
  refine ofPaths_congr (fun path hpath => ?_) fun other hother => ?_
  · obtain ⟨other, hother, hknown⟩ := h path hpath
    exact ⟨other, hother,
      (FileTree.same_canonical_iff (hlisted path hpath) (hothers other hother) hdir).mpr hknown⟩
  · obtain ⟨path, hpath, hknown⟩ := h' other hother
    exact ⟨path, hpath,
      (FileTree.same_canonical_iff (hothers other hother) (hlisted path hpath) hdir).mpr hknown⟩

theorem ofPaths_ofSet :
    ofPaths tree ((PathSet.ofPaths (listed.map FilePath.keyed)).map KeyedPath.path) =
      ofPaths tree listed := by
  have hkept : ∀ other ∈ (PathSet.ofPaths (listed.map FilePath.keyed)).map KeyedPath.path,
      other ∈ listed := by
    intro other hother
    obtain ⟨key, hkey, rfl⟩ := List.mem_map.mp hother
    obtain ⟨path, hpath, rfl⟩ := List.mem_map.mp (PathSet.mem_ofPaths hkey)
    exact hpath
  have hfile : ∀ other ∈ (PathSet.ofPaths (listed.map FilePath.keyed)).map KeyedPath.path,
      tree.isFile other = true := fun other hother => hlisted other (hkept other hother)
  refine ofPaths_knownAlike hdir hlisted hfile (fun path hpath => ?_) fun other hother => ?_
  · obtain ⟨key, hkey, hsame⟩ :=
      PathSet.exists_same (List.mem_map_of_mem (f := FilePath.keyed) hpath)
    have hother := List.mem_map_of_mem (f := KeyedPath.path) hkey
    rw [KeyedPath.same_eq] at hsame
    exact ⟨key.path, hother,
      FileTree.knownAlike_of_same (hlisted path hpath) (hfile key.path hother) hsame⟩
  · have hpath := hkept other hother
    exact ⟨other, hpath, FileTree.knownAlike_of_same (hlisted other hpath) (hlisted other hpath)
      (beq_self_eq_true _)⟩

end Listed

end Policy

/-- The policy decides on a load: it can tell whether the path is selected, and a module that the
load compiles is compiled from the transformed text if it is, and from the text in the file
otherwise. -/
structure Interceptor.Decides (interceptor : Interceptor) (tree : FileTree) (call : LoadCall)
    (selected : Bool) : Prop where
  selects : interceptor.policy.selects call.start.loader.layout call.path call.requester =
    .ok selected
  compiles : call.cached = none → ∀ module, (call.run tree).1 = .ok module →
    ∃ content passed, call.Makes tree content passed module ∧
      if selected then interceptor.transformer content = .ok passed.content
      else passed.content = content

namespace World

theorem Performs.decided {w : World} (hw : w.Rooted) {interceptor : Interceptor}
    (hmem : interceptor ∈ w.interceptors) (hintercepts : interceptor.Intercepts w.host)
    {request : Session.LoadRequest} {call : LoadCall}
    (h : w.Performs interceptor.loader request call) {selected : Bool}
    (hselects : interceptor.policy.selects call.start.loader.layout call.path call.requester =
      .ok selected) : interceptor.Decides w.host.tree call selected := by
  have hstage : call.start.loader.slot.current.stage = .intercepting interceptor.id
      interceptor.policy interceptor.transformer ⟨1, none, .native⟩ := by
    rw [h.slot]
    exact hintercepts.stage.trans (hw.stage hmem)
  have htransforms : call.start.loader.slot.current.stage.Transforms := hstage ▸ trivial
  refine ⟨hselects, fun huncached module hrun => ?_⟩
  obtain ⟨content, passed, hmakes⟩ := LoadCall.makes_of_run htransforms huncached hrun
  refine ⟨content, passed, hmakes, ?_⟩
  obtain ⟨depth, s, t, hcompiles, _⟩ := hmakes
  have hpassed := hcompiles.passed
  rw [hstage] at hpassed
  refine Stage.passOn_decided ?_ hpassed
  exact hselects

/-- A policy that lists files depends on nothing but which files they are. While it is in force, a
load of a file, be it requested from outside or by an import, is transformed if and only if one of
the listed paths is of the file. Paths that are in sight are of one file if they lead to the same
place; others, if they have the same components. In a shallow tree, all are in sight. -/
theorem listed_files_selected (tree : FileTree) (hdir : ∀ name ∈ tree.workingDir, IsName name)
    {listed : List FilePath} (hlisted : ∀ path ∈ listed, tree.isFile path = true) :
    (tree.Shallow → ∀ path other, tree.isFile path = true → tree.isFile other = true →
      (tree.KnownAlike path other ↔ tree.placeAt path = tree.placeAt other)) ∧
    (∀ others, (∀ other ∈ others, tree.isFile other = true) →
      (∀ path ∈ listed, ∃ other ∈ others, tree.KnownAlike path other) →
      (∀ other ∈ others, ∃ path ∈ listed, tree.KnownAlike other path) →
        Policy.ofPaths tree others = Policy.ofPaths tree listed) ∧
    Policy.ofPaths tree ((PathSet.ofPaths (listed.map FilePath.keyed)).map KeyedPath.path) =
      Policy.ofPaths tree listed ∧
    ∀ (layouts : List Layout) (events : List Event) (interceptor : Interceptor),
      let w := (start tree layouts).run events
      let layout := (w.loader interceptor.loader).layout
      interceptor ∈ w.interceptors → Policy.ofSpec tree (.paths listed) = .ok interceptor.policy →
      interceptor.Intercepts w.host → ∀ (request : Session.LoadRequest) (call : LoadCall),
        w.Performs interceptor.loader request call →
        (∃ asked : Session.LoadRequest,
          asked.target tree layout = .ok (call.path, call.requester)) ∧
        ∀ asked : Session.LoadRequest, asked.target tree layout = .ok (call.path, call.requester) →
          ∃ file selected, asked.Means tree layout file ∧
            interceptor.Decides tree call selected ∧
            (selected = true ↔ ∃ path ∈ listed, tree.KnownAlike path file) := by
  refine ⟨fun htree path other hpath hother => htree.knownAlike_iff hpath hother,
    fun others => Policy.ofPaths_knownAlike hdir hlisted, Policy.ofPaths_ofSet hdir hlisted, ?_⟩
  intro layouts events interceptor w layout hmem hpolicy hintercepts request call hperforms
  have hr : w.Rooted := rooted_run tree layouts events
  have htree : w.host.tree = tree := tree_run tree layouts events
  have hlayout : call.start.loader.layout = layout := hperforms.layout
  refine ⟨htree ▸ hperforms.asked, fun asked hasked => ?_⟩
  obtain ⟨file, hmeans, hfile, hcanonical⟩ := Session.LoadRequest.means_of_target hasked
  obtain ⟨selected, hselects, hlists⟩ :=
    Policy.selects_listed hdir hlisted hfile layout call.requester
  rw [hcanonical, Except.ok.inj hpolicy, ← hlayout] at hselects
  have hdecides := hperforms.decided hr hmem hintercepts hselects
  rw [htree] at hdecides
  exact ⟨file, selected, hmeans, hdecides, hlists⟩

/-- Two paths of one file, through a link and on the way back from it. -/
def twoSpellings : List FilePath := [⟨"/l//a.svs"⟩, ⟨"l/../lib/./a.svs"⟩]

def listTwice : List Event :=
  [.build 0 (.paths twoSpellings) fun _ => .ok "export x = 2;", .activate 0 .scope]

theorem listed_files_selected_linked :
    let w := (start linkedFiles [.withoutEntryDir]).run listTwice
    (∀ name ∈ linkedFiles.workingDir, IsName name) ∧
    (∀ path ∈ twoSpellings, linkedFiles.isFile path = true) ∧
    ∃ interceptor ∈ w.interceptors,
      Policy.ofSpec linkedFiles (.paths twoSpellings) = .ok interceptor.policy ∧
      interceptor.Intercepts w.host ∧ ∃ call, w.Performs interceptor.loader fromModule call ∧
        interceptor.Decides linkedFiles call true := by
  intro w
  have hdir : ∀ name ∈ linkedFiles.workingDir, IsName name := shallow_linkedFiles.workingDir
  have hlisted : ∀ path ∈ twoSpellings, linkedFiles.isFile path = true := by decide +kernel
  have hfound : (Layout.withoutEntryDir.candidates
      (Layout.withoutEntryDir.baseDir linkedFiles (some ⟨"/l/b.svs"⟩)) "../lib/a").findSome?
        linkedFiles.moduleFile = some ⟨"/l/../lib/a.svs"⟩ := by
    decide +kernel
  have hknown : linkedFiles.KnownAlike ⟨"/l//a.svs"⟩ ⟨"/l/../lib/a.svs"⟩ :=
    (linkedFiles.same_canonical_iff (by decide +kernel) (by decide +kernel) hdir).mp
      (by decide +kernel)
  obtain ⟨interceptor, hmem, hspec, hid, hintercepts, hlayout⟩ : ∃ interceptor ∈ w.interceptors,
      Policy.ofSpec linkedFiles (.paths twoSpellings) = .ok interceptor.policy ∧
        interceptor.loader = 0 ∧ interceptor.Intercepts w.host ∧
          (w.loader 0).layout = .withoutEntryDir :=
    ⟨_, List.mem_cons_self, rfl, rfl, ⟨rfl, rfl⟩, rfl⟩
  have htree : w.host.tree = linkedFiles := tree_run linkedFiles [.withoutEntryDir] listTwice
  have htarget : fromModule.target linkedFiles (w.loader interceptor.loader).layout =
      .ok (⟨"/lib/a.svs"⟩, some ⟨"/l/b.svs"⟩) := by
    rw [hid, hlayout]
    decide +kernel
  obtain ⟨hperforms, _⟩ := performs_own (htree ▸ htarget)
  obtain ⟨_, _, _, hloads⟩ := listed_files_selected linkedFiles hdir hlisted
  obtain ⟨_, hasked⟩ := hloads _ _ interceptor hmem hspec hintercepts _ _ hperforms
  obtain ⟨file, selected, hmeans, hdecides, hlists⟩ := hasked fromModule htarget
  rw [hid, hlayout] at hmeans
  obtain rfl : file = ⟨"/l/../lib/a.svs"⟩ := Option.some.inj (hmeans.symm.trans hfound)
  obtain rfl : selected = true := hlists.mpr ⟨_, List.mem_cons_self, hknown⟩
  exact ⟨hdir, hlisted, interceptor, hmem, hspec, hintercepts, _, hperforms, hdecides⟩

section TwoPaths

open FileTree

/-- Of the two paths of a file that is out of sight the scope lists one. A load by the other one is not
transformed, and a list of the other one makes another policy. -/
theorem listed_file_unselected :
    let w := (start deepFile [.withoutEntryDir]).run (explicitPath ++ [.activate 0 .scope])
    (∀ path ∈ [selectedPath, otherPath], deepFile.isFile path = true) ∧
    deepFile.placeAt selectedPath = deepFile.placeAt otherPath ∧
    Policy.ofPaths deepFile [otherPath] ≠ Policy.ofPaths deepFile [selectedPath] ∧
    ∃ interceptor ∈ w.interceptors,
      Policy.ofSpec deepFile (.paths [selectedPath]) = .ok interceptor.policy ∧
      interceptor.Intercepts w.host ∧
      ∃ call, w.Performs interceptor.loader (.path otherPath) call ∧
        interceptor.Decides deepFile call false := by
  intro w
  have hfiles : ∀ path ∈ [selectedPath, otherPath], deepFile.isFile path = true :=
    fun path hpath => (file_deepFile path hpath).1
  obtain ⟨_, _, _, hplace⟩ := file_deepFile selectedPath List.mem_cons_self
  obtain ⟨hfile, hcanonical, _, hplace'⟩ :=
    file_deepFile otherPath (List.mem_cons_of_mem _ List.mem_cons_self)
  obtain ⟨_, hunselected⟩ := selects_explicitPath none
  refine ⟨hfiles, hplace.trans hplace'.symm, fun hsame => ?_, ?_⟩
  · rw [← hsame, Policy.selects_ofPaths, List.any_cons, hcanonical, FilePath.same,
      beq_self_eq_true] at hunselected
    cases hunselected
  obtain ⟨interceptor, hmem, hpolicy, hid, hintercepts, hlayout⟩ : ∃ interceptor ∈ w.interceptors,
      Policy.ofPaths deepFile [selectedPath] = interceptor.policy ∧ interceptor.loader = 0 ∧
        interceptor.Intercepts w.host ∧ (w.loader 0).layout = .withoutEntryDir :=
    ⟨_, List.mem_cons_self, rfl, rfl, ⟨rfl, rfl⟩, rfl⟩
  have htree : w.host.tree = deepFile := rfl
  rw [← hid] at hlayout
  have htarget : (Session.LoadRequest.path otherPath).target w.host.tree
      (w.loader interceptor.loader).layout = .ok (otherPath, none) := by
    rw [htree, Session.LoadRequest.target, if_pos hfile, hcanonical]
  obtain ⟨hperforms, _⟩ := performs_own htarget
  have hr : w.Rooted := rooted_run deepFile [.withoutEntryDir] _
  rw [hpolicy, ← hlayout] at hunselected
  refine ⟨interceptor, hmem, congrArg Except.ok hpolicy, hintercepts, _, hperforms, ?_⟩
  exact htree ▸ hperforms.decided hr hmem hintercepts hunselected

end TwoPaths

end World

end Interpose
