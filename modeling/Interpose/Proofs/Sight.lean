import Interpose.Proofs.Joins
import Interpose.Proofs.Walks

set_option autoImplicit false

namespace Interpose

/-- The name that a walk takes a step for, if it takes one for the component. -/
def Component.step? : Component → Option String
  | .root | .current => none
  | .parent => some ".."
  | .name text => some text

namespace FileTree

def steps (names : List String) : List String :=
  names.filter fun name => name ≠ "" && name ≠ "."

theorem steps_skipped {name : String} (h : name = "" ∨ name = ".") (rest : List String) :
    steps (name :: rest) = steps rest := by
  rcases h with rfl | rfl <;> rfl

theorem steps_cons {name : String} (h : ¬ (name = "" ∨ name = ".")) (rest : List String) :
    steps (name :: rest) = name :: steps rest := by
  rw [not_or] at h
  exact List.filter_cons_of_pos (by simp [h])

section Spelling

theorem step?_ofSegment (segment : List Char) :
    (Component.ofSegment segment).step? = some (.ofList segment) := by
  unfold Component.ofSegment
  split
  next hparent => exact hparent ▸ rfl
  next => rfl

theorem skipped_iff (segment : List Char) : (segment = [] ∨ segment = ['.']) ↔
    (String.ofList segment = "" ∨ String.ofList segment = ".") :=
  or_congr ⟨fun h => h ▸ rfl, fun h => String.ofList_injective h⟩
    ⟨fun h => h ▸ rfl, fun h => String.ofList_injective h⟩

theorem steps_segments (segments : List (List Char)) (offset : Nat) :
    steps (segments.map String.ofList) =
      ((FilePath.partsOf segments offset).map FilePath.Part.component).filterMap Component.step? := by
  induction segments generalizing offset with
  | nil => rfl
  | cons segment segments ih =>
    rw [List.map_cons, FilePath.partsOf]
    by_cases hskipped : segment = [] ∨ segment = ['.']
    · rw [steps_skipped ((skipped_iff segment).mp hskipped), if_pos hskipped]
      exact ih _
    · rw [steps_cons (hskipped ∘ (skipped_iff segment).mpr), if_neg hskipped, List.map_cons,
        List.filterMap_cons_some (step?_ofSegment segment), ih]

theorem steps_names (path : FilePath) :
    steps (names path) = path.components.filterMap Component.step? := by
  by_cases hpath : path.text.toList = []
  · rw [names, FilePath.components, FilePath.parts, hpath]
    rfl
  obtain ⟨first, others, hsegments⟩ := List.exists_cons_of_ne_nil (segments_ne_nil path.text.toList)
  have hparts := FilePath.parts_ofList hpath hsegments
  rw [String.ofList_toList] at hparts
  rw [names, hsegments, FilePath.components, hparts, List.map_cons, List.map_cons]
  by_cases hskipped : first = [] ∨ first = ['.']
  · have hfirst : (FilePath.firstPart first).component.step? = none := by
      rcases hskipped with rfl | rfl <;> rfl
    rw [steps_skipped ((skipped_iff first).mp hskipped), List.filterMap_cons_none hfirst]
    exact steps_segments _ _
  · obtain ⟨hroot, hcurrent⟩ := not_or.mp hskipped
    have hfirst : (FilePath.firstPart first).component.step? = some (.ofList first) := by
      rw [FilePath.firstPart, if_neg hroot, if_neg hcurrent]
      exact step?_ofSegment first
    rw [steps_cons (hskipped ∘ (skipped_iff first).mpr), List.filterMap_cons_some hfirst]
    exact congrArg _ (steps_segments _ _)

/-- A path that counts as the same as that of a location has the names of the location on it, and
besides only what a walk skips. -/
theorem steps_of_same {path : FilePath} {location : Location}
    (hnames : ∀ name ∈ location, IsName name) (h : path.same (pathOf location) = true) :
    path.isAbsolute = true ∧ ".." ∉ names path ∧ steps (names path) = location := by
  rw [FilePath.same, beq_iff_eq, FilePath.components_pathOf hnames] at h
  have hsteps : steps (names path) = location := by
    rw [steps_names, h, List.filterMap_cons_none rfl, List.filterMap_map]
    exact List.filterMap_some
  refine ⟨FilePath.isAbsolute_of_root h, fun hmem => ?_, hsteps⟩
  have hparent : ".." ∈ steps (names path) := List.mem_filter.mpr ⟨hmem, by decide⟩
  rw [hsteps] at hparent
  exact (hnames _ hparent).notParent rfl

end Spelling

section Walk

variable {tree : FileTree}

theorem pathBytes_descend {root : Directory} {trail below : Trail} {location : Location}
    (h : Trail.descend root trail location = some below) : trail.pathBytes ≤ below.pathBytes := by
  induction location generalizing trail with
  | nil =>
    cases h
    exact Nat.le_refl _
  | cons name rest ih =>
    unfold Trail.descend at h
    split at h
    next inner _ =>
      have hbelow := ih h
      rw [Trail.pathBytes_cons] at hbelow
      omega
    next => cases h

/-- A walk down to a file with a path of at most `maxPathBytes` sees all on its way: the directories
above the file have shorter paths, also with a slash behind them. -/
theorem Leads.sighted {links : Nat} {trail below : Trail} {names dirs : List String} {place : Place}
    {name : String} {content : Content} (h : tree.Leads Trail.anywhere links trail names place)
    (hdownward : ".." ∉ names) (hsteps : steps names = dirs ++ [name])
    (hbelow : Trail.descend tree.root trail dirs = some below)
    (hfound : (below.here tree.root).lookup name = some (.file content))
    (hbounded : below.pathBytes + 1 + name.utf8ByteSize ≤ maxPathBytes) :
    tree.Leads Trail.withinLimit links trail names place := by
  induction h generalizing dirs with
  | arrived => cases dirs <;> cases hsteps
  | @stays links trail skipped rest place _ empty _ ih =>
    rw [steps_skipped empty] at hsteps
    have hroom := pathBytes_descend hbelow
    refine .stays (decide_eq_true ?_) empty
      (ih (fun hdots => hdownward (List.mem_cons_of_mem _ hdots)) hsteps hbelow)
    rcases empty with rfl | rfl
    · have hzero : String.utf8ByteSize "" = 0 := rfl
      rw [if_neg (by decide), hzero]
      omega
    · rw [if_pos (.inl rfl)]
      omega
  | up => exact absurd List.mem_cons_self hdownward
  | link _ nonempty _ found _ _ =>
    rw [steps_cons nonempty] at hsteps
    cases dirs with
    | nil =>
      cases hbelow
      obtain ⟨rfl, _⟩ := List.cons.inj hsteps
      cases found.symm.trans hfound
    | cons dir dirs =>
      obtain ⟨rfl, _⟩ := List.cons.inj hsteps
      rw [Trail.descend, found] at hbelow
      cases hbelow
  | @down links trail step rest place inner _ nonempty downward found _ ih =>
    rw [steps_cons nonempty] at hsteps
    cases dirs with
    | nil =>
      cases hbelow
      obtain ⟨rfl, _⟩ := List.cons.inj hsteps
      cases found.symm.trans hfound
    | cons dir dirs =>
      rw [List.cons_append] at hsteps
      obtain ⟨rfl, hrest⟩ := List.cons.inj hsteps
      rw [Trail.descend, found] at hbelow
      have hroom := pathBytes_descend hbelow
      rw [Trail.pathBytes_cons] at hroom
      refine .down (decide_eq_true ?_) nonempty downward found
        (ih (fun hdots => hdownward (List.mem_cons_of_mem _ hdots)) hrest hbelow)
      rw [if_neg (fun hdots => hdots.elim (fun h => nonempty (.inr h)) downward)]
      change trail.pathBytes + 1 + step.utf8ByteSize ≤ below.pathBytes at hroom
      omega
  | @last links trail step entry _ nonempty downward found ends =>
    rw [steps_cons nonempty] at hsteps
    cases dirs with
    | nil =>
      cases hbelow
      obtain ⟨rfl, _⟩ := List.cons.inj hsteps
      refine .last (decide_eq_true ?_) nonempty downward found ends
      rwa [if_neg (fun hdots => hdots.elim (fun h => nonempty (.inr h)) downward)]
    | cons dir dirs =>
      obtain ⟨_, hsteps⟩ := List.cons.inj hsteps
      cases dirs <;> cases hsteps

end Walk

def IsCanonical (tree : FileTree) (path : FilePath) : Prop :=
  ∃ location content, (∀ name ∈ location, IsName name) ∧
    tree.at? location = some (.file content) ∧ path = pathOf location

end FileTree

theorem Trail.Stands.at? {root : Directory} {trail : Trail} (h : trail.Stands root)
    (rest : Location) :
    Directory.at? root (trail.location ++ rest) = Directory.at? (trail.here root) rest := by
  induction h generalizing rest with
  | root => rfl
  | down above named found ih =>
    rw [location_cons, List.append_assoc, ih, List.singleton_append, Directory.at?, found]
    rfl

namespace FileTree

section FileAt

variable {tree : FileTree} {trail : Trail} {name : String} {content : Content}
  (h : tree.FileAt trail name content)

include h

theorem FileAt.placeAt : tree.placeAt (pathOf (trail.location ++ [name])) =
    some ⟨trail.location ++ [name], some (.file content)⟩ := by
  refine placeAt_pathOf h.stands h.named h.found (decide_eq_true ?_)
  rw [utf8ByteSize_pathOf_concat]
  exact h.bounded

theorem FileAt.isFile : tree.isFile (pathOf (trail.location ++ [name])) = true := by
  rw [FileTree.isFile, entryAt, h.placeAt]
  rfl

theorem FileAt.isCanonical : tree.IsCanonical (pathOf (trail.location ++ [name])) := by
  refine ⟨_, content, h.stands.isName_concat h.named, ?_, rfl⟩
  rw [FileTree.at?, h.stands.at?, Directory.at?, h.found]
  rfl

theorem FileAt.inSight {path : FilePath}
    (hsame : path.same (pathOf (trail.location ++ [name])) = true)
    (hfile : tree.isFile path = true) : tree.InSight path := by
  obtain ⟨habsolute, hdownward, hsteps⟩ := steps_of_same (h.stands.isName_concat h.named) hsame
  obtain ⟨_, location, found, hplace⟩ := isFile_iff.mp hfile
  have hleads := (placeOf_absolute habsolute).mp hplace
  exact ⟨_, (placeOf_absolute habsolute).mpr
    (hleads.sighted hdownward hsteps h.stands.descend h.found h.bounded)⟩

theorem FileAt.canonical :
    tree.canonical (pathOf (trail.location ++ [name])) = pathOf (trail.location ++ [name]) := by
  obtain ⟨place, hplace⟩ := h.inSight (beq_self_eq_true _) h.isFile
  have hfound := h.placeAt
  rw [FileTree.placeAt, Option.ite_none_right_eq_some] at hfound
  cases hfound.2.symm.trans (placeOf_anywhere hplace)
  simp only [FileTree.canonical, hplace]

theorem FileAt.resolve (layout : Layout) (requester : Option FilePath) :
    layout.resolve tree (pathOf (trail.location ++ [name])).text requester =
      .ok (pathOf (trail.location ++ [name])) := by
  rw [Layout.resolve, Layout.candidates, if_pos (isAbsolute_pathOf _), List.findSome?_singleton,
    moduleFile, if_pos h.isFile]
  exact congrArg Except.ok h.canonical

end FileAt

/-- What a file is known by to loads that find it by a path: by the path of its location if that
path is in sight, and by the path as it is written if not. -/
structure Known (tree : FileTree) (written path : FilePath) : Prop where
  isFile : tree.isFile path = true
  place : tree.placeAt path = tree.placeAt written
  sight : tree.InSight path ↔ tree.InSight written
  canonical : tree.InSight written → tree.IsCanonical path
  resolves : tree.InSight written → ∀ (layout : Layout) (requester : Option FilePath),
    layout.resolve tree path.text requester = .ok path
  unseen : ¬ tree.InSight written → path = written

section Loadable

variable {tree : FileTree} (hdir : ∀ name ∈ tree.workingDir, IsName name) {path : FilePath}

theorem canonical_unseen (h : ¬ tree.InSight path) : tree.canonical path = path := by
  rcases tree.canonical_cases path with ⟨location, entry, hplace, _⟩ | hcanonical
  · exact absurd ⟨_, hplace⟩ h
  · exact hcanonical

include hdir

/-- A file is known under the path of its location, or else under one that is out of sight. -/
theorem Loadable.cases (h : tree.Loadable path) :
    (∃ trail name content, tree.FileAt trail name content ∧
      path = pathOf (trail.location ++ [name])) ∨
    tree.isFile path = true ∧ ¬ tree.InSight path := by
  obtain ⟨file, hfile, rfl⟩ := h
  by_cases hsight : tree.InSight file
  · exact .inl (hsight.fileAt hdir hfile)
  · rw [canonical_unseen hsight]
    exact .inr ⟨hfile, hsight⟩

theorem Loadable.fileAt (h : tree.Loadable path) (hsight : tree.InSight path) :
    ∃ trail name content, tree.FileAt trail name content ∧
      path = pathOf (trail.location ++ [name]) :=
  (h.cases hdir).resolve_right fun hunseen => hunseen.2 hsight

theorem known_canonical {written : FilePath} (hfile : tree.isFile written = true) :
    tree.Known written (tree.canonical written) := by
  by_cases hsight : tree.InSight written
  · obtain ⟨trail, name, content, hat, hcanonical, hplace⟩ := hsight.found hdir hfile
    rw [hcanonical]
    have hseen := hat.inSight (beq_self_eq_true _) hat.isFile
    exact ⟨hat.isFile, hat.placeAt.trans hplace.symm, iff_of_true hseen hsight,
      fun _ => hat.isCanonical, fun _ => hat.resolve, fun hunseen => absurd hsight hunseen⟩
  · rw [canonical_unseen hsight]
    exact ⟨hfile, rfl, Iff.rfl, fun hseen => absurd hseen hsight, fun hseen => absurd hseen hsight,
      fun _ => rfl⟩

/-- A path in sight is the only one under which loads know its file, of those that count as the
same. -/
theorem Loadable.eq_of_same {other : FilePath} (h : tree.Loadable path) (hsight : tree.InSight path)
    (hother : tree.Loadable other) (hsame : other.same path = true) : other = path := by
  obtain ⟨trail, name, _, hat, rfl⟩ := h.fileAt hdir hsight
  rcases hother.cases hdir with ⟨trail', name', _, hat', rfl⟩ | ⟨hfile, hunseen⟩
  · exact congrArg pathOf (FilePath.pathOf_inj (hat'.stands.isName_concat hat'.named)
      (hat.stands.isName_concat hat.named) hsame)
  · exact absurd (hat.inSight hsame hfile) hunseen

theorem Loadable.eq_of_placeAt {other : FilePath} (h : tree.Loadable path)
    (hsight : tree.InSight path) (hother : tree.Loadable other) (hsight' : tree.InSight other)
    (hplace : tree.placeAt other = tree.placeAt path) : other = path := by
  obtain ⟨trail, name, _, hat, rfl⟩ := h.fileAt hdir hsight
  obtain ⟨trail', name', _, hat', rfl⟩ := hother.fileAt hdir hsight'
  rw [hat.placeAt, hat'.placeAt] at hplace
  exact congrArg pathOf (congrArg Place.location (Option.some.inj hplace))

end Loadable

end FileTree

end Interpose
