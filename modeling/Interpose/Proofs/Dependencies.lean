import Interpose.Interception.Policy
import Interpose.Proofs.Joins
import Interpose.Proofs.Walks

set_option autoImplicit false

namespace Interpose

mutual

def Directory.isLinkless : List (String × Entry) → Bool
  | [] => true
  | (_, entry) :: rest => Entry.isLinkless entry && Directory.isLinkless rest

def Entry.isLinkless : Entry → Bool
  | .directory entries => Directory.isLinkless entries
  | .file _ => true
  | .link _ => false

end

def FileTree.Linkless (tree : FileTree) : Prop := Directory.isLinkless tree.root = true

theorem Directory.isLinkless_lookup {dir : Directory} (h : Directory.isLinkless dir = true)
    {name : String} {entry : Entry} (hentry : dir.lookup name = some entry) :
    Entry.isLinkless entry = true := by
  induction dir with
  | nil => cases hentry
  | cons first rest ih =>
    obtain ⟨other, found⟩ := first
    rw [isLinkless, Bool.and_eq_true] at h
    rw [List.lookup_cons] at hentry
    split at hentry
    next =>
      cases hentry
      exact h.1
    next => exact ih h.2 hentry

def Trail.Linkless (root : Directory) (trail : Trail) : Prop :=
  Directory.isLinkless root = true ∧ ∀ step ∈ trail, Directory.isLinkless step.2 = true

namespace Trail.Linkless

variable {root : Directory} {trail : Trail} (h : trail.Linkless root)

include h

theorem here : Directory.isLinkless (trail.here root) = true := by
  cases trail with
  | nil => exact h.1
  | cons step trail => exact h.2 step List.mem_cons_self

theorem tail : Trail.Linkless root trail.tail :=
  ⟨h.1, fun step hstep => h.2 step (List.mem_of_mem_tail hstep)⟩

theorem down {name : String} {inner : Directory}
    (hinner : (trail.here root).lookup name = some (.directory inner)) :
    Trail.Linkless root ((name, inner) :: trail) :=
  ⟨h.1, List.forall_mem_cons.mpr ⟨Directory.isLinkless_lookup h.here hinner, h.2⟩⟩

theorem not_link {name : String} {target : FilePath} :
    (trail.here root).lookup name ≠ some (.link target) :=
  fun hlink => Bool.false_ne_true (Directory.isLinkless_lookup h.here hlink)

theorem descend {location : Location} {below : Trail} (hbelow : Trail.descend root trail location = some below) :
    below.Linkless root := by
  induction location generalizing trail with
  | nil =>
    cases hbelow
    exact h
  | cons name rest ih =>
    unfold Trail.descend at hbelow
    split at hbelow
    next inner hinner => exact ih (h.down hinner) hbelow
    next => cases hbelow

end Trail.Linkless

namespace FileTree

variable {tree : FileTree} {sees : Trail → String → Bool} {links : Nat} {trail : Trail} {place : Place}

theorem Leads.split (htrail : trail.Linkless tree.root) {front back : List String} (hback : back ≠ [])
    (h : tree.Leads sees links trail (front ++ back) place) :
    ∃ middle : Trail, middle.Linkless tree.root ∧
      tree.Leads sees links trail front ⟨middle.location, some (.directory (middle.here tree.root))⟩ ∧
      tree.Leads sees links middle back place := by
  induction front generalizing trail with
  | nil => exact ⟨trail, htrail, .arrived, h⟩
  | cons name front ih =>
    generalize hnames : name :: front ++ back = names at h
    cases h with
    | arrived => cases hnames
    | stays seen empty onward =>
      obtain ⟨rfl, rfl⟩ := List.cons.inj hnames
      obtain ⟨middle, hmiddle, hfront, hrest⟩ := ih htrail onward
      exact ⟨middle, hmiddle, .stays seen empty hfront, hrest⟩
    | up seen onward =>
      obtain ⟨rfl, rfl⟩ := List.cons.inj hnames
      obtain ⟨middle, hmiddle, hfront, hrest⟩ := ih htrail.tail onward
      exact ⟨middle, hmiddle, .up seen hfront, hrest⟩
    | link seen nonempty downward found onward => exact absurd found htrail.not_link
    | down seen nonempty downward found onward =>
      obtain ⟨rfl, rfl⟩ := List.cons.inj hnames
      obtain ⟨middle, hmiddle, hfront, hrest⟩ := ih (htrail.down found) onward
      exact ⟨middle, hmiddle, .down seen nonempty downward found hfront, hrest⟩
    | last seen nonempty downward found ends =>
      obtain ⟨_, hnil⟩ := List.cons.inj hnames
      exact absurd (List.append_eq_nil_iff.mp hnil).2 hback

/-- A walk without `..` ends below where it begins. -/
theorem Leads.downward (htrail : trail.Linkless tree.root) {names : List String}
    (h : tree.Leads sees links trail names place) (hnames : ".." ∉ names) :
    ∃ more, place.location = trail.location ++ more := by
  induction h with
  | arrived => exact ⟨[], (List.append_nil _).symm⟩
  | stays _ _ _ ih => exact ih htrail fun hmem => hnames (List.mem_cons_of_mem _ hmem)
  | up _ _ _ => exact absurd List.mem_cons_self hnames
  | link _ _ _ found _ _ => exact absurd found htrail.not_link
  | @down links trail name rest place inner _ _ _ found _ ih =>
    obtain ⟨more, hmore⟩ := ih (htrail.down found) fun hmem => hnames (List.mem_cons_of_mem _ hmem)
    exact ⟨name :: more, by rw [hmore, Trail.location_cons]; simp⟩
  | @last links trail name entry _ _ _ _ _ => exact ⟨[name], rfl⟩

end FileTree

/-- The search finds the module below the dependency directory of this directory: neither a script
path nor a directory nearer to the requester has it. -/
structure Layout.FindsBelow (layout : Layout) (tree : FileTree) (specifier : String)
    (requester : Option FilePath) (dir path : FilePath) : Prop where
  scripts : ∀ root ∈ layout.scriptPaths, tree.moduleFile (root.joinName specifier) = none
  below : ∃ nearer farther file,
    (layout.baseDir tree requester).ancestors = nearer ++ dir :: farther ∧
    (∀ other ∈ nearer,
      tree.moduleFile ((other.joinName layout.dependencyDir).joinName specifier) = none) ∧
    tree.moduleFile ((dir.joinName layout.dependencyDir).joinName specifier) = some file ∧
    path = tree.canonical file

section Found

variable {tree : FileTree} {layout : Layout} {specifier : String} {requester : Option FilePath}
  {dir entryDir path : FilePath}

theorem Layout.FindsBelow.resolve (h : layout.FindsBelow tree specifier requester dir path)
    (hspecifier : FilePath.IsBare specifier) : layout.resolve tree specifier requester = .ok path := by
  obtain ⟨nearer, farther, file, hancestors, hnearer, hfile, rfl⟩ := h.below
  have hfound : (layout.candidates (layout.baseDir tree requester) specifier).findSome? tree.moduleFile =
      some file := by
    rw [candidates, if_neg (by rw [hspecifier.isAbsolute]; decide),
      if_neg (by rw [hspecifier.isRelativeSpecifier]; decide), hancestors, List.findSome?_append,
      List.map_append, List.findSome?_append, List.map_cons, List.findSome?_cons, hfile]
    rw [List.findSome?_eq_none_iff.mpr, List.findSome?_eq_none_iff.mpr]
    · rfl
    · simpa using hnearer
    · simpa using h.scripts
  simp only [Layout.resolve, hfound]

end Found

end Interpose
