import Interpose.Proofs.Requests
import Interpose.Proofs.Spelling

/-!
Where walks through a tree of files get to, as a relation with one rule for each kind of step. From
it come the location of what a path leads to, the spelling of canonical paths, and that in a shallow
tree all paths under which a file can be loaded are spelled alike.
-/

set_option autoImplicit false

namespace Interpose

namespace Trail

theorem location_cons (step : String × Directory) (trail : Trail) :
    location (step :: trail) = location trail ++ [step.1] := by
  simp only [location, List.map_cons, List.reverse_cons]

/-- A trail of the tree, from the root down to a directory in it. -/
inductive Stands (root : Directory) : Trail → Prop where
  | root : Stands root []
  | down {trail : Trail} {name : String} {inner : Directory} (above : Stands root trail)
      (named : IsName name) (found : (here root trail).lookup name = some (.directory inner)) :
      Stands root ((name, inner) :: trail)

variable {root : Directory}

theorem Stands.tail {trail : Trail} (h : Stands root trail) : Stands root trail.tail := by
  cases h with
  | root => exact .root
  | down above _ _ => exact above

theorem Stands.isName {trail : Trail} (h : Stands root trail) :
    ∀ name ∈ location trail, IsName name := by
  induction h with
  | root => simp [location]
  | @down trail name inner above named found ih =>
    intro other hother
    rw [location_cons, List.mem_append, List.mem_singleton] at hother
    rcases hother with hother | rfl
    · exact ih other hother
    · exact named

theorem Stands.isName_concat {trail : Trail} (h : Stands root trail) {name : String}
    (hname : IsName name) : ∀ other ∈ location trail ++ [name], IsName other := by
  intro other hother
  rcases List.mem_append.mp hother with hother | hother
  · exact h.isName other hother
  · exact List.mem_singleton.mp hother ▸ hname

theorem stands_descend {trail below : Trail} {location : Location} (h : Stands root trail)
    (hnames : ∀ name ∈ location, IsName name) (hbelow : descend root trail location = some below) :
    Stands root below := by
  induction location generalizing trail with
  | nil =>
    cases hbelow
    exact h
  | cons name rest ih =>
    unfold descend at hbelow
    split at hbelow
    next inner hinner =>
      exact ih (.down h (hnames name List.mem_cons_self) hinner)
        (fun other hother => hnames other (List.mem_cons_of_mem name hother)) hbelow
    next => cases hbelow

theorem Stands.descend {trail : Trail} (h : Stands root trail) :
    Trail.descend root [] trail.location = some trail := by
  have happend : ∀ (location rest : Location) (start : Trail),
      Trail.descend root start (location ++ rest) =
        (Trail.descend root start location).bind (Trail.descend root · rest) := by
    intro location rest
    induction location with
    | nil => intro start; rfl
    | cons name location ih =>
      intro start
      rw [List.cons_append, Trail.descend, Trail.descend]
      split
      · exact ih _
      · rfl
  induction h with
  | root => rfl
  | down above named found ih =>
    rw [location_cons, happend, ih, Option.bind_some, Trail.descend, found]
    rfl

theorem pathBytes_cons (step : String × Directory) (trail : Trail) :
    pathBytes (step :: trail) = pathBytes trail + 1 + step.1.utf8ByteSize := by
  have hsum : ∀ (steps : Trail) (start : Nat),
      steps.foldl (fun bytes step => bytes + (step.1.utf8ByteSize + 1)) start =
        start + steps.foldl (fun bytes step => bytes + (step.1.utf8ByteSize + 1)) 0 := by
    intro steps
    induction steps with
    | nil => intro start; rfl
    | cons first rest ih =>
      intro start
      rw [List.foldl_cons, ih, List.foldl_cons, ih (0 + _)]
      omega
  rw [pathBytes, List.foldl_cons, hsum, pathBytes]
  omega

theorem pathBytes_eq (trail : Trail) :
    trail.pathBytes = (trail.location.map fun name => name.utf8ByteSize + 1).sum := by
  induction trail with
  | nil => rfl
  | cons step trail ih =>
    rw [pathBytes_cons, ih, location_cons, List.map_append, List.sum_append, Nat.add_assoc,
      Nat.add_comm 1]
    rfl

end Trail

theorem FileTree.utf8ByteSize_pathOf_concat (trail : Trail) (name : String) :
    (pathOf (trail.location ++ [name])).text.utf8ByteSize =
      trail.pathBytes + 1 + name.utf8ByteSize := by
  rw [utf8ByteSize_pathOf (by simp), List.map_append, List.sum_append, ← Trail.pathBytes_eq]
  simp only [List.map_cons, List.map_nil, List.sum_cons, List.sum_nil]
  omega

namespace FileTree

/-- How a walk gets to a place, with so many links at most on the way. -/
inductive Leads (tree : FileTree) (sees : Trail → String → Bool) :
    Nat → Trail → List String → Place → Prop where
  | arrived {links : Nat} {trail : Trail} :
      Leads tree sees links trail []
        ⟨trail.location, some (.directory (trail.here tree.root))⟩
  | stays {links : Nat} {trail : Trail} {name : String} {rest : List String} {place : Place}
      (seen : sees trail name = true) (empty : name = "" ∨ name = ".")
      (onward : Leads tree sees links trail rest place) :
      Leads tree sees links trail (name :: rest) place
  | up {links : Nat} {trail : Trail} {rest : List String} {place : Place}
      (seen : sees trail ".." = true) (onward : Leads tree sees links trail.tail rest place) :
      Leads tree sees links trail (".." :: rest) place
  | link {links : Nat} {trail : Trail} {name : String} {rest : List String} {place : Place}
      {target : FilePath} (seen : sees trail name = true) (nonempty : ¬ (name = "" ∨ name = "."))
      (downward : name ≠ "..") (found : (trail.here tree.root).lookup name = some (.link target))
      (onward : Leads tree sees links (if target.isAbsolute then [] else trail)
        (names target ++ rest) place) :
      Leads tree sees (links + 1) trail (name :: rest) place
  | down {links : Nat} {trail : Trail} {name : String} {rest : List String} {place : Place}
      {inner : Directory} (seen : sees trail name = true) (nonempty : ¬ (name = "" ∨ name = "."))
      (downward : name ≠ "..")
      (found : (trail.here tree.root).lookup name = some (.directory inner))
      (onward : Leads tree sees links ((name, inner) :: trail) rest place) :
      Leads tree sees links trail (name :: rest) place
  | last {links : Nat} {trail : Trail} {name : String} {entry : Option Entry}
      (seen : sees trail name = true) (nonempty : ¬ (name = "" ∨ name = "."))
      (downward : name ≠ "..") (found : (trail.here tree.root).lookup name = entry)
      (ends : ∀ e, entry = some e → ∃ content, e = .file content) :
      Leads tree sees links trail [name] ⟨trail.location ++ [name], entry⟩

section Walk

variable {tree : FileTree} {sees : Trail → String → Bool} {links : Nat} {trail : Trail}
  {place : Place}

theorem walk_nil : tree.walk sees links trail [] =
    some ⟨trail.location, some (.directory (trail.here tree.root))⟩ := by
  cases links <;> rfl

theorem walk_cons (name : String) (rest : List String) :
    tree.walk sees links trail (name :: rest) =
      if !sees trail name then none
      else if name = "" ∨ name = "." then tree.walk sees links trail rest
      else if name = ".." then tree.walk sees links trail.tail rest
      else
        match (trail.here tree.root).lookup name with
        | some (.link target) =>
          match links with
          | 0 => none
          | below + 1 =>
            tree.walk sees below (if target.isAbsolute then [] else trail) (names target ++ rest)
        | some (.directory inner) => tree.walk sees links ((name, inner) :: trail) rest
        | found => if rest = [] then some ⟨trail.location ++ [name], found⟩ else none := by
  cases links <;> rfl

theorem leads_of_walk {names : List String}
    (h : tree.walk sees links trail names = some place) :
    tree.Leads sees links trail names place := by
  induction links using Nat.strongRecOn generalizing trail names with
  | _ links ihLinks =>
  induction names generalizing trail with
  | nil =>
    rw [walk_nil] at h
    cases h
    exact .arrived
  | cons name rest ih =>
    rw [walk_cons] at h
    split at h
    · cases h
    next hsees =>
    have hseen : sees trail name = true := by simpa using hsees
    split at h
    next hempty => exact .stays hseen hempty (ih h)
    next hnonempty =>
    split at h
    next hup =>
      subst hup
      exact .up hseen (ih h)
    next hdownward =>
    split at h
    next target hfound =>
      cases links with
      | zero => cases h
      | succ below => exact .link hseen hnonempty hdownward hfound (ihLinks below (by omega) h)
    next inner hfound => exact .down hseen hnonempty hdownward hfound (ih h)
    next found hlink hdirectory =>
      split at h
      next hrest =>
        subst hrest
        cases h
        refine .last hseen hnonempty hdownward rfl fun entry hentry => ?_
        cases entry with
        | file content => exact ⟨content, rfl⟩
        | link target => exact absurd hentry (hlink target)
        | directory inner => exact absurd hentry (hdirectory inner)
      next => cases h

theorem Leads.walk {names : List String} (h : tree.Leads sees links trail names place) :
    tree.walk sees links trail names = some place := by
  induction h with
  | arrived => exact walk_nil
  | stays seen empty onward ih => simp only [walk_cons, seen, empty, ih, Bool.not_true, if_true,
      Bool.false_eq_true, if_false]
  | up seen onward ih =>
    rw [walk_cons, seen, if_neg (by decide), if_neg (by decide), if_pos rfl, ih]
  | link seen nonempty downward found onward ih =>
    rw [walk_cons, seen, if_neg (by decide), if_neg nonempty, if_neg downward, found]
    exact ih
  | down seen nonempty downward found onward ih =>
    rw [walk_cons, seen, if_neg (by decide), if_neg nonempty, if_neg downward, found]
    exact ih
  | @last links trail name entry seen nonempty downward found ends =>
    rw [walk_cons, seen, if_neg (by decide), if_neg nonempty, if_neg downward, found]
    cases entry with
    | none => rfl
    | some entry =>
      obtain ⟨content, rfl⟩ := ends entry rfl
      rfl

theorem Leads.anywhere {names : List String} (h : tree.Leads sees links trail names place) :
    tree.Leads Trail.anywhere links trail names place := by
  induction h with
  | arrived => exact .arrived
  | stays _ empty _ ih => exact .stays rfl empty ih
  | up _ _ ih => exact .up rfl ih
  | link _ nonempty downward found _ ih => exact .link rfl nonempty downward found ih
  | down _ nonempty downward found _ ih => exact .down rfl nonempty downward found ih
  | last _ nonempty downward found ends => exact .last rfl nonempty downward found ends

/-- A walk that looks at paths of limited length only finds no file with a longer one. -/
theorem Leads.bounded {names : List String}
    (h : tree.Leads Trail.withinLimit links trail names place) {content : Content}
    (hfile : place.entry = some (.file content)) :
    (pathOf place.location).text.utf8ByteSize ≤ maxPathBytes := by
  induction h with
  | arrived => cases hfile
  | stays _ _ _ ih => exact ih hfile
  | up _ _ ih => exact ih hfile
  | link _ _ _ _ _ ih => exact ih hfile
  | down _ _ _ _ _ ih => exact ih hfile
  | @last links trail name entry seen nonempty downward found ends =>
    rw [utf8ByteSize_pathOf_concat]
    have hroom := of_decide_eq_true seen
    rwa [if_neg (fun hdots => hdots.elim (fun h => nonempty (.inr h)) downward)] at hroom

theorem stands_followed (htrail : trail.Stands tree.root) (target : FilePath) :
    Trail.Stands tree.root (if target.isAbsolute then [] else trail) := by
  split
  · exact .root
  · exact htrail

/-- The names that a walk goes on with that follows a link. -/
theorem whole_followed {target : FilePath} {rest : List String}
    (hrest : ∀ name ∈ rest, '/' ∉ name.toList) :
    ∀ name ∈ names target ++ rest, '/' ∉ name.toList := by
  intro name hname
  rcases List.mem_append.mp hname with hname | hname
  · exact whole_of_mem_names hname
  · exact hrest name hname

theorem Leads.stands {names : List String} (h : tree.Leads sees links trail names place)
    (htrail : trail.Stands tree.root) (hnames : ∀ name ∈ names, '/' ∉ name.toList) :
    (∃ final : Trail, final.Stands tree.root ∧
      place = ⟨final.location, some (.directory (final.here tree.root))⟩) ∨
    ∃ (final : Trail) (name : String), final.Stands tree.root ∧ IsName name ∧
      (∀ e, place.entry = some e → ∃ content, e = .file content) ∧
      place = ⟨final.location ++ [name], (final.here tree.root).lookup name⟩ := by
  induction h with
  | arrived => exact .inl ⟨_, htrail, rfl⟩
  | stays _ _ _ ih => exact ih htrail fun name hname => hnames name (List.mem_cons_of_mem _ hname)
  | up _ _ ih => exact ih htrail.tail fun name hname => hnames name (List.mem_cons_of_mem _ hname)
  | link _ _ _ _ _ ih =>
    refine ih (stands_followed htrail _) (whole_followed fun name hname => ?_)
    exact hnames name (List.mem_cons_of_mem _ hname)
  | down _ nonempty downward found _ ih =>
    have hwhole := hnames _ List.mem_cons_self
    refine ih (.down htrail ?_ found) fun name hname => hnames name (List.mem_cons_of_mem _ hname)
    exact ⟨fun h => nonempty (.inl h), fun h => nonempty (.inr h), downward, hwhole⟩
  | last _ nonempty downward found ends =>
    refine .inr ⟨_, _, htrail, ?_, ends, by rw [found]⟩
    exact ⟨fun h => nonempty (.inl h), fun h => nonempty (.inr h), downward,
      hnames _ List.mem_cons_self⟩

theorem Leads.along {rest : List String} {location : Location}
    (h : ∀ name ∈ location, IsName name) {trail below : Trail}
    (hbelow : Trail.descend tree.root trail location = some below)
    (onward : tree.Leads Trail.anywhere links below rest place) :
    tree.Leads Trail.anywhere links trail (location ++ rest) place := by
  induction location generalizing trail with
  | nil =>
    cases hbelow
    exact onward
  | cons name location ih =>
    have hname := h name List.mem_cons_self
    unfold Trail.descend at hbelow
    split at hbelow
    next inner hinner =>
      exact .down rfl (fun hempty => hempty.elim hname.nonempty hname.notCurrent) hname.notParent
        hinner (ih (fun other hother => h other (List.mem_cons_of_mem name hother)) hbelow)
    next => cases hbelow

theorem Leads.stayed {rest empty : List String}
    (h : ∀ name ∈ empty, name = "" ∨ name = ".")
    (onward : tree.Leads Trail.anywhere links trail rest place) :
    tree.Leads Trail.anywhere links trail (empty ++ rest) place := by
  induction empty with
  | nil => exact onward
  | cons name empty ih =>
    exact .stays rfl (h name List.mem_cons_self)
      (ih fun other hother => h other (List.mem_cons_of_mem name hother))

end Walk

section Place

variable {tree : FileTree} {sees : Trail → String → Bool} {path : FilePath} {place : Place}

theorem placeOf_iff : tree.placeOf sees path = some place ↔
    path.text ≠ "" ∧ ∃ trail, Trail.descend tree.root [] (tree.origin path) = some trail ∧
      tree.Leads sees maxLinks trail (names path) place := by
  simp only [placeOf, placeFrom, Option.ite_none_left_eq_some, Option.bind_eq_bind,
    Option.bind_eq_some_iff]
  refine and_congr_right fun _ => exists_congr fun trail => and_congr_right fun _ => ?_
  exact ⟨leads_of_walk, Leads.walk⟩

theorem placeOf_absolute (h : path.isAbsolute = true) :
    tree.placeOf sees path = some place ↔ tree.Leads sees maxLinks [] (names path) place := by
  have hnonempty : path.text ≠ "" := by
    intro hempty
    rw [FilePath.isAbsolute, hempty] at h
    exact absurd h (by decide)
  simp only [placeOf_iff, origin, if_pos h, Trail.descend, Option.some.injEq, exists_eq_left',
    and_iff_right hnonempty]

theorem placeOf_anywhere (h : tree.placeOf sees path = some place) :
    tree.placeOf Trail.anywhere path = some place := by
  obtain ⟨hnonempty, trail, htrail, hleads⟩ := placeOf_iff.mp h
  exact placeOf_iff.mpr ⟨hnonempty, trail, htrail, hleads.anywhere⟩

theorem isFile_iff : tree.isFile path = true ↔ fits path = true ∧ ∃ location content,
    tree.placeOf Trail.anywhere path = some ⟨location, some (.file content)⟩ := by
  unfold isFile entryAt placeAt
  by_cases hfits : fits path = true
  · rw [if_pos hfits]
    rcases tree.placeOf Trail.anywhere path with _ | ⟨location, _ | content | _ | _⟩ <;>
      simp [hfits]
  · simp [hfits]

theorem canonical_cases (tree : FileTree) (path : FilePath) :
    (∃ location entry, tree.placeOf Trail.withinLimit path = some ⟨location, some entry⟩ ∧
      tree.canonical path = pathOf location) ∨ tree.canonical path = path := by
  unfold canonical
  split
  next location entry hplace => exact .inl ⟨location, entry, hplace, rfl⟩
  next => exact .inr rfl

/-- Files are known under paths of limited length only. -/
theorem Loadable.bounded (h : tree.Loadable path) :
    path.text.utf8ByteSize ≤ maxPathBytes := by
  obtain ⟨file, hfile, rfl⟩ := h
  obtain ⟨hfits, location, content, hplace⟩ := isFile_iff.mp hfile
  rcases tree.canonical_cases file with ⟨found, entry, hfound, hcanonical⟩ | hcanonical
  all_goals rw [hcanonical]
  · obtain ⟨_, trail, _, hleads⟩ := placeOf_iff.mp hfound
    cases hplace.symm.trans (placeOf_anywhere hfound)
    exact hleads.bounded rfl
  · exact of_decide_eq_true hfits

theorem placeAt_pathOf {trail : Trail} (htrail : trail.Stands tree.root) {name : String}
    (hname : IsName name) {content : Content}
    (hfile : (trail.here tree.root).lookup name = some (.file content))
    (hfits : fits (pathOf (trail.location ++ [name])) = true) :
    tree.placeAt (pathOf (trail.location ++ [name])) =
      some ⟨trail.location ++ [name], some (.file content)⟩ := by
  rw [placeAt, if_pos hfits, placeOf_absolute (isAbsolute_pathOf _),
    names_pathOf (by simp) (htrail.isName_concat hname)]
  refine .stays rfl (.inl rfl) (Leads.along htrail.isName htrail.descend ?_)
  refine .last rfl (fun hempty => hempty.elim hname.nonempty hname.notCurrent) hname.notParent hfile
    fun entry hentry => ⟨content, (Option.some.inj hentry).symm⟩

theorem canonical_deep {location : Location} {content : Content}
    (hplace : tree.placeOf Trail.anywhere path = some ⟨location, some (.file content)⟩)
    (hdeep : maxPathBytes < (pathOf location).text.utf8ByteSize) :
    tree.canonical path = path := by
  rcases tree.canonical_cases path with ⟨found, entry, hfound, _⟩ | hcanonical
  · obtain ⟨_, trail, _, hleads⟩ := placeOf_iff.mp hfound
    cases hplace.symm.trans (placeOf_anywhere hfound)
    exact absurd (hleads.bounded rfl) (Nat.not_le.mpr hdeep)
  · exact hcanonical

end Place

section Sight

variable {tree : FileTree} {path : FilePath}

/-- Canonicalising gets to where the path leads: on its way no step to an entry takes more than
`maxPathBytes` for the path of the entry, and no step that stays in a directory or leaves it takes more
for the path of the directory with a slash behind it. -/
def InSight (tree : FileTree) (path : FilePath) : Prop :=
  ∃ place, tree.placeOf Trail.withinLimit path = some place

structure FileAt (tree : FileTree) (trail : Trail) (name : String) (content : Content) : Prop where
  stands : trail.Stands tree.root
  named : IsName name
  found : (trail.here tree.root).lookup name = some (.file content)
  bounded : trail.pathBytes + 1 + name.utf8ByteSize ≤ maxPathBytes

theorem stands_origin (hdir : ∀ name ∈ tree.workingDir, IsName name) {trail : Trail}
    (h : Trail.descend tree.root [] (tree.origin path) = some trail) : trail.Stands tree.root := by
  refine Trail.stands_descend .root (fun name hname => ?_) h
  unfold origin at hname
  split at hname
  · cases hname
  · exact hdir name hname

theorem InSight.found (hdir : ∀ name ∈ tree.workingDir, IsName name) (h : tree.InSight path)
    (hfile : tree.isFile path = true) : ∃ trail name content,
      tree.FileAt trail name content ∧ tree.canonical path = pathOf (trail.location ++ [name]) ∧
      tree.placeAt path = some ⟨trail.location ++ [name], some (.file content)⟩ := by
  obtain ⟨place, hplace⟩ := h
  obtain ⟨hfits, location, content, hfound⟩ := isFile_iff.mp hfile
  cases hfound.symm.trans (placeOf_anywhere hplace)
  obtain ⟨_, trail, htrail, hleads⟩ := placeOf_iff.mp hplace
  have hbounded := hleads.bounded rfl
  rcases hleads.stands (stands_origin hdir htrail) fun _ hname => whole_of_mem_names hname with
    ⟨final, _, hfinal⟩ | ⟨final, name, hfinal, hname, _, hlast⟩
  · cases hfinal
  · obtain ⟨rfl, hcontent⟩ := Place.mk.inj hlast
    rw [utf8ByteSize_pathOf_concat] at hbounded
    refine ⟨final, name, content, ⟨hfinal, hname, hcontent.symm, hbounded⟩, ?_, ?_⟩
    · simp only [canonical, hplace]
    · rw [placeAt, if_pos hfits, hfound]

theorem InSight.fileAt (hdir : ∀ name ∈ tree.workingDir, IsName name) (h : tree.InSight path)
    (hfile : tree.isFile path = true) : ∃ trail name content,
      tree.FileAt trail name content ∧ tree.canonical path = pathOf (trail.location ++ [name]) := by
  obtain ⟨trail, name, content, hat, hcanonical, _⟩ := h.found hdir hfile
  exact ⟨trail, name, content, hat, hcanonical⟩

end Sight

/-- Paths that count as the same are spelled alike, if files are known under them. -/
def OneSpelling (tree : FileTree) : Prop :=
  ∀ {path other}, tree.Loadable path → tree.Loadable other → path.same other = true →
    path = other

end FileTree

mutual

/-- No file and no link in a directory, at any depth, has a path of more than `maxPathBytes` bytes, and
no directory in it has one with a slash behind it, if the path of the directory itself has so many. -/
def Directory.isShallow (bytes : Nat) : List (String × Entry) → Bool
  | [] => true
  | (name, entry) :: rest =>
    decide (bytes + 1 + name.utf8ByteSize ≤ maxPathBytes) &&
      Entry.isShallow (bytes + 1 + name.utf8ByteSize) entry && Directory.isShallow bytes rest

def Entry.isShallow (bytes : Nat) : Entry → Bool
  | .directory entries => decide (bytes + 1 ≤ maxPathBytes) && Directory.isShallow bytes entries
  | .file _ | .link _ => true

end

theorem Directory.isShallow_lookup {bytes : Nat} {dir : Directory}
    (h : Directory.isShallow bytes dir = true) {name : String} {entry : Entry}
    (hentry : dir.lookup name = some entry) :
    bytes + 1 + name.utf8ByteSize ≤ maxPathBytes ∧
      Entry.isShallow (bytes + 1 + name.utf8ByteSize) entry = true := by
  induction dir with
  | nil => cases hentry
  | cons first rest ih =>
    obtain ⟨other, found⟩ := first
    simp only [isShallow, Bool.and_eq_true, decide_eq_true_eq] at h
    rw [List.lookup_cons] at hentry
    split at hentry
    next hname =>
      cases hentry
      rw [beq_iff_eq.mp hname]
      exact h.1
    next => exact ih h.2 hentry

/-- A tree in which no file and no link has a path of more than `maxPathBytes` bytes, and no
directory has one with a slash behind it. -/
structure FileTree.Shallow (tree : FileTree) : Prop where
  root : Directory.isShallow 0 tree.root = true
  workingDir : ∀ name ∈ tree.workingDir, IsName name

namespace FileTree

section Shallow

variable {tree : FileTree} (htree : tree.Shallow)

include htree

theorem Shallow.here {trail : Trail} (h : trail.Stands tree.root) :
    trail.pathBytes + 1 ≤ maxPathBytes ∧
      Directory.isShallow trail.pathBytes (trail.here tree.root) = true := by
  induction h with
  | root => exact ⟨by decide, htree.root⟩
  | @down trail name inner above named found ih =>
    have hinner := (Directory.isShallow_lookup ih.2 found).2
    rw [Entry.isShallow, Bool.and_eq_true, decide_eq_true_eq] at hinner
    rw [Trail.pathBytes_cons]
    exact hinner

theorem Shallow.sees {trail : Trail} (h : trail.Stands tree.root) {name : String}
    (hname : name = "" ∨ name = "." ∨ name = ".." ∨
      ∃ entry, (trail.here tree.root).lookup name = some entry) :
    Trail.withinLimit trail name = true := by
  obtain ⟨hroom, hhere⟩ := htree.here h
  refine decide_eq_true ?_
  rcases hname with rfl | rfl | rfl | ⟨entry, hentry⟩
  · exact hroom
  · exact hroom
  · exact hroom
  · have hbytes := (Directory.isShallow_lookup hhere hentry).1
    split <;> omega

theorem Shallow.leads {links : Nat} {trail : Trail} {names : List String} {place : Place}
    (h : tree.Leads Trail.anywhere links trail names place) (htrail : trail.Stands tree.root)
    (hnames : ∀ name ∈ names, '/' ∉ name.toList) (hplace : place.entry.isSome = true) :
    tree.Leads Trail.withinLimit links trail names place := by
  induction h with
  | arrived => exact .arrived
  | stays _ empty _ ih =>
    refine .stays (htree.sees htrail ?_) empty (ih htrail ?_ hplace)
    · exact empty.imp_right .inl
    · exact fun name hname => hnames name (List.mem_cons_of_mem _ hname)
  | up _ _ ih =>
    refine .up (htree.sees htrail (.inr (.inr (.inl rfl)))) (ih htrail.tail ?_ hplace)
    exact fun name hname => hnames name (List.mem_cons_of_mem _ hname)
  | link _ nonempty downward found _ ih =>
    refine .link (htree.sees htrail (.inr (.inr (.inr ⟨_, found⟩)))) nonempty downward found
      (ih (stands_followed htrail _) (whole_followed fun name hname => ?_) hplace)
    exact hnames name (List.mem_cons_of_mem _ hname)
  | down _ nonempty downward found _ ih =>
    have hwhole := hnames _ List.mem_cons_self
    refine .down (htree.sees htrail (.inr (.inr (.inr ⟨_, found⟩)))) nonempty downward found
      (ih (.down htrail ?_ found) (fun name hname => ?_) hplace)
    · exact ⟨fun h => nonempty (.inl h), fun h => nonempty (.inr h), downward, hwhole⟩
    · exact hnames name (List.mem_cons_of_mem _ hname)
  | last _ nonempty downward found ends =>
    obtain ⟨entry, hentry⟩ := Option.isSome_iff_exists.mp hplace
    exact .last (htree.sees htrail (.inr (.inr (.inr ⟨entry, found.trans hentry⟩)))) nonempty
      downward found ends

theorem Shallow.sighted {path : FilePath} {location : Location} {entry : Entry}
    (h : tree.placeOf Trail.anywhere path = some ⟨location, some entry⟩) :
    tree.placeOf Trail.withinLimit path = some ⟨location, some entry⟩ := by
  obtain ⟨hnonempty, trail, htrail, hleads⟩ := placeOf_iff.mp h
  exact placeOf_iff.mpr ⟨hnonempty, trail, htrail, htree.leads hleads
    (stands_origin htree.workingDir htrail) (fun _ hname => whole_of_mem_names hname) rfl⟩

theorem Shallow.inSight {path : FilePath} (h : tree.isFile path = true) : tree.InSight path := by
  obtain ⟨_, location, content, hplace⟩ := isFile_iff.mp h
  exact ⟨_, htree.sighted hplace⟩

theorem Shallow.loadable {path : FilePath} (h : tree.Loadable path) :
    ∃ (trail : Trail) (name : String) (content : Content), trail.Stands tree.root ∧ IsName name ∧
      (trail.here tree.root).lookup name = some (.file content) ∧
      path = pathOf (trail.location ++ [name]) := by
  obtain ⟨file, hfile, rfl⟩ := h
  obtain ⟨trail, name, content, hat, hcanonical⟩ :=
    (htree.inSight hfile).fileAt htree.workingDir hfile
  exact ⟨trail, name, content, hat.stands, hat.named, hat.found, hcanonical⟩

theorem Shallow.oneSpelling : tree.OneSpelling := by
  intro path other hpath hother hsame
  obtain ⟨trail, name, _, htrail, hname, _, rfl⟩ := htree.loadable hpath
  obtain ⟨trail', name', _, htrail', hname', _, rfl⟩ := htree.loadable hother
  exact congrArg pathOf (FilePath.pathOf_inj (htrail.isName_concat hname)
    (htrail'.isName_concat hname') hsame)

end Shallow

end FileTree

end Interpose
