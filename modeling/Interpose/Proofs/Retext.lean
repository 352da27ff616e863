import Interpose.Proofs.Walks

set_option autoImplicit false

namespace Interpose

mutual

/-- A directory at a location with the contents of its files changed, each as its own location
says. -/
def Directory.retext (change : Location → Content → Content) (here : Location) :
    List (String × Entry) → List (String × Entry)
  | [] => []
  | (name, entry) :: rest =>
    (name, Entry.retext change (here ++ [name]) entry) :: Directory.retext change here rest

def Entry.retext (change : Location → Content → Content) (here : Location) : Entry → Entry
  | .file content => .file (change here content)
  | .link target => .link target
  | .directory entries => .directory (Directory.retext change here entries)

end

def FileTree.retext (tree : FileTree) (change : Location → Content → Content) : FileTree :=
  { tree with root := Directory.retext change [] tree.root }

def Place.retext (change : Location → Content → Content) (place : Place) : Place :=
  { place with entry := place.entry.map (Entry.retext change place.location) }

namespace Trail

variable (change : Location → Content → Content)

def retext : Trail → Trail
  | [] => []
  | (name, dir) :: above =>
    (name, Directory.retext change (location above ++ [name]) dir) :: retext above

@[simp] theorem location_retext (trail : Trail) :
    (trail.retext change).location = trail.location := by
  induction trail with
  | nil => rfl
  | cons step above ih => rw [retext, location_cons, location_cons, ih]

theorem here_retext (root : Directory) (trail : Trail) :
    here (Directory.retext change [] root) (trail.retext change) =
      Directory.retext change trail.location (here root trail) := by
  cases trail with
  | nil => rfl
  | cons step above => rw [location_cons]; rfl

theorem tail_retext (trail : Trail) : (trail.retext change).tail = retext change trail.tail := by
  cases trail <;> rfl

@[simp] theorem pathBytes_retext (trail : Trail) :
    (trail.retext change).pathBytes = trail.pathBytes := by
  rw [pathBytes_eq, pathBytes_eq, location_retext]

theorem lookup_retext (here : Location) (dir : Directory) (name : String) :
    List.lookup name (Directory.retext change here dir) =
      (dir.lookup name).map (Entry.retext change (here ++ [name])) := by
  induction dir with
  | nil => rfl
  | cons first rest ih =>
    obtain ⟨other, entry⟩ := first
    rw [Directory.retext, List.lookup_cons, List.lookup_cons]
    cases hname : name == other with
    | true => rw [beq_iff_eq.mp hname]; rfl
    | false => exact ih

theorem descend_retext (root : Directory) (trail : Trail) (location : Location) :
    descend (Directory.retext change [] root) (trail.retext change) location =
      (descend root trail location).map (retext change) := by
  induction location generalizing trail with
  | nil => rfl
  | cons name rest ih =>
    rw [descend, descend, here_retext, lookup_retext]
    rcases (here root trail).lookup name with _ | content | target | inner
    · rfl
    · rfl
    · rfl
    · exact ih ((name, inner) :: trail)

end Trail

namespace FileTree

variable {tree : FileTree} {change : Location → Content → Content} {sees : Trail → String → Bool}

section Walk

variable (hsees : ∀ trail name, sees (trail.retext change) name = sees trail name)

include hsees

theorem walk_retext (links : Nat) (trail : Trail) (names : List String) :
    (tree.retext change).walk sees links (trail.retext change) names =
      (tree.walk sees links trail names).map (Place.retext change) := by
  induction links using Nat.strongRecOn generalizing trail names with
  | _ links ihLinks =>
  induction names generalizing trail with
  | nil =>
    rw [walk_nil, walk_nil, Trail.location_retext, retext, Trail.here_retext]
    rfl
  | cons name rest ih =>
    have hlookup : ((trail.retext change).here (tree.retext change).root).lookup name =
        ((trail.here tree.root).lookup name).map
          (Entry.retext change (trail.location ++ [name])) := by
      rw [retext, Trail.here_retext, Trail.lookup_retext]
    rw [walk_cons, walk_cons, hsees, Trail.tail_retext, ih, ih, Trail.location_retext, hlookup]
    split
    · rfl
    split
    · rfl
    split
    · rfl
    rcases (trail.here tree.root).lookup name with _ | content | target | inner
    · dsimp only [Option.map_none]
      split <;> rfl
    · dsimp only [Option.map_some, Entry.retext]
      split <;> rfl
    · cases links with
      | zero => rfl
      | succ below =>
        have hbelow := ihLinks below (Nat.lt_succ_self below)
          (if target.isAbsolute then [] else trail) (FileTree.names target ++ rest)
        have hstart : Trail.retext change (if target.isAbsolute then [] else trail) =
            if target.isAbsolute then [] else trail.retext change := by split <;> rfl
        rw [hstart] at hbelow
        exact hbelow
    · exact ih ((name, inner) :: trail)

theorem placeOf_retext (path : FilePath) :
    (tree.retext change).placeOf sees path = (tree.placeOf sees path).map (Place.retext change) := by
  have horigin : (tree.retext change).origin path = tree.origin path := rfl
  have htrail : Trail.descend (tree.retext change).root [] (tree.origin path) =
      (Trail.descend tree.root [] (tree.origin path)).map (Trail.retext change) :=
    Trail.descend_retext change tree.root [] (tree.origin path)
  unfold placeOf placeFrom
  rw [horigin, htrail]
  split
  · rfl
  · cases Trail.descend tree.root [] (tree.origin path) with
    | none => rfl
    | some trail => exact walk_retext hsees maxLinks trail (names path)

end Walk

section Retext

variable (tree change)

theorem placeAt_retext (path : FilePath) :
    (tree.retext change).placeAt path = (tree.placeAt path).map (Place.retext change) := by
  unfold placeAt
  split
  · exact placeOf_retext (fun _ _ => rfl) path
  · rfl

theorem entryAt_retext (path : FilePath) :
    (tree.retext change).entryAt path =
      (tree.placeAt path).bind fun place =>
        place.entry.map (Entry.retext change place.location) := by
  rw [entryAt, placeAt_retext]
  cases tree.placeAt path <;> rfl

theorem isFile_retext (path : FilePath) : (tree.retext change).isFile path = tree.isFile path := by
  rw [isFile, isFile, entryAt_retext, entryAt]
  rcases tree.placeAt path with _ | ⟨location, _ | content | target | inner⟩ <;> rfl

theorem isDir_retext (path : FilePath) : (tree.retext change).isDir path = tree.isDir path := by
  rw [isDir, isDir, entryAt_retext, entryAt]
  rcases tree.placeAt path with _ | ⟨location, _ | content | target | inner⟩ <;> rfl

theorem read_retext (path : FilePath) : (tree.retext change).read path =
    match tree.placeAt path with
    | some ⟨location, some (.file content)⟩ => some (change location content)
    | _ => none := by
  rw [read, entryAt_retext]
  rcases tree.placeAt path with _ | ⟨location, _ | content | target | inner⟩ <;> rfl

theorem canonical_retext (path : FilePath) :
    (tree.retext change).canonical path = tree.canonical path := by
  have hsees : ∀ trail name,
      Trail.withinLimit (trail.retext change) name = Trail.withinLimit trail name := by
    intro trail name
    rw [Trail.withinLimit, Trail.withinLimit, Trail.pathBytes_retext]
  unfold canonical
  rw [placeOf_retext hsees]
  rcases tree.placeOf Trail.withinLimit path with _ | ⟨location, _ | entry⟩ <;> rfl

theorem moduleFile_retext : (tree.retext change).moduleFile = tree.moduleFile := by
  funext candidate
  simp only [moduleFile, fileInside, isFile_retext, isDir_retext]

end Retext

end FileTree

variable (tree : FileTree) (change : Location → Content → Content) (layout : Layout)

theorem Layout.resolve_retext (specifier : String) (requester : Option FilePath) :
    layout.resolve (tree.retext change) specifier requester =
      layout.resolve tree specifier requester := by
  unfold resolve
  rw [FileTree.moduleFile_retext]
  simp only [FileTree.canonical_retext]
  rfl

theorem Session.LoadRequest.target_retext (request : LoadRequest) :
    request.target (tree.retext change) layout = request.target tree layout := by
  cases request with
  | path file => simp only [target, FileTree.isFile_retext, FileTree.canonical_retext]
  | specifier text requester => simp only [target, Layout.resolve_retext]

end Interpose
