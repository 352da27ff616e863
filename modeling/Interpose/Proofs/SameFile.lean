import Interpose.Proofs.Sight

set_option autoImplicit false

namespace Interpose

theorem FilePath.same_comm (path other : FilePath) : path.same other = other.same path := by
  rw [Bool.eq_iff_iff, same, same, beq_iff_eq, beq_iff_eq]
  exact eq_comm

namespace FileTree

/-- Wherever a step to a name is seen, one that stays is seen. -/
def SeesStays (sees : Trail → String → Bool) : Prop :=
  ∀ (trail : Trail) (name skipped : String), skipped = "" ∨ skipped = "." →
    sees trail name = true → sees trail skipped = true

theorem seesStays_anywhere : SeesStays Trail.anywhere := fun _ _ _ _ _ => rfl

theorem seesStays_withinLimit : SeesStays Trail.withinLimit := by
  intro trail name skipped hskipped hseen
  have hroom : trail.pathBytes + 1 + _ ≤ maxPathBytes := of_decide_eq_true hseen
  have hbytes : (if skipped = "." ∨ skipped = ".." then 0 else skipped.utf8ByteSize) = 0 := by
    rcases hskipped with rfl | rfl <;> rfl
  refine decide_eq_true ?_
  rw [hbytes]
  omega

section Walks

variable {tree : FileTree} {sees : Trail → String → Bool} {links : Nat} {trail : Trail}
  {place place' : Place} {names names' : List String}

theorem Leads.skip {step : String} {more : List String}
    (h : tree.Leads sees links trail names place) (hsteps : steps names = step :: more) :
    ∃ rest, steps rest = more ∧ tree.Leads sees links trail (step :: rest) place := by
  induction names with
  | nil => cases hsteps
  | cons name rest ih =>
    by_cases hskipped : name = "" ∨ name = "."
    · rw [steps_skipped hskipped] at hsteps
      cases h with
      | stays _ _ onward => exact ih onward hsteps
      | up => exact absurd hskipped (by decide)
      | link _ nonempty | down _ nonempty | last _ nonempty => exact absurd hskipped nonempty
    · rw [steps_cons hskipped] at hsteps
      obtain ⟨rfl, hrest⟩ := List.cons.inj hsteps
      exact ⟨rest, hrest, h⟩

theorem Leads.seen (h : tree.Leads sees links trail names place)
    (hplace : ∀ dir, place.entry ≠ some (.directory dir)) : ∃ name, sees trail name = true := by
  cases h with
  | arrived => exact absurd rfl (hplace _)
  | stays seen | up seen | link seen | down seen | last seen => exact ⟨_, seen⟩

theorem Leads.respelled (hsees : SeesStays sees)
    (h' : tree.Leads Trail.anywhere links trail names' place')
    (hplace' : ∀ dir, place'.entry ≠ some (.directory dir))
    (h : tree.Leads sees links trail names place)
    (hplace : ∀ dir, place.entry ≠ some (.directory dir)) (hsteps : steps names = steps names') :
    tree.Leads sees links trail names' place := by
  -- by induction on the walk along the other names: behind what it skips, both walks take
  -- the same step
  induction h' generalizing names with
  | arrived => exact absurd rfl (hplace' _)
  | stays _ empty _ ih =>
    rw [steps_skipped empty] at hsteps
    have honward := ih hplace' h hsteps
    obtain ⟨name, hname⟩ := honward.seen hplace
    exact .stays (hsees _ _ _ empty hname) empty honward
  | up _ _ ih =>
    rw [steps_cons (by decide)] at hsteps
    obtain ⟨rest, hrest, h⟩ := h.skip hsteps
    cases h with
    | stays _ empty => exact absurd empty (by decide)
    | up seen onward => exact .up seen (ih hplace' onward hrest)
    | link _ _ downward | down _ _ downward | last _ _ downward => exact absurd rfl downward
  | link _ nonempty downward found _ ih =>
    rw [steps_cons nonempty] at hsteps
    obtain ⟨rest, hrest, h⟩ := h.skip hsteps
    cases h with
    | stays _ empty => exact absurd empty nonempty
    | up => exact absurd rfl downward
    | link seen _ _ found' onward =>
      cases found.symm.trans found'
      refine .link seen nonempty downward found (ih hplace' onward ?_)
      rw [steps, steps, List.filter_append, List.filter_append]
      exact congrArg _ hrest
    | down _ _ _ found' => cases found.symm.trans found'
    | last _ _ _ found' ends =>
      obtain ⟨_, hfile⟩ := ends _ (found'.symm.trans found)
      cases hfile
  | down _ nonempty downward found _ ih =>
    rw [steps_cons nonempty] at hsteps
    obtain ⟨rest, hrest, h⟩ := h.skip hsteps
    cases h with
    | stays _ empty => exact absurd empty nonempty
    | up => exact absurd rfl downward
    | link _ _ _ found' => cases found.symm.trans found'
    | down seen _ _ found' onward =>
      cases found.symm.trans found'
      exact .down seen nonempty downward found (ih hplace' onward hrest)
    | last _ _ _ found' ends =>
      obtain ⟨_, hfile⟩ := ends _ (found'.symm.trans found)
      cases hfile
  | last _ nonempty downward found ends =>
    rw [steps_cons nonempty] at hsteps
    obtain ⟨rest, -, h⟩ := h.skip hsteps
    cases h with
    | stays _ empty => exact absurd empty nonempty
    | up => exact absurd rfl downward
    | link _ _ _ found' =>
      obtain ⟨_, hfile⟩ := ends _ (found.symm.trans found')
      cases hfile
    | down _ _ _ found' =>
      obtain ⟨_, hfile⟩ := ends _ (found.symm.trans found')
      cases hfile
    | last seen _ _ found' ends' => exact .last seen nonempty downward found' ends'

end Walks

section Paths

variable {tree : FileTree} {path other : FilePath}

theorem placeOf_respelled {sees : Trail → String → Bool} (hsees : SeesStays sees)
    (hother : tree.isFile other = true) (hsame : path.same other = true) {location : Location}
    {content : Content} (hplace : tree.placeOf sees path = some ⟨location, some (.file content)⟩) :
    tree.placeOf sees other = some ⟨location, some (.file content)⟩ := by
  rw [FilePath.same, beq_iff_eq] at hsame
  have habsolute : path.isAbsolute = other.isAbsolute := by
    rw [Bool.eq_iff_iff, FilePath.isAbsolute_iff, FilePath.isAbsolute_iff, hsame]
  obtain ⟨_, location', content', hplace'⟩ := isFile_iff.mp hother
  obtain ⟨hnonempty, trail', htrail', hleads'⟩ := placeOf_iff.mp hplace'
  obtain ⟨_, trail, htrail, hleads⟩ := placeOf_iff.mp hplace
  have horigin : tree.origin path = tree.origin other := by
    rw [origin, origin, habsolute]
  obtain rfl : trail = trail' := Option.some.inj ((horigin ▸ htrail).symm.trans htrail')
  have hsteps : steps (names path) = steps (names other) := by
    rw [steps_names, steps_names, hsame]
  exact placeOf_iff.mpr ⟨hnonempty, trail, htrail',
    hleads'.respelled hsees (by simp) hleads (by simp) hsteps⟩

variable (hpath : tree.isFile path = true) (hother : tree.isFile other = true)

include hpath hother

theorem placeAt_respelled (hsame : path.same other = true) :
    tree.placeAt path = tree.placeAt other := by
  obtain ⟨hfits, location, content, hplace⟩ := isFile_iff.mp hpath
  obtain ⟨hfits', _⟩ := isFile_iff.mp hother
  rw [placeAt, if_pos hfits, placeAt, if_pos hfits', hplace,
    placeOf_respelled seesStays_anywhere hother hsame hplace]

theorem InSight.respelled (h : tree.InSight path) (hsame : path.same other = true) :
    tree.InSight other := by
  obtain ⟨place, hplace⟩ := h
  obtain ⟨_, location, content, hfound⟩ := isFile_iff.mp hpath
  cases hfound.symm.trans (placeOf_anywhere hplace)
  exact ⟨_, placeOf_respelled seesStays_withinLimit hother hsame hplace⟩

omit hpath hother

/-- Loads know both paths by one: both can be canonicalised and lead to one place, or neither can be
and they have the same components. -/
inductive KnownAlike (tree : FileTree) (path other : FilePath) : Prop where
  | inSight (sight : tree.InSight path) (sight' : tree.InSight other)
      (place : tree.placeAt path = tree.placeAt other)
  | unseen (unseen : ¬ tree.InSight path) (unseen' : ¬ tree.InSight other)
      (same : path.same other = true)

theorem KnownAlike.sight_iff (h : tree.KnownAlike path other) :
    tree.InSight path ↔ tree.InSight other := by
  cases h with
  | inSight sight sight' => exact iff_of_true sight sight'
  | unseen unseen unseen' => exact iff_of_false unseen unseen'

include hpath hother

theorem knownAlike_of_same (hsame : path.same other = true) : tree.KnownAlike path other := by
  by_cases hsight : tree.InSight path
  · exact .inSight hsight (hsight.respelled hpath hother hsame)
      (placeAt_respelled hpath hother hsame)
  · have hsame' : other.same path = true := (FilePath.same_comm other path).trans hsame
    exact .unseen hsight (fun hsight' => hsight (hsight'.respelled hother hpath hsame')) hsame

theorem Shallow.knownAlike_iff (htree : tree.Shallow) :
    tree.KnownAlike path other ↔ tree.placeAt path = tree.placeAt other := by
  have hsight := htree.inSight hpath
  constructor
  · intro h
    cases h with
    | inSight _ _ place => exact place
    | unseen unseen => exact absurd hsight unseen
  · exact .inSight hsight (htree.inSight hother)

variable (hdir : ∀ name ∈ tree.workingDir, IsName name)

include hdir

theorem same_canonical_inSight (hsight : tree.InSight path) :
    (tree.canonical path).same (tree.canonical other) = true ↔
      tree.InSight other ∧ tree.placeAt path = tree.placeAt other := by
  obtain ⟨trail, name, content, hat, hcanonical, hplace⟩ := hsight.found hdir hpath
  by_cases hsight' : tree.InSight other
  · obtain ⟨trail', name', content', hat', hcanonical', hplace'⟩ := hsight'.found hdir hother
    rw [hcanonical, hcanonical', hplace, hplace', and_iff_right hsight']
    constructor
    · intro hsame
      have hlocation := FilePath.pathOf_inj (hat.stands.isName_concat hat.named)
        (hat'.stands.isName_concat hat'.named) hsame
      rw [← hat.placeAt, ← hat'.placeAt, hlocation]
    · intro hplaces
      have hlocation : trail.location ++ [name] = trail'.location ++ [name'] :=
        congrArg Place.location (Option.some.inj hplaces)
      rw [hlocation]
      exact beq_self_eq_true _
  · rw [hcanonical, canonical_unseen hsight', FilePath.same_comm]
    exact iff_of_false (fun hsame => hsight' (hat.inSight hsame hother)) fun h => hsight' h.1

theorem same_canonical_iff : (tree.canonical path).same (tree.canonical other) = true ↔
    tree.KnownAlike path other := by
  by_cases hsight : tree.InSight path
  · rw [same_canonical_inSight hpath hother hdir hsight]
    constructor
    · exact fun ⟨hsight', hplace⟩ => .inSight hsight hsight' hplace
    · intro h
      cases h with
      | inSight _ sight' place => exact ⟨sight', place⟩
      | unseen unseen => exact absurd hsight unseen
  · by_cases hsight' : tree.InSight other
    · rw [FilePath.same_comm, same_canonical_inSight hother hpath hdir hsight']
      exact iff_of_false (fun h => hsight h.1) fun h => hsight (h.sight_iff.mpr hsight')
    · rw [canonical_unseen hsight, canonical_unseen hsight']
      constructor
      · exact .unseen hsight hsight'
      · intro h
        cases h with
        | inSight sight => exact absurd sight hsight
        | unseen _ _ same => exact same

end Paths

end FileTree

end Interpose
