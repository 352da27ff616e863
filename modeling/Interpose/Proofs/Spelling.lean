import Mathlib.Algebra.GroupWithZero.Nat
import Interpose.FileTree.Find

set_option autoImplicit false

namespace Interpose

section Segments

theorem segments_ne_nil (cs : List Char) : segments cs ≠ [] := by
  cases cs with
  | nil => simp [segments]
  | cons c rest =>
    simp only [segments]
    split
    · simp
    · split <;> simp

theorem segments_cons {c : Char} (h : c ≠ '/') (rest : List Char) :
    ∃ first others, segments rest = first :: others ∧
      segments (c :: rest) = (c :: first) :: others := by
  obtain ⟨first, others, hrest⟩ := List.exists_cons_of_ne_nil (segments_ne_nil rest)
  refine ⟨first, others, hrest, ?_⟩
  simp only [segments, if_neg h, hrest]

theorem not_mem_of_mem_segments {cs segment : List Char} (h : segment ∈ segments cs) :
    '/' ∉ segment := by
  induction cs generalizing segment with
  | nil =>
    rw [segments, List.mem_singleton] at h
    exact h ▸ List.not_mem_nil
  | cons c rest ih =>
    by_cases hc : c = '/'
    · rw [segments, if_pos hc] at h
      rcases List.mem_cons.mp h with rfl | h
      · exact List.not_mem_nil
      · exact ih h
    · obtain ⟨first, others, hrest, hsegments⟩ := segments_cons hc rest
      rw [hsegments] at h
      rw [hrest] at ih
      rcases List.mem_cons.mp h with rfl | h
      · rw [List.mem_cons, not_or]
        exact ⟨Ne.symm hc, ih List.mem_cons_self⟩
      · exact ih (List.mem_cons_of_mem first h)

theorem segments_append_slash {cs : List Char} (h : '/' ∉ cs) (rest : List Char) :
    segments (cs ++ '/' :: rest) = cs :: segments rest := by
  induction cs with
  | nil => simp [segments]
  | cons c cs ih =>
    simp only [List.mem_cons, not_or] at h
    rw [List.cons_append, segments, if_neg (Ne.symm h.1), ih h.2]

theorem segments_of_not_mem {cs : List Char} (h : '/' ∉ cs) : segments cs = [cs] := by
  induction cs with
  | nil => rfl
  | cons c cs ih =>
    simp only [List.mem_cons, not_or] at h
    rw [segments, if_neg (Ne.symm h.1), ih h.2]

theorem segments_intercalate {parts : List (List Char)} (hne : parts ≠ [])
    (h : ∀ part ∈ parts, '/' ∉ part) : segments (['/'].intercalate parts) = parts := by
  induction parts with
  | nil => exact absurd rfl hne
  | cons first rest ih =>
    have hfirst := h first List.mem_cons_self
    cases rest with
    | nil =>
      rw [List.intercalate_singleton]
      exact segments_of_not_mem hfirst
    | cons second others =>
      rw [List.intercalate_cons_cons, List.append_assoc, List.singleton_append,
        segments_append_slash hfirst,
        ih (List.cons_ne_nil second others) fun part hpart =>
          h part (List.mem_cons_of_mem first hpart)]

end Segments

/-- A name that leads to an entry of its own. -/
structure IsName (name : String) : Prop where
  nonempty : name ≠ ""
  notCurrent : name ≠ "."
  notParent : name ≠ ".."
  whole : '/' ∉ name.toList

instance (name : String) : Decidable (IsName name) :=
  decidable_of_iff (name ≠ "" ∧ name ≠ "." ∧ name ≠ ".." ∧ '/' ∉ name.toList)
    ⟨fun ⟨h, h', h'', h'''⟩ => ⟨h, h', h'', h'''⟩, fun ⟨h, h', h'', h'''⟩ => ⟨h, h', h'', h'''⟩⟩

section IsName

variable {name : String} (hname : IsName name)

include hname

theorem IsName.not_skipped : ¬ (name.toList = [] ∨ name.toList = ['.']) := by
  rintro (hempty | hcurrent)
  · exact hname.nonempty (String.toList_inj.mp hempty)
  · exact hname.notCurrent (String.toList_inj.mp hcurrent)

theorem IsName.ofSegment : Component.ofSegment name.toList = .name name := by
  have hparent : name.toList ≠ ['.', '.'] :=
    fun hparent => hname.notParent (String.toList_inj.mp hparent)
  rw [Component.ofSegment, if_neg hparent, String.ofList_toList]

theorem IsName.isAbsolute : (FilePath.mk name).isAbsolute = false := by
  rw [FilePath.isAbsolute, String.startsWith_char_eq_head?, beq_eq_false_iff_ne]
  intro hhead
  exact hname.whole (List.mem_of_mem_head? hhead)

end IsName

namespace FileTree

theorem whole_of_mem_names {path : FilePath} {name : String} (h : name ∈ names path) :
    '/' ∉ name.toList := by
  obtain ⟨segment, hsegment, rfl⟩ := List.mem_map.mp h
  rw [String.toList_ofList]
  exact not_mem_of_mem_segments hsegment

variable {location : Location}

theorem toList_pathOf (location : Location) : (pathOf location).text.toList =
    '/' :: ['/'].intercalate (location.map String.toList) := by
  simp only [pathOf, String.toList_append, String.toList_intercalate]
  rfl

theorem isAbsolute_pathOf (location : Location) : (pathOf location).isAbsolute = true := by
  rw [FilePath.isAbsolute, String.startsWith_char_eq_head?, toList_pathOf]
  rfl

theorem segments_pathOf (hne : location ≠ []) (h : ∀ name ∈ location, IsName name) :
    segments (pathOf location).text.toList = [] :: location.map String.toList := by
  have hparts : ∀ part ∈ location.map String.toList, '/' ∉ part := by
    intro part hpart
    obtain ⟨name, hname, rfl⟩ := List.mem_map.mp hpart
    exact (h name hname).whole
  rw [toList_pathOf, segments, if_pos rfl, segments_intercalate (by simpa using hne) hparts]

theorem names_pathOf (hne : location ≠ []) (h : ∀ name ∈ location, IsName name) :
    names (pathOf location) = "" :: location := by
  rw [names, segments_pathOf hne h, List.map_cons, List.map_map]
  exact congrArg _ (List.map_id'' (fun _ => String.ofList_toList) location)

theorem utf8ByteSize_pathOf (hne : location ≠ []) : (pathOf location).text.utf8ByteSize =
    (location.map fun name => name.utf8ByteSize + 1).sum := by
  induction location with
  | nil => exact absurd rfl hne
  | cons first rest ih =>
    cases rest with
    | nil =>
      simp only [pathOf, String.intercalate_singleton, String.utf8ByteSize_append, List.map_cons,
        List.map_nil, List.sum_cons, List.sum_nil]
      exact Nat.add_comm ..
    | cons second others =>
      have hslash : String.utf8ByteSize "/" = 1 := rfl
      have hrest := ih (List.cons_ne_nil second others)
      simp only [pathOf, String.utf8ByteSize_append, hslash] at hrest
      rw [List.map_cons, List.sum_cons, ← hrest, pathOf, String.intercalate_cons_cons]
      simp only [String.utf8ByteSize_append, hslash]
      omega

end FileTree

namespace FilePath

theorem component_partsOf_anywhere (segments : List (List Char)) (offset offset' : Nat) :
    (partsOf segments offset).map Part.component = (partsOf segments offset').map Part.component := by
  induction segments generalizing offset offset' with
  | nil => rfl
  | cons segment segments ih =>
    unfold partsOf
    split
    · exact ih _ _
    · exact congrArg (List.cons _) (ih _ _)

theorem component_partsOf {location : Location} (h : ∀ name ∈ location, IsName name)
    (offset : Nat) : (partsOf (location.map String.toList) offset).map Part.component =
      location.map Component.name := by
  induction location generalizing offset with
  | nil => rfl
  | cons name rest ih =>
    have hname := h name List.mem_cons_self
    rw [List.map_cons, partsOf, if_neg hname.not_skipped, List.map_cons, hname.ofSegment,
      ih (fun other hother => h other (List.mem_cons_of_mem name hother)), List.map_cons]

theorem components_pathOf {location : Location} (h : ∀ name ∈ location, IsName name) :
    (FileTree.pathOf location).components = .root :: location.map .name := by
  by_cases hne : location = []
  · subst hne
    decide +kernel
  · obtain ⟨first, rest, rfl⟩ := List.exists_cons_of_ne_nil hne
    rw [components, parts, FileTree.segments_pathOf hne h]
    exact congrArg _ (component_partsOf h 1)

theorem pathOf_inj {location other : Location} (h : ∀ name ∈ location, IsName name)
    (h' : ∀ name ∈ other, IsName name)
    (hsame : (FileTree.pathOf location).same (FileTree.pathOf other) = true) :
    location = other := by
  rw [same, beq_iff_eq, components_pathOf h, components_pathOf h'] at hsame
  exact List.map_inj_right (fun _ _ => Component.name.inj) |>.mp (List.cons.inj hsame).2

end FilePath

end Interpose
