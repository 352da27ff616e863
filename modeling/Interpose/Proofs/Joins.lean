import Interpose.Loader.Resolve
import Interpose.Path.Relative
import Interpose.Proofs.Spelling

set_option autoImplicit false

namespace Interpose

section Segments

theorem segments_under (cs rest : List Char) :
    segments (cs ++ '/' :: rest) = segments cs ++ segments rest := by
  induction cs with
  | nil => simp [segments]
  | cons c cs ih =>
    by_cases hc : c = '/'
    · rw [List.cons_append, segments, if_pos hc, ih, segments, if_pos hc]
      rfl
    · obtain ⟨first, others, hcs, hsegments⟩ := segments_cons hc cs
      rw [hsegments, List.cons_append, segments, if_neg hc, ih, hcs]
      rfl

theorem sum_length_segments (cs : List Char) :
    ((segments cs).map fun segment => segment.length + 1).sum = cs.length + 1 := by
  induction cs with
  | nil => rfl
  | cons c cs ih =>
    by_cases hc : c = '/'
    · rw [segments, if_pos hc, List.map_cons, List.sum_cons, ih, List.length_nil, List.length_cons]
      omega
    · obtain ⟨first, others, hcs, hsegments⟩ := segments_cons hc cs
      rw [hcs, List.map_cons, List.sum_cons] at ih
      rw [hsegments, List.map_cons, List.sum_cons, List.length_cons, List.length_cons]
      omega

end Segments

namespace FilePath

section Parts

theorem partsOf_append (front back : List (List Char)) (offset : Nat) :
    partsOf (front ++ back) offset = partsOf front offset ++
      partsOf back (offset + (front.map fun segment => segment.length + 1).sum) := by
  induction front generalizing offset with
  | nil => rfl
  | cons segment front ih =>
    rw [List.cons_append, partsOf, partsOf, ih, List.map_cons, List.sum_cons,
      show offset + segment.length + 1 + (front.map fun segment => segment.length + 1).sum =
        offset + (segment.length + 1 + (front.map fun segment => segment.length + 1).sum) by omega]
    split
    · rfl
    · rfl

def firstPart (segment : List Char) : Part :=
  if segment = [] then ⟨.root, 1⟩
  else if segment = ['.'] then ⟨.current, 1⟩
  else ⟨.ofSegment segment, segment.length⟩

theorem parts_ofList {cs first : List Char} {others : List (List Char)} (hcs : cs ≠ [])
    (h : segments cs = first :: others) :
    (FilePath.mk (.ofList cs)).parts = firstPart first :: partsOf others (first.length + 1) := by
  have hsegments : ¬ (first = [] ∧ others = []) := by
    rintro ⟨rfl, rfl⟩
    have hlength := sum_length_segments cs
    rw [h] at hlength
    exact hcs (List.length_eq_zero_iff.mp (by simpa using hlength.symm))
  unfold parts
  rw [String.toList_ofList, h]
  split
  next heq =>
    obtain ⟨rfl, rfl⟩ := List.cons.inj heq
    exact absurd ⟨rfl, rfl⟩ hsegments
  next heq =>
    obtain ⟨rfl, rfl⟩ := List.cons.inj heq
    rfl
  next heq =>
    obtain ⟨rfl, rfl⟩ := List.cons.inj heq
    rfl
  next hroot hcurrent =>
    have hempty : first ≠ [] := fun hfirst => hroot others (by rw [hfirst])
    have hdot : first ≠ ['.'] := fun hfirst => hcurrent others (by rw [hfirst])
    rw [partsOf, if_neg (not_or.mpr ⟨hempty, hdot⟩), firstPart, if_neg hempty, if_neg hdot,
      Nat.zero_add]

theorem eq_ofList {path : FilePath} {cs : List Char} (h : path.text.toList = cs) :
    path = ⟨.ofList cs⟩ := by
  rw [← h, String.ofList_toList]

theorem parts_under {cs : List Char} (hcs : cs ≠ []) (rest : List Char) :
    (FilePath.mk (.ofList (cs ++ '/' :: rest))).parts =
      (FilePath.mk (.ofList cs)).parts ++ partsOf (segments rest) (cs.length + 1) := by
  obtain ⟨first, others, hsegments⟩ := List.exists_cons_of_ne_nil (segments_ne_nil cs)
  have hall : segments (cs ++ '/' :: rest) = first :: (others ++ segments rest) := by
    rw [segments_under, hsegments, List.cons_append]
  have hlength := sum_length_segments cs
  rw [hsegments, List.map_cons, List.sum_cons] at hlength
  rw [parts_ofList hcs hsegments, parts_ofList (by simp) hall, partsOf_append, hlength,
    List.cons_append]

end Parts

section Components

/-- What a component can be that is not the first. -/
def IsStep (component : Component) : Prop :=
  component = .parent ∨ ∃ name, IsName name ∧ component = .name name

theorem isStep_partsOf {parts : List (List Char)} (h : ∀ part ∈ parts, '/' ∉ part) (offset : Nat) :
    ∀ component ∈ (partsOf parts offset).map Part.component, IsStep component := by
  induction parts generalizing offset with
  | nil => simp [partsOf]
  | cons part parts ih =>
    obtain ⟨hpart, hparts⟩ := List.forall_mem_cons.mp h
    rw [partsOf]
    split
    next => exact ih hparts _
    next hskipped =>
      rw [not_or] at hskipped
      rw [List.map_cons]
      refine List.forall_mem_cons.mpr ⟨?_, ih hparts _⟩
      by_cases hparent : part = ['.', '.']
      · exact .inl (if_pos hparent)
      · refine .inr ⟨.ofList part, ⟨?_, ?_, ?_, ?_⟩, if_neg hparent⟩
        · exact fun hname => hskipped.1 (String.ofList_injective hname)
        · exact fun hname => hskipped.2 (String.ofList_injective hname)
        · exact fun hname => hparent (String.ofList_injective hname)
        · rwa [String.toList_ofList]

theorem component_segment {segment : List Char} (h : ¬ (segment = [] ∨ segment = ['.'])) (offset : Nat) :
    (partsOf [segment] offset).map Part.component = [.ofSegment segment] := by
  rw [partsOf, if_neg h]
  rfl

theorem mem_partsOf {parts : List (List Char)} {segment : List Char}
    (hsegment : ¬ (segment = [] ∨ segment = ['.'])) (h : segment ∈ parts) (offset : Nat) :
    .ofSegment segment ∈ (partsOf parts offset).map Part.component := by
  obtain ⟨front, back, rfl⟩ := List.append_of_mem h
  rw [← List.singleton_append, partsOf_append, partsOf_append, List.map_append, List.map_append,
    component_segment hsegment]
  simp

theorem components_cases (path : FilePath) : path.components = [] ∨
    ∃ first rest, path.components = first :: rest ∧
      (first = .root ∨ first = .current ∨ IsStep first) ∧ ∀ component ∈ rest, IsStep component := by
  by_cases hpath : path.text.toList = []
  · left
    unfold components parts
    rw [hpath]
    rfl
  · right
    obtain ⟨first, others, hsegments⟩ := List.exists_cons_of_ne_nil (segments_ne_nil path.text.toList)
    have hwhole : ∀ part ∈ first :: others, '/' ∉ part :=
      fun part hpart => not_mem_of_mem_segments (hsegments ▸ hpart)
    obtain ⟨hfirst, hothers⟩ := List.forall_mem_cons.mp hwhole
    have hparts := parts_ofList hpath hsegments
    rw [String.ofList_toList] at hparts
    refine ⟨_, _, by rw [components, hparts, List.map_cons], ?_, isStep_partsOf hothers _⟩
    unfold firstPart
    split
    next => exact .inl rfl
    next hroot =>
      split
      next => exact .inr (.inl rfl)
      next hcurrent =>
        have hstep := isStep_partsOf (List.forall_mem_singleton.mpr hfirst) 0
        rw [partsOf, if_neg (not_or.mpr ⟨hroot, hcurrent⟩)] at hstep
        exact .inr (.inr (hstep _ List.mem_cons_self))

theorem components_rooted (cs : List Char) : (FilePath.mk (.ofList ('/' :: cs))).components =
    .root :: (partsOf (segments cs) 1).map Part.component := by
  have hsegments : segments ('/' :: cs) = [] :: segments cs := by rw [segments, if_pos rfl]
  rw [components, parts_ofList (List.cons_ne_nil _ _) hsegments]
  rfl

theorem components_absolute {path : FilePath} (h : path.isAbsolute = true) :
    ∃ steps, path.components = .root :: steps ∧ ∀ component ∈ steps, IsStep component := by
  rw [isAbsolute, String.startsWith_char_eq_head?, beq_iff_eq] at h
  obtain ⟨cs, hcs⟩ := List.head?_eq_some_iff.mp h
  rw [eq_ofList hcs, components_rooted]
  exact ⟨_, rfl, isStep_partsOf (fun segment hsegment => not_mem_of_mem_segments hsegment) 1⟩

theorem isAbsolute_of_root {path : FilePath} {rest : List Component}
    (h : path.components = .root :: rest) : path.isAbsolute = true := by
  have hpath : path.text.toList ≠ [] := by
    intro hempty
    rw [components, parts, hempty] at h
    cases h
  obtain ⟨first, others, hsegments⟩ := List.exists_cons_of_ne_nil (segments_ne_nil path.text.toList)
  have hparts := parts_ofList hpath hsegments
  rw [String.ofList_toList] at hparts
  rw [components, hparts, List.map_cons] at h
  have hfirst : first = [] := by
    have hroot := (List.cons.inj h).1
    unfold firstPart at hroot
    split at hroot
    next hempty => exact hempty
    next =>
      split at hroot
      next => cases hroot
      next =>
        unfold Component.ofSegment at hroot
        split at hroot <;> cases hroot
  obtain ⟨c, cs, hcs⟩ := List.exists_cons_of_ne_nil hpath
  rw [isAbsolute, String.startsWith_char_eq_head?, beq_iff_eq, hcs, List.head?_cons]
  by_cases hc : c = '/'
  · rw [hc]
  · obtain ⟨_, _, _, hcons⟩ := segments_cons hc cs
    rw [hcs, hcons, hfirst] at hsegments
    cases hsegments

theorem isAbsolute_iff {path : FilePath} :
    path.isAbsolute = true ↔ ∃ rest, path.components = .root :: rest := by
  constructor
  · intro h
    obtain ⟨steps, hsteps, _⟩ := components_absolute h
    exact ⟨steps, hsteps⟩
  · rintro ⟨rest, hrest⟩
    exact isAbsolute_of_root hrest

theorem mem_components {path : FilePath} {segment : List Char}
    (hsegment : ¬ (segment = [] ∨ segment = ['.'])) (h : segment ∈ segments path.text.toList) :
    .ofSegment segment ∈ path.components := by
  have hpath : path.text.toList ≠ [] := by
    intro hempty
    rw [hempty, segments, List.mem_singleton] at h
    exact hsegment (.inl h)
  obtain ⟨first, others, hsegments⟩ := List.exists_cons_of_ne_nil (segments_ne_nil path.text.toList)
  have hparts := parts_ofList hpath hsegments
  rw [String.ofList_toList] at hparts
  rw [components, hparts, List.map_cons]
  rw [hsegments] at h
  rcases List.mem_cons.mp h with rfl | h
  · obtain ⟨hroot, hcurrent⟩ := not_or.mp hsegment
    rw [firstPart, if_neg hroot, if_neg hcurrent]
    exact List.mem_cons_self
  · exact List.mem_cons_of_mem _ (mem_partsOf hsegment h _)

/-- A component that takes up one segment: any but the root. -/
def IsWhole (component : Component) : Prop := '/' ∉ component.text.toList

theorem IsStep.isWhole {component : Component} (h : IsStep component) : IsWhole component := by
  unfold IsWhole
  rcases h with rfl | ⟨name, hname, rfl⟩
  · decide
  · exact hname.whole

theorem IsWhole.ne_root {component : Component} (h : IsWhole component) :
    (component != .root) = true := by
  rw [bne_iff_ne]
  rintro rfl
  exact absurd h (by unfold IsWhole; decide)

section OfComponents

variable {components : List Component} {name : String}
  (hwhole : ∀ component ∈ components, IsWhole component) (hmem : .name name ∈ components)

include hwhole hmem

end OfComponents

end Components

section Joins

variable {name : String} {base path : FilePath}

/-- The text with a slash behind it, which may be there already; nothing for the empty text. -/
def slashEnded (cs : List Char) : List Char :=
  if cs = [] ∨ cs.getLast? = some '/' then cs else cs ++ ['/']

theorem slashEnded_cases (cs : List Char) : (slashEnded cs = [] ∧ cs = []) ∨
    ∃ front, slashEnded cs = front ++ ['/'] ∧ (cs = front ∨ cs = front ++ ['/']) := by
  unfold slashEnded
  split
  next h =>
    rcases h with hempty | hslash
    · exact .inl ⟨hempty, hempty⟩
    · obtain ⟨front, rfl⟩ := List.getLast?_eq_some_iff.mp hslash
      exact .inr ⟨front, rfl, .inr rfl⟩
  next => exact .inr ⟨cs, rfl, .inl rfl⟩

/-- Only the end of a text decides about the slash behind it. -/
theorem slashEnded_append (cs behind : List Char) :
    slashEnded (slashEnded cs ++ behind) = slashEnded cs ++ slashEnded behind := by
  cases behind with
  | nil =>
    rcases slashEnded_cases cs with ⟨hended, _⟩ | ⟨front, hended, _⟩
    · rw [hended]
      rfl
    · rw [hended, List.append_nil, slashEnded, if_pos (.inr List.getLast?_concat)]
      exact (List.append_nil _).symm
  | cons c behind =>
    generalize slashEnded cs = front
    have hlast : (front ++ c :: behind).getLast? = (c :: behind).getLast? := by
      rw [List.getLast?_append, List.getLast?_cons]
      rfl
    rw [slashEnded, slashEnded, hlast]
    simp only [List.append_eq_nil_iff, List.cons_ne_nil, and_false, false_or]
    split
    next => rfl
    next => rw [List.append_assoc]

theorem join_absolute (base : FilePath) (h : path.isAbsolute = true) : base.join path = path :=
  if_pos h

theorem join_relative (base : FilePath) (h : path.isAbsolute = false) :
    base.join path = ⟨.ofList (slashEnded base.text.toList ++ path.text.toList)⟩ := by
  unfold join slashEnded
  rw [if_neg (by rw [h]; decide), String.endsWith_char_eq_getLast?]
  simp only [← String.toList_eq_nil_iff, beq_iff_eq]
  split
  next => simp
  next => simp [String.append_assoc]

theorem isAbsolute_join (base path : FilePath) :
    (base.join path).isAbsolute = (base.isAbsolute || path.isAbsolute) := by
  cases hpath : path.isAbsolute with
  | true => rw [join_absolute base hpath, hpath, Bool.or_true]
  | false =>
    rw [isAbsolute, String.startsWith_char_eq_head?] at hpath
    rw [join_relative base (by rw [isAbsolute, String.startsWith_char_eq_head?, hpath]), Bool.or_false,
      isAbsolute, isAbsolute, String.startsWith_char_eq_head?, String.startsWith_char_eq_head?,
      String.toList_ofList]
    cases base.text.toList with
    | nil => exact hpath
    | cons c cs =>
      unfold slashEnded
      split <;> rfl

/-- A path as seen from a second one, and that from a first one, is the path as seen from the second
as seen from the first, in the same spelling. -/
theorem join_join (first second path : FilePath) :
    first.join (second.join path) = (first.join second).join path := by
  cases hpath : path.isAbsolute with
  | true => rw [join_absolute _ hpath, join_absolute _ hpath, join_absolute _ hpath]
  | false =>
    have hseen : (second.join path).isAbsolute = second.isAbsolute := by
      rw [isAbsolute_join, hpath, Bool.or_false]
    cases hsecond : second.isAbsolute with
    | true => rw [join_absolute first hsecond, join_absolute first (hseen.trans hsecond)]
    | false =>
      rw [join_relative first (hseen.trans hsecond), join_relative second hpath, join_relative _ hpath,
        join_relative first hsecond, String.toList_ofList, String.toList_ofList, slashEnded_append,
        List.append_assoc]

/-- A relative name is put behind a path and one slash, which is there already or is put in between. -/
theorem joinName_cases (base : FilePath) (hname : (FilePath.mk name).isAbsolute = false) :
    (base.text.toList = [] ∧ (base.joinName name).text.toList = name.toList) ∨
    ∃ cs, (base.text.toList = cs ∨ base.text.toList = cs ++ ['/']) ∧
      (base.joinName name).text.toList = cs ++ '/' :: name.toList := by
  rw [joinName, join_relative base hname, String.toList_ofList]
  rcases slashEnded_cases base.text.toList with ⟨hended, hempty⟩ | ⟨cs, hended, hcs⟩
  · exact .inl ⟨hempty, by rw [hended]; rfl⟩
  · exact .inr ⟨cs, hcs, by simp [hended]⟩

end Joins

section Candidates

/-- A text that leads nowhere but down from the directory that it is put behind. -/
def Downward (rest : List Char) : Prop := ['.', '.'] ∉ segments rest

variable {base spec : List Char} {candidate : FilePath}

end Candidates

section Bare

/-- A specifier of plain names, at least one. -/
structure IsBare (specifier : String) : Prop where
  named : (FilePath.mk specifier).components ≠ []
  plain : ∀ component ∈ (FilePath.mk specifier).components, ∃ name, component = .name name

variable {specifier : String} (h : IsBare specifier)

include h

theorem IsBare.downward : Downward specifier.toList := by
  intro hmem
  obtain ⟨name, hname⟩ := h.plain _ (mem_components (by decide) hmem)
  cases hname

theorem IsBare.first : ∃ first others, segments specifier.toList = first :: others ∧
    ¬ (first = [] ∨ first = ['.']) ∧ first ≠ ['.', '.'] := by
  have hspecifier : specifier.toList ≠ [] := by
    intro hempty
    refine h.named ?_
    rw [components, parts, hempty]
    rfl
  obtain ⟨first, others, hsegments⟩ := List.exists_cons_of_ne_nil (segments_ne_nil specifier.toList)
  have hparts := parts_ofList hspecifier hsegments
  rw [String.ofList_toList] at hparts
  obtain ⟨name, hname⟩ := h.plain (firstPart first).component (by rw [components, hparts]; simp)
  refine ⟨first, others, hsegments, ?_, ?_⟩
  · rintro (rfl | rfl)
    · cases hname
    · cases hname
  · rintro rfl
    cases hname

theorem IsBare.isAbsolute : (FilePath.mk specifier).isAbsolute = false := by
  obtain ⟨first, others, hsegments, hfirst, _⟩ := h.first
  rw [FilePath.isAbsolute, String.startsWith_char_eq_head?, beq_eq_false_iff_ne]
  intro hhead
  obtain ⟨rest, hrest⟩ := List.head?_eq_some_iff.mp hhead
  rw [hrest, segments, if_pos rfl] at hsegments
  exact hfirst (.inl (List.cons.inj hsegments).1.symm)

theorem IsBare.isRelativeSpecifier : Layout.isRelativeSpecifier specifier = false := by
  obtain ⟨first, others, hsegments, hfirst, hparent⟩ := h.first
  rw [Layout.isRelativeSpecifier, Bool.or_eq_false_iff]
  constructor
  · refine Bool.eq_false_iff.mpr fun hcurrent => ?_
    rw [List.isPrefixOf_iff_prefix] at hcurrent
    obtain ⟨rest, hrest⟩ := hcurrent
    rw [← hrest, List.cons_append, List.singleton_append, ← List.singleton_append, segments_under]
      at hsegments
    exact hfirst (.inr (List.cons.inj hsegments).1.symm)
  · refine Bool.eq_false_iff.mpr fun hup => ?_
    rw [List.isPrefixOf_iff_prefix] at hup
    obtain ⟨rest, hrest⟩ := hup
    have hrest' : ['.', '.'] ++ '/' :: rest = specifier.toList := hrest
    rw [← hrest', segments_under] at hsegments
    exact hparent (List.cons.inj hsegments).1.symm

end Bare

end FilePath

end Interpose
