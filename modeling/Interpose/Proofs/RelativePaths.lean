import Interpose.Proofs.Joins

set_option autoImplicit false

namespace Interpose

/-- What two lists share at their heads, and what each of them has behind that. -/
structure Fork (base target shared up down : List Component) : Prop where
  base_eq : base = shared ++ up
  target_eq : target = shared ++ down
  longest : ∀ other, other <+: base → other <+: target → other <+: shared

section Fork

variable {base target shared up down : List Component}

theorem Fork.cons (h : Fork base target shared up down) (component : Component) :
    Fork (component :: base) (component :: target) (component :: shared) up down := by
  refine ⟨congrArg _ h.base_eq, congrArg _ h.target_eq, fun other hbase htarget => ?_⟩
  rcases other with _ | ⟨first, other⟩
  · exact List.nil_prefix
  · obtain ⟨hfirst, hbase⟩ := List.cons_prefix_cons.mp hbase
    obtain ⟨-, htarget⟩ := List.cons_prefix_cons.mp htarget
    exact List.cons_prefix_cons.mpr ⟨hfirst, h.longest other hbase htarget⟩

theorem fork_of_ne {first first' : Component} (hfirst : first ≠ first') :
    Fork (first :: base) (first' :: target) [] (first :: base) (first' :: target) := by
  refine ⟨rfl, rfl, fun other hbase htarget => ?_⟩
  rcases other with _ | ⟨component, other⟩
  · exact List.nil_prefix
  · obtain ⟨hbase, -⟩ := List.cons_prefix_cons.mp hbase
    obtain ⟨htarget, -⟩ := List.cons_prefix_cons.mp htarget
    exact absurd (hbase.symm.trans htarget) hfirst

theorem exists_fork (base target : List Component) : ∃ shared up down,
    Fork base target shared up down ∧ sharedLength base target = shared.length := by
  induction base generalizing target with
  | nil => exact ⟨[], [], target, ⟨rfl, rfl, fun _ h _ => h⟩, rfl⟩
  | cons first base ih =>
    cases target with
    | nil => exact ⟨[], first :: base, [], ⟨rfl, rfl, fun _ _ h => h⟩, rfl⟩
    | cons first' target =>
      by_cases hfirst : first = first'
      · subst hfirst
        obtain ⟨shared, up, down, hfork, hlength⟩ := ih target
        refine ⟨first :: shared, up, down, hfork.cons first, ?_⟩
        rw [sharedLength, if_pos rfl, hlength, List.length_cons]
      · refine ⟨[], _, _, fork_of_ne hfirst, ?_⟩
        rw [sharedLength, if_neg hfirst, List.length_nil]

theorem Fork.sharedLength_eq (h : Fork base target shared up down) :
    sharedLength base target = shared.length := by
  obtain ⟨shared', up', down', h', hlength⟩ := exists_fork base target
  have hshared := h.longest shared' ⟨up', h'.base_eq.symm⟩ ⟨down', h'.target_eq.symm⟩
  have hshared' := h'.longest shared ⟨up, h.base_eq.symm⟩ ⟨down, h.target_eq.symm⟩
  rw [hlength]
  exact Nat.le_antisymm hshared.length_le hshared'.length_le

theorem Fork.mem_down {more shared' up' down' : List Component}
    (h : Fork base target shared up down) (h' : Fork base (target ++ more) shared' up' down')
    {component : Component} (hmem : component ∈ down) : component ∈ down' := by
  have hshared : shared' <+: shared := by
    have hbase : shared' <+: base := ⟨up', h'.base_eq.symm⟩
    have hwhole : shared' <+: target ++ more := ⟨down', h'.target_eq.symm⟩
    rcases List.prefix_or_prefix_of_prefix hwhole (List.prefix_append target more)
      with htarget | htarget
    · exact h.longest shared' hbase htarget
    · -- the whole target is shared with the base, so nothing is left to go down
      have hdown : shared ++ down <+: shared :=
        h.target_eq ▸ h.longest target (htarget.trans hbase) List.prefix_rfl
      have hlength := hdown.length_le
      have hpos := List.length_pos_of_mem hmem
      rw [List.length_append] at hlength
      omega
  obtain ⟨between, rfl⟩ := hshared
  have hwhole : shared' ++ (between ++ down ++ more) = shared' ++ down' := by
    rw [← h'.target_eq, h.target_eq]
    simp only [List.append_assoc]
  rw [← List.append_cancel_left hwhole]
  simp [hmem]

end Fork

namespace FilePath

section Written

variable {first component : Component} {rest steps : List Component}

theorem IsStep.segment (h : IsStep component) :
    ¬ (component.text.toList = [] ∨ component.text.toList = ['.']) ∧
      Component.ofSegment component.text.toList = component := by
  rcases h with rfl | ⟨name, hname, rfl⟩
  · decide
  · exact ⟨hname.not_skipped, hname.ofSegment⟩

theorem not_isStep_root : ¬ IsStep .root := by
  rintro (h | ⟨_, _, h⟩) <;> cases h

theorem not_isStep_current : ¬ IsStep .current := by
  rintro (h | ⟨_, _, h⟩) <;> cases h

theorem component_partsOf_steps (hsteps : ∀ component ∈ steps, IsStep component) (offset : Nat) :
    (partsOf (steps.map fun component => component.text.toList) offset).map Part.component =
      steps := by
  induction steps generalizing offset with
  | nil => rfl
  | cons component steps ih =>
    obtain ⟨hcomponent, hrest⟩ := List.forall_mem_cons.mp hsteps
    obtain ⟨hkept, hsegment⟩ := hcomponent.segment
    rw [List.map_cons, partsOf, if_neg hkept, List.map_cons, hsegment, ih hrest]

theorem segments_steps (hwhole : ∀ component ∈ steps, IsWhole component) (hne : steps ≠ []) :
    segments ("/".intercalate (steps.map Component.text)).toList =
      steps.map fun component => component.text.toList := by
  rw [String.toList_intercalate, List.map_map, show "/".toList = ['/'] from rfl,
    segments_intercalate]
  · rfl
  · simpa using hne
  · intro part hpart
    obtain ⟨component, hcomponent, rfl⟩ := List.mem_map.mp hpart
    exact hwhole component hcomponent

theorem component_partsOf_intercalate (hsteps : ∀ component ∈ steps, IsStep component)
    (offset : Nat) :
    (partsOf (segments ("/".intercalate (steps.map Component.text)).toList) offset).map
      Part.component = steps := by
  by_cases hne : steps = []
  · subst hne
    rfl
  · rw [segments_steps (fun component h => (hsteps component h).isWhole) hne]
    exact component_partsOf_steps hsteps offset

theorem components_ofComponents (hfirst : first = .root ∨ first = .current ∨ IsStep first)
    (hrest : ∀ component ∈ rest, IsStep component) :
    (ofComponents (first :: rest)).components = first :: rest := by
  have hwhole : ∀ component ∈ rest, IsWhole component :=
    fun component h => (hrest component h).isWhole
  by_cases hroot : first = .root
  · subst hroot
    have htext : (ofComponents (.root :: rest)).text.toList =
        '/' :: ("/".intercalate (rest.map Component.text)).toList := by
      rw [ofComponents]
      exact String.toList_append
    rw [eq_ofList htext, components_rooted, component_partsOf_intercalate hrest]
  · have hfirst' : first = .current ∨ IsStep first := hfirst.resolve_left hroot
    have hall : ∀ component ∈ first :: rest, IsWhole component := by
      refine List.forall_mem_cons.mpr ⟨?_, hwhole⟩
      rcases hfirst' with rfl | hstep
      · unfold IsWhole
        decide
      · exact hstep.isWhole
    have hdrop : (first :: rest).dropWhile (· != .root) = [] := by
      rw [← List.append_nil (first :: rest),
        List.dropWhile_append_of_pos fun component h => (hall component h).ne_root]
      rfl
    have htext : ofComponents (first :: rest) =
        ⟨"/".intercalate ((first :: rest).map Component.text)⟩ := by
      rw [ofComponents, hdrop]
    have hpart : (firstPart first.text.toList).component = first := by
      rcases hfirst' with rfl | hstep
      · rfl
      · obtain ⟨hkept, hsegment⟩ := hstep.segment
        obtain ⟨hempty, hdot⟩ := not_or.mp hkept
        rw [firstPart, if_neg hempty, if_neg hdot, hsegment]
    have hsegments : segments ("/".intercalate ((first :: rest).map Component.text)).toList =
        first.text.toList :: rest.map fun component => component.text.toList :=
      segments_steps hall (List.cons_ne_nil first rest)
    have hne : ("/".intercalate ((first :: rest).map Component.text)).toList ≠ [] := by
      intro hempty
      rw [hempty, segments] at hsegments
      obtain ⟨hnothing, -⟩ := List.cons.inj hsegments
      rcases hfirst' with rfl | hstep
      · cases hnothing
      · exact hstep.segment.1 (.inl hnothing.symm)
    have hparts := parts_ofList hne hsegments
    rw [String.ofList_toList] at hparts
    rw [htext, components, hparts, List.map_cons, hpart, component_partsOf_steps hrest]

theorem components_ofComponents_steps (hsteps : ∀ component ∈ steps, IsStep component) :
    (ofComponents steps).components = steps := by
  rcases steps with _ | ⟨first, rest⟩
  · decide
  · obtain ⟨hfirst, hrest⟩ := List.forall_mem_cons.mp hsteps
    exact components_ofComponents (.inr (.inr hfirst)) hrest

end Written

section Joined

variable {base path : FilePath}

theorem components_steps (hsteps : ∀ component ∈ path.components, IsStep component) (offset : Nat) :
    (partsOf (segments path.text.toList) offset).map Part.component = path.components := by
  by_cases hpath : path.text.toList = []
  · rw [components, parts, hpath]
    rfl
  obtain ⟨first, others, hsegments⟩ := List.exists_cons_of_ne_nil (segments_ne_nil path.text.toList)
  have hparts := parts_ofList hpath hsegments
  rw [String.ofList_toList] at hparts
  rw [components, hparts, List.map_cons] at hsteps ⊢
  have hfirst := hsteps _ List.mem_cons_self
  unfold firstPart at hfirst ⊢
  split at hfirst
  next => exact absurd hfirst not_isStep_root
  next hroot =>
    split at hfirst
    next => exact absurd hfirst not_isStep_current
    next hcurrent =>
      rw [hsegments, partsOf, if_neg (not_or.mpr ⟨hroot, hcurrent⟩), if_neg hroot, if_neg hcurrent,
        List.map_cons]
      exact congrArg (List.cons _) (component_partsOf_anywhere ..)

theorem not_isAbsolute_of_steps (hsteps : ∀ component ∈ path.components, IsStep component) :
    path.isAbsolute = false := by
  rw [isAbsolute, String.startsWith_char_eq_head?, beq_eq_false_iff_ne]
  intro hhead
  obtain ⟨cs, hcs⟩ := List.head?_eq_some_iff.mp hhead
  rw [eq_ofList hcs, components_rooted] at hsteps
  exact not_isStep_root (hsteps _ List.mem_cons_self)

theorem components_join (hbase : base.isAbsolute = true)
    (hsteps : ∀ component ∈ path.components, IsStep component) :
    (base.join path).components = base.components ++ path.components := by
  have hnonempty : base.text.toList ≠ [] := by
    intro hempty
    rw [isAbsolute, String.startsWith_char_eq_head?, hempty] at hbase
    cases hbase
  obtain ⟨hempty, _⟩ | ⟨cs, hcs, htext⟩ := base.joinName_cases (not_isAbsolute_of_steps hsteps)
  · exact absurd hempty hnonempty
  have hjoined : (base.join path).text.toList = cs ++ '/' :: path.text.toList := htext
  rw [eq_ofList hjoined]
  by_cases hroot : cs = []
  · subst hroot
    have hbase' : base.text.toList = ['/'] := hcs.resolve_left hnonempty
    rw [List.nil_append, components_rooted, components_steps hsteps, eq_ofList hbase']
    rfl
  · have hall : ∀ rest : List Char, (FilePath.mk (.ofList (cs ++ '/' :: rest))).components =
        (FilePath.mk (.ofList cs)).components ++
          (partsOf (segments rest) (cs.length + 1)).map Part.component := by
      intro rest
      rw [components, parts_under hroot, List.map_append, components]
    have hfront : base.components = (FilePath.mk (.ofList cs)).components := by
      rcases hcs with hcs | hcs
      · rw [eq_ofList hcs]
      · rw [eq_ofList hcs, hall []]
        exact List.append_nil _
    rw [hall, components_steps hsteps, hfront]

end Joined

section Settled

/-- The components behind those that are already settled, the last of which is first. A `..` takes
back the name before it, and nothing is above the root. -/
def settle (done : List Component) : Component → List Component
  | .root => [.root]
  | .current => done
  | .name text => .name text :: done
  | .parent =>
    match done with
    | .name _ :: above => above
    | .root :: _ => done
    | _ => .parent :: done

/-- The components of a path with each `..` resolved by the text alone. -/
def settled (path : FilePath) : List Component := (path.components.foldl settle []).reverse

theorem foldl_settle_names (names : List String) (done : List Component) :
    (names.map Component.name).foldl settle done = (names.map Component.name).reverse ++ done := by
  induction names generalizing done with
  | nil => rfl
  | cons name names ih => simp only [List.map_cons, List.foldl_cons, settle, ih, List.reverse_cons,
      List.append_assoc, List.singleton_append]

theorem foldl_settle_parents (names : List String) (done : List Component) :
    (List.replicate names.length Component.parent).foldl settle
      (names.map Component.name ++ done) = done := by
  induction names with
  | nil => rfl
  | cons name names ih => simpa only [List.length_cons, List.replicate_succ, List.foldl_cons,
      List.map_cons, List.cons_append, settle] using ih

/-- Down, up again as far as the second way down begins, and that way down. -/
theorem foldl_settle_way (above back front : List String) :
    (Component.root :: (above ++ back).map .name ++
      (List.replicate back.length Component.parent ++ front.map Component.name)).foldl settle [] =
      (Component.root :: (above ++ front).map .name).reverse := by
  have hback : ∀ done, (List.replicate back.length Component.parent).foldl settle
      ((back.map Component.name).reverse ++ done) = done := by
    intro done
    have hparents := foldl_settle_parents back.reverse done
    rwa [List.length_reverse, List.map_reverse] at hparents
  have hdown : (Component.root :: (above ++ back).map .name).foldl settle [] =
      (back.map Component.name).reverse ++ ((above.map Component.name).reverse ++ [.root]) := by
    rw [List.foldl_cons, foldl_settle_names, List.map_append, List.reverse_append,
      List.append_assoc]
    rfl
  rw [List.foldl_append, List.foldl_append, hdown, hback, foldl_settle_names]
  simp

end Settled

section Relative

variable {base target : FilePath}

def Direct (path : FilePath) : Prop := path.isAbsolute = true ∧ Component.parent ∉ path.components

instance (path : FilePath) : Decidable path.Direct := inferInstanceAs (Decidable (_ ∧ _))

theorem exists_names {steps : List Component} (hsteps : ∀ component ∈ steps, IsStep component)
    (hparent : Component.parent ∉ steps) : ∃ names : List String, steps = names.map .name := by
  induction steps with
  | nil => exact ⟨[], rfl⟩
  | cons component steps ih =>
    obtain ⟨hcomponent, hrest⟩ := List.forall_mem_cons.mp hsteps
    rw [List.mem_cons, not_or] at hparent
    obtain ⟨names, rfl⟩ := ih hrest hparent.2
    obtain ⟨name, _, rfl⟩ := hcomponent.resolve_left (Ne.symm hparent.1)
    exact ⟨name :: names, rfl⟩

theorem Direct.components {path : FilePath} (h : path.Direct) :
    ∃ names : List String, path.components = .root :: names.map .name := by
  obtain ⟨habsolute, hparent⟩ := h
  obtain ⟨steps, hcomponents, hsteps⟩ := components_absolute habsolute
  rw [hcomponents, List.mem_cons, not_or] at hparent
  rw [hcomponents]
  exact (exists_names hsteps hparent.2).imp fun names hnames => congrArg _ hnames

variable {shared up down : List Component}

theorem fork_rooted (hbase : base.isAbsolute = true) (htarget : target.isAbsolute = true)
    (hfork : Fork base.components target.components shared up down) :
    ∃ others, shared = .root :: others ∧ ∀ component ∈ down, IsStep component := by
  obtain ⟨steps, hsteps, _⟩ := components_absolute hbase
  obtain ⟨steps', hsteps', hall⟩ := components_absolute htarget
  have hroot : ∀ {rest}, [Component.root] <+: .root :: rest :=
    fun {rest} => List.cons_prefix_cons.mpr ⟨rfl, List.nil_prefix⟩
  obtain ⟨others, rfl⟩ := hfork.longest [.root] (hsteps ▸ hroot) (hsteps' ▸ hroot)
  refine ⟨others, rfl, fun component hcomponent => hall component ?_⟩
  have htarget := hfork.target_eq
  rw [hsteps', List.singleton_append, List.cons_append] at htarget
  rw [(List.cons.inj htarget).2]
  exact List.mem_append_right _ hcomponent

theorem components_relative (hbase : base.isAbsolute = true) (htarget : target.isAbsolute = true)
    (hfork : Fork base.components target.components shared up down) :
    (relative base target).components = List.replicate up.length .parent ++ down := by
  obtain ⟨_, _, hdown⟩ := fork_rooted hbase htarget hfork
  have hway : relative base target = ofComponents (List.replicate up.length .parent ++ down) := by
    unfold relative
    rw [hfork.sharedLength_eq, hfork.base_eq, hfork.target_eq]
    simp
  have hsteps : ∀ component ∈ List.replicate up.length .parent ++ down, IsStep component := by
    refine List.forall_mem_append.mpr ⟨fun component h => .inl (List.eq_of_mem_replicate h), hdown⟩
  rw [hway]
  exact components_ofComponents_steps hsteps

theorem isDependency_iff_mem (hbase : base.isAbsolute = true) (htarget : target.isAbsolute = true)
    (hfork : Fork base.components target.components shared up down) (name : String) :
    isDependency base target name = true ↔ .name name ∈ down := by
  have hup : Component.name name ∉ List.replicate up.length .parent :=
    fun hmem => nomatch List.eq_of_mem_replicate hmem
  rw [isDependency, List.contains_iff_mem, components_relative hbase htarget hfork, List.mem_append]
  exact or_iff_right hup

/-- The way from one path to another goes up from where they part and down from there. It leads to
the target, and it passes through a dependency directory where the name is one that the target has
behind what the paths share. So all that is below a dependency is one. -/
theorem relative_leads_to_target (hbase : base.Direct) (htarget : target.Direct) :
    ∃ shared up down, Fork base.components target.components shared up down ∧
      (relative base target).components = List.replicate up.length .parent ++ down ∧
      settled (base.join (relative base target)) = target.components ∧
      ∀ name, (isDependency base target name = true ↔ .name name ∈ down) ∧
        ∀ below : FilePath, below.isWithin target = true → isDependency base target name = true →
          isDependency base below name = true := by
  obtain ⟨shared, up, down, hfork, -⟩ := exists_fork base.components target.components
  have hrelative := components_relative hbase.1 htarget.1 hfork
  obtain ⟨others, rfl, hdown⟩ := fork_rooted hbase.1 htarget.1 hfork
  have hsteps : ∀ component ∈ (relative base target).components, IsStep component := by
    rw [hrelative]
    exact List.forall_mem_append.mpr ⟨fun component h => .inl (List.eq_of_mem_replicate h), hdown⟩
  refine ⟨.root :: others, up, down, hfork, hrelative, ?_, fun name => ?_⟩
  · obtain ⟨names, hnames⟩ := hbase.components
    obtain ⟨names', hnames'⟩ := htarget.components
    have hbase' := hfork.base_eq
    have htarget' := hfork.target_eq
    rw [hnames] at hbase'
    rw [hnames'] at htarget'
    obtain ⟨above, back, rfl, rfl, rfl⟩ := List.map_eq_append_iff.mp (List.cons.inj hbase').2
    obtain ⟨above', front, rfl, habove, rfl⟩ := List.map_eq_append_iff.mp (List.cons.inj htarget').2
    obtain rfl : above' = above := (List.map_inj_right fun _ _ => Component.name.inj).mp habove
    rw [settled, components_join hbase.1 hsteps, hrelative, List.length_map, hnames, hnames',
      foldl_settle_way, List.reverse_reverse]
  · refine ⟨isDependency_iff_mem hbase.1 htarget.1 hfork name, fun below hbelow hdependency => ?_⟩
    obtain ⟨shared', up', down', hfork', -⟩ := exists_fork base.components below.components
    rw [isWithin, List.isPrefixOf_iff_prefix] at hbelow
    obtain ⟨more, hmore⟩ := hbelow
    have habsolute : below.isAbsolute = true := by
      rw [hfork.target_eq] at hmore
      exact isAbsolute_of_root hmore.symm
    rw [isDependency_iff_mem hbase.1 htarget.1 hfork] at hdependency
    rw [isDependency_iff_mem hbase.1 habsolute hfork']
    exact hfork.mem_down (hmore ▸ hfork') hdependency

/-- The entry directory is itself in a dependency directory. What is beside it there is no
dependency, and what is in a dependency directory of its own is one, and so is all below that. -/
theorem relative_leads_to_target_inside : Direct ⟨"/w/libs/app"⟩ ∧ Direct ⟨"/w//libs/./x/"⟩ ∧
    Direct ⟨"/w/libs/app/libs"⟩ ∧
    settled (join ⟨"/w/libs/app"⟩ (relative ⟨"/w/libs/app"⟩ ⟨"/w//libs/./x/"⟩)) =
      [.root, .name "w", .name "libs", .name "x"] ∧
    isDependency ⟨"/w/libs/app"⟩ ⟨"/w//libs/./x/"⟩ "libs" = false ∧
    isDependency ⟨"/w/libs/app"⟩ ⟨"/w/libs/app/libs/../m.svs"⟩ "libs" = true := by
  have hentry : Direct ⟨"/w/libs/app"⟩ := by decide +kernel
  have hbeside : Direct ⟨"/w//libs/./x/"⟩ := by decide +kernel
  have hlibs : Direct ⟨"/w/libs/app/libs"⟩ := by decide +kernel
  obtain ⟨_, _, _, _, _, hsettled, _⟩ := relative_leads_to_target hentry hbeside
  obtain ⟨_, _, _, _, _, _, hdependency⟩ := relative_leads_to_target hentry hlibs
  refine ⟨hentry, hbeside, hlibs, hsettled.trans (by decide +kernel), by decide +kernel, ?_⟩
  exact (hdependency "libs").2 _ (by decide +kernel) (by decide +kernel)

end Relative

end FilePath

end Interpose
