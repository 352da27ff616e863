import Interpose.Proofs.Moves

/-!
Who holds a slot, and who can free it. A slot that is held is held through the activation that
filled it last, as long as that one was not ended; every other activation is of no effect.
-/

set_option autoImplicit false

namespace Interpose

namespace World

/-- The activation is the one of that number, and filled the slot. -/
structure Fills (w : World) (n : Nat) (activation : Activation) : Prop where
  issued : w.issued[n]? = some activation
  fresh : activation.fresh = true

structure Live (w : World) (n : Nat) (activation : Activation) : Prop extends
    w.Fills n activation where
  unended : w.ended n = false

/-- The activation is the one that filled the slot of its loader last. -/
structure Latest (w : World) (n : Nat) (activation : Activation) : Prop extends
    w.Fills n activation where
  last : ∀ m other, w.Fills m other →
    other.interceptor.loader = activation.interceptor.loader → m ≤ n

/-- How activations go with the slots and their counts, as long as nothing goes past the
interceptors. -/
structure Linked (w : World) : Prop where
  counted : ∀ interceptor ∈ w.interceptors, interceptor.id < w.host.nextOwner
  distinct : ∀ first ∈ w.interceptors, ∀ second ∈ w.interceptors, first.id = second.id →
    first = second
  live : ∀ {n activation}, w.Live n activation →
    (w.loader activation.interceptor.loader).slot.current =
      ⟨activation.stage, some activation.interceptor.id, activation.interceptor.stage⟩
  held : ∀ {id owner}, (w.loader id).slot.current.owner = some owner →
    ∃ n activation, w.Live n activation ∧ activation.interceptor.loader = id
  numbered : ∀ {n activation}, w.Fills n activation →
    activation.stage < (w.loader activation.interceptor.loader).slot.nextId
  ordered : ∀ {n m earlier later}, w.Fills n earlier → w.Fills m later → n < m →
    earlier.interceptor.loader = later.interceptor.loader →
      w.ended n = true ∧ earlier.stage < later.stage

theorem Fills.lt {w : World} {n : Nat} {activation : Activation} (h : w.Fills n activation) :
    n < w.issued.length := (List.getElem?_eq_some_iff.mp h.issued).1

section Issue

variable {w : World} {activation other : Activation} {holder : Holder} {n : Nat}

theorem fills_issue (h : (w.issue activation holder).Fills n other) :
    w.Fills n other ∨ n = w.issued.length ∧ other = activation := by
  have hissued : (w.issued ++ [activation])[n]? = some other := h.issued
  rw [List.getElem?_append] at hissued
  split at hissued
  · exact .inl ⟨hissued, h.fresh⟩
  · rw [List.getElem?_singleton] at hissued
    split at hissued
    · refine .inr ⟨by omega, (Option.some.inj hissued).symm⟩
    · cases hissued

theorem Fills.issue (h : w.Fills n other) : (w.issue activation holder).Fills n other :=
  ⟨(List.getElem?_append_left h.lt).trans h.issued, h.fresh⟩

theorem fills_issue_last (h : activation.fresh = true) :
    (w.issue activation holder).Fills w.issued.length activation :=
  ⟨List.getElem?_concat_length, h⟩

theorem ended_issue (h : n < w.issued.length) :
    (w.issue activation holder).ended n = w.ended n :=
  Function.update_of_ne (Nat.ne_of_lt h) _ _

theorem ended_issue_last : (w.issue activation holder).ended w.issued.length = false :=
  Function.update_self ..

theorem live_issue (h : (w.issue activation holder).Live n other) :
    w.Live n other ∨ n = w.issued.length ∧ other = activation := by
  refine (fills_issue h.toFills).imp_left fun hfills => ⟨hfills, ?_⟩
  rw [← ended_issue hfills.lt]
  exact h.unended

theorem Live.issue (h : w.Live n other) : (w.issue activation holder).Live n other :=
  ⟨h.toFills.issue, (ended_issue h.toFills.lt).trans h.unended⟩

end Issue

namespace Linked

variable {w : World}

theorem eq_of_live (hw : w.Linked) {n m : Nat} {first second : Activation}
    (hn : w.Live n first) (hm : w.Live m second)
    (h : first.interceptor.loader = second.interceptor.loader) : n = m := by
  rcases Nat.lt_trichotomy n m with hlt | heq | hgt
  · have hended := (hw.ordered hn.toFills hm.toFills hlt h).1
    rw [hn.unended] at hended
    cases hended
  · exact heq
  · have hended := (hw.ordered hm.toFills hn.toFills hgt h.symm).1
    rw [hm.unended] at hended
    cases hended

/-- Of the activations that filled a slot, the one whose stage is there is the one not ended. -/
theorem stands_iff (hw : w.Linked) {n : Nat} {activation : Activation}
    (hn : w.issued[n]? = some activation) : activation.Stands w.host ↔ w.Live n activation := by
  constructor
  · rintro ⟨hfresh, howner, hid⟩
    obtain ⟨m, other, hlive, hloader⟩ := hw.held howner
    have hcurrent := hw.live hlive
    rw [hloader] at hcurrent
    rw [hcurrent] at hid
    have hfills : w.Fills n activation := ⟨hn, hfresh⟩
    -- stages grow with the activations that bring them, so no other one can have this stage
    rcases Nat.lt_trichotomy n m with hlt | heq | hgt
    · have hless := (hw.ordered hfills hlive.toFills hlt hloader.symm).2
      exact absurd hid (Nat.ne_of_gt hless)
    · exact ⟨hfills, heq ▸ hlive.unended⟩
    · have hended := (hw.ordered hlive.toFills hfills hgt hloader).1
      rw [hlive.unended] at hended
      cases hended
  · intro hlive
    have hcurrent := hw.live hlive
    exact ⟨hlive.fresh, by rw [hcurrent], by rw [hcurrent]⟩

/-- Endings and events that change no slot: what is held still is held through an activation that
is live still. -/
theorem ending (hw : w.Linked) {host : Host} {holder : Nat → Option Holder} {ended : Nat → Bool}
    {snapshots : List Occupant} (hcount : host.nextOwner = w.host.nextOwner)
    (hended : ∀ n, w.ended n = true → ended n = true)
    (hnext : ∀ id, (host.loader id).slot.nextId = (w.loader id).slot.nextId)
    (hlive : ∀ n activation, w.Live n activation → ended n = false →
      (host.loader activation.interceptor.loader).slot.current =
        (w.loader activation.interceptor.loader).slot.current)
    (hheld : ∀ id owner, (host.loader id).slot.current.owner = some owner →
      (w.loader id).slot.current.owner = some owner ∧
        ∀ n activation, w.Live n activation → activation.interceptor.loader = id →
          ended n = false) :
    Linked { w with host, holder, ended, snapshots } := by
  have unended : ∀ n, ended n = false → w.ended n = false := by
    intro n hn
    cases hwn : w.ended n with
    | false => rfl
    | true => rw [← hn, hended n hwn]
  refine ⟨?_, hw.distinct, ?_, ?_, ?_, ?_⟩
  · intro interceptor hmem
    exact Nat.lt_of_lt_of_eq (hw.counted interceptor hmem) hcount.symm
  · rintro n activation ⟨⟨hissued, hfresh⟩, hn⟩
    have hwas : w.Live n activation := ⟨⟨hissued, hfresh⟩, unended n hn⟩
    exact (hlive n activation hwas hn).trans (hw.live hwas)
  · intro id owner howner
    obtain ⟨hwas, hstill⟩ := hheld id owner howner
    obtain ⟨n, activation, hl, hloader⟩ := hw.held hwas
    exact ⟨n, activation, ⟨⟨hl.issued, hl.fresh⟩, hstill n activation hl hloader⟩, hloader⟩
  · rintro n activation ⟨hissued, hfresh⟩
    exact Nat.lt_of_lt_of_eq (hw.numbered ⟨hissued, hfresh⟩) (hnext _).symm
  · rintro n m earlier later ⟨hn, hearlier⟩ ⟨hm, hlater⟩ hlt hloader
    obtain ⟨hwas, hless⟩ := hw.ordered ⟨hn, hearlier⟩ ⟨hm, hlater⟩ hlt hloader
    exact ⟨hended n hwas, hless⟩

theorem of_slots (hw : w.Linked) {host : Host} {holder : Nat → Option Holder}
    {snapshots : List Occupant} (hcount : host.nextOwner = w.host.nextOwner)
    (hslot : ∀ id, (host.loader id).slot = (w.loader id).slot) :
    Linked { w with host, holder, snapshots } := by
  refine hw.ending hcount (fun _ h => h) (fun id => by rw [hslot]) (fun _ _ _ _ => by rw [hslot]) ?_
  intro id owner howner
  rw [hslot] at howner
  exact ⟨howner, fun _ _ hlive _ => hlive.unended⟩

theorem built (hw : w.Linked) {interceptor : Interceptor}
    (hcounted : interceptor.id = w.host.nextOwner) :
    Linked { w with
      host := { w.host with nextOwner := w.host.nextOwner + 1 }
      interceptors := w.interceptors ++ [interceptor] } := by
  have known : ∀ other ∈ w.interceptors ++ [interceptor],
      other ∈ w.interceptors ∧ other.id < w.host.nextOwner ∨ other = interceptor := by
    intro other hother
    rcases List.mem_append.mp hother with hother | hother
    · exact .inl ⟨hother, hw.counted other hother⟩
    · exact .inr (List.mem_singleton.mp hother)
  refine ⟨?_, ?_, fun h => hw.live ⟨⟨h.issued, h.fresh⟩, h.unended⟩, ?_,
    fun h => hw.numbered ⟨h.issued, h.fresh⟩,
    fun h h' => hw.ordered ⟨h.issued, h.fresh⟩ ⟨h'.issued, h'.fresh⟩⟩
  · intro other hother
    change other.id < w.host.nextOwner + 1
    rcases known other hother with ⟨_, hless⟩ | rfl
    · exact Nat.lt_succ_of_lt hless
    · exact Nat.lt_succ_of_le (Nat.le_of_eq hcounted)
  · intro first hfirst second hsecond hid
    rcases known first hfirst with ⟨hmem, hless⟩ | rfl
    · rcases known second hsecond with ⟨hmem', hless'⟩ | rfl
      · exact hw.distinct first hmem second hmem' hid
      · exact absurd (hid.trans hcounted) (Nat.ne_of_lt hless)
    · rcases known second hsecond with ⟨hmem', hless'⟩ | rfl
      · exact absurd (hid.symm.trans hcounted) (Nat.ne_of_lt hless')
      · rfl
  · intro id owner howner
    obtain ⟨n, activation, hlive, hloader⟩ := hw.held howner
    exact ⟨n, activation, ⟨⟨hlive.issued, hlive.fresh⟩, hlive.unended⟩, hloader⟩

theorem filled (hw : w.Linked) {interceptor : Interceptor}
    (hknown : interceptor.loader < w.host.loaders.length)
    (hfree : (w.loader interceptor.loader).slot.current.owner = none) (holder : Holder) :
    Linked ({ w with host := w.install interceptor }.issue
      ⟨interceptor, (w.loader interceptor.loader).slot.nextId, true⟩ holder) := by
  have hself := loader_install hknown
  -- a live activation would hold the slot
  have hnotlive : ∀ {n activation}, w.Live n activation →
      activation.interceptor.loader ≠ interceptor.loader := by
    intro n activation hlive hloader
    have hcurrent := hw.live hlive
    rw [hloader] at hcurrent
    rw [hcurrent] at hfree
    cases hfree
  refine ⟨hw.counted, hw.distinct, ?_, ?_, ?_, ?_⟩
  · intro n activation hlive
    change ((w.install interceptor).loader _).slot.current = _
    rcases live_issue hlive with hwas | ⟨_, rfl⟩
    · have hl : w.Live n activation := ⟨⟨hwas.issued, hwas.fresh⟩, hwas.unended⟩
      rw [loader_install_of_ne (hnotlive hl)]
      exact hw.live hl
    · rw [hself]
      rfl
  · intro id owner howner
    change ((w.install interceptor).loader id).slot.current.owner = _ at howner
    by_cases hid : id = interceptor.loader
    · exact ⟨w.issued.length, _, ⟨fills_issue_last rfl, ended_issue_last⟩, hid.symm⟩
    · rw [loader_install_of_ne hid] at howner
      obtain ⟨n, activation, hlive, hloader⟩ := hw.held howner
      have hwas : Live { w with host := w.install interceptor } n activation :=
        ⟨⟨hlive.issued, hlive.fresh⟩, hlive.unended⟩
      exact ⟨n, activation, hwas.issue, hloader⟩
  · intro n activation hfills
    change _ < ((w.install interceptor).loader _).slot.nextId
    rcases fills_issue hfills with hwas | ⟨_, rfl⟩
    · have hold : w.Fills n activation := ⟨hwas.issued, hwas.fresh⟩
      have hless := hw.numbered hold
      by_cases hloader : activation.interceptor.loader = interceptor.loader
      · rw [hloader] at hless ⊢
        rw [hself]
        exact Nat.lt_succ_of_lt hless
      · rw [loader_install_of_ne hloader]
        exact hless
    · rw [hself]
      exact Nat.lt_succ_self _
  · intro n m earlier later hn hm hlt hloader
    have hold : w.Fills n earlier := by
      rcases fills_issue hn with hn | ⟨rfl, _⟩
      · exact ⟨hn.issued, hn.fresh⟩
      · rcases fills_issue hm with hm | ⟨rfl, _⟩
        · exact absurd hlt (Nat.lt_asymm hm.lt)
        · exact absurd hlt (Nat.lt_irrefl _)
    change Function.update w.ended w.issued.length false n = true ∧ _
    rw [Function.update_of_ne (Nat.ne_of_lt hold.lt)]
    rcases fills_issue hm with hm | ⟨_, rfl⟩
    · exact hw.ordered hold ⟨hm.issued, hm.fresh⟩ hlt hloader
    · refine ⟨?_, hloader ▸ hw.numbered hold⟩
      cases hended : w.ended n with
      | true => rfl
      | false => exact absurd hloader (hnotlive ⟨hold, hended⟩)

theorem joined (hw : w.Linked) (interceptor : Interceptor) (stage : StageId) (holder : Holder) :
    Linked (w.issue ⟨interceptor, stage, false⟩ holder) := by
  have old : ∀ {n activation},
      (w.issue ⟨interceptor, stage, false⟩ holder).Fills n activation → w.Fills n activation := by
    intro n activation hfills
    rcases fills_issue hfills with hwas | ⟨_, rfl⟩
    · exact hwas
    · cases hfills.fresh
  refine ⟨hw.counted, hw.distinct, ?_, ?_, fun h => hw.numbered (old h), ?_⟩
  · intro n activation hlive
    have hwas := old hlive.toFills
    exact hw.live ⟨hwas, (ended_issue hwas.lt).symm.trans hlive.unended⟩
  · intro id owner howner
    obtain ⟨n, activation, hlive, hloader⟩ := hw.held howner
    exact ⟨n, activation, hlive.issue, hloader⟩
  · intro n m earlier later hn hm hlt hloader
    rw [ended_issue (old hn).lt]
    exact hw.ordered (old hn) (old hm) hlt hloader

theorem eq_of_isBy (hw : w.Linked) (hr : w.Rooted) {interceptor : Interceptor}
    (hmem : interceptor ∈ w.interceptors) {n : Nat} {activation : Activation}
    (hn : w.issued[n]? = some activation) (h : w.isBy interceptor n = true) :
    activation.interceptor = interceptor := by
  unfold isBy at h
  rw [hn] at h
  exact hw.distinct _ (hr.issuer activation (List.mem_of_getElem? hn)) _ hmem (beq_iff_eq.mp h)

theorem restored (hw : w.Linked) (hr : w.Rooted) {interceptor : Interceptor}
    (hmem : interceptor ∈ w.interceptors) {holder : Nat → Option Holder} {ended : Nat → Bool}
    (hended : ∀ n, w.ended n = true → ended n = true)
    (hself : ∀ n activation, w.Live n activation →
      (activation.interceptor.loader = interceptor.loader ↔ ended n = true)) :
    Linked { w with host := w.restore interceptor, holder, ended } := by
  have hknown := hr.known interceptor hmem
  refine hw.ending rfl hended ?_ ?_ ?_
  · intro id
    by_cases hid : id = interceptor.loader
    · subst hid
      rw [loader_restore hknown]
      rfl
    · rw [loader_restore_of_ne hid]
  · intro n activation hlive hn
    have hother : activation.interceptor.loader ≠ interceptor.loader := by
      intro hloader
      rw [(hself n activation hlive).mp hloader] at hn
      cases hn
    rw [loader_restore_of_ne hother]
  · intro id owner howner
    by_cases hid : id = interceptor.loader
    · subst hid
      rw [loader_restore hknown] at howner
      change interceptor.underlying.owner = _ at howner
      rw [hr.underlying interceptor hmem] at howner
      cases howner
    · rw [loader_restore_of_ne hid] at howner
      refine ⟨howner, fun n activation hlive hloader => ?_⟩
      rw [← Bool.not_eq_true]
      intro hn
      exact hid (hloader.symm.trans ((hself n activation hlive).mpr hn))

theorem deactivated (hw : w.Linked) (hr : w.Rooted) {interceptor : Interceptor}
    (hmem : interceptor ∈ w.interceptors) (hheld : interceptor.isActive w.host = true) :
    Linked { w with
      host := w.restore interceptor
      ended := fun n => w.ended n || w.isBy interceptor n } := by
  refine hw.restored hr hmem (fun n hn => by rw [hn, Bool.true_or]) ?_
  intro n activation hlive
  rw [hlive.unended, Bool.false_or]
  constructor
  · intro hloader
    have hcurrent := hw.live hlive
    rw [hloader] at hcurrent
    have howner := Interceptor.isActive_iff.mp hheld
    rw [hcurrent] at howner
    unfold isBy
    rw [hlive.issued]
    exact beq_iff_eq.mpr (Option.some.inj howner)
  · intro hby
    rw [hw.eq_of_isBy hr hmem hlive.issued hby]

theorem inactive (hw : w.Linked) (hr : w.Rooted) {interceptor : Interceptor}
    (hmem : interceptor ∈ w.interceptors) (hidle : ¬ interceptor.isActive w.host = true) :
    Linked { w with ended := fun n => w.ended n || w.isBy interceptor n } := by
  refine hw.ending rfl (fun n hn => by rw [hn, Bool.true_or]) (fun _ => rfl) (fun _ _ _ _ => rfl) ?_
  intro id owner howner
  refine ⟨howner, fun n activation hlive hloader => ?_⟩
  rw [hlive.unended, Bool.false_or, ← Bool.not_eq_true]
  intro hby
  have hcurrent := hw.live hlive
  rw [hw.eq_of_isBy hr hmem hlive.issued hby] at hcurrent
  exact hidle (Interceptor.isActive_iff.mpr (by rw [hcurrent]))

theorem finished (hw : w.Linked) (hr : w.Rooted) {n : Nat} {activation : Activation}
    (hlive : w.Live n activation) :
    Linked { w with
      host := w.restore activation.interceptor
      holder := Function.update w.holder n none
      ended := Function.update w.ended n true } := by
  have hmem := hr.issuer activation (List.mem_of_getElem? hlive.issued)
  refine hw.restored hr hmem ?_ ?_
  · intro m hm
    by_cases hmn : m = n
    · rw [hmn, Function.update_self]
    · rw [Function.update_of_ne hmn, hm]
  · intro m other hother
    constructor
    · intro hloader
      rw [hw.eq_of_live hother hlive hloader, Function.update_self]
    · intro hm
      by_cases hmn : m = n
      · subst hmn
        have hsame := hother.issued.symm.trans hlive.issued
        rw [Option.some.inj hsame]
      · rw [Function.update_of_ne hmn, hother.unended] at hm
        cases hm

theorem stale (hw : w.Linked) {n : Nat} (hstale : ∀ activation, ¬ w.Live n activation) :
    Linked { w with
      holder := Function.update w.holder n none
      ended := Function.update w.ended n true } := by
  refine hw.ending rfl ?_ (fun _ => rfl) (fun _ _ _ _ => rfl) ?_
  · intro m hm
    by_cases hmn : m = n
    · rw [hmn, Function.update_self]
    · rw [Function.update_of_ne hmn, hm]
  · intro id owner howner
    refine ⟨howner, fun m activation hlive _ => ?_⟩
    have hmn : m ≠ n := by
      rintro rfl
      exact hstale activation hlive
    rw [Function.update_of_ne hmn, hlive.unended]

theorem move (hw : w.Linked) (hr : w.Rooted) {w' : World} (h : Move w w') : w'.Linked := by
  cases h with
  | idle holder unopened => exact hw.of_slots rfl fun _ => rfl
  | snapshot loader => exact hw.of_slots rfl fun _ => rfl
  | load loader request => exact hw.of_slots rfl fun id => slot_load w.host loader id request
  | retain loader keep => exact hw.of_slots rfl fun id => HostM.slot_retain loader id keep
  | built interceptor known counted underlying free cached => exact hw.built counted
  | filled interceptor holder mem free => exact hw.filled (hr.known interceptor mem) free holder
  | joined interceptor holder mem held => exact hw.joined interceptor _ holder
  | deactivated interceptor mem held => exact hw.deactivated hr mem held
  | inactive interceptor mem idle => exact hw.inactive hr mem idle
  | finished n activation issued stands => exact hw.finished hr ((hw.stands_iff issued).mp stands)
  | stale n activation issued stale =>
    refine hw.stale fun other hlive => stale ?_
    rw [hw.stands_iff issued]
    rw [Option.some.inj (issued.symm.trans hlive.issued)]
    exact hlive

end Linked

theorem linked_start (tree : FileTree) (layouts : List Layout) : (start tree layouts).Linked := by
  refine ⟨by simp [start], by simp [start], ?_, ?_, ?_, ?_⟩
  · rintro n activation ⟨⟨hissued, _⟩, _⟩
    cases hissued
  · intro id owner howner
    obtain ⟨layout, hlayout⟩ := loader_start tree layouts id
    rw [hlayout] at howner
    cases howner
  · rintro n activation ⟨hissued, _⟩
    cases hissued
  · rintro n m earlier later ⟨hissued, _⟩
    cases hissued

theorem linked_run (tree : FileTree) (layouts : List Layout) {events : List Event}
    (h : ∀ event ∈ events, event.isRaw = false) : ((start tree layouts).run events).Linked := by
  have both : ((start tree layouts).run events).Rooted ∧ ((start tree layouts).run events).Linked :=
    run_induction (p := fun w => w.Rooted ∧ w.Linked)
      ⟨rooted_start tree layouts, linked_start tree layouts⟩
      fun he hw => ⟨hw.1.step _, hw.2.move hw.1 (step_move _ (h _ he))⟩
  exact both.2

end World

namespace World

theorem Linked.latest {w : World} (hw : w.Linked) {n : Nat} {activation : Activation}
    (hlive : w.Live n activation) : w.Latest n activation := by
  refine ⟨hlive.toFills, fun m other hother hloader => ?_⟩
  by_contra hlater
  have hended := (hw.ordered hlive.toFills hother (Nat.lt_of_not_le hlater) hloader.symm).1
  rw [hlive.unended] at hended
  cases hended

end World

end Interpose
