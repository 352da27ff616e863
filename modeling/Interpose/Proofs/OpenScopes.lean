import Interpose.Proofs.SlotProtocol
import Mathlib.Data.List.Induction

set_option autoImplicit false

namespace Interpose

namespace World

structure InScope (w : World) (interceptor : Interceptor) (n : Nat) : Prop where
  issued : ∃ activation, w.issued[n]? = some activation ∧ activation.interceptor = interceptor
  kept : ∃ holder, w.holder n = some holder ∧ holder.isScope = true

def ScopeOpen (w : World) (interceptor : Interceptor) : Prop := ∃ n, w.InScope interceptor n

/-- The event ends the activation through which the interceptor holds the slot, and a scope of the
interceptor stays open. -/
def Outlived (w : World) (interceptor : Interceptor) (event : Event) : Prop :=
  (w.step event).ScopeOpen interceptor ∧ ∃ n activation, w.Live n activation ∧
    activation.interceptor = interceptor ∧ (w.step event).ended n = true

section Move

variable {w w' : World} {interceptor : Interceptor}

theorem Linked.intercepts (hw : w.Linked) {n : Nat} {activation : Activation}
    (h : w.Live n activation) : activation.interceptor.Intercepts w.host := by
  have hcurrent := hw.live h
  exact ⟨Interceptor.isActive_iff.mpr (by rw [hcurrent]), by rw [hcurrent]⟩

theorem Linked.live_of_active (hw : w.Linked) (hr : w.Rooted) (hmem : interceptor ∈ w.interceptors)
    (h : interceptor.isActive w.host = true) :
    ∃ n activation, w.Live n activation ∧ activation.interceptor = interceptor := by
  have howner := Interceptor.isActive_iff.mp h
  obtain ⟨n, activation, hlive, hloader⟩ := hw.held howner
  have hcurrent := hw.live hlive
  rw [hloader] at hcurrent
  rw [hcurrent] at howner
  have hissuer := hr.issuer activation (List.mem_of_getElem? hlive.issued)
  exact ⟨n, activation, hlive, hw.distinct _ hissuer _ hmem (Option.some.inj howner)⟩

theorem Move.issued (h : Move w w') {n : Nat} {activation : Activation}
    (hn : w.issued[n]? = some activation) : w'.issued[n]? = some activation := by
  have hless := (List.getElem?_eq_some_iff.mp hn).1
  cases h with
  | filled => exact (List.getElem?_append_left hless).trans hn
  | joined => exact (List.getElem?_append_left hless).trans hn
  | _ => exact hn

theorem inScope_issue {activation : Activation} {holder : Holder} {n : Nat}
    (h : (w.issue activation holder).InScope interceptor n) :
    w.InScope interceptor n ∨ activation.interceptor = interceptor := by
  obtain ⟨⟨other, hissued, hinterceptor⟩, kept, hkept, hscope⟩ := h
  change (w.issued ++ [activation])[n]? = some other at hissued
  change Function.update w.holder w.issued.length (some holder) n = some kept at hkept
  by_cases hn : n < w.issued.length
  · rw [List.getElem?_append_left hn] at hissued
    rw [Function.update_of_ne (Nat.ne_of_lt hn)] at hkept
    exact .inl ⟨⟨other, hissued, hinterceptor⟩, kept, hkept, hscope⟩
  · right
    rw [← hinterceptor]
    have hmem := List.mem_of_getElem? hissued
    rw [List.getElem?_append_right (Nat.le_of_not_lt hn)] at hissued
    rw [List.mem_singleton.mp (List.mem_of_getElem? hissued)]

theorem kept_of_update {holder : Nat → Option Holder} {n m : Nat}
    (h : ∃ kept, Function.update holder m none n = some kept ∧ kept.isScope = true) :
    ∃ kept, holder n = some kept ∧ kept.isScope = true := by
  obtain ⟨kept, hkept, hscope⟩ := h
  have hne : n ≠ m := by
    rintro rfl
    rw [Function.update_self] at hkept
    cases hkept
  rw [Function.update_of_ne hne] at hkept
  exact ⟨kept, hkept, hscope⟩

theorem Move.opened (h : Move w w') (hw : w.Linked) (hr : w.Rooted)
    (hopen : w'.ScopeOpen interceptor) :
    w.ScopeOpen interceptor ∨ interceptor.Intercepts w'.host := by
  obtain ⟨n, hn⟩ := hopen
  have hlinked := hw.move hr h
  cases h with
  | idle holder unopened =>
    obtain ⟨kept, hkept, hscope⟩ := hn.kept
    exact .inl ⟨n, hn.issued, kept, unopened n kept hkept hscope, hscope⟩
  | filled other holder mem free =>
    rcases inScope_issue hn with hn | rfl
    · exact .inl ⟨n, hn.issued, hn.kept⟩
    · exact .inr (hlinked.intercepts ⟨fills_issue_last rfl, ended_issue_last⟩)
  | joined other holder mem held =>
    rcases inScope_issue hn with hn | rfl
    · exact .inl ⟨n, hn⟩
    · obtain ⟨m, activation, hlive, hinterceptor⟩ := hw.live_of_active hr mem held
      have hintercepts := hw.intercepts hlive
      rw [hinterceptor] at hintercepts
      exact .inr hintercepts
  | finished m activation issued stands => exact .inl ⟨n, hn.issued, kept_of_update hn.kept⟩
  | stale m activation issued stale => exact .inl ⟨n, hn.issued, kept_of_update hn.kept⟩
  | _ => exact .inl ⟨n, hn.issued, hn.kept⟩

theorem Move.freed (h : Move w w') (hw : w.Linked) (hr : w.Rooted) {n : Nat}
    {activation : Activation} (hlive : w.Live n activation) (hended : w'.ended n = true) :
    (w'.loader activation.interceptor.loader).slot.current.owner = none := by
  have hunended := hlive.unended
  have restored : ∀ {interceptor : Interceptor}, interceptor ∈ w.interceptors →
      ((w.restore interceptor).loader interceptor.loader).slot.current.owner = none := by
    intro interceptor hmem
    rw [loader_restore (hr.known interceptor hmem)]
    change interceptor.underlying.owner = none
    rw [hr.underlying interceptor hmem]
    rfl
  cases h with
  | filled =>
    change Function.update w.ended w.issued.length false n = true at hended
    rw [Function.update_of_ne (Nat.ne_of_lt hlive.lt), hunended] at hended
    cases hended
  | joined =>
    change Function.update w.ended w.issued.length false n = true at hended
    rw [Function.update_of_ne (Nat.ne_of_lt hlive.lt), hunended] at hended
    cases hended
  | deactivated interceptor mem held =>
    change (w.ended n || w.isBy interceptor n) = true at hended
    rw [hunended, Bool.false_or] at hended
    rw [hw.eq_of_isBy hr mem hlive.issued hended]
    exact restored mem
  | inactive interceptor mem idle =>
    change (w.ended n || w.isBy interceptor n) = true at hended
    rw [hunended, Bool.false_or] at hended
    have hinterceptor := hw.eq_of_isBy hr mem hlive.issued hended
    exact absurd (hinterceptor ▸ hw.intercepts hlive).active idle
  | finished m other issued stands =>
    by_cases hm : n = m
    · subst hm
      rw [Option.some.inj (hlive.issued.symm.trans issued)]
      exact restored (hr.issuer other (List.mem_of_getElem? issued))
    · change Function.update w.ended m true n = true at hended
      rw [Function.update_of_ne hm, hunended] at hended
      cases hended
  | stale m other issued stale =>
    by_cases hm : n = m
    · subst hm
      rw [← Option.some.inj (hlive.issued.symm.trans issued)] at stale
      exact absurd ((hw.stands_iff hlive.issued).mpr hlive) stale
    · change Function.update w.ended m true n = true at hended
      rw [Function.update_of_ne hm, hunended] at hended
      cases hended
  | _ =>
    rw [show w.ended n = true from hended] at hunended
    cases hunended

theorem Move.goes_on (h : Move w w') (hw : w.Linked) (hr : w.Rooted) {n : Nat}
    {activation : Activation} (hlive : w.Live n activation) (hended : w'.ended n = false) :
    activation.interceptor.Intercepts w'.host :=
  (hw.move hr h).intercepts ⟨⟨h.issued hlive.issued, hlive.fresh⟩, hended⟩

end Move

theorem Linked.covered_step {w : World} (hw : w.Linked) (hr : w.Rooted) {event : Event}
    (hraw : event.isRaw = false) {interceptor : Interceptor}
    (hcovered : w.ScopeOpen interceptor → interceptor.Intercepts w.host)
    (hended : ¬ w.Outlived interceptor event) (hopen : (w.step event).ScopeOpen interceptor) :
    interceptor.Intercepts (w.step event).host := by
  have hmove := w.step_move hraw
  rcases hmove.opened hw hr hopen with hwas | hnow
  · have hactive := (hcovered hwas).active
    obtain ⟨m, hm⟩ := hwas
    obtain ⟨other, hissued, hother⟩ := hm.issued
    have hmem : interceptor ∈ w.interceptors :=
      hother ▸ hr.issuer other (List.mem_of_getElem? hissued)
    -- interception goes on through the live activation, since the step does not end that one
    obtain ⟨n, activation, hlive, rfl⟩ := hw.live_of_active hr hmem hactive
    refine hmove.goes_on hw hr hlive ?_
    rw [← Bool.not_eq_true]
    intro hn
    exact hended ⟨hopen, n, activation, hlive, rfl, hn⟩
  · exact hnow

/-- Interception is on whenever a scope is open, throughout a run, just in case no step of the run
ends the activation that holds the slot while a scope stays open. -/
theorem covered_iff (tree : FileTree) (layouts : List Layout) {events : List Event}
    (h : ∀ event ∈ events, event.isRaw = false) (interceptor : Interceptor) :
    (∀ before, before <+: events → ((start tree layouts).run before).ScopeOpen interceptor →
      interceptor.Intercepts ((start tree layouts).run before).host) ↔
    ∀ before event, before ++ [event] <+: events →
      ¬ ((start tree layouts).run before).Outlived interceptor event := by
  have linked : ∀ before, before <+: events → ((start tree layouts).run before).Linked :=
    fun before hbefore => linked_run tree layouts fun event he => h event (hbefore.subset he)
  constructor
  · rintro hcovered before event hwithin ⟨hopen, n, activation, hlive, rfl, hended⟩
    have hbefore := (List.prefix_append before [event]).trans hwithin
    have hraw := h event (hwithin.subset (by simp))
    have hr := rooted_run tree layouts before
    have hfreed := (step_move _ hraw).freed (linked before hbefore) hr hlive hended
    have hactive := hcovered _ hwithin (by rw [run_concat]; exact hopen)
    rw [run_concat] at hactive
    have howner := Interceptor.isActive_iff.mp hactive.active
    rw [hfreed] at howner
    cases howner
  · intro hended before
    induction before using List.reverseRecOn with
    | nil =>
      rintro _ ⟨n, ⟨activation, hissued, _⟩, _⟩
      cases hissued
    | append_singleton before event ih =>
      intro hwithin hopen
      have hbefore := (List.prefix_append before [event]).trans hwithin
      rw [run_concat] at hopen ⊢
      exact (linked before hbefore).covered_step (rooted_run tree layouts before)
        (h event (hwithin.subset (by simp))) (ih hbefore) (hended before event hwithin) hopen

/-- Two futures of one interceptor, of which the first to start is the first to settle. -/
def overlapping : List Event :=
  [.build 0 (.code 3) .ok, .activate 0 .future, .activate 0 .future, .finish 0 .settle]

def overlapped : Interceptor := ⟨1, 0, .allModules, .ok, Slot.initial.current, []⟩

theorem covered_iff_overlapping : (∀ event ∈ overlapping, event.isRaw = false) ∧
    ((∀ before, before <+: overlapping →
      ((start ⟨[], []⟩ [.withoutEntryDir]).run before).ScopeOpen overlapped →
        overlapped.Intercepts ((start ⟨[], []⟩ [.withoutEntryDir]).run before).host) ↔
    ∀ before event, before ++ [event] <+: overlapping →
      ¬ ((start ⟨[], []⟩ [.withoutEntryDir]).run before).Outlived overlapped event) :=
  ⟨by decide, covered_iff _ _ (by decide) overlapped⟩

theorem pending_uncovered :
    overlapped ∈ ((start ⟨[], []⟩ [.withoutEntryDir]).run overlapping).interceptors ∧
      ((start ⟨[], []⟩ [.withoutEntryDir]).run overlapping).InScope overlapped 1 ∧
        overlapped.isActive ((start ⟨[], []⟩ [.withoutEntryDir]).run overlapping).host = false := by
  refine ⟨.head _, ⟨⟨_, rfl, rfl⟩, .future, rfl, rfl⟩, ?_⟩
  decide +kernel

end World

end Interpose
