import Mathlib.Algebra.Group.Nat.Defs
import Mathlib.Data.List.Induction
import Interpose.Loader.Slot

set_option autoImplicit false

namespace Interpose

variable {ι α : Type}

def OccupantOf.word (occupant : OccupantOf Nat α) : OccupantOf UInt64 α :=
  ⟨.ofNat occupant.id, occupant.owner, occupant.stage⟩

namespace SlotOf

def word (slot : SlotOf Nat α) : SlotOf UInt64 α := ⟨slot.current.word, .ofNat slot.nextId⟩

/-- What is asked of a slot. A snapshot that is put back is meant by its place among those taken. -/
inductive Use (ι α : Type) where
  | current
  | claim (owner : OwnerId) (stage : α)
  | release (owner : OwnerId) (expected : Option ι) (snapshot : Nat)

def Use.isClaim : Use ι α → Bool
  | .claim .. => true
  | .current | .release .. => false

structure Seen (ι α : Type) where
  slot : SlotOf ι α
  snapshots : List (OccupantOf ι α)

/-- All that can be in the slot now or be put back there. -/
def Seen.occupants (seen : Seen ι α) : List (OccupantOf ι α) := seen.slot.current :: seen.snapshots

section Uses

variable [Add ι] [OfNat ι 1] [DecidableEq ι]

def Seen.use (seen : Seen ι α) : Use ι α → Seen ι α
  | .current => ⟨seen.slot, seen.snapshots ++ [seen.slot.current]⟩
  | .claim owner stage => ⟨(seen.slot.claim owner stage).2, seen.snapshots⟩
  | .release owner expected snapshot =>
    match seen.snapshots[snapshot]? with
    | some former => ⟨(seen.slot.release owner expected former).2, seen.snapshots⟩
    | none => seen

variable [OfNat ι 2] {first : α} {uses : List (Use ι α)} {slot : SlotOf ι α} {owner : OwnerId}
  {stage : α}

def after (first : α) (uses : List (Use ι α)) : Seen ι α :=
  uses.foldl Seen.use ⟨.beginning first, []⟩

structure GivenBy (first : α) (uses : List (Use ι α)) (id : ι) (owner : OwnerId) (stage : α)
    (before : List (Use ι α)) : Prop where
  used : before ++ [.claim owner stage] <+: uses
  fresh : ((after first before).slot.claim owner stage).1 = .ok ⟨id, true⟩

theorem after_append (first : α) (uses more : List (Use ι α)) :
    after first (uses ++ more) = more.foldl Seen.use (after first uses) := List.foldl_append

theorem after_concat (first : α) (uses : List (Use ι α)) (use : Use ι α) :
    after first (uses ++ [use]) = (after first uses).use use := after_append ..

omit [DecidableEq ι] [OfNat ι 2] in
theorem claim_free (h : slot.current.owner = none) : slot.claim owner stage =
    (.ok ⟨slot.nextId, true⟩, ⟨⟨slot.nextId, some owner, stage⟩, slot.nextId + 1⟩) := by
  simp only [claim, h]

omit [DecidableEq ι] [OfNat ι 2] in
theorem claim_held {holder : OwnerId} (h : slot.current.owner = some holder) :
    (slot.claim owner stage).2 = slot ∧ ∀ id, (slot.claim owner stage).1 ≠ .ok ⟨id, true⟩ := by
  simp only [claim, h]
  split <;> simp

omit [DecidableEq ι] [OfNat ι 2] in
theorem claim_fresh_iff {id : ι} : (slot.claim owner stage).1 = .ok ⟨id, true⟩ ↔
    slot.current.owner = none ∧ id = slot.nextId := by
  cases h : slot.current.owner with
  | none => simp [claim_free h, eq_comm]
  | some holder => simp [(claim_held h).2 id]

omit [Add ι] [OfNat ι 1] [OfNat ι 2] in
theorem release_iff {id : ι} {former : OccupantOf ι α} :
    (slot.release owner (some id) former).1 = true ↔
      slot.current.owner = some owner ∧ id = slot.current.id := by
  unfold release
  split
  next h => simpa using h
  next h => simpa using h

omit [OfNat ι 2] in
theorem Seen.use_cases (seen : Seen ι α) (use : Use ι α) :
    (seen.use use).slot.nextId = seen.slot.nextId ∧
      (∀ occupant ∈ (seen.use use).occupants, occupant ∈ seen.occupants) ∨
    ∃ owner stage, use = .claim owner stage ∧ seen.slot.current.owner = none ∧
      seen.use use =
        ⟨⟨⟨seen.slot.nextId, some owner, stage⟩, seen.slot.nextId + 1⟩, seen.snapshots⟩ := by
  cases use with
  | current =>
    left
    simp [Seen.use, occupants, or_comm]
  | claim owner stage =>
    cases h : seen.slot.current.owner with
    | none =>
      right
      exact ⟨owner, stage, rfl, rfl, by rw [Seen.use, claim_free h]⟩
    | some holder =>
      left
      rw [Seen.use, (claim_held h).1]
      exact ⟨rfl, fun _ hmem => hmem⟩
  | release owner expected snapshot =>
    left
    unfold Seen.use
    dsimp only
    split
    next former hformer =>
      have hmem : former ∈ seen.snapshots := List.mem_of_getElem? hformer
      unfold release
      split
      next => exact ⟨rfl, fun occupant h => by
        rcases List.mem_cons.mp h with rfl | h
        · exact List.mem_cons_of_mem _ hmem
        · exact List.mem_cons_of_mem _ h⟩
      next => exact ⟨rfl, fun _ h => h⟩
    next => exact ⟨rfl, fun _ h => h⟩

end Uses

section Numbers

variable {first : α} {uses earlier : List (Use Nat α)} {occupant : OccupantOf Nat α}

theorem nextId_mono (first : α) (h : earlier <+: uses) :
    (after first earlier).slot.nextId ≤ (after first uses).slot.nextId := by
  obtain ⟨more, rfl⟩ := h
  rw [after_append]
  generalize after first earlier = seen
  induction more generalizing seen with
  | nil => exact Nat.le_refl _
  | cons use more ih =>
    refine Nat.le_trans ?_ (ih (seen.use use))
    rcases seen.use_cases use with ⟨hnext, _⟩ | ⟨owner, stage, _, _, huse⟩
    · exact Nat.le_of_eq hnext.symm
    · rw [huse]
      exact Nat.le_succ _

theorem nextId_le (first : α) (uses : List (Use Nat α)) :
    (after first uses).slot.nextId ≤ uses.countP Use.isClaim + 2 := by
  induction uses using List.reverseRecOn with
  | nil => exact Nat.le_refl _
  | append_singleton uses use ih =>
    rw [after_concat, List.countP_append]
    rcases (after first uses).use_cases use with ⟨hnext, _⟩ | ⟨owner, stage, rfl, _, huse⟩
    · rw [hnext]
      exact Nat.le_trans ih (Nat.add_le_add_right (Nat.le_add_right _ _) 2)
    · rw [huse, show ([.claim owner stage] : List (Use Nat α)).countP Use.isClaim = 1 from rfl,
        Nat.add_right_comm]
      exact Nat.succ_le_succ ih

/-- An occupant is the first one, or it came in with the claim that has its number. -/
def Granted (first : α) (uses : List (Use Nat α)) (occupant : OccupantOf Nat α) : Prop :=
  occupant = ⟨1, none, first⟩ ∨ ∃ owner stage before,
    GivenBy first uses occupant.id owner stage before ∧ occupant = ⟨occupant.id, some owner, stage⟩

theorem Granted.mono (h : Granted first earlier occupant) (hearlier : earlier <+: uses) :
    Granted first uses occupant := by
  rcases h with hfirst | ⟨owner, stage, before, ⟨hused, hfresh⟩, hoccupant⟩
  · exact .inl hfirst
  · exact .inr ⟨owner, stage, before, ⟨hused.trans hearlier, hfresh⟩, hoccupant⟩

theorem granted_of_mem (h : occupant ∈ (after first uses).occupants) :
    Granted first uses occupant := by
  -- by induction on the uses, the last one first: only a claim brings something in, and
  -- what it brings in has the number that it is given
  induction uses using List.reverseRecOn with
  | nil => exact .inl (List.mem_singleton.mp h)
  | append_singleton uses use ih =>
    have hold : occupant ∈ (after first uses).occupants → Granted first (uses ++ [use]) occupant :=
      fun hmem => (ih hmem).mono (List.prefix_append ..)
    rw [after_concat] at h
    rcases (after first uses).use_cases use with ⟨_, hsame⟩ | ⟨owner, stage, rfl, hfree, huse⟩
    · exact hold (hsame occupant h)
    · rw [huse] at h
      rcases List.mem_cons.mp h with rfl | hmem
      · exact .inr ⟨owner, stage, uses, ⟨List.prefix_rfl, claim_fresh_iff.mpr ⟨hfree, rfl⟩⟩, rfl⟩
      · exact hold (List.mem_cons_of_mem _ hmem)

section GivenBy

variable {id : Nat} {owner : OwnerId} {stage : α} {before : List (Use Nat α)}

theorem GivenBy.bounds (h : GivenBy first uses id owner stage before) :
    id = (after first before).slot.nextId ∧
      (after first (before ++ [.claim owner stage])).slot.nextId = id + 1 := by
  obtain ⟨hfree, rfl⟩ := claim_fresh_iff.mp h.fresh
  refine ⟨rfl, ?_⟩
  rw [after_concat, Seen.use, claim_free hfree]

theorem GivenBy.one_lt (h : GivenBy first uses id owner stage before) : 1 < id := by
  rw [h.bounds.1]
  exact nextId_mono first List.nil_prefix

theorem GivenBy.unique {owner' : OwnerId} {stage' : α} {before' : List (Use Nat α)}
    (h : GivenBy first uses id owner stage before)
    (h' : GivenBy first uses id owner' stage' before') :
    before ++ [.claim owner stage] = before' ++ [.claim owner' stage'] := by
  have hlater : ∀ {owner owner' stage stage' before before'},
      GivenBy first uses id owner stage before → GivenBy first uses id owner' stage' before' →
      ¬ before ++ [.claim owner stage] <+: before' := by
    intro owner owner' stage stage' before before' h h' hprefix
    have hle := nextId_mono first hprefix
    rw [h.bounds.2, ← h'.bounds.1] at hle
    exact Nat.not_succ_le_self _ hle
  rcases List.prefix_or_prefix_of_prefix h.used h'.used with hprefix | hprefix
  · exact (List.prefix_concat_iff.mp hprefix).resolve_right (hlater h h')
  · exact ((List.prefix_concat_iff.mp hprefix).resolve_right (hlater h' h)).symm

end GivenBy

theorem Granted.eq_of_id {other : OccupantOf Nat α} (h : Granted first uses occupant)
    (h' : Granted first uses other) (hid : occupant.id = other.id) : occupant = other := by
  rcases h with rfl | ⟨owner, stage, before, hgiven, hoccupant⟩
  · rcases h' with rfl | ⟨owner, stage, before, hgiven, -⟩
    · rfl
    · exact absurd hid (Nat.ne_of_lt hgiven.one_lt)
  · rcases h' with rfl | ⟨owner', stage', before', hgiven', hother⟩
    · exact absurd hid (Nat.ne_of_gt hgiven.one_lt)
    · rw [← hid] at hgiven' hother
      obtain ⟨-, hlast⟩ := List.append_inj' (hgiven.unique hgiven') rfl
      obtain ⟨rfl, rfl⟩ := Use.claim.inj (List.cons.inj hlast).1
      exact hoccupant.trans hother.symm

theorem Granted.bounds (h : Granted first uses occupant) :
    0 < occupant.id ∧ occupant.id < (after first uses).slot.nextId := by
  rcases h with rfl | ⟨owner, stage, before, hgiven, -⟩
  · exact ⟨Nat.one_pos, nextId_mono first List.nil_prefix⟩
  · have hle := nextId_mono first hgiven.used
    rw [hgiven.bounds.2] at hle
    exact ⟨Nat.zero_lt_of_lt hgiven.one_lt, hle⟩

end Numbers

section Words

/-- The numbers that words stand for are those from one on, so that zero comes last. -/
def numberOf (id : UInt64) : Nat := if id = 0 then 2 ^ 64 else id.toNat

theorem ofNat_numberOf (id : UInt64) : .ofNat (numberOf id) = id := by
  unfold numberOf
  split
  next h => exact h.symm
  next => exact UInt64.ofNat_toNat

theorem numberOf_ofNat {number : Nat} (hpos : 0 < number) (hle : number ≤ 2 ^ 64) :
    numberOf (.ofNat number) = number := by
  unfold numberOf
  rcases Nat.lt_or_eq_of_le hle with hlt | rfl
  · have hword : (UInt64.ofNat number).toNat = number := UInt64.toNat_ofNat_of_lt hlt
    rw [if_neg fun hzero => ?_, hword]
    rw [hzero] at hword
    exact Nat.ne_of_lt hpos hword
  · rfl

def Use.numbered : Use UInt64 α → Use Nat α
  | .current => .current
  | .claim owner stage => .claim owner stage
  | .release owner expected snapshot => .release owner (expected.map numberOf) snapshot

def Seen.word (seen : Seen Nat α) : Seen UInt64 α :=
  ⟨seen.slot.word, seen.snapshots.map OccupantOf.word⟩

theorem Seen.occupants_word (seen : Seen Nat α) :
    seen.word.occupants = seen.occupants.map OccupantOf.word := rfl

theorem claim_word (slot : SlotOf Nat α) (owner : OwnerId) (stage : α) :
    (slot.word.claim owner stage).2 = (slot.claim owner stage).2.word := by
  have howner : slot.word.current.owner = slot.current.owner := rfl
  cases h : slot.current.owner with
  | none =>
    rw [claim_free h, claim_free (howner.trans h)]
    simp only [word, OccupantOf.word, UInt64.ofNat_add]
    rfl
  | some holder => rw [(claim_held h).1, (claim_held (howner.trans h)).1]

theorem release_word {slot : SlotOf Nat α} (hpos : 0 < slot.current.id)
    (hle : slot.current.id ≤ 2 ^ 64) (owner : OwnerId) (expected : Option UInt64)
    (former : OccupantOf Nat α) : (slot.word.release owner expected former.word).2 =
      (slot.release owner (expected.map numberOf) former).2.word := by
  have hsame : ∀ id, (id == slot.word.current.id) = (numberOf id == slot.current.id) := by
    intro id
    rw [Bool.eq_iff_iff, beq_iff_eq, beq_iff_eq]
    change id = .ofNat slot.current.id ↔ _
    exact ⟨fun h => h ▸ numberOf_ofNat hpos hle, fun h => h ▸ (ofNat_numberOf id).symm⟩
  have hexpected : expected.all (· == slot.word.current.id) =
      (expected.map numberOf).all (· == slot.current.id) := by
    cases expected with
    | none => rfl
    | some id => exact hsame id
  have howner : slot.word.current.owner = slot.current.owner := rfl
  unfold release
  rw [hexpected, howner]
  split <;> rfl

theorem Seen.word_use {seen : Seen Nat α}
    (h : ∀ occupant ∈ seen.occupants, 0 < occupant.id ∧ occupant.id ≤ 2 ^ 64)
    (use : Use UInt64 α) : (seen.use use.numbered).word = seen.word.use use := by
  cases use with
  | current =>
    simp only [Use.numbered, Seen.use, word, List.map_append]
    rfl
  | claim owner stage =>
    simp only [Use.numbered, Seen.use, word, claim_word]
  | release owner expected snapshot =>
    obtain ⟨hpos, hle⟩ := h _ List.mem_cons_self
    simp only [Use.numbered, Seen.use, word, List.getElem?_map]
    cases seen.snapshots[snapshot]? with
    | none => rfl
    | some former => simp only [Option.map_some, release_word hpos hle]

variable {first : α} {uses : List (Use UInt64 α)}

theorem countP_numbered (uses : List (Use UInt64 α)) :
    (uses.map Use.numbered).countP Use.isClaim = uses.countP Use.isClaim := by
  rw [List.countP_map]
  congr 1
  funext use
  cases use <;> rfl

theorem bounds_of_mem (h : uses.countP Use.isClaim < 2 ^ 64) {occupant : OccupantOf Nat α}
    (hmem : occupant ∈ (after first (uses.map Use.numbered)).occupants) :
    0 < occupant.id ∧ occupant.id ≤ 2 ^ 64 := by
  obtain ⟨hpos, hlt⟩ := (granted_of_mem hmem).bounds
  have hle := nextId_le first (uses.map Use.numbered)
  rw [countP_numbered] at hle
  exact ⟨hpos, by omega⟩

/-- Below 2^64 claims, nothing is different if numbers are words. -/
theorem after_word (first : α) (h : uses.countP Use.isClaim < 2 ^ 64) :
    after first uses = (after first (uses.map Use.numbered)).word := by
  induction uses using List.reverseRecOn with
  | nil => rfl
  | append_singleton uses use ih =>
    rw [List.countP_append] at h
    have hbefore : uses.countP Use.isClaim < 2 ^ 64 := by omega
    rw [after_concat, ih hbefore, List.map_append, List.map_singleton, after_concat]
    exact (Seen.word_use (fun _ hmem => bounds_of_mem hbefore hmem) use).symm

theorem Use.eq_of_numbered {use : Use UInt64 α} {owner : OwnerId} {stage : α}
    (h : use.numbered = .claim owner stage) : use = .claim owner stage := by
  cases use with
  | claim =>
    cases h
    rfl
  | current | release => cases h

theorem GivenBy.word {id : Nat} {owner : OwnerId} {stage : α} {before : List (Use Nat α)}
    (h : uses.countP Use.isClaim < 2 ^ 64)
    (hgiven : GivenBy first (uses.map Use.numbered) id owner stage before) :
    ∃ before, GivenBy first uses (.ofNat id) owner stage before := by
  obtain ⟨⟨later, hused⟩, hfresh⟩ := hgiven
  obtain ⟨used, _, rfl, hused, _⟩ := List.map_eq_append_iff.mp hused.symm
  obtain ⟨before, last, rfl, rfl, hlast⟩ := List.map_eq_append_iff.mp hused
  obtain ⟨use, rfl, huse⟩ := List.map_eq_singleton_iff.mp hlast
  obtain rfl := Use.eq_of_numbered huse
  refine ⟨before, List.prefix_append .., ?_⟩
  simp only [List.countP_append] at h
  obtain ⟨hfree, rfl⟩ := claim_fresh_iff.mp hfresh
  rw [after_word first (by omega)]
  exact claim_fresh_iff.mpr ⟨hfree, rfl⟩

theorem exists_number (h : uses.countP Use.isClaim < 2 ^ 64) {earlier : List (Use UInt64 α)}
    (hearlier : earlier <+: uses) {occupant : OccupantOf UInt64 α}
    (hmem : occupant ∈ (after first earlier).occupants) :
    ∃ number : OccupantOf Nat α, number.word = occupant ∧
      Granted first (uses.map Use.numbered) number ∧ 0 < number.id ∧ number.id ≤ 2 ^ 64 := by
  have hcount := hearlier.sublist.countP_le (p := Use.isClaim)
  have hbefore : earlier.countP Use.isClaim < 2 ^ 64 := by omega
  rw [after_word first hbefore, Seen.occupants_word] at hmem
  obtain ⟨number, hnumber, rfl⟩ := List.mem_map.mp hmem
  exact ⟨number, rfl, (granted_of_mem hnumber).mono (hearlier.map _),
    bounds_of_mem hbefore hnumber⟩

/-- With numbers of 64 bits and fewer than 2^64 claims, two occupants with one number are the same
one, at whatever times they were seen, and a release that expects a number is done where the claim of
the same owner that was given it has its stage in the slot, and only there. A fresh claim that is not
yet the one before the last of these is given a number above all that were ever seen. -/
theorem numbers_identify_claims (first : α) {uses : List (Use UInt64 α)}
    (h : uses.countP Use.isClaim < 2 ^ 64) :
    (∀ earlier later, earlier <+: uses → later <+: uses →
      ∀ occupant ∈ (after first earlier).occupants, ∀ other ∈ (after first later).occupants,
        occupant.id = other.id → occupant.owner = other.owner ∧ occupant.stage = other.stage) ∧
    (∀ owner stage id, ((after first uses).slot.claim owner stage).1 = .ok ⟨id, true⟩ →
      uses.countP Use.isClaim + 1 < 2 ^ 64 - 1 →
      ∀ earlier, earlier <+: uses →
        ∀ occupant ∈ (after first earlier).occupants, occupant.id < id) ∧
    ∀ owner id former, ((after first uses).slot.release owner (some id) former).1 = true ↔
      ∃ stage before, GivenBy first uses id owner stage before ∧
        (after first uses).slot.current = ⟨id, some owner, stage⟩ := by
  refine ⟨?_, ?_, ?_⟩
  · intro earlier later hearlier hlater occupant hmem other hmem' hid
    obtain ⟨number, rfl, hgranted, hpos, hle⟩ := exists_number h hearlier hmem
    obtain ⟨number', rfl, hgranted', hpos', hle'⟩ := exists_number h hlater hmem'
    have hnumbers := congrArg numberOf hid
    change numberOf (.ofNat number.id) = numberOf (.ofNat number'.id) at hnumbers
    rw [numberOf_ofNat hpos hle, numberOf_ofNat hpos' hle'] at hnumbers
    obtain rfl := hgranted.eq_of_id hgranted' hnumbers
    exact ⟨rfl, rfl⟩
  · intro owner stage id hclaim hfewer earlier hearlier occupant hmem
    obtain ⟨number, rfl, hgranted, hpos, hle⟩ := exists_number h hearlier hmem
    obtain ⟨-, rfl⟩ := claim_fresh_iff.mp hclaim
    have hlt := hgranted.bounds.2
    have hnext := nextId_le first (uses.map Use.numbered)
    rw [countP_numbered] at hnext
    have hsmall : (after first (uses.map Use.numbered)).slot.nextId < UInt64.size := by
      change _ < 2 ^ 64
      omega
    rw [after_word first h]
    change UInt64.ofNat number.id < UInt64.ofNat _
    rw [UInt64.lt_iff_toNat_lt, UInt64.toNat_ofNat_of_lt' (Nat.lt_trans hlt hsmall),
      UInt64.toNat_ofNat_of_lt' hsmall]
    exact hlt
  · intro owner id former
    rw [release_iff]
    constructor
    · rintro ⟨howner, rfl⟩
      obtain ⟨number, hnumber, hgranted, _, _⟩ := exists_number h List.prefix_rfl
        (List.mem_cons_self : (after first uses).slot.current ∈ (after first uses).occupants)
      rw [← hnumber] at howner ⊢
      rcases hgranted with rfl | ⟨owner', stage, before, hgiven, hcurrent⟩
      · cases howner
      · rw [hcurrent] at howner
        obtain rfl := Option.some.inj howner
        obtain ⟨before', hgiven'⟩ := hgiven.word h
        exact ⟨stage, before', hgiven', congrArg OccupantOf.word hcurrent⟩
    · rintro ⟨stage, before, -, hcurrent⟩
      rw [hcurrent]
      exact ⟨rfl, rfl⟩

def handedBack : List (Use UInt64 Stage) :=
  [.current, .claim 7 .echo, .current, .release 7 none 0, .claim 8 .refuse, .release 8 (some 3) 1]

theorem numbers_identify_claims_handedBack :
    handedBack.countP Use.isClaim < 2 ^ 64 ∧
    (∃ stage before, GivenBy .native handedBack 2 7 stage before ∧
      (after .native handedBack).slot.current = ⟨2, some 7, stage⟩) ∧
    (∀ former, ((after .native handedBack).slot.release 7 (some 3) former).1 = false) ∧
    let freed := handedBack ++ [.release 7 (some 2) 0]
    ((after .native freed).slot.claim 9 .echo).1 = .ok ⟨4, true⟩ ∧
      ∀ earlier, earlier <+: freed → (after .native earlier).slot.current.id < 4 := by
  have hclaims : handedBack.countP Use.isClaim < 2 ^ 64 := by decide
  have hfreed : (handedBack ++ [Use.release 7 (some 2) 0]).countP Use.isClaim < 2 ^ 64 := by decide
  have hclaim : ((after .native (handedBack ++ [.release 7 (some 2) 0])).slot.claim 9 .echo).1 =
      .ok ⟨4, true⟩ := rfl
  obtain ⟨-, -, hrelease⟩ := numbers_identify_claims .native hclaims
  obtain ⟨-, hgreater, -⟩ := numbers_identify_claims .native hfreed
  refine ⟨hclaims, (hrelease 7 2 ⟨1, none, .native⟩).mp rfl, fun former => rfl, hclaim,
    fun earlier hearlier => ?_⟩
  exact hgreater 9 .echo 4 hclaim (by decide) earlier hearlier _ List.mem_cons_self

/-- A slot that is claimed and given back so many times. -/
def refilled (times : Nat) : List (Use UInt64 Stage) :=
  .current :: (List.replicate times [.claim 7 .echo, .release 7 none 0]).flatten

theorem after_refilled (times : Nat) : after .native (refilled times) =
    ⟨⟨⟨1, none, .native⟩, .ofNat (times + 2)⟩, [⟨1, none, .native⟩]⟩ := by
  induction times with
  | zero => rfl
  | succ times ih =>
    have hnext : UInt64.ofNat (times + 1 + 2) = .ofNat (times + 2) + 1 := by
      rw [Nat.add_right_comm, UInt64.ofNat_add]
      rfl
    rw [refilled, List.replicate_succ', List.flatten_append, ← List.cons_append, after_append,
      ← refilled, ih, hnext]
    rfl

theorem countP_refilled (times : Nat) : (refilled times).countP Use.isClaim = times := by
  induction times with
  | zero => rfl
  | succ times ih =>
    rw [refilled, List.replicate_succ', List.flatten_append, ← List.cons_append,
      List.countP_append, ← refilled, ih]
    rfl

/-- The claim that is one short of 2^64 can be given zero, and all numbers seen before are greater. -/
theorem number_begins_anew :
    let uses := refilled (2 ^ 64 - 2)
    uses.countP Use.isClaim + 1 < 2 ^ 64 ∧
      ((after .native uses).slot.claim 7 .echo).1 = .ok ⟨0, true⟩ ∧
      ∃ occupant ∈ (after .native uses).occupants, ¬ occupant.id < 0 := by
  intro uses
  have hafter : after .native uses =
      ⟨⟨⟨1, none, .native⟩, .ofNat (2 ^ 64 - 2 + 2)⟩, [⟨1, none, .native⟩]⟩ := after_refilled _
  have hcount : uses.countP Use.isClaim = 2 ^ 64 - 2 := countP_refilled _
  rw [hafter, hcount]
  exact ⟨by decide, rfl, _, List.mem_cons_self, by decide⟩

end Words

end SlotOf

end Interpose
