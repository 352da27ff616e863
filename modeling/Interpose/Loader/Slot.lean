import Interpose.Interception.Policy

/-!
The compile step of a loader as a slot that one owner at a time may hold. A claim puts a stage into
a free slot under a new number; a release puts back a stage that was seen there before.
-/

set_option autoImplicit false

namespace Interpose

/-- The numbers of a loader's stages. They have no end here; a counter of 64 bits, which begins anew at
the end, gives the same ones to the first 2^64 - 2 claims. -/
abbrev StageId := Nat

/-- The numbers of interceptors, of which a counter of 64 bits has enough for 2^64 - 1. -/
abbrev OwnerId := Nat

structure OccupantOf (ι α : Type) where
  id : ι
  owner : Option OwnerId
  stage : α

inductive Stage where
  | native
  /-- Transforms the modules that the policy selects and hands all on to the underlying stage. -/
  | intercepting (owner : OwnerId) (policy : Policy) (transformer : Edit.Transformer)
      (underlying : OccupantOf StageId Stage)
  | echo
  | refuse

abbrev Occupant := OccupantOf StageId Stage

structure SlotOf (ι α : Type) where
  current : OccupantOf ι α
  nextId : ι

abbrev Slot := SlotOf StageId Stage

structure ClaimOf (ι : Type) where
  stage : ι
  /-- Whether the claim filled the slot; otherwise its owner held it before. -/
  fresh : Bool
deriving DecidableEq, Repr

abbrev Claim := ClaimOf StageId

namespace SlotOf

variable {ι α : Type}

def beginning [OfNat ι 1] [OfNat ι 2] (stage : α) : SlotOf ι α := ⟨⟨1, none, stage⟩, 2⟩

/-- Installs a stage in a free slot. An owner that holds the slot keeps the stage it has there; any
other is told who holds it. -/
def claim [Add ι] [OfNat ι 1] (slot : SlotOf ι α) (owner : OwnerId) (stage : α) :
    Except OwnerId (ClaimOf ι) × SlotOf ι α :=
  match slot.current.owner with
  | some holder =>
    if holder = owner then (.ok ⟨slot.current.id, false⟩, slot)
    else (.error holder, slot)
  | none =>
    (.ok ⟨slot.nextId, true⟩, ⟨⟨slot.nextId, some owner, stage⟩, slot.nextId + 1⟩)

/-- Puts a former occupant back if the owner holds the slot and, where a number is expected, holds
it with that stage. Says whether it did. -/
def release [DecidableEq ι] (slot : SlotOf ι α) (owner : OwnerId) (expected : Option ι)
    (former : OccupantOf ι α) : Bool × SlotOf ι α :=
  if slot.current.owner = some owner ∧ expected.all (· == slot.current.id) then
    (true, { slot with current := former })
  else (false, slot)

end SlotOf

def Slot.initial : Slot := .beginning .native

end Interpose
