import Interpose.Proofs.Fingerprints

set_option autoImplicit false

namespace Interpose
open Function

namespace Hash

/-- The inverse of the multiplier modulo `2 ^ 64`. -/
def divisor : UInt64 := 13001286669926045051

theorem multiplier_mul_divisor : multiplier * divisor = 1 := by decide

theorem mul_multiplier_injective : Injective (· * multiplier) := by
  intro hash hash' h
  have hundone : hash * multiplier * divisor = hash' * multiplier * divisor :=
    congrArg (· * divisor) h
  rwa [UInt64.mul_assoc, UInt64.mul_assoc, multiplier_mul_divisor, UInt64.mul_one, UInt64.mul_one]
    at hundone

theorem step_injective (byte : UInt8) : Injective (step · byte) := fun _ _ h =>
  (UInt64.xor_left_inj _).mp (mul_multiplier_injective h)

theorem step_byte_injective (hash : UInt64) : Injective (step hash) := fun _ _ h =>
  UInt8.toUInt64_inj.mp ((UInt64.xor_right_inj hash).mp (mul_multiplier_injective h))

theorem foldl_step_injective (bytes : List UInt8) : Injective (bytes.foldl step) := by
  induction bytes with
  | nil => exact injective_id
  | cons byte bytes ih => exact ih.comp (step_injective byte)

theorem ofBytes_append_eq_iff {bytes bytes' : List UInt8} (behind : List UInt8) :
    ofBytes (bytes ++ behind) = ofBytes (bytes' ++ behind) ↔ ofBytes bytes = ofBytes bytes' := by
  unfold ofBytes
  rw [List.foldl_append, List.foldl_append]
  exact (foldl_step_injective behind).eq_iff

theorem ofBytes_replaced_eq_iff (before behind : List UInt8) {byte byte' : UInt8} :
    ofBytes (before ++ byte :: behind) = ofBytes (before ++ byte' :: behind) ↔ byte = byte' := by
  rw [List.append_cons before byte, List.append_cons before byte', ofBytes_append_eq_iff,
    ofBytes_concat, ofBytes_concat]
  exact (step_byte_injective _).eq_iff

end Hash

theorem fingerprint_inj {source source' : String} : fingerprint source = fingerprint source' ↔
    Hash.ofBytes source.toUTF8.toList = Hash.ofBytes source'.toUTF8.toList := by
  have hall : ∀ bytes, Hash.fnv1a (2 ^ 44 + 435) bytes % 16 ^ 16 = (Hash.ofBytes bytes).toNat :=
    fun bytes => (Nat.mod_eq_of_lt (Hash.fnv1a_lt _ bytes)).trans (Hash.toNat_ofBytes bytes).symm
  rw [← String.toList_inj, toList_fingerprint, toList_fingerprint, Text.hexDigits_eq_iff, hall,
    hall, UInt64.toNat_inj, Hash.ofBytes_append_eq_iff]

section Changes

variable {α : Type} {xs ys : List α}

theorem exists_change (hlength : xs.length = ys.length) (h : ∃! i : ℕ, xs[i]? ≠ ys[i]?) :
    ∃ before x y behind, x ≠ y ∧ xs = before ++ x :: behind ∧ ys = before ++ y :: behind := by
  obtain ⟨i, hi, honly⟩ := h
  have hsame : ∀ j ≠ i, xs[j]? = ys[j]? := fun j hj => not_not.mp fun hne => hj (honly j hne)
  have hxs : i < xs.length := by
    refine Nat.lt_of_not_le fun hle => hi ?_
    rw [List.getElem?_eq_none hle, List.getElem?_eq_none (hlength ▸ hle)]
  have hys : i < ys.length := hlength ▸ hxs
  have hbefore : xs.take i = ys.take i := by
    refine List.ext_getElem? fun j => ?_
    rw [List.getElem?_take, List.getElem?_take]
    split
    next hj => exact hsame j (Nat.ne_of_lt hj)
    next => rfl
  have hbehind : xs.drop (i + 1) = ys.drop (i + 1) := by
    refine List.ext_getElem? fun j => ?_
    rw [List.getElem?_drop, List.getElem?_drop]
    exact hsame _ (by omega)
  refine ⟨xs.take i, xs[i], ys[i], xs.drop (i + 1), ?_, ?_, ?_⟩
  · rwa [List.getElem?_eq_getElem hxs, List.getElem?_eq_getElem hys, ne_eq, Option.some_inj] at hi
  · rw [List.cons_getElem_drop_succ, List.take_append_drop]
  · rw [hbefore, hbehind, List.cons_getElem_drop_succ, List.take_append_drop]

end Changes

/-- Texts with as many bytes that differ in exactly one of them, wherever it is, have different
fingerprints. -/
theorem fingerprint_ne_of_byteChanged {source source' : String}
    (hlength : source.toUTF8.toList.length = source'.toUTF8.toList.length)
    (hchanged : ∃! i : ℕ, source.toUTF8.toList[i]? ≠ source'.toUTF8.toList[i]?) :
    fingerprint source ≠ fingerprint source' := by
  obtain ⟨before, byte, byte', behind, hne, hbytes, hbytes'⟩ := exists_change hlength hchanged
  rw [ne_eq, fingerprint_inj, hbytes, hbytes', Hash.ofBytes_replaced_eq_iff]
  exact hne

theorem fingerprint_ne_of_byteChanged_accent :
    "aéb".toUTF8.toList = [97, 195, 169, 98] ∧ "aèb".toUTF8.toList = [97, 195, 168, 98] ∧
      fingerprint "aéb" ≠ fingerprint "aèb" := by
  have hbytes : "aéb".toUTF8.toList = [97, 195, 169, 98] := by decide +kernel
  have hbytes' : "aèb".toUTF8.toList = [97, 195, 168, 98] := by decide +kernel
  refine ⟨hbytes, hbytes', fingerprint_ne_of_byteChanged ?_ ?_⟩
  · rw [hbytes, hbytes']
    rfl
  · rw [hbytes, hbytes']
    refine ⟨2, by decide, fun i hi => ?_⟩
    match i with
    | 0 | 1 | 3 => exact absurd rfl hi
    | 2 => rfl
    | i + 4 => exact absurd rfl hi

end Interpose
