import Komms.Attachment.Media
import Mathlib.Data.Nat.Bitwise

/-!
# Valid object rows

An object row keeps its filled slots three times: as addresses, as a bitmap and as a count of bytes.
`MediaObjectRecord.Valid` says that they agree, and the operations on rows keep it so.
-/

namespace Komms.Attachment

open List

variable {Digest : Type}

/-! ### Bitmaps -/

@[simp] theorem length_setBit (bitmap : Bytes) (index : ℕ) :
    (setBit bitmap index).length = bitmap.length :=
  length_modify _ _ _

theorem toNat_or_two_pow (byte : UInt8) {k : ℕ} (hk : k < 8) :
    (UInt8.ofNat (byte.toNat ||| 2 ^ k)).toNat = byte.toNat ||| 2 ^ k := by
  have hlt : byte.toNat ||| 2 ^ k < 2 ^ 8 :=
    Nat.or_lt_two_pow byte.toNat_lt (Nat.pow_lt_pow_right (by omega) hk)
  rw [UInt8.toNat_ofNat']
  exact Nat.mod_eq_of_lt hlt

theorem bitIsSet_setBit {bitmap : Bytes} {index : ℕ} (h : index / 8 < bitmap.length) (j : ℕ) :
    bitIsSet (setBit bitmap index) j = (decide (index = j) || bitIsSet bitmap j) := by
  unfold bitIsSet setBit
  rw [getD_eq_getElem?_getD, getElem?_modify, getD_eq_getElem?_getD]
  by_cases hbyte : index / 8 = j / 8
  · -- the same byte: one of its bits is set
    rw [getElem?_eq_getElem (hbyte ▸ h)]
    simp only [hbyte, if_true, Option.map_eq_map, Option.map_some, Option.getD_some]
    rw [toNat_or_two_pow _ (Nat.mod_lt _ (by omega)), Nat.testBit_or, Nat.testBit_two_pow,
      Bool.or_comm]
    have hiff : index % 8 = j % 8 ↔ index = j := by omega
    rw [decide_eq_decide.mpr hiff]
  · have hne : index ≠ j := fun heq => hbyte (heq ▸ rfl)
    simp [hbyte, hne]

/-! ### Bytes in filled slots -/

theorem verifiedBytesFrom_le (totalLen : ℕ) (addresses : List (Option Digest)) (i : ℕ) :
    verifiedBytesFrom totalLen i addresses ≤ totalLen - i * attachmentChunkDataLen := by
  induction addresses generalizing i with
  | nil => exact Nat.zero_le _
  | cons address addresses ih =>
    have hrest := ih (i + 1)
    have hroom : chunkLen totalLen i + (totalLen - (i + 1) * attachmentChunkDataLen) ≤
        totalLen - i * attachmentChunkDataLen := by
      unfold chunkLen attachmentChunkDataLen
      omega
    rw [verifiedBytesFrom]
    split_ifs <;> omega

/-! ### Rows -/

namespace MediaObjectRecord

variable {record : MediaObjectRecord Digest} {index : ℕ} {address : Digest}

theorem withChunk_valid (h : record.Valid) (hix : index < record.chunkAddresses.length) :
    (record.withChunk index address).Valid := by
  obtain ⟨hlen, hcnt, hmax, hbit, hslot, -, hmed, hname, hprev, hbits, -⟩ := h
  have hbyte : index / 8 < record.verifiedBitmap.length := by
    rw [hbit, bitmapLen]
    omega
  have hbd :=
    verifiedBytesFrom_le record.totalLen (record.chunkAddresses.set index (some address)) 0
  refine ⟨hlen, hcnt, hmax, ?_, ?_, ?_, hmed, hname, hprev, ?_, rfl⟩
  · exact (length_setBit _ _).trans hbit
  · exact length_set.trans hslot
  · rwa [Nat.zero_mul, Nat.sub_zero] at hbd
  · intro j hj
    have hj' : j < record.chunkAddresses.length := length_set ▸ hj
    show ((record.chunkAddresses.set index (some address)).getD j none).isSome =
      bitIsSet (setBit record.verifiedBitmap index) j
    rw [bitIsSet_setBit hbyte, ← hbits j hj', getD_eq_getElem?_getD, getElem?_set]
    by_cases hj : index = j
    · rw [if_pos hj, if_pos hix, decide_eq_true hj]
      rfl
    · rw [if_neg hj, decide_eq_false hj, Bool.false_or, getD_eq_getElem?_getD]

theorem valid_with_state (h : record.Valid) (state : MediaTransferState) :
    { record with state }.Valid := h

end MediaObjectRecord

end Komms.Attachment
