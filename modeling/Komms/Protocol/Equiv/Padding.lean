import Mathlib.Data.List.Find
import Komms.Protocol.Envelope

/-!
# Padding is exact

`unpad` returns a plaintext just when its input has a bucket size and is that plaintext, the marker
and zeros (`unpad_eq_ok_iff`); `padding_exact` is what follows for the two functions.
-/

namespace Komms.Protocol

open List

variable {x p : Bytes} {n : ℕ}

theorem rdropWhile_marked : (x ++ 0x80 :: replicate n 0).rdropWhile (· = 0) = x ++ [0x80] := by
  induction n with
  | zero => exact rdropWhile_concat_neg _ _ _ (by decide)
  | succ n ih =>
    rw [replicate_succ', ← cons_append, ← append_assoc, rdropWhile_concat_pos _ _ _ (by decide), ih]

/-- **What is unpadded.** -/
theorem unpad_eq_ok_iff :
    unpad p = .ok x ↔ p.length ∈ padBuckets ∧ ∃ n, p = x ++ 0x80 :: replicate n 0 := by
  simp only [unpad, rejectIf_bind_eq_ok_iff, Except.ok.injEq, not_not]
  refine and_congr_right fun _ => ⟨?_, ?_⟩
  · rintro ⟨hmark, rfl⟩
    have hzero : p.rtakeWhile (· = 0) = replicate (p.rtakeWhile (· = 0)).length 0 := by
      refine eq_replicate_iff.mpr ⟨rfl, fun b hb => ?_⟩
      simpa using mem_rtakeWhile_imp hb
    refine ⟨(p.rtakeWhile (· = 0)).length, ?_⟩
    calc p = p.rdropWhile (· = 0) ++ p.rtakeWhile (· = 0) := rdropWhile_append_rtakeWhile.symm
      _ = (p.rdropWhile (· = 0)).dropLast ++ [0x80] ++
          replicate (p.rtakeWhile (· = 0)).length 0 := by
        rw [dropLast_append_getLast? _ hmark, ← hzero]
      _ = _ := by rw [append_assoc, singleton_append]
  · rintro ⟨n, rfl⟩
    rw [rdropWhile_marked]
    simp

theorem find?_padBuckets {needed bucket : ℕ} (hmem : bucket ∈ padBuckets) (hle : needed ≤ bucket) :
    padBuckets.find? (fun b => needed ≤ b && bucket ≤ b) = some bucket := by
  simp only [padBuckets, mem_cons, not_mem_nil, or_false] at hmem
  rcases hmem with rfl | rfl | rfl | rfl | rfl | rfl <;> simp [padBuckets, hle]

theorem map_length_padToMinimum (plaintext : Bytes) (minimum : ℕ) :
    (padToMinimum plaintext minimum).map length =
      required .tooLarge (padBuckets.find? fun b => plaintext.length + 1 ≤ b && minimum ≤ b) := by
  rw [padToMinimum, bind_map]
  cases hfind : padBuckets.find? fun b => plaintext.length + 1 ≤ b && minimum ≤ b with
  | none => rfl
  | some bucket =>
    have hfits : plaintext.length + 1 ≤ bucket := by
      have hpred := find?_some hfind
      rw [Bool.and_eq_true, decide_eq_true_eq] at hpred
      exact hpred.1
    have hlen : (plaintext ++ 0x80 :: replicate (bucket - (plaintext.length + 1)) 0).length =
        bucket := by
      simp
      omega
    exact congrArg Except.ok hlen

/-- **Padding is exact and shows nothing but the bucket.** -/
theorem padding_exact :
    (∀ plaintext minimum padded, padToMinimum plaintext minimum = .ok padded →
      unpad padded = .ok plaintext) ∧
    (∀ x y minimum, (∀ b ∈ padBuckets, x.length + 1 ≤ b ↔ y.length + 1 ≤ b) →
      (padToMinimum x minimum).map length = (padToMinimum y minimum).map length) ∧
    ∀ p x, unpad p = .ok x → padToMinimum x p.length = .ok p := by
  refine ⟨?_, ?_, ?_⟩
  · intro plaintext minimum padded h
    have hlen := map_length_padToMinimum plaintext minimum
    rw [h, eq_comm, Except.map, required_eq_ok_iff] at hlen
    simp only [padToMinimum, bind_eq_ok_iff, Except.ok.injEq] at h
    obtain ⟨_, -, rfl⟩ := h
    exact unpad_eq_ok_iff.mpr ⟨mem_of_find?_eq_some hlen, _, rfl⟩
  · intro x y minimum hsep
    rw [map_length_padToMinimum, map_length_padToMinimum]
    refine congrArg _ (find?_congr fun b hb => ?_)
    rw [decide_eq_decide.mpr (hsep b hb)]
  · intro p x h
    -- A padded message is its own least bucket.
    obtain ⟨hmem, n, hp⟩ := unpad_eq_ok_iff.mp h
    have hlen : p.length = x.length + 1 + n := by
      rw [hp]
      simp
      omega
    rw [padToMinimum, find?_padBuckets hmem (by omega)]
    have hzeros : p.length - (x.length + 1) = n := by omega
    rw [required, ok_bind, hzeros, hp]

/-- A plaintext that ends as padding does. -/
theorem Sample.padding_exact_marker : ∃ padded, padToMinimum [7, 0x80, 0] 512 = .ok padded ∧
    unpad padded = .ok [7, 0x80, 0] :=
  ⟨_, rfl, padding_exact.1 _ 512 _ rfl⟩

end Komms.Protocol
