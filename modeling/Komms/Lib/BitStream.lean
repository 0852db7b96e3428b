import Mathlib.Data.Nat.Bitwise
import Mathlib.Data.Nat.Digits.Lemmas

/-!
# Bits through a buffer

Digits of `a` bits are shifted into a 64-bit buffer, and digits of `b` bits are cut off its other
end.  What was cut, followed by the bits that wait in the buffer, spells the number that was shifted
in, however many digits that were.
-/

namespace Komms

open List

/-- The digits that were cut, and a buffer whose low `bits` bits are not cut yet. -/
structure BitStream where
  out : List ℕ
  buf : ℕ
  bits : ℕ

namespace BitStream

/-- The number that digits of `w` bits spell, the most significant one first. -/
def value (w : ℕ) (ds : List ℕ) : ℕ := Nat.ofDigits (2 ^ w) ds.reverse

theorem value_concat (w : ℕ) (ds : List ℕ) (d : ℕ) :
    value w (ds ++ [d]) = value w ds * 2 ^ w + d := by
  simp [value, Nat.ofDigits_cons, mul_comm, add_comm]

theorem value_inj {w : ℕ} {ds ds' : List ℕ} (hw : w ≠ 0) (hlen : ds.length = ds'.length)
    (hds : ∀ d ∈ ds, d < 2 ^ w) (hds' : ∀ d ∈ ds', d < 2 ^ w) (h : value w ds = value w ds') :
    ds = ds' := by
  refine reverse_injective (Nat.ofDigits_inj_of_len_eq (Nat.one_lt_two_pow hw) ?_ ?_ ?_ h)
  · simpa using hlen
  · simpa using hds
  · simpa using hds'

def empty : BitStream := ⟨[], 0, 0⟩

/-- Shift a digit of `w` bits into the buffer, which drops its oldest bits. -/
def push (w : ℕ) (s : BitStream) (d : ℕ) : BitStream :=
  { s with buf := (s.buf <<< w ||| d) % 2 ^ 64, bits := s.bits + w }

/-- Cut a digit of `w` bits off the buffer. -/
def cut (w : ℕ) (s : BitStream) : BitStream :=
  { s with
    out := s.out ++ [(s.buf >>> (s.bits - w)) &&& (2 ^ w - 1)]
    bits := s.bits - w }

/-- Cut digits off as long as there are enough bits. -/
def drain (w : ℕ) (s : BitStream) : BitStream :=
  if 0 < w ∧ w ≤ s.bits then drain w (s.cut w) else s
termination_by s.bits
decreasing_by simp only [cut]; omega

/-- The stream holds the digits that were shifted into it. -/
structure Holds (a b : ℕ) (input : List ℕ) (s : BitStream) : Prop where
  value_eq : value b s.out * 2 ^ s.bits + s.buf % 2 ^ s.bits = value a input
  length_eq : b * s.out.length + s.bits = a * input.length
  lt : ∀ d ∈ s.out, d < 2 ^ b

namespace Holds

variable {a b d : ℕ} {input : List ℕ} {s : BitStream}

theorem empty (a b : ℕ) : Holds a b [] .empty :=
  ⟨by simp [value, BitStream.empty, Nat.mod_one], rfl, fun _ hd => absurd hd not_mem_nil⟩

theorem push (h : Holds a b input s) (hbits : s.bits + a ≤ 64) (hd : d < 2 ^ a) :
    Holds a b (input ++ [d]) (s.push a d) where
  value_eq := by
    have hbuf : (s.push a d).buf % 2 ^ (s.bits + a) = s.buf % 2 ^ s.bits * 2 ^ a + d := by
      have hlow : (s.buf * 2 ^ a + d) % 2 ^ a = d := by
        rw [Nat.mul_add_mod_self_right, Nat.mod_eq_of_lt hd]
      have hhigh : (s.buf * 2 ^ a + d) / 2 ^ a = s.buf := by
        rw [mul_comm, Nat.mul_add_div (by positivity), Nat.div_eq_of_lt hd, add_zero]
      rw [BitStream.push, Nat.mod_mod_of_dvd _ (pow_dvd_pow 2 hbits),
        ← Nat.shiftLeft_add_eq_or_of_lt hd, Nat.shiftLeft_eq, add_comm s.bits, pow_add, Nat.mod_mul,
        hlow, hhigh]
      ring
    rw [value_concat, ← h.value_eq]
    change value b s.out * 2 ^ (s.bits + a) + (s.push a d).buf % 2 ^ (s.bits + a) = _
    rw [hbuf]
    ring
  length_eq := by
    rw [length_append, length_singleton, mul_add, mul_one, ← h.length_eq, add_assoc]
    rfl
  lt := h.lt

theorem cut (h : Holds a b input s) (hbits : b ≤ s.bits) : Holds a b input (s.cut b) where
  value_eq := by
    have hspl := Nat.mod_mul (a := 2 ^ (s.bits - b)) (b := 2 ^ b) (x := s.buf)
    rw [← pow_add, Nat.sub_add_cancel hbits] at hspl
    have hpow : 2 ^ s.bits = 2 ^ (s.bits - b) * 2 ^ b := by rw [← pow_add, Nat.sub_add_cancel hbits]
    rw [← h.value_eq, hspl, hpow]
    simp only [BitStream.cut, value_concat, Nat.and_two_pow_sub_one_eq_mod,
      Nat.shiftRight_eq_div_pow]
    ring
  length_eq := by
    have := h.length_eq
    simp only [BitStream.cut, length_append, length_singleton, mul_add, mul_one]
    omega
  lt := by
    intro d hd
    rcases mem_append.mp hd with hd | hd
    · exact h.lt d hd
    · rw [mem_singleton.mp hd, Nat.and_two_pow_sub_one_eq_mod]
      exact Nat.mod_lt _ (by positivity)

theorem drain (h : Holds a b input s) (hb : 0 < b) :
    Holds a b input (s.drain b) ∧ (s.drain b).bits < b := by
  fun_induction BitStream.drain b s with
  | case1 s hcut ih => exact ih (h.cut hcut.2)
  | case2 s hcut => exact ⟨h, by omega⟩

/-- A loop whose steps take one digit in and leave less than one in the buffer. -/
theorem foldl {step : BitStream → ℕ → BitStream} (hb : 0 < b)
    (hstep : ∀ input s d, Holds a b input s → s.bits < b → d < 2 ^ a →
      Holds a b (input ++ [d]) (step s d) ∧ (step s d).bits < b)
    (input : List ℕ) (hlt : ∀ d ∈ input, d < 2 ^ a) :
    Holds a b input (input.foldl step .empty) ∧ (input.foldl step .empty).bits < b := by
  induction input using List.reverseRecOn with
  | nil => exact ⟨.empty a b, hb⟩
  | append_singleton input d ih =>
    obtain ⟨hold, hbits⟩ := ih fun d hd => hlt d (mem_append_left _ hd)
    rw [foldl_concat]
    exact hstep _ _ d hold hbits (hlt d (by simp))

end Holds

end BitStream

end Komms
