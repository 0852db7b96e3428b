import Komms.Crypto.Base32

/-!
# Base32 text and Connect codes are canonical

A text and the bytes it stands for spell one number, up to the zeros that fill the last digit.  The
encoder writes such a text and the decoder accepts nothing else, so each byte string has one text.
-/

namespace Komms

open BitStream List

/-! ### Digits -/

/-- Digits of 5 bits that spell the bytes, followed by less than a digit of zeros. -/
structure Spells (data digits : List ℕ) (pad : ℕ) : Prop where
  pad_lt : pad < 5
  length_eq : 5 * digits.length = 8 * data.length + pad
  value_eq : value 5 digits = value 8 data * 2 ^ pad
  lt : ∀ d ∈ digits, d < 2 ^ 5

theorem Spells.unique {data digits digits' : List ℕ} {pad pad' : ℕ} (h : Spells data digits pad)
    (h' : Spells data digits' pad') : digits = digits' := by
  have hlen := h.length_eq
  have hlen' := h'.length_eq
  have hpads := h.pad_lt
  have hpads' := h'.pad_lt
  have hpad : pad = pad' := by omega
  refine value_inj (by decide) (by omega) h.lt h'.lt ?_
  rw [h.value_eq, h'.value_eq, hpad]

theorem toNat_lt {data : Bytes} : ∀ d ∈ data.map UInt8.toNat, d < 2 ^ 8 := by
  simpa using fun b _ => b.toNat_lt

theorem spells_base32Digits (data : Bytes) :
    ∃ pad, Spells (data.map UInt8.toNat) (base32Digits data) pad := by
  obtain ⟨hold, hbits⟩ := Holds.foldl (b := 5) (by decide)
    (fun _ _ _ h hbits hd => (h.push (by omega) hd).drain (by decide))
    (data.map UInt8.toNat) toNat_lt
  unfold base32Digits
  dsimp only
  generalize List.foldl (fun s b => drain 5 (push 8 s b)) empty _ = s at hold hbits ⊢
  have hlen := hold.length_eq
  split_ifs with hpos
  · have hpow : 2 ^ 5 = 2 ^ s.bits * 2 ^ (5 - s.bits) := by
      rw [← pow_add, Nat.add_sub_cancel' hbits.le]
    -- What waits in the buffer becomes the high bits of the last digit.
    have hlast : (s.buf <<< (5 - s.bits)) % 2 ^ 64 &&& 0x1f =
        s.buf % 2 ^ s.bits * 2 ^ (5 - s.bits) := by
      rw [Nat.and_two_pow_sub_one_eq_mod _ 5, Nat.mod_mod_of_dvd _ (by decide), Nat.shiftLeft_eq,
        hpow, Nat.mul_mod_mul_right]
    refine ⟨5 - s.bits, by omega, ?_, ?_, fun d hd => ?_⟩
    · rw [length_append, length_singleton]
      omega
    · rw [value_concat, hlast, ← hold.value_eq, hpow]
      ring
    · rcases mem_append.mp hd with hd | hd
      · exact hold.lt d hd
      · rw [mem_singleton.mp hd, Nat.and_two_pow_sub_one_eq_mod _ 5]
        exact Nat.mod_lt _ (by decide)
  · have hzero : s.bits = 0 := by omega
    have hv := hold.value_eq
    rw [hzero, Nat.pow_zero, Nat.mod_one, add_zero, mul_one] at hv
    exact ⟨0, by decide, by omega, by rw [hv, Nat.pow_zero, mul_one], hold.lt⟩

/-- What the decoder accepts are the spellings of the bytes it returns, with clean padding. -/
theorem accepted_iff {digits : List ℕ} {data : Bytes} {s : BitStream}
    (hlt : ∀ d ∈ digits, d < 2 ^ 5) (hs : digits.foldl base32Accept .empty = s) :
    (s.bits < 5 ∧ s.buf % 2 ^ s.bits = 0 ∧ s.out.map UInt8.ofNat = data) ↔
      ∃ pad, Spells (data.map UInt8.toNat) digits pad := by
  -- One digit keeps what the stream holds, and fewer than eight bits wait.
  have hstep : ∀ input s d, Holds 5 8 input s → s.bits < 8 → d < 2 ^ 5 →
      Holds 5 8 (input ++ [d]) (base32Accept s d) ∧ (base32Accept s d).bits < 8 := by
    intro input s d h hbits hd
    unfold base32Accept
    dsimp only
    split_ifs with hfull
    · exact ⟨(h.push (by omega) hd).cut hfull, by simp only [BitStream.cut, BitStream.push]; omega⟩
    · exact ⟨h.push (by omega) hd, by omega⟩
  obtain ⟨hold, hbits⟩ := Holds.foldl (by decide) hstep digits hlt
  rw [hs] at hold hbits
  have hlen := hold.length_eq
  have hv := hold.value_eq
  constructor
  · rintro ⟨hfew, hclean, rfl⟩
    have hout : (s.out.map UInt8.ofNat).map UInt8.toNat = s.out := by
      rw [map_map]
      exact (map_congr_left fun d hd => UInt8.toNat_ofNat_of_lt' (hold.lt d hd)).trans
        (map_id _)
    rw [hout]
    rw [hclean, add_zero] at hv
    exact ⟨s.bits, hfew, hlen.symm, hv.symm, hlt⟩
  · rintro ⟨pad, h⟩
    have hlen' := h.length_eq
    have hpad := h.pad_lt
    have hbits' : s.bits = pad := by omega
    rw [h.value_eq, ← hbits'] at hv
    have hclean : s.buf % 2 ^ s.bits = 0 := by
      have := congrArg (· % 2 ^ s.bits) hv
      simpa using this
    rw [hclean, add_zero] at hv
    have hout : s.out = data.map UInt8.toNat := by
      refine value_inj (by decide) ?_ hold.lt toNat_lt ?_
      · omega
      · exact Nat.eq_of_mul_eq_mul_right (by positivity) hv
    refine ⟨by omega, hclean, ?_⟩
    rw [hout, map_map]
    exact (map_congr_left fun _ _ => UInt8.ofNat_toNat).trans (map_id _)

/-! ### Texts -/

theorem idxOf?_base32Alphabet {c : UInt8} {d : ℕ} :
    base32Alphabet.idxOf? c = some d ↔ d < 2 ^ 5 ∧ base32Alphabet.getD d 0 = c := by
  constructor
  · intro h
    obtain ⟨hlt, hget, -⟩ := idxOf?_eq_some_iff.mp h
    exact ⟨hlt, by rw [getD_eq_getElem _ _ hlt, hget]⟩
  · rintro ⟨hlt, rfl⟩
    have hall : ∀ d : Fin 32, base32Alphabet.idxOf? (base32Alphabet.getD d 0) = some d.val := by
      decide
    exact hall ⟨d, hlt⟩

theorem foldlM_accept_eq_some_iff {text : Bytes} {s s' : BitStream} :
    text.foldlM (fun s c => (base32Alphabet.idxOf? c).map (base32Accept s)) s = some s' ↔
      ∃ digits : List ℕ, (digits.map fun d => base32Alphabet.getD d 0) = text ∧
        (∀ d ∈ digits, d < 2 ^ 5) ∧ digits.foldl base32Accept s = s' := by
  induction text generalizing s with
  | nil => simp
  | cons c text ih =>
    simp only [foldlM_cons, Option.bind_eq_bind, Option.bind_eq_some_iff,
      Option.map_eq_some_iff, idxOf?_base32Alphabet, ih]
    constructor
    · rintro ⟨_, ⟨d, ⟨hlt, rfl⟩, rfl⟩, digits, rfl, hdig, rfl⟩
      exact ⟨d :: digits, rfl, forall_mem_cons.mpr ⟨hlt, hdig⟩, rfl⟩
    · rintro ⟨digits, htext, hdig, rfl⟩
      obtain ⟨d, digits, rfl, rfl, rfl⟩ := map_eq_cons_iff.mp htext
      obtain ⟨hlt, hdig⟩ := forall_mem_cons.mp hdig
      exact ⟨_, ⟨d, ⟨hlt, rfl⟩, rfl⟩, digits, rfl, hdig, rfl⟩

/-- The decoder accepts exactly the text that the encoder writes. -/
theorem base32LowerNopadDecode_eq_some_iff {text data : Bytes} :
    base32LowerNopadDecode text = some data ↔ text = base32LowerNopad data := by
  have hclean : ∀ s : BitStream, (if s.bits ≥ 5 ∨ s.buf &&& ((1 <<< s.bits) - 1) ≠ 0 then none
      else some (s.out.map UInt8.ofNat)) = some data ↔
        s.bits < 5 ∧ s.buf % 2 ^ s.bits = 0 ∧ s.out.map UInt8.ofNat = data := by
    intro s
    rw [Nat.one_shiftLeft, Nat.and_two_pow_sub_one_eq_mod]
    simp [not_or, and_assoc]
  simp only [base32LowerNopadDecode, Option.bind_eq_bind, Option.bind_eq_some_iff, hclean,
    foldlM_accept_eq_some_iff]
  constructor
  · rintro ⟨s, ⟨_, rfl, hlt, hs⟩, hacc⟩
    obtain ⟨pad, hspell⟩ := (accepted_iff hlt hs).mp hacc
    obtain ⟨_, hspell'⟩ := spells_base32Digits data
    rw [base32LowerNopad, hspell.unique hspell']
  · rintro rfl
    obtain ⟨pad, hspell⟩ := spells_base32Digits data
    exact ⟨_, ⟨_, rfl, hspell.lt, rfl⟩, (accepted_iff hspell.lt rfl).mpr ⟨pad, hspell⟩⟩

/-! ### Connect codes -/

theorem ConnectCode.parse_eq_ok_iff {connectChecksum : Bytes → Octets 4} {text : Bytes}
    {c : ConnectCode} : parse connectChecksum text = .ok c ↔
      text = c.encode connectChecksum ∧ c.identityDigest ≠ .zero 32 ∧ c.capability ≠ .zero 32 := by
  simp only [parse, bind_eq_ok_iff, required_eq_ok_iff, rejectIf_eq_ok_iff,
    isPrefixOf?_eq_some_iff_append_eq, base32LowerNopadDecode_eq_some_iff,
    Octets.ofBytes?_eq_some_iff, not_or, not_not, ne_eq, Except.ok.injEq]
  constructor
  · rintro ⟨_, rfl, _, rfl, payload, rfl, ⟨⟩, ⟨-, hcheck⟩, digest, hdig, capability,
      hcap, ⟨⟩, hzero, rfl⟩
    refine ⟨?_, hzero⟩
    have htake : digest.toBytes ++ capability.toBytes = payload.toBytes.take 64 := by
      have hspl := take_append_drop 32 (payload.toBytes.take 64)
      rwa [take_take, ← hcap, min_eq_left (by decide), ← hdig] at hspl
    rw [encode, htake, ← hcheck, take_append_drop]
  · rintro ⟨rfl, hzero⟩
    have hlen : (c.identityDigest.toBytes ++ c.capability.toBytes).length = 64 := by simp
    refine ⟨_, rfl, _, rfl, ⟨_, ?_⟩, rfl, (), ⟨rfl, ?_⟩, c.identityDigest, ?_, c.capability, ?_, (),
      hzero, rfl⟩
    · rw [length_append, hlen, Octets.length_toBytes]
    · rw [drop_left' hlen, take_left' hlen]
    · change _ = List.take 32 (_ ++ _ ++ _)
      rw [append_assoc, take_left' (by simp)]
    · rw [take_left' hlen, drop_left' (by simp)]

/-- **Base32 text and Connect codes are canonical.**  A text stands for a byte string exactly when
it is what the encoder writes for it, and for a Connect code when it is the text of that code and
neither half of the code is zero. -/
theorem base32_connectCode_canonical (connectChecksum : Bytes → Octets 4) :
    (∀ data, base32LowerNopadDecode (base32LowerNopad data) = some data) ∧
      (∀ text data, base32LowerNopadDecode text = some data → text = base32LowerNopad data) ∧
      ∀ text c, ConnectCode.parse connectChecksum text = .ok c ↔
        text = c.encode connectChecksum ∧ c.identityDigest ≠ .zero 32 ∧ c.capability ≠ .zero 32 :=
  ⟨fun _ => base32LowerNopadDecode_eq_some_iff.mpr rfl,
    fun _ _ => base32LowerNopadDecode_eq_some_iff.mp, fun _ _ => ConnectCode.parse_eq_ok_iff⟩

end Komms
