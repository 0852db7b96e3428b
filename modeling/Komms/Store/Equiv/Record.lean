import Komms.Store.Record

/-!
# Records are framed unambiguously

A plaintext decodes to a record just when it is the record's frame (`decodeRecord_eq_ok_iff`), and
that frame is what the encoder writes (`encodeRecord_eq_ok_iff`).
-/

namespace Komms.Store

open List Komms.Parser

variable {key input rest plain payload : Bytes} {flags position : ℕ} {slot : Option Bytes}
  {slots : List (Option Bytes)} {indexes : IndexKeys}

def KeyFits (key : Bytes) : Prop := key ≠ [] ∧ key.length ≤ maxCanonicalKeyBytes

/-! ### Keys and slots -/

theorem be16_eq_ok_iff {n : ℕ} :
    be16 input = .ok (n, rest) ↔ n < 256 ^ 2 ∧ input = (leBytes 2 n).reverse ++ rest := by
  simp only [be16, Parser.bind_eq_ok_iff, take_eq_ok_iff, pure_eq_ok_iff]
  constructor
  · rintro ⟨bytes, _, ⟨hlen, rfl⟩, rfl, rfl⟩
    have hrev : bytes.reverse.length = 2 := by rw [length_reverse, hlen]
    have hlt := ofLeBytes_lt bytes.reverse
    have hread := leBytes_ofLeBytes bytes.reverse
    rw [hrev] at hlt hread
    rw [hread, reverse_reverse]
    exact ⟨hlt, rfl⟩
  · rintro ⟨hn, rfl⟩
    refine ⟨_, _, ⟨by simp, rfl⟩, ?_, rfl⟩
    rw [reverse_reverse, ofLeBytes_leBytes hn]

theorem decodeKey_eq_ok_iff :
    decodeKey input = .ok (key, rest) ↔ KeyFits key ∧ input = keyBytes key ++ rest := by
  simp only [decodeKey, Parser.bind_eq_ok_iff, be16_eq_ok_iff, reject_eq_ok_iff, take_eq_ok_iff,
    KeyFits, keyBytes, append_assoc, not_or, not_lt, ne_eq, ← length_eq_zero_iff]
  constructor
  · rintro ⟨_, _, ⟨-, rfl⟩, _, _, ⟨hfit, rfl⟩, rfl, rfl⟩
    exact ⟨hfit, rfl⟩
  · rintro ⟨hfit, rfl⟩
    have hlen : key.length < 256 ^ 2 := Nat.lt_of_le_of_lt hfit.2 (by decide)
    exact ⟨_, _, ⟨hlen, rfl⟩, (), _, ⟨hfit, rfl⟩, rfl, rfl⟩

def flagAt (flags position : ℕ) : Bool := flags &&& 1 <<< position ≠ 0

theorem decodeSlot_eq_ok_iff : decodeSlot flags position input = .ok (slot, rest) ↔
    flagAt flags position = slot.isSome ∧ (∀ key ∈ slot, KeyFits key) ∧
      input = slot.toList.flatMap keyBytes ++ rest := by
  unfold decodeSlot
  split_ifs with hflag
  · simp only [pure_eq_ok_iff, flagAt, hflag, ne_eq, not_true, decide_false]
    cases slot <;> simp
  · simp only [Parser.bind_eq_ok_iff, decodeKey_eq_ok_iff, pure_eq_ok_iff, flagAt, hflag,
      ne_eq, not_false_eq_true, decide_true]
    cases slot with
    | none => simp
    | some key => simp

theorem eq_indexFlags : ∀ flags < 256, flags &&& 0b11100000 = 0 →
    flags = indexFlags 0 ((range 5).map (flagAt flags)) := by
  decide +kernel

theorem flagAt_indexFlags : ∀ u a b c d : Bool,
    indexFlags 0 [u, a, b, c, d] < 256 ∧ indexFlags 0 [u, a, b, c, d] &&& 0b11100000 = 0 ∧
      (range 5).map (flagAt (indexFlags 0 [u, a, b, c, d])) = [u, a, b, c, d] := by
  decide

/-! ### Records -/

/-- Every key of the record may be framed. -/
def DecodedRecord.Fits (r : DecodedRecord) : Prop :=
  KeyFits r.logicalKey ∧ ∀ key ∈ r.indexes.keys, KeyFits key

theorem decodeBody_eq_ok_iff : decodeBody input = .ok ((key, indexes), rest) ↔
    DecodedRecord.Fits ⟨key, indexes, rest⟩ ∧
      logicalRecordVersion :: input = DecodedRecord.frame ⟨key, indexes, rest⟩ := by
  obtain ⟨u, a, b, c, d⟩ := indexes
  simp only [decodeBody, Parser.bind_eq_ok_iff, decodeKey_eq_ok_iff, le_eq_ok_iff, reject_eq_ok_iff,
    decodeSlot_eq_ok_iff, pure_eq_ok_iff, Prod.mk.injEq, IndexKeys.mk.injEq, not_not, ne_eq,
    DecodedRecord.Fits, DecodedRecord.frame, cons.injEq, true_and, IndexKeys.keys,
      IndexKeys.asArray,
    flatMap_cons, flatMap_nil, append_nil, flatMap_append, append_assoc, forall_mem_append,
    Option.mem_toList, Option.mem_def]
  constructor
  · rintro ⟨_, _, ⟨hkey, rfl⟩, flags, _, ⟨hlt, rfl⟩, _, _, ⟨hres, rfl⟩, _, _, ⟨hu, hku, rfl⟩, _, _,
      ⟨ha, hka, rfl⟩, _, _, ⟨hb, hkb, rfl⟩, _, _, ⟨hc, hkc, rfl⟩, _, _, ⟨hd, hkd, rfl⟩,
      ⟨rfl, rfl, rfl, rfl, rfl, rfl⟩, rfl⟩
    have hflags : flags = indexFlags 0 [_, _, _, _, _] := eq_indexFlags flags hlt hres
    rw [hu, ha, hb, hc, hd] at hflags
    exact ⟨⟨hkey, hku, hka, hkb, hkc, hkd⟩, by rw [hflags]; rfl⟩
  · rintro ⟨⟨hkey, hku, hka, hkb, hkc, hkd⟩, rfl⟩
    obtain ⟨hlt, hres, hbits⟩ := flagAt_indexFlags u.isSome a.isSome b.isSome c.isSome d.isSome
    have hbits' : [_, _, _, _, _] = _ := hbits
    simp only [cons.injEq, and_true] at hbits'
    obtain ⟨hu, ha, hb, hc, hd⟩ := hbits'
    exact ⟨_, _, ⟨hkey, rfl⟩, _, _, ⟨hlt, rfl⟩, (), _, ⟨hres, rfl⟩, _, _, ⟨hu, hku, rfl⟩, _, _,
      ⟨ha, hka, rfl⟩, _, _, ⟨hb, hkb, rfl⟩, _, _, ⟨hc, hkc, rfl⟩, _, _, ⟨hd, hkd, rfl⟩,
      ⟨rfl, rfl, rfl, rfl, rfl, rfl⟩, rfl⟩

/-- **A plaintext decodes to a record just when it is its frame.** -/
theorem decodeRecord_eq_ok_iff {r : DecodedRecord} :
    decodeRecord plain = .ok r ↔ r.Fits ∧ plain = r.frame := by
  obtain ⟨key, indexes, payload⟩ := r
  cases plain with
  | nil => simp [decodeRecord, DecodedRecord.frame]
  | cons version remainder =>
    simp only [decodeRecord, Komms.bind_eq_ok_iff, rejectIf_eq_ok_iff, Prod.exists, Except.ok.injEq,
      DecodedRecord.mk.injEq, not_not]
    constructor
    · rintro ⟨-, rfl, -, -, _, _, _, hbody, rfl, rfl, rfl⟩
      exact decodeBody_eq_ok_iff.mp hbody
    · rintro ⟨hfit, hplain⟩
      have hlen := congrArg length hplain
      simp [DecodedRecord.frame, keyBytes] at hlen
      obtain rfl : version = logicalRecordVersion := (cons.inj hplain).1
      exact ⟨(), rfl, (), by omega, _, _, _, decodeBody_eq_ok_iff.mpr ⟨hfit, hplain⟩, rfl, rfl, rfl⟩

theorem checkKey_eq_ok_iff : checkKey key = .ok () ↔ KeyFits key := by
  simp [checkKey, KeyFits]

theorem length_frame (r : DecodedRecord) : r.frame.length = 1 + 2 + r.logicalKey.length + 1 +
    (r.indexes.keys.map fun key => 2 + key.length).sum + r.payload.length := by
  simp [DecodedRecord.frame, keyBytes, length_flatMap]
  omega

/-- **Store records are framed unambiguously**: a plaintext is the encoding of a record just when it
is within the bound and decodes to it, and no other record has that encoding. -/
theorem record_framing :
    (∀ key indexes payload plain, encodeRecord key indexes payload = .ok plain ↔
      plain.length ≤ maxRecordBytes ∧ decodeRecord plain = .ok ⟨key, indexes, payload⟩) ∧
    ∀ key indexes payload key' indexes' payload' plain,
      encodeRecord key indexes payload = .ok plain →
      encodeRecord key' indexes' payload' = .ok plain →
        key = key' ∧ indexes = indexes' ∧ payload = payload' := by
  have hiff (key indexes payload plain) : encodeRecord key indexes payload = .ok plain ↔
      plain.length ≤ maxRecordBytes ∧ decodeRecord plain = .ok ⟨key, indexes, payload⟩ := by
    have hlen := length_frame ⟨key, indexes, payload⟩
    simp only [encodeRecord, check_bind_eq_ok_iff, checkKey_eq_ok_iff, forEach_eq_ok_iff,
      rejectIf_eq_ok_iff, Except.ok.injEq, ← hlen, not_lt, decodeRecord_eq_ok_iff,
        DecodedRecord.Fits]
    constructor
    · rintro ⟨hkey, hkeys, hle, rfl⟩
      exact ⟨hle, ⟨hkey, hkeys⟩, rfl⟩
    · rintro ⟨hle, ⟨hkey, hkeys⟩, rfl⟩
      exact ⟨hkey, hkeys, hle, rfl⟩
  refine ⟨hiff, ?_⟩
  intro _ _ _ _ _ _ _ h h'
  cases ((hiff _ _ _ _).mp h).2.symm.trans ((hiff _ _ _ _).mp h').2
  exact ⟨rfl, rfl, rfl⟩

/-- A record with one index key. -/
theorem Sample.record_framing_one :
    decodeRecord [1, 0, 1, 9, 2, 0, 1, 8, 7] = .ok ⟨[9], ⟨none, some [8], none, none, none⟩, [7]⟩ :=
  ((record_framing.1 [9] ⟨none, some [8], none, none, none⟩ [7] _).mp rfl).2

end Komms.Store
