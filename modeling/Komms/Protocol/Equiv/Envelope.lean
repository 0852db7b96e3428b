import Komms.Protocol.Envelope

/-!
# Envelopes survive their encoding

* `decode_of_tryEncode`: a bounded envelope is read back from its bytes.
* `encode_injective`: no two envelopes have the same bytes.
* `length_encode`: the bytes of an envelope are as many as its header says.
-/

namespace Komms.Protocol

open Except

@[simp] theorem EnvelopeKind.ofByte_toByte (kind : EnvelopeKind) :
    EnvelopeKind.ofByte kind.toByte = .ok kind := by
  cases kind <;> rfl

namespace Envelope

variable {e : Envelope}

theorem length_encode (e : Envelope) : e.encode.length = e.encodedLen := by
  unfold encode encodedLen headerLen hintBytes
  cases e.retentionUntil with
  | none => simp [envelopeV1HeaderLen]; omega
  | some hint => simp [envelopeV2HeaderLen]; omega

/-- The part after the token determines the hint and the body. -/
theorem decodeRest_encode (e : Envelope) :
    decodeRest e.kind e.token e.version (e.hintBytes ++ e.body) = .ok e := by
  unfold decodeRest version hintBytes
  cases hhint : e.retentionUntil with
  | none =>
    exact congrArg Except.ok (Envelope.ext rfl rfl hhint.symm rfl)
  | some hint =>
    have hbkt : RetentionBucket hint := e.retention_bucket hint hhint
    have hread : UInt64.ofNat (ofLeBytes (leBytes 8 hint.toNat)) = hint := by
      rw [ofLeBytes_leBytes hint.toNat_lt, UInt64.ofNat_toNat]
    have hlen : 8 ≤ (leBytes 8 hint.toNat ++ e.body).length := by simp
    simp only [Option.isSome_some, if_true]
    rw [if_neg (by decide), if_pos ⟨trivial, hlen⟩, List.take_left' (length_leBytes 8 _),
      List.drop_left' (length_leBytes 8 _), hread, newRetained, dif_pos hbkt]
    exact congrArg Except.ok (Envelope.ext rfl rfl hhint.symm rfl)

/-- **Round trip.**  Within the wire bound, an envelope is read back from its bytes. -/
theorem decode_encode (h : e.encodedLen ≤ maxEnvelopeBytes) : decode e.encode = .ok e := by
  have hbd : ¬ e.encode.length > maxEnvelopeBytes := by
    rw [length_encode]
    omega
  have htoken : ¬ (e.token.toBytes ++ (e.hintBytes ++ e.body)).length < 32 := by simp
  unfold decode
  rw [rejectIf_bind_of_not hbd]
  unfold encode
  simp only [rejectIf_bind_of_not htoken, EnvelopeKind.ofByte_toByte, ok_bind,
    List.take_left' e.token.length_eq, List.drop_left' e.token.length_eq,
    Octets.ofBytes?_toBytes, required]
  exact decodeRest_encode e

/-- Without a bound, no two envelopes have the same bytes. -/
theorem encode_injective : Function.Injective encode := by
  intro a b h
  obtain ⟨hver, h⟩ := List.cons.inj h
  obtain ⟨hkind, h⟩ := List.cons.inj h
  obtain ⟨htoken, hrest⟩ := List.append_inj h (by simp)
  have hkind : a.kind = b.kind := ok.inj
    (a.kind.ofByte_toByte.symm.trans (hkind ▸ b.kind.ofByte_toByte))
  have ha := decodeRest_encode a
  rw [hkind, Octets.ext htoken, hver, hrest, decodeRest_encode b] at ha
  exact (ok.inj ha).symm

theorem decode_of_tryEncode {bytes : Bytes} (h : e.tryEncode = .ok bytes) :
    decode bytes = .ok e := by
  simp only [tryEncode, rejectIf_bind_eq_ok_iff, ok.injEq, not_lt, gt_iff_lt] at h
  obtain ⟨hlen, rfl⟩ := h
  exact decode_encode hlen

end Envelope

end Komms.Protocol
