import Komms.Protocol.Rendezvous

/-!
# Reading back rendezvous requests

What an endpoint registers the service decodes to the same request.
-/

namespace Komms.Protocol

open List Octets

@[simp] theorem length_beBytes (w x : ℕ) : (beBytes w x).length = w := by simp [beBytes]

theorem ofBeBytes_beBytes {w x : ℕ} (hx : x < 256 ^ w) : ofBeBytes (beBytes w x) = x := by
  rw [ofBeBytes, beBytes, reverse_reverse, ofLeBytes_leBytes hx]

/-- A registration is read back as it was written. -/
theorem RendezvousRegisterRequest.decode_of_encode {request : RendezvousRegisterRequest}
    {bytes : Bytes} (h : request.encode = .ok bytes) :
    RendezvousRegisterRequest.decode bytes = .ok request := by
  obtain ⟨httl, hbytes⟩ := check_bind_eq_ok_iff.mp h
  have hval : ¬ (request.ttlSeconds = 0 ∨ request.ttlSeconds > rendezvousMaxTtlSecs) := by
    simpa using httl
  cases hbytes
  simp only [append_assoc]
  have hepoch : ofBeBytes (beBytes 8 request.epoch.toNat) = request.epoch.toNat :=
    ofBeBytes_beBytes request.epoch.toNat_lt
  have hread : ofBeBytes (beBytes 4 request.ttlSeconds.toNat) = request.ttlSeconds.toNat :=
    ofBeBytes_beBytes request.ttlSeconds.toNat_lt
  -- The fields begin at bytes 0, 32, 40 and 44.
  have hdrop : ∀ rest : Bytes,
      (request.slot.toBytes ++ (beBytes 8 request.epoch.toNat ++ rest)).drop
      40 = rest := fun rest => by
    rw [← append_assoc, drop_left' (by simp)]
  have hdrop' : ∀ rest : Bytes, (request.slot.toBytes ++ (beBytes 8 request.epoch.toNat ++
      (beBytes 4 request.ttlSeconds.toNat ++ rest))).drop 44 = rest := fun rest => by
    rw [← append_assoc, ← append_assoc, drop_left' (by simp)]
  have hlen : (request.slot.toBytes ++ (beBytes 8 request.epoch.toNat ++
      (beBytes 4 request.ttlSeconds.toNat ++ request.sealedRecord.toBytes))).length =
        rendezvousRegisterRequestLen := by
    simp only [length_append, length_beBytes, length_toBytes]
    rfl
  unfold decode
  rw [rejectIf_bind_of_not (by simp [hlen]),
    take_left' request.slot.length_eq, drop_left' request.slot.length_eq,
    take_left' (length_beBytes _ _), hdrop, take_left' (length_beBytes _ _),
    hdrop', hepoch, hread, ofBytes?_toBytes, ofBytes?_toBytes, UInt64.ofNat_toNat,
    UInt32.ofNat_toNat, required, ok_bind, rejectIf_bind_of_not hval]
  rfl

end Komms.Protocol
