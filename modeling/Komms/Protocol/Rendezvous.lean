import Komms.Protocol.Envelope

/-!
# Rendezvous requests

The bodies that the rendezvous service accepts, `kult-protocol/src/rendezvous.rs`.  Both are of
fixed length; numbers travel in big-endian order.

* register: slot, epoch, lifetime, sealed record;
* lookup: slot, epoch, twenty-four zero bytes.
-/

namespace Komms.Protocol

/-! ### Big-endian integers -/

def beBytes (w x : ℕ) : Bytes := (leBytes w x).reverse

def ofBeBytes (bytes : Bytes) : ℕ := ofLeBytes bytes.reverse

/-! ### Sizes and names -/

/-- Nonce, plaintext and tag of a sealed route record. -/
def rendezvousSealedRecordLen : ℕ := 24 + 4096 + 16
def rendezvousMaxTtlSecs : UInt32 := 7200
def rendezvousEpochSecs : ℕ := 3600
def rendezvousRegisterRequestLen : ℕ := 32 + 8 + 4 + rendezvousSealedRecordLen
def rendezvousRegisterAckLen : ℕ := 64
def rendezvousLookupRequestLen : ℕ := 64
def rendezvousLookupResponseLen : ℕ := rendezvousSealedRecordLen
def rendezvousMalformedResponseLen : ℕ := 64
def rendezvousMediaType : String := "application/komms-rendezvous-v1"
def rendezvousRegisterPath : String := "/v1/rendezvous/register"
def rendezvousLookupPath : String := "/v1/rendezvous/lookup"

def rendezvousEpoch (now : ℕ) : ℕ := now / rendezvousEpochSecs

/-! ### Register -/

structure RendezvousRegisterRequest where
  slot : Octets 32
  epoch : UInt64
  ttlSeconds : UInt32
  sealedRecord : Octets rendezvousSealedRecordLen
  deriving DecidableEq

namespace RendezvousRegisterRequest

def encode (request : RendezvousRegisterRequest) : Except EnvelopeError Bytes := do
  rejectIf (request.ttlSeconds = 0 ∨ request.ttlSeconds > rendezvousMaxTtlSecs) .malformed
  .ok (request.slot.toBytes ++ beBytes 8 request.epoch.toNat ++
    beBytes 4 request.ttlSeconds.toNat ++ request.sealedRecord.toBytes)

def decode (bytes : Bytes) : Except EnvelopeError RendezvousRegisterRequest := do
  rejectIf (bytes.length ≠ rendezvousRegisterRequestLen) .malformed
  let slot ← required .malformed (Octets.ofBytes? 32 (bytes.take 32))
  let epoch := UInt64.ofNat (ofBeBytes ((bytes.drop 32).take 8))
  let ttlSeconds := UInt32.ofNat (ofBeBytes ((bytes.drop 40).take 4))
  rejectIf (ttlSeconds = 0 ∨ ttlSeconds > rendezvousMaxTtlSecs) .malformed
  let sealedRecord ← required .malformed
    (Octets.ofBytes? rendezvousSealedRecordLen (bytes.drop 44))
  .ok ⟨slot, epoch, ttlSeconds, sealedRecord⟩

end RendezvousRegisterRequest

/-! ### Lookup -/

structure RendezvousLookupRequest where
  slot : Octets 32
  epoch : UInt64
  deriving DecidableEq

namespace RendezvousLookupRequest

def encode (request : RendezvousLookupRequest) : Bytes :=
  request.slot.toBytes ++ beBytes 8 request.epoch.toNat ++ List.replicate 24 0

def decode (bytes : Bytes) : Except EnvelopeError RendezvousLookupRequest := do
  rejectIf (bytes.length ≠ rendezvousLookupRequestLen ∨ ∃ byte ∈ bytes.drop 40, byte ≠ 0) .malformed
  let slot ← required .malformed (Octets.ofBytes? 32 (bytes.take 32))
  .ok ⟨slot, UInt64.ofNat (ofBeBytes ((bytes.drop 32).take 8))⟩

end RendezvousLookupRequest

end Komms.Protocol
