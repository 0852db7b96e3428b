import Mathlib.Data.Prod.Lex
import Komms.DeviceAuthority.Manifest
import Komms.Lib.LastWriter
import Komms.Protocol.Envelope

/-!
# Linked-device sync

The signed mutations that the devices of one account exchange, and the winner that every device
keeps for each key, `kult-protocol/src/device_sync.rs`.

An event is checked against an authority: the account, the generation, and the key and revocation
cutoff of each device.  Events that fail the check are passed over; of the others the greatest by
Lamport time, author, counter and digest stays.
-/

namespace Komms.Protocol

def maxDeviceSyncKeyBytes : ℕ := 512
def maxDeviceSyncValueBytes : ℕ := 1024 * 1024

/-! ### Events -/

/-- Synchronized state classes. -/
inductive DeviceSyncNamespace where
  | contacts
  | verification
  | localOrganization
  | conversationHistory
  | groups
  | messageEdits
  | groupPolls
  | expiryTombstones
  | accountCapabilities
  deriving DecidableEq, Repr

/-- `namespace as u8`: the position in the enumeration. -/
def DeviceSyncNamespace.code : DeviceSyncNamespace → UInt8
  | contacts => 0
  | verification => 1
  | localOrganization => 2
  | conversationHistory => 3
  | groups => 4
  | messageEdits => 5
  | groupPolls => 6
  | expiryTombstones => 7
  | accountCapabilities => 8

/-- One signed state mutation from one certified device; no value is a permanent tombstone. -/
structure DeviceSyncEvent where
  account : Octets 32
  authorDevice : Octets 32
  counter : UInt64
  lamport : UInt64
  manifestGeneration : UInt64
  syncNamespace : DeviceSyncNamespace
  key : Bytes
  value : Option Bytes
  signature : Octets 64
  deriving DecidableEq

/-- The view of a device manifest that authenticates an event. -/
structure DeviceSyncAuthority where
  syncAccountId : Octets 32
  syncGeneration : UInt64
  /-- Public identity of a device, and the last counter it could use if it was revoked. -/
  syncDevice : Octets 32 → Option (IdentityPublic × Option UInt64)

/-- The view of a list of device rows: the first row of a device counts. -/
def DeviceSyncAuthority.ofDevices (account : IdentityPublic) (generation : UInt64)
    (devices : List DeviceAuthority.Entry) : DeviceSyncAuthority where
  syncAccountId := account.ed
  syncGeneration := generation
  syncDevice device := (devices.find? fun entry => entry.deviceId = device).map fun entry =>
    (entry.certificate.device, entry.revokedAfterCounter)

namespace DeviceSyncEvent

variable (event : DeviceSyncEvent)

def validateBounds : Except EnvelopeError Unit :=
  rejectIf (event.account = .zero 32 ∨ event.authorDevice = .zero 32 ∨ event.counter = 0 ∨
    event.lamport = 0 ∨ event.manifestGeneration = 0 ∨ event.key = [] ∨
    event.key.length > maxDeviceSyncKeyBytes ∨
    event.value.any (fun value => value.length > maxDeviceSyncValueBytes)) .malformed

/-- A value with a byte that says whether there is one. -/
def valueBytes : Option Bytes → Bytes
  | some value => 1 :: (leBytes 4 value.length ++ value)
  | none => [0]

/-- The signed bytes: every field but the signature. -/
def canonical : Bytes :=
  event.account.toBytes ++ (event.authorDevice.toBytes ++ (leBytes 8 event.counter.toNat ++
    (leBytes 8 event.lamport.toNat ++ (leBytes 8 event.manifestGeneration.toNat ++
      (event.syncNamespace.code :: (leBytes 4 event.key.length ++ (event.key ++
        valueBytes event.value)))))))

/-- What `event_id` hashes. -/
def idBytes : Bytes := event.canonical ++ event.signature.toBytes

def eventId (S : Suite) (event : DeviceSyncEvent) : Octets 32 := S.sha256 event.idBytes

/-- Verify account and device authorization and the revocation counter cutoff. -/
def verify (S : Suite) (authority : DeviceSyncAuthority) (event : DeviceSyncEvent) :
    Except EnvelopeError Unit := do
  event.validateBounds
  rejectIf (event.account ≠ authority.syncAccountId ∨
    event.manifestGeneration > authority.syncGeneration) .malformed
  let (device, revokedAfterCounter) ← required .malformed (authority.syncDevice event.authorDevice)
  rejectIf (revokedAfterCounter.any fun cutoff => event.counter > cutoff) .malformed
  rejectIf (device.verifyDomain S .deviceSyncEvent event.canonical event.signature ≠ .ok ())
    .malformed

def logicalKey : DeviceSyncNamespace × Bytes := (event.syncNamespace, event.key)

/-- What `resolve_device_sync_events` compares, lexicographically. -/
def order (S : Suite) (event : DeviceSyncEvent) : ℕ ×ₗ Octets 32 ×ₗ ℕ ×ₗ Octets 32 :=
  toLex (event.lamport.toNat, toLex (event.authorDevice, toLex (event.counter.toNat,
    event.eventId S)))

end DeviceSyncEvent

/-! ### Resolution -/

abbrev Resolved := LastWriter.Registers (DeviceSyncNamespace × Bytes) DeviceSyncEvent

/-- One turn of the loop: an event that fails its check is passed over. -/
def resolveOne (S : Suite) (authority : DeviceSyncAuthority) (resolved : Resolved)
    (event : DeviceSyncEvent) : Resolved :=
  match event.verify S authority with
  | .error _ => resolved
  | .ok () => LastWriter.offer DeviceSyncEvent.logicalKey (DeviceSyncEvent.order S) resolved event

/-- Deterministically resolve all valid events to one winner per logical key. -/
def resolveDeviceSyncEvents (S : Suite) (authority : DeviceSyncAuthority)
    (events : List DeviceSyncEvent) : Resolved :=
  events.foldl (resolveOne S authority) fun _ => none

end Komms.Protocol
