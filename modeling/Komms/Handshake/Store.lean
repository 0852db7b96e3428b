import Komms.Group.Chains
import Komms.Protocol.Envelope

/-!
# The rows a handshake touches

The part of `kult-store` that `consume_handshake` reads and writes, typed: contacts and their
devices, sessions, first-contact requests, messages with their per-device deliveries, the outbound
queue, the pending inbox, groups, wake rows and prekeys.

Tables that are looked up by their key only are functions, the others are lists in insertion order.
Sessions are an arbitrary type.  Left out are columns that no function here reads: presentation
events, scheduling of queue items, contents of media objects, rendezvous rows.
-/

namespace Komms.Handshake

open DeviceAuthority (Certificate)
open Protocol (Envelope)

/-! ### Errors -/

inductive StoreError where
  | invalidTransition
  | recordBounds
  | serialization
  | logicalKeyMismatch
  | admissionQuota
  | duplicateIndex
  | maintenanceBounds
  | localMetadataBounds
  | crypto
  deriving DecidableEq, Repr

inductive NodeError where
  | corruptState
  | invalidDeviceManifest
  | oldDeviceAuthorityEpoch
  | deviceAuthorityFork
  | deviceRecoveryConflict
  | crypto (e : CryptoError)
  | store (e : StoreError)
  | group (e : GroupAuthority.NodeError)
  deriving DecidableEq, Repr

/-! ### Contacts -/

/-- The stored identity bytes are kept decoded. -/
structure ContactRecord where
  peer : Octets 32
  identity : IdentityPublic
  name : Bytes
  bundle : Bytes
  hints : List Bytes
  verified : Bool
  deriving DecidableEq

/-- One physical device of a contact.  An absent certificate is the empty byte string of a legacy
endpoint. -/
structure ContactDeviceRecord where
  account : Octets 32
  device : Octets 32
  name : Option Utf8
  certificate : Option Certificate
  authority : Bytes
  bundle : Bytes
  hints : List Bytes
  introductionCapability : Option (Octets 32)
  introductionGeneration : UInt64
  manifestGeneration : UInt64
  manifestStateId : Octets 32
  lastSeen : UInt64
  revokedAt : Option UInt64
  revokedAfterCounter : Option UInt64
  deriving DecidableEq

/-- What the group code reads of a device. -/
def ContactDeviceRecord.groupRow (row : ContactDeviceRecord) : Group.ContactDevice where
  account := row.account
  device := row.device
  authority := row.authority
  bundle := row.bundle
  lastSeen := row.lastSeen
  revokedAt := row.revokedAt

inductive DeviceAuthorityConflictKind where
  | fork
  | recovery
  deriving DecidableEq, Repr

/-- Two authority tips of a contact that no order decides between. -/
structure ContactAuthorityConflict where
  account : Octets 32
  kind : DeviceAuthorityConflictKind
  acceptedState : Octets 32
  conflictingState : Octets 32
  recoveryEpoch : UInt64
  observedAt : UInt64
  deriving DecidableEq

/-! ### Messages -/

inductive Direction where
  | outbound
  | inbound
  deriving DecidableEq, Repr

inductive DeliveryState where
  | queued
  | sent
  | delivered
  | received
  | failed
  deriving DecidableEq, Repr

structure MessageRecord where
  id : Octets 16
  peer : Octets 32
  direction : Direction
  state : DeliveryState
  timestamp : UInt64
  body : Bytes
  wireId : Option (Octets 16)
  deriving DecidableEq

/-- `MessageDeviceDeliveryRecord`: one recipient device of one message, pairwise or group. -/
structure DeviceDelivery where
  message : Octets 16
  account : Octets 32
  device : Octets 32
  wireId : Option (Octets 16)
  state : DeliveryState
  deriving DecidableEq

structure GroupDelivery where
  peer : Octets 32
  wireId : Option (Octets 16)
  state : DeliveryState
  deriving DecidableEq

structure GroupMessageRecord where
  id : Octets 16
  group : Octets 32
  sender : Octets 32
  direction : Direction
  body : Bytes
  deliveries : List GroupDelivery
  deriving DecidableEq

structure QueueItem where
  peer : Octets 32
  msgId : Option (Octets 16)
  groupMsgId : Option (Octets 16)
  envelope : Envelope
  deriving DecidableEq

structure MediaTransfer where
  localId : Octets 16
  peer : Octets 32
  contentId : Octets 16
  deriving DecidableEq

/-- An object of a transfer; its descriptor was validated when the content was decoded. -/
structure MediaObject where
  localId : Octets 16
  transferId : Octets 16
  descriptor : Bytes
  deriving DecidableEq

/-! ### First contact -/

inductive AdmissionTransportClass where
  | unknown
  | direct
  | mailbox
  | mesh
  | delayed
  | bridge
  deriving DecidableEq, Repr

/-- The decimal digits of a safety number and its full comparison value. -/
structure SafetyNumber where
  digits : Bytes
  qr : Octets 32
  deriving DecidableEq

/-- One sealed first-contact request. -/
structure ProvisionalRequest (Session : Type) where
  requestId : Octets 16
  account : Octets 32
  device : Octets 32
  contact : ContactRecord
  devices : List ContactDeviceRecord
  session : Session
  firstContent : Bytes
  preview : Bytes
  safetyNumber : SafetyNumber
  arrivedAt : UInt64
  expiresAt : UInt64
  transport : AdmissionTransportClass
  deriving DecidableEq

/-! ### Service rows -/

/-- The wake capabilities issued under one session, by the id under which each is revoked. -/
structure WakeServiceState where
  sessionId : Octets 32
  issued : List (Octets 32)
  deriving DecidableEq

/-! ### The store -/

structure Store (Session : Type) where
  contacts : Octets 32 → Option ContactRecord
  contactDevices : List ContactDeviceRecord
  conflicts : List ContactAuthorityConflict
  blocked : Octets 32 → Bool
  sessions : Octets 32 → Option Session
  capabilities : Octets 32 → Option (List (UInt8 × UInt16))
  requests : List (ProvisionalRequest Session)
  /-- When a rejected request may come again. -/
  tombstones : Octets 16 → Option UInt64
  messages : List MessageRecord
  deliveries : List DeviceDelivery
  groupMessages : List GroupMessageRecord
  /-- Whether a view-once or disappearing content of a peer is on record. -/
  ephemeral : Octets 32 → Octets 16 → Bool
  mediaTransfers : List MediaTransfer
  mediaObjects : List MediaObject
  groups : List Group.GroupRecord
  /-- The rows that only the group code reads. -/
  groupRows : Group.Store
  queue : List (ℤ × QueueItem)
  seen : List (Octets 16)
  receiptReplay : Octets 16 → Option (Octets 32 × UInt64)
  pending : List (ℤ × Envelope)
  wake : Octets 32 → Option WakeServiceState
  wakeRevocations : List (Octets 32)
  prekeys : Option Bytes

namespace Store

variable {Session : Type} (s : Store Session)

/-- Active endpoints known for one account. -/
def contactDevicesFor (account : Octets 32) : List ContactDeviceRecord :=
  s.contactDevices.filter fun row => row.account = account && row.revokedAt.isNone

def messagesWith (peer : Octets 32) : List MessageRecord :=
  s.messages.filter fun message => message.peer = peer

def messageDeviceDeliveries (message : Octets 16) : List DeviceDelivery :=
  s.deliveries.filter fun delivery => delivery.message = message

def groupMessagesIn (group : Octets 32) : List GroupMessageRecord :=
  s.groupMessages.filter fun message => message.group = group

def getProvisionalRequest (account : Octets 32) : Option (ProvisionalRequest Session) :=
  s.requests.find? fun request => request.account = account

def getGroup (id : Octets 32) : Option Group.GroupRecord :=
  s.groups.find? fun group => group.id = id

def groupView : Group.Store :=
  { s.groupRows with
    groups := s.getGroup
    contactDevices := s.contactDevices.map ContactDeviceRecord.groupRow
    sessions := fun device => (s.sessions device).isSome
    capabilities := s.capabilities
    blocked := s.blocked }

end Store

end Komms.Handshake
