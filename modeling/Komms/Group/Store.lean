import Komms.GroupAuthority.Verify
import Komms.Lib.Effect

/-!
# The group part of a node's store

The rows of `kult-store` that the group code reads and writes, typed: a group record with its sender
chain, the signed authority record, the receiver chains of each member, contacts and their devices,
group messages and the queue of deferred controls.  A commit replaces the whole store or fails.
Left out of the rows is what no group function reads: delivery state, queue items, presentation
events, ratchet session contents.

The controls are those of `kult-protocol/src/group.rs`, with the checks that
`GroupControlPayload::decode` makes after deserialization, which is third-party and a parameter.
-/

namespace Komms.Group

open GroupAuthority (NodeError Postcard ProtocolError maxGroupNameLen maxGroupMemberIdentityLen)

def maxContentPayloadLen : ℕ := 65535 - 28

/-- Maximum signed admin request ids retained per group before compaction. -/
def maxGroupAdminRequests : ℕ := 4096

/-! ### Payloads -/

/-- A roster entry: account and encoded public identity. -/
structure GroupMember where
  peer : Octets 32
  identity : Bytes
  deriving DecidableEq

/-- A frozen sender-chain snapshot: key id, chain key and first readable iteration. -/
structure ChainKeys where
  keyId : Octets 16
  chainKey : Octets 32
  iteration : UInt32
  deriving DecidableEq

/-- Group state and the sender's current sender key, in one message. -/
structure GroupAnnounce where
  group : Octets 32
  name : Utf8
  creator : Octets 32
  members : List GroupMember
  secret : Octets 32
  generation : UInt64
  chain : ChainKeys
  deriving DecidableEq

/-- A self-contained signed-state announce and the sender's chain. -/
structure GroupAuthorityAnnounce where
  group : Octets 32
  stateId : Octets 16
  statePayload : Bytes
  secret : Octets 32
  chain : ChainKeys
  deriving DecidableEq

/-- The scope of an announce that one recipient device alone may use. -/
structure OriginScope where
  originGeneration : UInt64
  recipientAccount : Octets 32
  recipientDevice : Octets 32
  originKey : Octets 32
  deriving DecidableEq

/-- Bounded operation an admin may request from the current owner. -/
inductive GroupAdminAction where
  | invite (member : GroupMember)
  | remove (peer : Octets 32)
  | rename (name : Utf8)
  | moderatePoll (pollAuthor : Octets 32) (pollId : Octets 16)
  deriving DecidableEq

/-- One identity-signed, exact-generation admin request. -/
structure GroupAdminRequest where
  requestId : Octets 16
  group : Octets 32
  baseGeneration : UInt64
  action : GroupAdminAction
  signature : Bytes
  deriving DecidableEq

/-- Owner-authenticated terminal result for one admin request. -/
structure GroupAdminResult where
  group : Octets 32
  requestId : Octets 16
  accepted : Bool
  generation : UInt64
  stateId : Option (Octets 16)
  reason : UInt8
  deriving DecidableEq

inductive GroupControlPayload where
  | announce (a : GroupAnnounce)
  | leave (group : Octets 32)
  | remove (group : Octets 32)
  | authorityAnnounce (a : GroupAuthorityAnnounce)
  | adminRequest (r : GroupAdminRequest)
  | adminResult (r : GroupAdminResult)
  | authorityRemove (group : Octets 32) (stateId : Octets 16) (statePayload : Bytes)
  | originAnnounce (a : GroupAnnounce) (scope : OriginScope)
  | originAuthorityAnnounce (a : GroupAuthorityAnnounce) (scope : OriginScope)
  deriving DecidableEq

/-! ### Decoding -/

/-- The part of a request's signed bytes that names the action. -/
def GroupAdminAction.bytes : GroupAdminAction → Except ProtocolError Bytes
  | invite member => do
    rejectIf (member.identity = [] ∨ member.identity.length > maxGroupMemberIdentityLen) .malformed
    .ok (1 :: (member.peer.toBytes ++ leBytes 2 member.identity.length ++ member.identity))
  | remove peer => .ok (2 :: peer.toBytes)
  | rename name => do
    rejectIf (name.bytes = [] ∨ name.bytes.length > maxGroupNameLen) .malformed
    .ok (3 :: (leBytes 2 name.bytes.length ++ name.bytes))
  | moderatePoll pollAuthor pollId => .ok (4 :: (pollAuthor.toBytes ++ pollId.toBytes))

/-- Canonical bytes covered by an admin request's identity signature. -/
def groupAdminRequestSigningBytes (r : GroupAdminRequest) : Except ProtocolError Bytes := do
  rejectIf (r.baseGeneration = 0) .malformed
  let action ← r.action.bytes
  .ok (r.requestId.toBytes ++ r.group.toBytes ++ leBytes 8 r.baseGeneration.toNat ++ action)

/-- The scope of an origin announce names a generation, a recipient and a key. -/
def OriginScope.check (scope : OriginScope) : Except ProtocolError Unit :=
  rejectIf (scope.originGeneration = 0 ∨ scope.recipientAccount = .zero 32 ∨
    scope.recipientDevice = .zero 32 ∨ scope.originKey = .zero 32) .malformed

namespace GroupControlPayload

/-- The checks of `decode` on a deserialized payload. -/
def check : GroupControlPayload → Except ProtocolError Unit
  | authorityAnnounce a => rejectIf (a.statePayload.length > maxContentPayloadLen) .tooLarge
  | adminRequest r => do
    rejectIf (r.signature.length ≠ 64) .malformed
    let _ ← groupAdminRequestSigningBytes r
    .ok ()
  | adminResult r => rejectIf (r.reason > 3 ∨ r.accepted ≠ decide (r.reason = 0)) .malformed
  | authorityRemove _ _ statePayload =>
    rejectIf (statePayload.length > maxContentPayloadLen) .tooLarge
  | originAnnounce _ scope => scope.check
  | originAuthorityAnnounce a scope => do
    scope.check
    rejectIf (a.statePayload.length > maxContentPayloadLen) .tooLarge
  | _ => .ok ()

/-- Parse a decrypted group control payload; `parse` is the deserializer. -/
def decode (parse : Bytes → Option GroupControlPayload) (bytes : Bytes) :
    Except ProtocolError GroupControlPayload := do
  let payload ← required .malformed (parse bytes)
  check payload
  .ok payload

/-- The group of an announce, of whichever of the four kinds. -/
def announcedGroup : GroupControlPayload → Option (Octets 32)
  | announce a => some a.group
  | authorityAnnounce a => some a.group
  | originAnnounce a _ => some a.group
  | originAuthorityAnnounce a _ => some a.group
  | _ => none

end GroupControlPayload

/-! ### Rows -/

/-- What one recipient device was given of the current origin epoch. -/
structure OutgoingOrigin where
  recipientAccount : Octets 32
  recipientDevice : Octets 32
  chain : ChainKeys
  originKey : Octets 32
  wireId : Option (Octets 16)
  lastSent : UInt64
  acknowledged : Bool
  deriving DecidableEq

/-- `GroupSenderState`: an origin-authenticated sending epoch. -/
structure OriginState where
  originGeneration : UInt64
  chain : ChainKeys
  origins : List OutgoingOrigin
  deriving DecidableEq

/-- `StoredGroupSenderState`. -/
inductive SenderState where
  | legacy (chain : ChainKeys)
  | origin (state : OriginState)
  deriving DecidableEq

/-- A chain snapshot still owed to one member. -/
structure PendingAnnounce where
  peer : Octets 32
  chain : ChainKeys
  wireId : Option (Octets 16)
  lastSent : UInt64
  deriving DecidableEq

structure GroupRecord where
  id : Octets 32
  name : Utf8
  creator : Octets 32
  members : List GroupMember
  secret : Octets 32
  prevSecret : Option (Octets 32)
  generation : UInt64
  senderChain : SenderState
  sentSinceRotation : UInt32
  pending : List PendingAnnounce
  deriving DecidableEq

structure GroupAuthorityRecord where
  group : Octets 32
  stateId : Octets 16
  statePayload : Bytes
  consumedRequests : List (Octets 16)
  deriving DecidableEq

/-- `DeviceGroupReceiverChain`: how this device reads one device of a member. -/
structure DeviceChain where
  device : Octets 32
  chain : ChainKeys
  originKey : Option (Octets 32)
  recipientDevice : Octets 32
  originGeneration : UInt64
  originAnnounceDigest : Octets 32
  deriving DecidableEq

structure Contact where
  identity : Bytes
  bundle : Bytes
  deriving DecidableEq

structure ContactDevice where
  account : Octets 32
  device : Octets 32
  authority : Bytes
  bundle : Bytes
  lastSeen : UInt64
  revokedAt : Option UInt64
  deriving DecidableEq

/-- A control that waits to be applied. -/
structure DeferredControl where
  contentId : Octets 16
  peer : Octets 32
  peerDevice : Octets 32
  receivedAt : UInt64
  body : Bytes
  deriving DecidableEq

/-! ### Group messages -/

structure PollOption where
  id : Octets 16
  text : Utf8
  deriving DecidableEq

/-- A vote as a closing event attests it, or as the local resolution accepts it. -/
structure PollVoteHead where
  voter : Octets 32
  eventId : Octets 16
  optionId : Octets 16
  revision : UInt64
  deriving DecidableEq

inductive Poll where
  | create (generation : UInt64) (question : Utf8) (options : List PollOption)
      (voters : List (Octets 32))
  | vote (pollAuthor : Octets 32) (pollId optionId : Octets 16) (revision : UInt64)
  | close (pollAuthor : Octets 32) (pollId : Octets 16) (heads : List PollVoteHead)
  | moderatedClose (group pollAuthor : Octets 32) (pollId : Octets 16)
      (authorityGeneration : UInt64) (heads : List PollVoteHead) (signature : Octets 64)
  deriving DecidableEq

/-- What `decode_content` finds in a message body, as far as the group code distinguishes it. -/
inductive Content where
  | poll (id : Octets 16) (poll : Poll)
  | groupAuthority (id : Octets 16) (payload : Bytes)
  | other
  deriving DecidableEq

/-- A group message; `recipientAuthenticated` is what its origin field says. -/
structure GroupMessage where
  id : Octets 16
  group : Octets 32
  sender : Octets 32
  recipientAuthenticated : Bool
  body : Content
  deriving DecidableEq

/-! ### The store -/

structure Store where
  groups : Octets 32 → Option GroupRecord
  authorities : Octets 32 → Option GroupAuthorityRecord
  /-- The receiver chains of a group, by account. -/
  chains : Octets 32 → Octets 32 → Option (List DeviceChain)
  contacts : Octets 32 → Option Contact
  contactDevices : List ContactDevice
  /-- The devices with a live pairwise session. -/
  sessions : Octets 32 → Bool
  /-- The content formats and kinds a device said it supports. -/
  capabilities : Octets 32 → Option (List (UInt8 × UInt16))
  blocked : Octets 32 → Bool
  messages : List GroupMessage
  controls : List DeferredControl

namespace Store

variable (s : Store) (group : Octets 32)

def setGroup (row : Option GroupRecord) : Store :=
  { s with groups := Function.update s.groups group row }

def setAuthority (row : Option GroupAuthorityRecord) : Store :=
  { s with authorities := Function.update s.authorities group row }

def setChain (account : Octets 32) (row : Option (List DeviceChain)) : Store :=
  { s with chains := Function.update s.chains group (Function.update (s.chains group) account row) }

def dropChains (gone : Octets 32 → Bool) : Store :=
  { s with
    chains := Function.update s.chains group
      fun account => if gone account then none else s.chains group account }

def addContacts (stubs : List (Octets 32 × Contact)) : Store :=
  { s with
    contacts := stubs.foldl (fun contacts stub => Function.update contacts stub.1 (some stub.2))
      s.contacts }

def deleteControl (control : DeferredControl) : Store :=
  { s with controls := s.controls.erase control }

def addMessage (message : GroupMessage) : Store :=
  { s with messages := s.messages ++ [message] }

def contactDevicesFor (account : Octets 32) : List ContactDevice :=
  s.contactDevices.filter fun endpoint => endpoint.account = account

def groupMessages : List GroupMessage := s.messages.filter fun message => message.group = group

end Store

/-! ### The node around the store -/

/-- The identity of the local device and everything the group code calls outside itself. -/
structure Env where
  suite : Suite
  postcard : Postcard
  /-- `postcard::from_bytes` of a control payload, and its inverse. -/
  control : Bytes → Option GroupControlPayload
  encodeControl : GroupControlPayload → Bytes
  /-- The account, the device and the encoded device manifest of this node. -/
  me : Octets 32
  deviceId : Octets 32
  manifest : Bytes
  /-- Signing with the device identity. -/
  sign : SignatureDomain → Bytes → Octets 64
  /-- The next chain key of a sender chain, `kdf_gck`. -/
  nextChainKey : Octets 32 → Octets 32
  /-- Whether `prepare_session` opens a session to the device from this bundle at this time. -/
  opensSession : Octets 32 → Bytes → UInt64 → Bool
  /-- Whether the storage layer commits this transition. -/
  admits : Store → Store → Bool
  /-- Whether arithmetic that overflows panics, as in a debug build, or wraps. -/
  overflowChecks : Bool

/-- Random draws of one call: each field is indexed by the number of the draw. -/
structure Draws where
  secret : Octets 32
  id : ℕ → Octets 16
  closeId : ℕ → Octets 16
  keyId : ℕ → Octets 16
  chainKey : ℕ → Octets 32
  originKey : ℕ → Octets 32 → Octets 32 → Octets 32
  /-- Origin keys are drawn again until they are not zero. -/
  originKey_ne : ∀ k account device, originKey k account device ≠ .zero 32

/-- `GroupSenderChain::generate`. -/
def Draws.chain (d : Draws) (k : ℕ) : ChainKeys := ⟨d.keyId k, d.chainKey k, 0⟩

/-- Commit a transition, or fail and leave the store as it is. -/
def commit (E : Env) (s s' : Store) : Except NodeError Store :=
  if E.admits s s' then .ok s' else .error .store

theorem commit_eq_ok_iff {E : Env} {s s' t : Store} :
    commit E s s' = .ok t ↔ E.admits s s' = true ∧ t = s' := by
  unfold commit
  split_ifs with h
  · simp [h, eq_comm]
  · simp [h]

theorem eq_of_commit_eq_ok {α : Type} {E : Env} {s s' t : Store} {a b : α}
    (h : (commit E s t >>= fun s' => .ok (s', a)) = .ok (s', b)) : s' = t := by
  simp only [bind_eq_ok_iff, commit_eq_ok_iff, Except.ok.injEq, Prod.mk.injEq] at h
  obtain ⟨_, ⟨-, rfl⟩, rfl, -⟩ := h
  rfl

/-- A call of several commits on the store. -/
abbrev NodeEffect (α : Type) := Effect Store NodeError α

/-- What a handler reports of a control: whether it was applied, and whether its row was deleted in
the same commit. -/
structure Verdict where
  applied : Bool
  deleted : Bool
  deriving DecidableEq

/-- Terminal without effect: the caller deletes the row. -/
def Verdict.discarded : Verdict := ⟨true, false⟩

/-- Not applicable yet: the row stays. -/
def Verdict.deferred : Verdict := ⟨false, false⟩

/-- Applied and deleted. -/
def Verdict.consumed : Verdict := ⟨true, true⟩

end Komms.Group
