import Mathlib.Data.Finset.Card
import Komms.Group.Equiv.Rotation
import Komms.Handshake.Receive

/-!
# When a handshake can be consumed

What the statements about `consume_handshake` assume, and the condition they are about.

* `Lawful`: what is documented of the hashes, the ratchet and the codecs.
* `Sound`: stored rows are what the store's own operations leave.
* `Fresh`: random draws are not repeated.
* `Receivable`: the condition on the envelope and on the state before, case by case.
-/

namespace Komms.Handshake

open DeviceAuthority (Manifest)
open Komms.Group (GroupRecord)

variable {Session : Type} [DecidableEq Session]

/-! ### Assumptions -/

variable (E : Env Session)

structure Lawful : Prop where
  contentId_ne : ∀ envelope, E.contentId envelope ≠ .zero 16
  sha256_ne : ∀ bytes, E.group.suite.sha256 bytes ≠ .zero 32
  /-- A new session starts with the ratchet key drawn for it. -/
  agree_ratchetKey : ∀ {vault opk init now key session payload},
    E.agree vault opk init now key = some (session, payload) → E.ratchetKey session = key
  encrypt_ratchetKey : ∀ session payload now,
    E.ratchetKey (E.encrypt session payload now).1 = E.ratchetKey session
  /-- Encryption counts the message. -/
  encrypt_ne : ∀ session payload now, (E.encrypt session payload now).1 ≠ session
  sessionBytes_ne : ∀ session, E.sessionBytes session ≠ []
  encodeVault_injective : Function.Injective E.encodeVault
  safetyNumber_wellFormed : ∀ a b, (E.safetyNumber a b).wellFormed = true

variable (s : Store Session)

structure Sound : Prop where
  contact_peer : ∀ {peer contact}, s.contacts peer = some contact → contact.peer = peer
  device_nodup : (s.contactDevices.map ContactDeviceRecord.key).Nodup
  introduction : ∀ row ∈ s.contactDevices, row.introductionCapability ≠ some (.zero 32) ∧
    row.introductionCapability.isSome = decide (row.introductionGeneration > 0)
  authority : ∀ row ∈ s.contactDevices, row.authority ≠ [] →
    Returns (Manifest.decode E.group.suite E.group.postcard.manifest row.authority)
  queue_nodup : (s.queue.map Prod.fst).Nodup
  message_nodup : (s.messages.map MessageRecord.id).Nodup
  delivery_nodup : (s.deliveries.map DeviceDelivery.key).Nodup
  delivery_message_ne : ∀ d ∈ s.deliveries, d.message ≠ .zero 16
  /-- The devices that a message goes to are those of its conversation. -/
  delivery_account : ∀ m ∈ s.messages, m.direction = .outbound →
    ∀ d ∈ s.messageDeviceDeliveries m.id, d.account = m.peer
  groupMessage_nodup : (s.groupMessages.map GroupMessageRecord.id).Nodup
  /-- A group message lists the accounts of the devices it goes to. -/
  groupDelivery_account : ∀ m ∈ s.groupMessages, m.direction = .outbound →
    ∀ d ∈ s.messageDeviceDeliveries m.id, ∃ entry ∈ m.deliveries, entry.peer = d.account
  group_nodup : (s.groups.map GroupRecord.id).Nodup
  group_valid : ∀ g ∈ s.groups, validGroupRecord g = true
  group_sender : ∀ g ∈ s.groups, Returns (Group.checkSenderState g.senderChain)
  revocation_nodup : s.wakeRevocations.Nodup
  revocation_le : s.wakeRevocations.length ≤ maxWakeRevocationRows

structure Fresh (d : Draws) : Prop where
  ratchetKey_ne : ∀ {device session}, s.sessions device = some session →
    E.ratchetKey session ≠ d.ratchetKey
  transferId_ne : ∀ t ∈ s.mediaTransfers, t.localId ≠ d.transferId
  objectId_ne : ∀ o ∈ s.mediaObjects, o.localId ≠ d.primaryId ∧ o.localId ≠ d.previewId
  primaryId_ne : d.primaryId ≠ d.previewId
  chainKey_ne : ∀ k, d.group.chainKey k ≠ .zero 32

/-- The envelope was not consumed before, and its row of the pending inbox, if it came from there,
is its own. -/
structure Waiting (r : Received) : Prop where
  unseen : E.contentId r.envelope ∉ s.seen
  pending : ∀ sequence ∈ r.pendingSequence,
    s.pending.find? (fun row => row.1 = sequence) = some (sequence, r.envelope)

/-! ### The condition -/

/-- A manifest goes on from each one that is on record for its account. -/
def Continues (manifest : Manifest) : Prop :=
  ∀ row ∈ s.contactDevices, manifest.account?.map IdentityPublic.ed = some row.account →
    ∀ accepted, Manifest.decode E.group.suite E.group.postcard.manifest row.authority =
      .ok accepted → ∃ relation, accepted.relation E.group.suite manifest = .ok relation ∧
        (relation = .same ∨ relation = .descendant ∨ relation = .recoverySupersedes)

/-- The rows of the contact: no more than a commit takes, and no key is all zeros. -/
structure DevicesFit (rows : List ContactDeviceRecord) : Prop where
  length_le : rows.length ≤ maxPairwiseCommitDevices
  key_ne : ∀ row ∈ rows, row.account ≠ .zero 32 ∧ row.device ≠ .zero 32

/-- What is stored as prekeys is what the node has in memory, if the flight uses one up. -/
def PrekeysFit (prekeys : Option PrekeyTransition) : Prop := ∀ t ∈ prekeys, s.prekeys = some t.1

/-- A first-contact request that can be staged. -/
structure RequestFits (plan : AdmissionStagePlan Session) : Prop where
  devices : DevicesFit plan.after.devices
  session_length : (E.sessionBytes plan.after.session).length ≤ maxProvisionalSessionBytes
  now_ne_max : plan.after.arrivedAt ≠ .ofNat (2 ^ 64 - 1)
  no_session : s.sessions plan.after.device = none
  no_tombstone : ∀ expiresAt ∈ s.tombstones plan.contentId, expiresAt ≤ plan.after.arrivedAt
  prekeys : PrekeysFit s plan.prekeys

/-- The wake capabilities issued under the session with a device. -/
def Store.issuedTo (device : Octets 32) : List (Octets 32) :=
  ((s.wake device).map WakeServiceState.issued).getD []

def retiredWake (plan : HandshakeReceivePlan Session) : List (Octets 32) :=
  (if (s.wake plan.peerDevice).any (fun wake => wake.sessionId ≠ E.sessionId plan.sessionAfter) then
    s.issuedTo plan.peerDevice else []) ++ plan.deleteSessions.flatMap s.issuedTo

/-- A handshake of a contact that can be received. -/
structure ReceiptFits (plan : HandshakeReceivePlan Session) : Prop where
  devices : DevicesFit plan.devices
  message_id : ∀ message ∈ plan.message, ∀ old ∈ s.messages, old.id ≠ message.id
  revocations : (s.wakeRevocations ++ retiredWake E s plan).toFinset.card ≤ maxWakeRevocationRows
  prekeys : PrekeysFit s plan.prekeys

/-- The sender chain of each group shared with a peer has a next epoch, if it has epochs. -/
def GroupsRotate (peer : Octets 32) : Prop :=
  ∀ g ∈ s.groups, (∃ m ∈ g.members, m.peer = peer) → ∀ state, g.senderChain = .origin state →
    Group.HasNextEpoch g.senderChain ∧ Group.EpochFits E.group s.groupView g.members

/-- The condition on a flight that was read. -/
structure FlightFits (d : Draws) (node : Node Session) (f : Flight Session) (r : Received) :
    Prop where
  manifest : ∀ bundle ∈ f.opened.deviceBundle, Continues E node.store bundle.manifest
  request : f.contact = none → ∀ plan, prepareRequest E node f r = .ok plan →
    RequestFits E node.store plan
  groups : f.contact ≠ none → ∀ changes, prepareChanges E node.store f r.now = .ok changes →
    changes.keepPrior = false → f.opened.peer ≠ E.account.ed →
      GroupsRotate E node.store f.opened.peer
  receipt : f.contact ≠ none → ∀ plan, prepareReceive E d node f r = .ok plan →
    ReceiptFits E node.store plan

/-- **The condition under which a handshake envelope is consumed.**  If its flight can be read, the
manifest goes on from those on record, and what is prepared from it fits into the store. -/
def Receivable (d : Draws) (node : Node Session) (r : Received) : Prop :=
  ∀ f, (readFlight E node r.envelope r.transport r.late r.now d.ratchetKey).result = .ok f →
    FlightFits E d node f r

end Komms.Handshake
