import Komms.Handshake.Flight
import Komms.Lib.Transition

/-!
# The commit plans of a handshake

`commit_plan` of `kult-store/src/commit.rs` for the three plans that `consume_handshake` builds: a
terminal input, the stage of a first-contact request, and the receipt of a handshake.  Each is
validated against the store as a whole and then written as a whole, or leaves the store as it is.
-/

namespace Komms.Handshake

open Komms.Group (GroupRecord)
open GroupAuthority (maxGroupNameLen maxGroupAuthorityMembers maxGroupMemberIdentityLen)

def maxCommitMutations : ℕ := 512
def maxPairwiseCommitDevices : ℕ := 8
def maxCommitQueueRows : ℕ := 128
def maxProvisionalRequestBytes : ℕ := 512 * 1024
def maxProvisionalContentBytes : ℕ := 4 * 1024
def maxProvisionalPreviewBytes : ℕ := 2 * 1024
def maxProvisionalLifetimeSecs : ℕ := 7 * 86400
def maxProvisionalSessionBytes : ℕ := 64 * 1024
def maxWakeRevocationRows : ℕ := 4096

variable {Session : Type} [DecidableEq Session] (E : Env Session)

/-! ### Rows -/

/-- Without a certificate the device is the account itself; state id and generation come together,
and so do the two marks of a revocation. -/
def validateContactDevice (row : ContactDeviceRecord) : Except StoreError Unit :=
  rejectIf (row.account = .zero 32 ∨ row.device = .zero 32 ∨
    (row.certificate = none ∧ row.account ≠ row.device) ∨
    ¬ (row.manifestGeneration = 0 ↔ row.manifestStateId = .zero 32) ∨
    row.revokedAt.isSome ≠ row.revokedAfterCounter.isSome) .serialization

def ContactDeviceRecord.key (row : ContactDeviceRecord) : Octets 32 × Octets 32 :=
  (row.account, row.device)

variable (d : DeviceDelivery) (s : Store Session)

/-- An introduction capability is there exactly from generation one on. -/
def putContactDevice (row : ContactDeviceRecord) : Except StoreError (Store Session) := do
  validateContactDevice row
  rejectIf (row.introductionCapability = some (.zero 32) ∨
    row.introductionCapability.isSome ≠ decide (row.introductionGeneration > 0)) .serialization
  .ok { s with contactDevices := Table.put ContactDeviceRecord.key row s.contactDevices }

/-- Messages have a unique id, whatever their conversation. -/
def putMessage (message : MessageRecord) : Except StoreError (Store Session) := do
  rejectIf (s.messages.any fun old => old.id = message.id) .duplicateIndex
  .ok { s with messages := s.messages ++ [message] }

/-- The row goes with its sequence number. -/
def deletePending (pending : Option (ℤ × Octets 16)) : Store Session :=
  { s with pending := s.pending.filter fun row => some row.1 ≠ pending.map Prod.fst }

/-! ### Wake rows -/

/-- A capability is queued once, in a bounded table. -/
def enqueueWakeRevocation (rows : List (Octets 32)) (id : Octets 32) :
    Except StoreError (List (Octets 32)) :=
  if id ∈ rows then .ok rows
  else if rows.length ≥ maxWakeRevocationRows then .error .recordBounds
  else .ok (rows ++ [id])

/-- The capabilities of a session, one after the other. -/
def enqueueIssuedWakeRevocations (rows : List (Octets 32)) :
    List (Octets 32) → Except StoreError (List (Octets 32))
  | [] => .ok rows
  | id :: ids => do
    let rows ← enqueueWakeRevocation rows id
    enqueueIssuedWakeRevocations rows ids

/-- Another session retires what was issued under the one before. -/
def synchronizeWakeSession (device : Octets 32) (session : Session) :
    Except StoreError (Store Session) := do
  let fresh : WakeServiceState := ⟨E.sessionId session, []⟩
  match s.wake device with
  | none => .ok { s with wake := Function.update s.wake device (some fresh) }
  | some current =>
    if current.sessionId = E.sessionId session then .ok s
    else do
      let wakeRevocations ← enqueueIssuedWakeRevocations s.wakeRevocations current.issued
      .ok { s with wake := Function.update s.wake device (some fresh), wakeRevocations }

/-- `put_session`, which also synchronizes the wake row. -/
def putSession (device : Octets 32) (session : Session) : Except StoreError (Store Session) := do
  let s ← synchronizeWakeSession E s device session
  .ok { s with sessions := Function.update s.sessions device (some session) }

/-- The capabilities issued under the session are queued for revocation. -/
def deleteSession (device : Octets 32) : Except StoreError (Store Session) := do
  let wakeRevocations ← enqueueIssuedWakeRevocations s.wakeRevocations
    (((s.wake device).map WakeServiceState.issued).getD [])
  .ok { s with
    wake := Function.update s.wake device none
    wakeRevocations
    sessions := Function.update s.sessions device none }

/-! ### Terminal input -/

/-- The row of the pending inbox is the envelope it is said to be. -/
def validatePending (pending : Option (ℤ × Octets 16)) : Except StoreError Unit :=
  match pending with
  | none => .ok ()
  | some (sequence, contentId) => do
    let row ← required .invalidTransition (s.pending.find? fun row => row.1 = sequence)
    rejectIf (E.contentId row.2 ≠ contentId) .invalidTransition

/-- A terminal input: its envelope is seen, and waits no longer. -/
def commitMaintenance (contentId : Octets 16) (pending : Option (ℤ × Octets 16)) :
    Except StoreError (Store Session) := do
  validatePending E s pending
  .ok (deletePending { s with seen := s.seen ++ [contentId] } pending)

/-! ### First-contact requests -/

/-- Thirty digits, and a comparison value that is not zero. -/
def SafetyNumber.wellFormed (n : SafetyNumber) : Bool :=
  n.digits.length = 30 && n.digits.all (byteIn 0x30 0x39) && n.qr ≠ .zero 32

/-- The row is bounded, of an unnamed and unverified contact, and its identity verifies. -/
def ProvisionalRequest.validate (r : ProvisionalRequest Session) : Except StoreError Unit := do
  rejectIf (r.requestId = .zero 16 ∨ r.account = .zero 32 ∨ r.device = .zero 32 ∨
    r.contact.peer ≠ r.account ∨ r.contact.name ≠ [] ∨ r.contact.verified ∨ r.devices = [] ∨
    r.devices.length > maxPairwiseCommitDevices ∨
    r.devices.any (fun row => row.account ≠ r.account) ∨
    r.devices.all (fun row => row.device ≠ r.device) ∨ E.sessionBytes r.session = [] ∨
    (E.sessionBytes r.session).length > maxProvisionalSessionBytes ∨
    r.firstContent.length > maxProvisionalContentBytes ∨
    r.preview.length > maxProvisionalPreviewBytes ∨ r.safetyNumber.wellFormed = false ∨
    r.expiresAt ≤ r.arrivedAt ∨
    r.expiresAt.toNat - r.arrivedAt.toNat > maxProvisionalLifetimeSecs) .recordBounds
  rejectIf (r.contact.identity.verify E.group.suite ≠ .ok ()) .crypto
  rejectIf (r.contact.identity.ed ≠ r.account) .logicalKeyMismatch
  forEach validateContactDevice r.devices

/-- A request is replaced by a later one only. -/
def ProvisionalRequest.laterThan (r prior : ProvisionalRequest Session) : Prop :=
  toLex (prior.arrivedAt.toNat, prior.requestId) < toLex (r.arrivedAt.toNat, r.requestId)

instance (r prior : ProvisionalRequest Session) : Decidable (r.laterThan prior) := by
  unfold ProvisionalRequest.laterThan
  infer_instance

/-- `put_provisional_request`: the table is bounded in rows and in bytes. -/
def putProvisionalRequest (r : ProvisionalRequest Session) : Except StoreError (Store Session) := do
  r.validate E
  rejectIf ((s.getProvisionalRequest r.account).isNone ∧
    s.requests.length ≥ maxProvisionalRequests) .admissionQuota
  let requests := s.requests.filter (fun old => old.account ≠ r.account) ++ [r]
  rejectIf ((requests.map E.requestSize).sum > maxProvisionalRequestBytes) .admissionQuota
  .ok { s with requests }

/-- The encoded vault before and after. -/
abbrev PrekeyTransition := Bytes × Bytes

/-- The vault has changed, from the stored one. -/
def validatePrekeys (prekeys : Option PrekeyTransition) : Except StoreError Unit :=
  match prekeys with
  | none => .ok ()
  | some (before, after) => rejectIf (before = after ∨ s.prekeys ≠ some before) .invalidTransition

def writePrekeys (prekeys : Option PrekeyTransition) : Store Session :=
  match prekeys with
  | none => s
  | some (_, after) => { s with prekeys := some after }

/-- The stage of a first-contact request: the request, what it replaces and what it uses up. -/
structure AdmissionStagePlan (Session : Type) where
  prekeys : Option PrekeyTransition
  before : Option (ProvisionalRequest Session)
  after : ProvisionalRequest Session
  contentId : Octets 16
  sourcePending : Option (ℤ × Octets 16)

/-- The request is new, of an account that is neither a contact nor blocked, and later than what it
replaces. -/
def validateAdmissionStage (plan : AdmissionStagePlan Session) : Except StoreError Unit := do
  plan.after.validate E
  rejectIf (plan.contentId = .zero 16 ∨ plan.contentId ≠ plan.after.requestId ∨
    s.getProvisionalRequest plan.after.account ≠ plan.before ∨ plan.contentId ∈ s.seen ∨
    (s.tombstones plan.contentId).any (fun expiresAt => expiresAt > plan.after.arrivedAt) ∨
    (s.contacts plan.after.account).isSome ∨ (s.sessions plan.after.device).isSome ∨
    s.blocked plan.after.account) .invalidTransition
  rejectIf (plan.before.any fun before => ¬ plan.after.laterThan before) .invalidTransition
  validatePrekeys s plan.prekeys
  validatePending E s plan.sourcePending

def commitAdmissionStage (plan : AdmissionStagePlan Session) :
    Except StoreError (Store Session) := do
  validateAdmissionStage E s plan
  let s ← putProvisionalRequest E (writePrekeys s plan.prekeys) plan.after
  .ok (deletePending { s with seen := s.seen ++ [plan.contentId] } plan.sourcePending)

/-! ### Handshakes -/

/-- The receipt of a handshake: the session and the rows of the peer, what a new session takes back,
and the first message with its receipt. -/
structure HandshakeReceivePlan (Session : Type) where
  prekeys : Option PrekeyTransition
  peerDevice : Octets 32
  sessionBefore : Option Session
  sessionAfter : Session
  contact : ContactRecord
  devices : List ContactDeviceRecord
  deleteDevices : List ContactDeviceRecord
  deleteSessions : List (Octets 32)
  deleteCapabilities : List (Octets 32)
  deleteQueue : List (ℤ × Octets 16)
  resetMessages : List (MessageRecord × MessageRecord)
  resetDeliveries : List (DeviceDelivery × DeviceDelivery)
  retireGroupMessages : List (GroupMessageRecord × GroupMessageRecord)
  retireGroupDeliveries : List (DeviceDelivery × DeviceDelivery)
  groups : List (GroupRecord × GroupRecord)
  message : Option MessageRecord
  mediaTransfers : List MediaTransfer
  mediaObjects : List MediaObject
  queue : List QueueItem
  contentId : Octets 16
  receivedAt : UInt64
  receiptReplay : Bool
  sourcePending : Option (ℤ × Octets 16)

/-- Every row the plan writes or deletes. -/
def HandshakeReceivePlan.mutationCount (plan : HandshakeReceivePlan Session) : ℕ :=
  plan.prekeys.toList.length + 1 + 1 + plan.devices.length + plan.deleteDevices.length +
    plan.deleteSessions.length + plan.deleteCapabilities.length + plan.deleteQueue.length +
    plan.resetMessages.length + plan.resetDeliveries.length + plan.retireGroupMessages.length +
    plan.retireGroupDeliveries.length + plan.groups.length + plan.message.toList.length +
    plan.mediaTransfers.length + plan.mediaObjects.length + plan.queue.length + 1 +
    plan.receiptReplay.toNat + plan.sourcePending.toList.length

/-- Delivered if one device has it, else sent, else queued, else failed. -/
def combinedState (deliveries : List DeviceDelivery) : DeliveryState :=
  if deliveries.any (·.state = .delivered) then .delivered
  else if deliveries.any (·.state = .sent) then .sent
  else if deliveries.any (·.state = .queued) then .queued
  else .failed

/-- The wire id of the first device that has one. -/
def combinedWireId (deliveries : List DeviceDelivery) : Option (Octets 16) :=
  deliveries.findSome? DeviceDelivery.wireId

def MessageRecord.withDeliveries (message : MessageRecord) (deliveries : List DeviceDelivery) :
    MessageRecord :=
  { message with state := combinedState deliveries, wireId := combinedWireId deliveries }

/-- The group message with the state that the devices of one account give its entry. -/
def GroupMessageRecord.withDeliveries (message : GroupMessageRecord) (peer : Octets 32)
    (deliveries : List DeviceDelivery) : Option GroupMessageRecord :=
  let ofAccount := deliveries.filter fun d => d.account = peer
  (Table.updateFirst (fun entry => entry.peer = peer) (fun entry =>
    { entry with state := combinedState ofAccount, wireId := combinedWireId ofAccount })
      message.deliveries).map fun deliveries => { message with deliveries }

/-- To be sent again, under the new session. -/
def DeviceDelivery.reset : DeviceDelivery := { d with state := .queued, wireId := none }

/-- Given up, since a group message is not sealed again. -/
def DeviceDelivery.retired : DeviceDelivery := { d with state := .failed, wireId := none }

def DeviceDelivery.final : Bool := d.state = .delivered || d.state = .failed

def DeviceDelivery.key : Octets 16 × Octets 32 := (d.message, d.device)

section Validate

variable (s : Store Session)

/-- Transitions of deliveries: each row is current, of the peer's device, not final, changed by
`change`, and has one transition. -/
def validateDeliveries (change : DeviceDelivery → DeviceDelivery) (peer peerDevice : Octets 32)
    (transitions : List (DeviceDelivery × DeviceDelivery)) : Except StoreError Unit := do
  forEach (fun t => rejectIf (t.1.message ≠ t.2.message ∨ t.1.account ≠ t.2.account ∨
    t.1.device ≠ t.2.device ∨
    (s.messageDeviceDeliveries t.1.message).find? (fun d => d.device = t.1.device) ≠ some t.1 ∨
    t.1.account ≠ peer ∨ t.1.device ≠ peerDevice ∨ t.2 ≠ change t.1 ∨ t.1.final)
    StoreError.invalidTransition) transitions
  rejectIf (¬ (transitions.map fun t => t.1.key).Nodup) .invalidTransition

/-- Transitions of messages to the state that the changed deliveries give them. -/
def validateMessages (peer : Octets 32) (deliveries : List (DeviceDelivery × DeviceDelivery))
    (transitions : List (MessageRecord × MessageRecord)) : Except StoreError Unit := do
  forEach (fun t => rejectIf (t.1.id ≠ t.2.id ∨ t.1.peer ≠ t.2.peer ∨
      t.1.direction ≠ t.2.direction ∨
    (s.messagesWith t.1.peer).find? (fun m => m.id = t.1.id) ≠ some t.1 ∨
    t.1.peer ≠ peer ∨ t.1.direction ≠ .outbound ∨
    t.2 ≠ t.1.withDeliveries (Table.applyTransitions DeviceDelivery.key deliveries
      (s.messageDeviceDeliveries t.1.id))) StoreError.invalidTransition) transitions
  rejectIf (¬ (transitions.map fun t => t.1.id).Nodup) .invalidTransition

/-- The same for group messages, which are found by id and sender. -/
def validateGroupMessages (peer : Octets 32) (deliveries : List (DeviceDelivery × DeviceDelivery))
    (transitions : List (GroupMessageRecord × GroupMessageRecord)) : Except StoreError Unit := do
  forEach (fun t => rejectIf (t.1.id ≠ t.2.id ∨ t.1.group ≠ t.2.group ∨ t.1.sender ≠ t.2.sender ∨
    t.1.direction ≠ t.2.direction ∨
    (s.groupMessagesIn t.1.group).find? (fun m => m.id = t.1.id && m.sender = t.1.sender) ≠
      some t.1 ∨
    t.1.direction ≠ .outbound ∨
    t.1.withDeliveries peer (Table.applyTransitions DeviceDelivery.key deliveries
      (s.messageDeviceDeliveries t.1.id)) ≠ some t.2) StoreError.invalidTransition) transitions
  rejectIf (¬ (transitions.map fun t => t.1.id).Nodup) .invalidTransition

/-- The bounds of a stored group; an announce is owed to members only, and once. -/
def validGroupRecord (group : GroupRecord) : Bool :=
  group.id ≠ .zero 32 && group.name.bytes ≠ [] && group.name.bytes.length ≤ maxGroupNameLen &&
    group.members ≠ [] && group.members.length ≤ maxGroupAuthorityMembers &&
    (group.members.map fun m => m.peer).Nodup &&
    group.members.all (fun m => m.identity ≠ [] && m.identity.length ≤ maxGroupMemberIdentityLen) &&
    group.secret ≠ .zero 32 && group.pending.length ≤ maxGroupAuthorityMembers &&
    (group.pending.map fun p => p.peer).Nodup &&
    group.pending.all (fun p => group.members.any fun m => m.peer = p.peer)

def validateGroups (groups : List (GroupRecord × GroupRecord)) : Except StoreError Unit :=
  forEach (fun t => rejectIf (t.1.id ≠ t.2.id ∨ validGroupRecord t.2 = false ∨
    s.getGroup t.1.id ≠ some t.1) StoreError.invalidTransition) groups

/-- New transfers and their objects, under unused ids. -/
def validateNewMedia (transfers : List MediaTransfer) (objects : List MediaObject) :
    Except StoreError Unit :=
  rejectIf (¬ (transfers.map MediaTransfer.localId).Nodup ∨
    ¬ (objects.map MediaObject.localId).Nodup ∨
    objects.any (fun o => transfers.all fun t => t.localId ≠ o.transferId) ∨
    transfers.any (fun t => s.mediaTransfers.any fun old => old.localId = t.localId) ∨
    objects.any (fun o => s.mediaObjects.any fun old => old.localId = o.localId)) .invalidTransition

/-- `validate_handshake_receive`: every row the plan replaces is the current one, and a message is
answered by a receipt. -/
def validateHandshakeReceive (plan : HandshakeReceivePlan Session) : Except StoreError Unit := do
  rejectIf (s.sessions plan.peerDevice ≠ plan.sessionBefore ∨
    some plan.sessionAfter = plan.sessionBefore) .invalidTransition
  rejectIf (plan.contentId = .zero 16 ∨ plan.devices = [] ∨
    plan.devices.length > maxPairwiseCommitDevices ∨ plan.queue.length > maxCommitQueueRows ∨
    plan.deleteQueue.length > maxCommitQueueRows ∨ plan.resetMessages.length > maxCommitQueueRows ∨
    plan.resetDeliveries.length > maxCommitQueueRows ∨
    plan.retireGroupMessages.length > maxCommitQueueRows ∨
    plan.retireGroupDeliveries.length > maxCommitQueueRows ∨
    plan.devices.any (fun row => row.account ≠ plan.contact.peer) ∨
    plan.queue.any (fun item => item.peer ≠ plan.peerDevice || item.msgId.isSome ||
      item.groupMsgId.isSome || item.envelope.kind ≠ .receipt) ∨
    plan.mutationCount > maxCommitMutations) .invalidTransition
  rejectIf (¬ (plan.devices.map ContactDeviceRecord.device).Nodup ∨
    plan.deleteDevices.any (fun row => plan.devices.any fun new => new.device = row.device))
    .invalidTransition
  forEach (fun row => rejectIf ((s.contactDevicesFor row.account).find?
    (fun current => current.device = row.device) ≠ some row) StoreError.invalidTransition)
    plan.deleteDevices
  forEach (fun device => rejectIf (device = plan.peerDevice ∨ (s.sessions device).isNone)
    StoreError.invalidTransition) plan.deleteSessions
  forEach (fun row => rejectIf ((s.queue.find? fun item => item.1 = row.1).map
    (fun item => E.contentId item.2.envelope) ≠ some row.2) StoreError.invalidTransition)
    plan.deleteQueue
  validateDeliveries s .reset plan.contact.peer plan.peerDevice plan.resetDeliveries
  validateMessages s plan.contact.peer plan.resetDeliveries plan.resetMessages
  validateDeliveries s .retired plan.contact.peer plan.peerDevice plan.retireGroupDeliveries
  validateGroupMessages s plan.contact.peer plan.retireGroupDeliveries plan.retireGroupMessages
  validatePrekeys s plan.prekeys
  validateGroups s plan.groups
  rejectIf (plan.message.any fun message => message.peer ≠ plan.contact.peer ||
    (s.messagesWith message.peer).any fun old =>
      old.id = message.id && old.direction = message.direction) .invalidTransition
  validatePending E s plan.sourcePending
  validateNewMedia s plan.mediaTransfers plan.mediaObjects
  rejectIf (plan.contentId ∈ s.seen ∨ (plan.receiptReplay ∧ plan.queue = []) ∨
    ((plan.message.isSome ∨ plan.mediaTransfers ≠ [] ∨ plan.mediaObjects ≠ []) ∧
      (plan.receiptReplay = false ∨ plan.queue = []))) .invalidTransition

end Validate

/-- The ids of a delivery are not zero. -/
def putMessageDeviceDelivery (s : Store Session) (delivery : DeviceDelivery) :
    Except StoreError (Store Session) := do
  rejectIf (delivery.message = .zero 16 ∨ delivery.account = .zero 32 ∨ delivery.device = .zero 32)
    .serialization
  .ok { s with deliveries := Table.put DeviceDelivery.key delivery s.deliveries }

/-! The writes that cannot fail: a row that a validated transition updates or deletes is there. -/

namespace Store

variable (s : Store Session)

def putContact (contact : ContactRecord) : Store Session :=
  { s with contacts := Function.update s.contacts contact.peer (some contact) }

def deleteContactDevices (rows : List ContactDeviceRecord) : Store Session :=
  { s with contactDevices := s.contactDevices.filter fun row =>
      rows.all fun gone => gone.key ≠ row.key }

def deleteCapabilities (devices : List (Octets 32)) : Store Session :=
  { s with capabilities := fun device => if device ∈ devices then none else s.capabilities device }

def deleteQueue (rows : List (ℤ × Octets 16)) : Store Session :=
  { s with queue := s.queue.filter fun row => rows.all fun gone => gone.1 ≠ row.1 }

def updateMessages (transitions : List (MessageRecord × MessageRecord)) : Store Session :=
  { s with messages := Table.applyTransitions MessageRecord.id transitions s.messages }

def updateGroupMessages (transitions : List (GroupMessageRecord × GroupMessageRecord)) :
    Store Session :=
  { s with
    groupMessages := Table.applyTransitions GroupMessageRecord.id transitions s.groupMessages }

def putGroups (transitions : List (GroupRecord × GroupRecord)) : Store Session :=
  { s with groups := Table.applyTransitions GroupRecord.id transitions s.groups }

def putMedia (transfers : List MediaTransfer) (objects : List MediaObject) : Store Session :=
  { s with
    mediaTransfers := s.mediaTransfers ++ transfers
    mediaObjects := s.mediaObjects ++ objects }

/-- The row id is the next one. -/
def queuePush (item : QueueItem) : Store Session :=
  { s with queue := s.queue ++ [((s.queue.map fun row => row.1 + 1).foldl max 1, item)] }

def putReceiptReplay (contentId : Octets 16) (peer : Octets 32) (receivedAt : UInt64) :
    Store Session :=
  { s with receiptReplay := Function.update s.receiptReplay contentId (some (peer, receivedAt)) }

end Store

/-- Sessions, contacts and devices. -/
def HandshakeReceivePlan.writePeer (plan : HandshakeReceivePlan Session) (s : Store Session) :
    Except StoreError (Store Session) := do
  let s ← putSession E (writePrekeys s plan.prekeys) plan.peerDevice plan.sessionAfter
  let s ← plan.devices.foldlM putContactDevice (s.putContact plan.contact)
  let s ← plan.deleteSessions.foldlM deleteSession (s.deleteContactDevices plan.deleteDevices)
  .ok (s.deleteCapabilities plan.deleteCapabilities)

/-- Messages, deliveries, groups and the receipt. -/
def HandshakeReceivePlan.writeMessages (plan : HandshakeReceivePlan Session) (s : Store Session) :
    Except StoreError (Store Session) := do
  let s ← (plan.resetDeliveries.map Prod.snd).foldlM putMessageDeviceDelivery
    ((s.deleteQueue plan.deleteQueue).updateMessages plan.resetMessages)
  let s ← (plan.retireGroupDeliveries.map Prod.snd).foldlM putMessageDeviceDelivery
    (s.updateGroupMessages plan.retireGroupMessages)
  let s ← plan.message.toList.foldlM putMessage (s.putGroups plan.groups)
  let s := plan.queue.foldl Store.queuePush (s.putMedia plan.mediaTransfers plan.mediaObjects)
  .ok (if plan.receiptReplay then
      s.putReceiptReplay plan.contentId plan.peerDevice plan.receivedAt
    else s)

/-- `commit_plan` on the receipt of a handshake. -/
def commitHandshakeReceive (s : Store Session) (plan : HandshakeReceivePlan Session) :
    Except StoreError (Store Session) := do
  validateHandshakeReceive E s plan
  let s ← plan.writePeer E s
  let s ← plan.writeMessages s
  .ok (deletePending { s with seen := s.seen ++ [plan.contentId] } plan.sourcePending)

end Komms.Handshake
