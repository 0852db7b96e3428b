import Komms.Handshake.Commit

/-!
# The plans of a handshake

The second part of `consume_handshake`: what it prepares from a flight that was read and answered.
A first contact becomes a request that waits for consent (`prepareRequest`).  A handshake of a known
contact replaces or keeps the session with the sending device, renews the devices of the contact,
takes back what was on its way to a replaced session, and receives the first payload
(`prepareReceive`).
-/

namespace Komms.Handshake

open DeviceAuthority (Manifest Entry)
open Komms.Group (GroupRecord ChainKeys)
open Protocol (Envelope)

/-- What `consume_handshake` is called with. -/
structure Received where
  envelope : Envelope
  pendingSequence : Option ℤ
  transport : AdmissionTransportClass
  now : UInt64
  /-- Whether the time slice for first contacts is over. -/
  late : Bool

/-- Random draws of one call. -/
structure Draws where
  ratchetKey : Octets 32
  messageId : Octets 16
  transferId : Octets 16
  primaryId : Octets 16
  previewId : Octets 16
  group : Group.Draws

variable {Session : Type} [DecidableEq Session] (E : Env Session)

def pendingDelete (r : Received) : Option (ℤ × Octets 16) :=
  r.pendingSequence.map fun sequence => (sequence, E.contentId r.envelope)

/-! ### The vault and the contact after the flight -/

namespace Flight

variable (f : Flight Session)

def invitation : Option (Octets 32) :=
  (f.admission.filter fun admission => admission.proofKind = .invitation).map
    fun admission => admission.context.bundleDigest

def vaultChanged : Bool := f.opened.init.opkId.isSome || f.invitation.isSome

/-- The vault without the one-time prekey and the invitation that were used. -/
def candidateVault (vault : PrekeyVault) : PrekeyVault :=
  let vault := (f.opened.init.opkId.map vault.removeOpk).getD vault
  (f.invitation.map vault.removeInvitation).getD vault

def prekeys (vault : PrekeyVault) : Option PrekeyTransition :=
  if f.vaultChanged then some (E.encodeVault vault, E.encodeVault (f.candidateVault vault))
  else none

def returnBundle : Bytes := (f.opened.accountBundle.map E.encodePrekey).getD []

def returnHints : List Bytes := (f.opened.accountBundle.map PrekeyBundle.hints).getD []

def contactRecord : ContactRecord :=
  match f.contact with
  | some contact =>
    if f.opened.accountBundle.isSome then
      { contact with
        identity := f.opened.accountIdentity
        bundle := f.returnBundle E
        hints := f.returnHints }
    else contact
  | none =>
    { peer := f.opened.peer
      identity := f.opened.accountIdentity
      name := []
      bundle := f.returnBundle E
      hints := f.returnHints
      verified := false }

end Flight

/-! ### Devices of the contact -/

variable (existing : List ContactDeviceRecord) (s : Store Session) (d : Draws) (peer : Octets 32)

/-- The row from before device manifests, under the account's own key. -/
def legacyAlias : Option ContactDeviceRecord :=
  existing.find? fun row => row.device = peer && row.manifestGeneration = 0

def activeByIssuance (manifest : Manifest) : List Entry :=
  (manifest.devices.filter Entry.isActive).insertionSort fun a b =>
    toLex (a.certificate.issuedAt.toNat, a.deviceId) ≤
      toLex (b.certificate.issuedAt.toNat, b.deviceId)

/-- The device that inherits the legacy row: the one issued before all others. -/
def legacyReplacement (manifest : Manifest) : Option (Octets 32) :=
  match legacyAlias existing peer, activeByIssuance manifest with
  | some _, [first] => some first.deviceId
  | some _, first :: second :: _ =>
    if second.certificate.issuedAt > first.certificate.issuedAt then some first.deviceId else none
  | _, _ => none

def priorEndpoint (manifest : Manifest) (device : Octets 32) : Option ContactDeviceRecord :=
  (existing.find? fun row => row.device = device).or
    (if legacyReplacement existing peer manifest = some device then legacyAlias existing peer
      else none)

/-- The row of one device of the manifest.  The sending device renews its bundle. -/
def manifestEndpoint (peerDevice : Octets 32) (bundle : DevicePrekeyBundle)
    (prior : Option ContactDeviceRecord) (now : UInt64) (entry : Entry) : ContactDeviceRecord :=
  let advertised : Bool := entry.deviceId = peerDevice
  let priorHints := (prior.map ContactDeviceRecord.hints).getD []
  { account := peer
    device := entry.deviceId
    name := some entry.name
    certificate := some entry.certificate
    authority := E.encodeManifest bundle.manifest
    bundle := if advertised then E.encodePrekey bundle.prekey
      else (prior.map ContactDeviceRecord.bundle).getD []
    hints := if advertised ∧ (bundle.prekey.hints ≠ [] ∨ priorHints = []) then bundle.prekey.hints
      else priorHints
    introductionCapability := prior.bind ContactDeviceRecord.introductionCapability
    introductionGeneration := (prior.map ContactDeviceRecord.introductionGeneration).getD 0
    manifestGeneration := bundle.manifest.generation
    manifestStateId := bundle.manifest.stateId E.group.suite
    lastSeen := max (max entry.lastSeen ((prior.map ContactDeviceRecord.lastSeen).getD 0))
      (if advertised then now else 0)
    revokedAt := entry.revokedAt
    revokedAfterCounter := entry.revokedAfterCounter }

variable (f : Flight Session)

/-- The row of a sender without a manifest, completed from the one before. -/
def bareEndpoint (prior : Option ContactDeviceRecord) (now : UInt64) : ContactDeviceRecord where
  account := f.opened.peer
  device := f.opened.peerDevice
  name := prior.bind ContactDeviceRecord.name
  certificate := prior.bind ContactDeviceRecord.certificate
  authority := (prior.map ContactDeviceRecord.authority).getD []
  bundle := if f.returnBundle E = [] then (prior.map ContactDeviceRecord.bundle).getD []
    else f.returnBundle E
  hints := if f.returnHints = [] then (prior.map ContactDeviceRecord.hints).getD []
    else f.returnHints
  introductionCapability := prior.bind ContactDeviceRecord.introductionCapability
  introductionGeneration := (prior.map ContactDeviceRecord.introductionGeneration).getD 0
  manifestGeneration := 0
  manifestStateId := .zero 32
  lastSeen := max now ((prior.map ContactDeviceRecord.lastSeen).getD 0)
  revokedAt := none
  revokedAfterCounter := none

/-- The rows of the contact after the handshake, those to delete, and the devices to forget. -/
structure Endpoints where
  rows : List ContactDeviceRecord
  deleted : List ContactDeviceRecord
  cleanup : List (Octets 32)

def manifestEndpoints (peerDevice : Octets 32) (bundle : DevicePrekeyBundle) (now : UInt64) :
    Endpoints :=
  let rows := bundle.manifest.devices.map fun entry =>
    manifestEndpoint E peer peerDevice bundle
      (priorEndpoint existing peer bundle.manifest entry.deviceId) now entry
  let unlisted := existing.filter fun row => rows.all fun new => new.device ≠ row.device
  let orphaned := unlisted.filter fun row => row.manifestGeneration > 0
  let legacy := unlisted.filter fun row =>
    row.manifestGeneration = 0 && row.device ≠ peerDevice
  { rows
    deleted := orphaned ++ legacy
    cleanup :=
      (rows.filter fun row => row.revokedAt.isSome && row.device ≠ peerDevice).map
        ContactDeviceRecord.device ++ (orphaned ++ legacy).map ContactDeviceRecord.device }

def endpoints (now : UInt64) : Endpoints :=
  let existing := s.contactDevicesFor f.opened.peer
  match f.opened.deviceBundle with
  | some bundle => manifestEndpoints E existing f.opened.peer f.opened.peerDevice bundle now
  | none =>
    { rows := [bareEndpoint E f (existing.find? fun row => row.device = f.opened.peerDevice) now]
      deleted := []
      cleanup := [] }

/-! ### First contact -/

/-- Whether a byte offset of a text is not inside a character. -/
def isCharBoundary (text : Bytes) (i : ℕ) : Bool :=
  i = 0 || i = text.length || text[i]?.any fun b => !byteIn 0x80 0xBF b

/-- The last character boundary up to an offset. -/
def charBoundary (text : Bytes) : ℕ → ℕ
  | 0 => 0
  | i + 1 => if isCharBoundary text (i + 1) then i + 1 else charBoundary text i

def boundedRequestPreview (text : Bytes) : Bytes :=
  if text.length ≤ maxProvisionalPreviewBytes then text
  else text.take (charBoundary text maxProvisionalPreviewBytes)

/-- Only a text, or nothing, introduces a stranger. -/
def requestPreview (content : Bytes) : Except Stop Bytes :=
  if content = [] then .ok []
  else match E.decodeContent content with
    | .legacyText text | .text _ text => .ok (boundedRequestPreview text)
    | _ => .error .terminal

def requestExpiry (now : UInt64) : UInt64 :=
  .ofNat (min (now.toNat + maxProvisionalLifetimeSecs) (2 ^ 64 - 1))

def prepareRequest (node : Node Session) (f : Flight Session) (r : Received) :
    Except Stop (AdmissionStagePlan Session) := do
  rejectIf (node.store.contactDevicesFor f.opened.peer ≠ []) .terminal
  let firstContent ← required .terminal (E.unpad f.payload)
  rejectIf (firstContent.length > maxProvisionalContentBytes) .terminal
  let preview ← requestPreview E firstContent
  let request : ProvisionalRequest Session :=
    { requestId := E.contentId r.envelope
      account := f.opened.peer
      device := f.opened.peerDevice
      contact := f.contactRecord E
      devices := (endpoints E node.store f r.now).rows
      session := f.session
      firstContent
      preview
      safetyNumber := E.safetyNumber E.account f.opened.accountIdentity
      arrivedAt := r.now
      expiresAt := requestExpiry r.now
      transport := r.transport }
  let before := node.store.getProvisionalRequest f.opened.peer
  rejectIf (before.any fun prior => ¬ request.laterThan prior) .terminal
  .ok
    { prekeys := f.prekeys E node.vault
      before
      after := request
      contentId := E.contentId r.envelope
      sourcePending := pendingDelete E r }

/-! ### The session -/

inductive HandshakeSessionDecision where
  | keepPrior
  | acceptInbound
  | reject
  deriving DecidableEq, Repr

/-- Of two crossing first handshakes the one of the smaller device is kept. -/
def decideInboundSession (localDevice peerDevice : Octets 32) (priorSessionId : Option (Octets 32))
    (intent : DeviceHandshakeIntent) : HandshakeSessionDecision :=
  match priorSessionId, intent with
  | none, .replace _ => .reject
  | some prior, .replace replaced => if prior ≠ replaced then .reject else .acceptInbound
  | some _, .establish => if localDevice < peerDevice then .keepPrior else .acceptInbound
  | _, _ => .acceptInbound

def prepareControlQueue (session : Session) (peer : Octets 32) (payload : Bytes) (now : UInt64) :
    Session × QueueItem :=
  let (session, message) := E.encrypt session payload now
  (session, ⟨peer, none, none, .new .receipt (E.deliveryToken session now peer) message⟩)

/-! ### Deliveries to a replaced session -/

/-- What was sealed to the replaced session is sealed again. -/
def resettable (peerDevice : Octets 32) (d : DeviceDelivery) : Bool :=
  d.device = peerDevice && !d.final && !(d.state = .queued && d.wireId.isNone)

/-- A group message is not sealed again. -/
def retirable (peerDevice : Octets 32) (d : DeviceDelivery) : Bool :=
  d.account = peer && d.device = peerDevice && !d.final

def Store.outboundTo : List MessageRecord :=
  (s.messagesWith peer).filter fun message => message.direction = .outbound

def Store.outboundGroupMessages : List GroupMessageRecord :=
  s.groupMessages.filter fun message => message.direction = .outbound

/-- Rows satisfying `p`, changed. -/
def changeWhere (p : DeviceDelivery → Bool) (change : DeviceDelivery → DeviceDelivery)
    (deliveries : List DeviceDelivery) : List DeviceDelivery :=
  deliveries.map fun d => if p d then change d else d

structure Resets where
  messages : List (MessageRecord × MessageRecord)
  deliveries : List (DeviceDelivery × DeviceDelivery)
  groupMessages : List (GroupMessageRecord × GroupMessageRecord)
  groupDeliveries : List (DeviceDelivery × DeviceDelivery)

def resetMessage (peerDevice : Octets 32) (message : MessageRecord) :
    Option (MessageRecord × MessageRecord) :=
  let deliveries := s.messageDeviceDeliveries message.id
  let after := message.withDeliveries (changeWhere (resettable peerDevice) .reset deliveries)
  if deliveries.any (resettable peerDevice) ∧ after ≠ message then some (message, after) else none

def retireGroupMessage (peerDevice : Octets 32) (message : GroupMessageRecord) :
    Except NodeError (Option (GroupMessageRecord × GroupMessageRecord)) :=
  let deliveries := s.messageDeviceDeliveries message.id
  if deliveries.any (retirable peer peerDevice) then do
    let after ← required .corruptState
      (message.withDeliveries peer (changeWhere (retirable peer peerDevice) .retired deliveries))
    .ok (if after ≠ message then some (message, after) else none)
  else .ok none

def prepareResets (peerDevice : Octets 32) : Except NodeError Resets := do
  let groupMessages ← collectEach (retireGroupMessage s peer peerDevice) s.outboundGroupMessages
  .ok
    { messages := (s.outboundTo peer).filterMap (resetMessage s peerDevice)
      deliveries := (s.outboundTo peer).flatMap fun message =>
        Table.transitionsOf (resettable peerDevice) .reset (s.messageDeviceDeliveries message.id)
      groupMessages
      groupDeliveries := s.outboundGroupMessages.flatMap fun message =>
        Table.transitionsOf (retirable peer peerDevice) .retired
          (s.messageDeviceDeliveries message.id) }

/-! ### Groups -/

/-- An announce of the chain is owed to the peer. -/
def owe (group : GroupRecord) (peer : Octets 32) (chain : ChainKeys) : GroupRecord :=
  { group with
    pending := (Table.updateFirst (fun entry => entry.peer = peer)
      (fun entry => { entry with wireId := none, lastSent := 0 }) group.pending).getD
        (group.pending ++ [⟨peer, chain, none, 0⟩]) }

/-- An origin epoch is bound to the replaced session and rotates; a legacy chain is announced
again. -/
def renewGroup (group : GroupRecord × ℕ) :
    Group.SenderState → Except GroupAuthority.NodeError GroupRecord
  | .origin _ => Group.rotateGroupOrigin E.group s.groupView d.group group.2 group.1
  | .legacy chain => .ok (owe group.1 peer chain)

/-- One group, with its number among the groups. -/
def prepareGroup (group : GroupRecord × ℕ) :
    Except NodeError (Option (GroupRecord × GroupRecord)) :=
  if group.1.members.all fun m => m.peer ≠ peer then .ok none
  else Except.mapError .group do
    let sender ← Group.checkSenderState group.1.senderChain
    let after ← renewGroup E s d peer group sender
    .ok (if after ≠ group.1 then some (group.1, after) else none)

def prepareGroupsOnSessionEstablished : Except NodeError (List (GroupRecord × GroupRecord)) :=
  if peer = E.account.ed then .ok [] else collectEach (prepareGroup E s d peer) s.groups.zipIdx

/-! ### The first payload -/

def Content.id? : Content → Option (Octets 16)
  | .text id _ | .attachment id _ _ | .edit id | .ephemeral id | .mention id | .poll id
  | .groupAuthority id => some id
  | .legacyText _ | .callControl | .unsupported | .malformed => none

structure PreparedInbound where
  message : Option MessageRecord
  mediaTransfers : List MediaTransfer
  mediaObjects : List MediaObject

def PreparedInbound.empty : PreparedInbound := ⟨none, [], []⟩

def duplicateInbound (id : Octets 16) : Bool :=
  (s.messagesWith peer).any fun record =>
    record.direction = .inbound && (E.decodeContent record.body).id? = some id

/-- `prepare_inbound` without an envelope retention, which an ephemeral content needs. -/
def prepareInbound (body : Bytes) (now : UInt64) : PreparedInbound :=
  let content := E.decodeContent body
  let message (id : Octets 16) : Option MessageRecord :=
    some ⟨id, peer, .inbound, .received, now, body, none⟩
  if content.id?.any fun id => s.ephemeral peer id || duplicateInbound E s peer id then .empty
  else match content with
    | .ephemeral _ | .callControl => .empty
    | .text id _ | .edit id => ⟨message id, [], []⟩
    | .attachment id primary preview =>
      ⟨message id, [⟨d.transferId, peer, id⟩], ⟨d.primaryId, d.transferId, primary⟩ ::
        preview.toList.map fun descriptor => ⟨d.previewId, d.transferId, descriptor⟩⟩
    | .legacyText _ | .mention _ | .poll _ | .groupAuthority _ | .unsupported | .malformed =>
      ⟨message d.messageId, [], []⟩

/-- A first payload that is there and is not a call control. -/
def firstInbound (now : UInt64) : Option PreparedInbound :=
  match E.unpad f.payload with
  | some body =>
    if body ≠ [] ∧ E.decodeContent body ≠ .callControl then
      some (prepareInbound E s d f.opened.peer body now)
    else none
  | none => none

/-! ### The whole plan -/

/-- Ways out of preparing a plan. -/
inductive Exit where
  | stop (s : Stop)
  | fail (e : NodeError)
  deriving DecidableEq

/-- The session to go on with, and whether it is the one from before. -/
def chooseSession : Except Exit (Session × Bool) :=
  let prior := s.sessions f.opened.peerDevice
  match decideInboundSession E.device.ed f.opened.peerDevice (prior.map E.sessionId)
      f.opened.intent with
  | .reject => .error (.stop .terminal)
  | .keepPrior => do
    let session ← required (.fail .corruptState) prior
    .ok (session, true)
  | .acceptInbound => .ok (f.session, false)

def replacesPrior (keepPrior : Bool) : Bool := (s.sessions f.opened.peerDevice).isSome && !keepPrior

def cleanupDevices (now : UInt64) : List (Octets 32) := sortDedup id (endpoints E s f now).cleanup

def deletedQueue (keepPrior : Bool) (now : UInt64) : List (ℤ × Octets 16) :=
  (s.queue.filter fun row => row.2.peer ∈ cleanupDevices E s f now ||
    (replacesPrior s f keepPrior && row.2.peer = f.opened.peerDevice)).map
      fun row => (row.1, E.contentId row.2.envelope)

/-- The session, and what a replaced one takes back. -/
structure Changes (Session : Type) where
  session : Session
  keepPrior : Bool
  resets : Resets

/-- Only a replaced session takes deliveries back. -/
def changedResets (keepPrior : Bool) : Except Exit Resets :=
  if replacesPrior s f keepPrior then
    (prepareResets s f.opened.peer f.opened.peerDevice).mapError .fail
  else .ok ⟨[], [], [], []⟩

/-- What is decided before the groups are looked at; too much for one commit waits. -/
def prepareChanges (now : UInt64) : Except Exit (Changes Session) := do
  let chosen ← chooseSession E s f
  let resets ← changedResets s f chosen.2
  rejectIf ((deletedQueue E s f chosen.2 now).length > maxCommitQueueRows ∨
    resets.messages.length > maxCommitQueueRows ∨ resets.deliveries.length > maxCommitQueueRows ∨
    resets.groupMessages.length > maxCommitQueueRows ∨
    resets.groupDeliveries.length > maxCommitQueueRows) (.stop .later)
  .ok ⟨chosen.1, chosen.2, resets⟩

/-- The plan made of what was prepared. -/
def receivePlan (node : Node Session) (f : Flight Session) (r : Received)
    (changes : Changes Session) (groups : List (GroupRecord × GroupRecord))
    (inbound : Option PreparedInbound) : HandshakeReceivePlan Session :=
  let cleanup := cleanupDevices E node.store f r.now
  let needsReceipt := inbound.isSome || changes.keepPrior
  let queued := prepareControlQueue E changes.session f.opened.peerDevice
    (E.encodeReceipt (E.contentId r.envelope)) r.now
  { prekeys := f.prekeys E node.vault
    peerDevice := f.opened.peerDevice
    sessionBefore := node.store.sessions f.opened.peerDevice
    sessionAfter := if needsReceipt then queued.1 else changes.session
    contact := f.contactRecord E
    devices := (endpoints E node.store f r.now).rows
    deleteDevices := (endpoints E node.store f r.now).deleted
    deleteSessions := cleanup.filter fun device => (node.store.sessions device).isSome
    deleteCapabilities := if changes.keepPrior then cleanup
      else sortDedup id (cleanup ++ [f.opened.peerDevice])
    deleteQueue := deletedQueue E node.store f changes.keepPrior r.now
    resetMessages := changes.resets.messages
    resetDeliveries := changes.resets.deliveries
    retireGroupMessages := changes.resets.groupMessages
    retireGroupDeliveries := changes.resets.groupDeliveries
    groups
    message := inbound.bind PreparedInbound.message
    mediaTransfers := (inbound.map PreparedInbound.mediaTransfers).getD []
    mediaObjects := (inbound.map PreparedInbound.mediaObjects).getD []
    queue := if needsReceipt then [queued.2] else []
    contentId := E.contentId r.envelope
    receivedAt := r.now
    receiptReplay := needsReceipt
    sourcePending := pendingDelete E r }

/-- Only a new session rotates the groups shared with the peer. -/
def changedGroups (keepPrior : Bool) : Except Exit (List (GroupRecord × GroupRecord)) :=
  if keepPrior then .ok []
  else (prepareGroupsOnSessionEstablished E s d peer).mapError .fail

def prepareReceive (node : Node Session) (f : Flight Session) (r : Received) :
    Except Exit (HandshakeReceivePlan Session) := do
  let changes ← prepareChanges E node.store f r.now
  let groups ← changedGroups E node.store d f.opened.peer changes.keepPrior
  let plan := receivePlan E node f r changes groups (firstInbound E node.store d f r.now)
  rejectIf (plan.mutationCount > maxCommitMutations) (.stop .later)
  .ok plan

end Komms.Handshake
