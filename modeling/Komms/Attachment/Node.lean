import Komms.Attachment.Media
import Komms.GroupState.Plan

/-!
# The attachment transfer engine

`kult-node/src/attachment.rs`: the user's decisions, the bulk records of peers, and the periodic
pass that requests chunks and reports decisions.  Rows change in commits that check the rows they
replace (`validate_attachment_state` and the media part of `validate_pairwise_send` in
`kult-store/src/commit.rs`); a commit that answers a peer also needs a session with its devices.

A message is known by what its body decodes to.  Records are queued as they are, and encrypting them
under an existing session succeeds.
-/

namespace Komms.Attachment

open GroupState (DeferredControlRecord)

def missingRetrySecs : ℕ := 30
def maxAutomaticIdleSecs : ℕ := 30 * 86400
def maxChunksPerRequest : ℕ := 8
def maxMaintenanceTransitions : ℕ := 256
def maxCommitMutations : ℕ := 512
def maxPairwiseCommitDevices : ℕ := 8
def maxCommitQueueRows : ℕ := 128
def maxEphemeralExpiriesPerTick : ℕ := 4

inductive NodeError where
  | unknownAttachment
  | invalidAttachment
  | noSession
  | protocol
  | crypto
  | store (e : StoreError)
  deriving DecidableEq, Repr

inductive Conversation where
  | pairwise (peer : Octets 32)
  | group (group : Octets 32)
  deriving DecidableEq

/-- A message of a conversation.  `manifest` is what an attachment body decodes to. -/
structure MessageRow (Digest : Type) where
  conversation : Conversation
  sender : Octets 32
  id : Octets 16
  manifest : Option (AttachmentManifest Digest)
  /-- It was given a wire id. -/
  wired : Bool
  deriving DecidableEq

def Conversation.isGroup : Conversation → Bool
  | .pairwise _ => false
  | .group _ => true

/-- The unique index of a message: pairwise and group messages are two tables. -/
def MessageRow.key {Digest : Type} (message : MessageRow Digest) : Bool × Octets 16 :=
  (message.conversation.isGroup, message.id)

/-- A disappearing text or a view-once attachment. -/
structure EphemeralRecord where
  conversation : Conversation
  author : Octets 32
  contentId : Octets 16
  expiresAt : ℕ
  active : Bool
  transferIds : List (Octets 16)
  deriving DecidableEq

structure Node (Digest : Type) where
  me : Octets 32
  media : MediaStore Digest
  messages : Keyed (@MessageRow.key Digest)
  ephemeral : List EphemeralRecord
  controls : Keyed DeferredControlRecord.contentId
  sessions : List (Octets 32)
  contactDevices : Octets 32 → List (Octets 32)
  queue : List (Octets 32 × AttachmentBulkRecord Digest)
  requestAt : HashMap (Octets 16) ℕ
  requestTarget : HashMap (Octets 16) ℕ

/-- A row with what replaces it. -/
abbrev TransferTransition := MediaTransferRecord × MediaTransferRecord

abbrev ObjectTransition (Digest : Type) := MediaObjectRecord Digest × MediaObjectRecord Digest

def openStored {Key Digest : Type} [DecidableEq Digest] (S : Suite Key Digest)
    (s : MediaStore Digest) (attachmentKey : Octets 32) (context : AttachmentChunkContext Digest)
    (object : MediaObjectRecord Digest) (index : ℕ) : Except NodeError Bytes := do
  let sealedChunk ← (s.readChunk S object index).mapError .store
  required .crypto (openAttachmentChunk S attachmentKey context index sealedChunk)

def storedBytes {Key Digest : Type} [DecidableEq Digest] (S : Suite Key Digest)
    (s : MediaStore Digest) (attachmentKey : Octets 32) (context : AttachmentChunkContext Digest)
    (object : MediaObjectRecord Digest) : Except NodeError Bytes := do
  let chunks ← mapEach (openStored S s attachmentKey context object) (List.range object.chunkCount)
  return chunks.flatten

namespace Node

variable {Key Digest : Type} [DecidableEq Digest] (S : Suite Key Digest) (n : Node Digest)

/-! ### Commits -/

def validateTransferTransition (t : TransferTransition) : Except StoreError Unit :=
  rejectIf (t.1.localId ≠ t.2.localId ∨ t.1 = t.2 ∨ n.media.getTransfer t.1.localId ≠ some t.1)
    .invalidTransition

def validateObjectTransition (t : ObjectTransition Digest) : Except StoreError Unit :=
  rejectIf (t.1.localId ≠ t.2.localId ∨ t.1.transferId ≠ t.2.transferId ∨ t.1 = t.2 ∨
    n.media.getObject t.1.localId ≠ some t.1) .invalidTransition

def validateControl (control : DeferredControlRecord) : Except StoreError Unit :=
  rejectIf (n.controls.get control.contentId ≠ some control) .invalidTransition

def withoutControls (controls : List DeferredControlRecord) : Node Digest :=
  { n with controls := n.controls.filter fun c => c.contentId ∉
    controls.map DeferredControlRecord.contentId }

/-- Check the rows that a plan replaces, and write it. -/
def commitMedia (transfers : List TransferTransition) (objects : List (ObjectTransition Digest))
    (deleteControls : List DeferredControlRecord) : Except StoreError (Node Digest) := do
  forEach n.validateTransferTransition transfers
  forEach n.validateObjectTransition objects
  forEach n.validateControl deleteControls
  let media ← transfers.foldlM (fun s t => s.putTransfer t.2) n.media
  let media ← objects.foldlM (fun s t => s.putObject t.2) media
  return { n with media }.withoutControls deleteControls

def changed {α : Type} [DecidableEq α] (pairs : List (α × α)) : List (α × α) :=
  pairs.filter fun pair => pair.1 ≠ pair.2

def commitAttachmentState (transferBefore transferAfter : MediaTransferRecord)
    (objectPairs : List (ObjectTransition Digest)) (deleteControls : List DeferredControlRecord) :
    Except NodeError (Node Digest) :=
  let transfers := changed [(transferBefore, transferAfter)]
  let objects := changed objectPairs
  let count := transfers.length + objects.length + deleteControls.length
  Except.mapError .store do
    rejectIf (count = 0 ∨ count > maxMaintenanceTransitions) .maintenanceBounds
    rejectIf (¬ (objects.map fun t => t.2.localId).Nodup ∨
      ¬ (deleteControls.map DeferredControlRecord.contentId).Nodup) .invalidTransition
    n.commitMedia transfers objects deleteControls

/-- The encoder refuses ranges out of order and chunks of another size. -/
def encodable : AttachmentBulkOperation Digest → Bool
  | .requestMissing _ ranges => validMissingRanges ranges (2 ^ 32 - 1)
  | .chunk _ _ sealedChunk => sealedChunk.length = attachmentSealedChunkLen
  | _ => true

/-- `queue_attachment_bulk_records`: queue records to devices and commit what goes with them. -/
def queueBulkRecords (devices : List (Octets 32)) (records : List (AttachmentBulkRecord Digest))
    (transfers : List TransferTransition) (objects : List (ObjectTransition Digest))
    (deleteControls : List DeferredControlRecord) : Except NodeError (Node Digest) := do
  let routes := devices.dedup
  let rows := routes.length * records.length
  rejectIf (∃ record ∈ records, encodable record.operation = false) .protocol
  rejectIf (routes = [] ∨ routes.length > maxPairwiseCommitDevices ∨ records = []) .noSession
  rejectIf (∃ device ∈ routes, device ∉ n.sessions) .noSession
  rejectIf (rows > maxCommitQueueRows ∨ routes.length + rows + transfers.length + objects.length +
    deleteControls.length > maxCommitMutations) (.store .invalidTransition)
  let n ← (n.commitMedia transfers objects deleteControls).mapError .store
  return { n with
    queue := n.queue ++ routes.flatMap fun device => records.map fun r => (device, r) }

/-- `queue_attachment_padded_to_account` -/
def queueToAccount (account : Octets 32) (records : List (AttachmentBulkRecord Digest))
    (transfers : List TransferTransition) : Except NodeError (Node Digest) :=
  let endpoints := n.contactDevices account
  n.queueBulkRecords (if endpoints = [] then [account] else endpoints) records transfers [] []

/-! ### Resolving records -/

variable (record : AttachmentBulkRecord Digest) (transferId : Octets 16)

def requireAttachment : Except NodeError MediaTransferRecord :=
  required .unknownAttachment (n.media.getTransfer transferId)

variable (transfer : MediaTransferRecord) (objectId : Octets 16)

def bulkRecord (operation : AttachmentBulkOperation Digest) : AttachmentBulkRecord Digest where
  scope := transfer.scope
  scopeId := transfer.scopeId
  manifestAuthor := transfer.manifestAuthor
  manifestContentId := transfer.manifestContentId
  objectId
  operation

/-- The transfer is the one a peer's record speaks of. -/
def matchesRecord (peer : Octets 32) (direction : MediaDirection) (transfer : MediaTransferRecord) :
    Bool :=
  transfer.direction = direction && transfer.peer = peer && transfer.scopeId = record.scopeId &&
    transfer.manifestAuthor = record.manifestAuthor &&
    transfer.manifestContentId = record.manifestContentId && transfer.scope = record.scope &&
    (direction = .inbound || transfer.entitledPeers.contains peer)

def resolveBulkTransfer (peer : Octets 32) (direction : MediaDirection) :
    Option MediaTransferRecord :=
  n.media.transfers.rows.find? (matchesRecord record peer direction)

def resolveBulkTransferAnyDirection (peer : Octets 32) : Option MediaTransferRecord :=
  (n.resolveBulkTransfer record peer .inbound).or (n.resolveBulkTransfer record peer .outbound)

def resolveBulkObject (role : AttachmentRole) : Option (MediaObjectRecord Digest) :=
  (n.media.objectsFor transfer.localId).find? fun object =>
    object.objectId = objectId ∧ object.role = role

def conversationOf : Conversation :=
  match transfer.scope with
  | .pairwise => .pairwise transfer.peer
  | .group => .group transfer.scopeId

/-- `load_manifest`.  In a group the message must be of the author of the manifest. -/
def loadManifest : Except NodeError (AttachmentManifest Digest) := do
  let message ← required .unknownAttachment <| n.messages.rows.find? fun message =>
    message.conversation = conversationOf transfer ∧ message.id = transfer.manifestContentId ∧
      (transfer.scope = .group → message.sender = transfer.manifestAuthor)
  required .invalidAttachment message.manifest

def chunkContext (object : AttachmentObject Digest) : AttachmentChunkContext Digest where
  scope := transfer.scope
  scopeId := transfer.scopeId
  manifestAuthor := transfer.manifestAuthor
  manifestContentId := transfer.manifestContentId
  objectId := object.objectId
  role := object.role
  totalLen := object.totalLen
  chunkCount := object.chunkCount
  contentHash := object.contentHash

/-! ### Ending a transfer -/

def clearRequest : Node Digest :=
  { n with
    requestAt := n.requestAt.erase transferId
    requestTarget := n.requestTarget.erase transferId }

def collectMediaGarbage : Node Digest := { n with media := n.media.garbageCollect false }

variable (state : MediaTransferState)

/-- The objects of a transfer that ends.  An outbound transfer keeps its chunks. -/
def finishPairs : List (ObjectTransition Digest) :=
  if transfer.direction = .inbound ∨ state = .corrupt then
    (n.media.objectsFor transfer.localId).map fun object => (object, object.withState state)
  else []

/-- A local decision, which is reported to the peer by a later pass. -/
def finishAttachmentLocally (now : ℕ) : Except NodeError (Node Digest) := do
  let n' ← n.commitAttachmentState transfer { transfer with state, updatedAt := now }
    (n.finishPairs transfer state) []
  return n'.clearRequest transfer.localId

/-- Commit the end of a transfer, with the answer if there is one. -/
def commitEnd (after : MediaTransferRecord) (pairs : List (ObjectTransition Digest))
    (objectId : Octets 16) (response : Option (AttachmentBulkOperation Digest))
    (control : DeferredControlRecord) : Except NodeError (Node Digest) :=
  match response with
  | some operation =>
    n.queueBulkRecords [control.peerDevice] [bulkRecord transfer objectId operation]
      (changed [(transfer, after)]) (changed pairs) [control]
  | none => n.commitAttachmentState transfer after pairs [control]

/-- A record of the peer ends the transfer. -/
def finishAttachmentFromControl (response : Option (AttachmentBulkOperation Digest))
    (control : DeferredControlRecord) : Except NodeError (Node Digest) := do
  let pairs := n.finishPairs transfer state
  let n' ←
    n.commitEnd transfer { transfer with state, updatedAt := 0 } pairs objectId response control
  let n' := n'.clearRequest transfer.localId
  return if pairs = [] then n' else n'.collectMediaGarbage

/-! ### The user's decisions -/

/-- Accept an inbound offer, also one refused before. -/
def acceptAttachment (now : ℕ) : Except NodeError (Node Digest) := do
  let transfer ← n.requireAttachment transferId
  rejectIf (transfer.direction ≠ .inbound ∨ ¬ (transfer.state = .offered ∨
    transfer.state = .awaitingConsent ∨ transfer.state = .rejected ∨ transfer.state = .cancelled))
    .invalidAttachment
  let objects := n.media.objectsFor transferId
  let pairs := objects.map fun object =>
    (object, object.withState (if object.chunkCount = 0 then .complete else .queued))
  let state := if objects.all fun object => object.chunkCount = 0 then .complete else .queued
  n.commitAttachmentState transfer { transfer with state, updatedAt := now } pairs []

def rejectAttachment (now : ℕ) : Except NodeError (Node Digest) := do
  let transfer ← n.requireAttachment transferId
  rejectIf (transfer.direction ≠ .inbound) .invalidAttachment
  n.finishAttachmentLocally transfer .rejected now

def cancelAttachment (now : ℕ) : Except NodeError (Node Digest) := do
  let transfer ← n.requireAttachment transferId
  n.finishAttachmentLocally transfer .cancelled now

/-- The inbound objects that are not complete, in another state. -/
def incompletePairs : List (ObjectTransition Digest) :=
  if transfer.direction = .inbound then
    ((n.media.objectsFor transfer.localId).filter fun object => object.state ≠ .complete).map
      fun object => (object, object.withState state)
  else []

def pauseAttachment (now : ℕ) : Except NodeError (Node Digest) := do
  let transfer ← n.requireAttachment transferId
  rejectIf (¬ (transfer.state = .queued ∨ transfer.state = .transferring)) .invalidAttachment
  let n' ← n.commitAttachmentState transfer { transfer with state := .paused, updatedAt := now }
    (n.incompletePairs transfer .paused) []
  return n'.clearRequest transferId

def manifestWasQueued : Bool :=
  match transfer.scope with
  | .pairwise => n.messages.rows.any fun message => message.conversation = .pairwise transfer.peer ∧
      message.id = transfer.manifestContentId ∧ message.wired
  | .group => ((n.messages.rows.find? fun message =>
      message.conversation = .group transfer.scopeId ∧
      message.id = transfer.manifestContentId).map MessageRow.wired).getD false

def resumeAttachment (now : ℕ) : Except NodeError (Node Digest) := do
  let transfer ← n.requireAttachment transferId
  rejectIf (transfer.state ≠ .paused) .invalidAttachment
  let state := if transfer.direction = .outbound ∧ n.manifestWasQueued transfer then
    .transferring else .queued
  let n' ← n.commitAttachmentState transfer { transfer with state, updatedAt := now }
    (n.incompletePairs transfer .queued) []
  return n'.clearRequest transferId

/-! ### Bulk records of peers -/

/-- The chunks that a request is answered with. -/
def servedIndices (ranges : List MissingRange) : List ℕ :=
  (ranges.flatMap fun range => List.range' range.start range.count).take maxChunksPerRequest

def applyRequestMissing (role : AttachmentRole) (ranges : List MissingRange)
    (control : DeferredControlRecord) (now : ℕ) : Except NodeError (Node Digest × Bool) :=
  match n.resolveBulkTransfer record control.peer .outbound with
  | none => .ok (n, false)
  | some transfer =>
    if transfer.state = .paused then .ok (n, false)
    else match n.resolveBulkObject transfer record.objectId role with
    | none => .ok (n, false)
    | some object =>
      if validMissingRanges ranges object.chunkCount = false then .ok (n, false)
      else do
        let chunks ← (mapEach (fun index => do
          let sealedChunk ← n.media.readChunk S object index
          return AttachmentBulkOperation.chunk role index sealedChunk)
          (servedIndices ranges)).mapError .store
        if chunks = [] then return (n, false)
        else
          let n' ← n.queueBulkRecords [control.peerDevice]
            (chunks.map (bulkRecord transfer object.objectId))
            (changed [(transfer, { transfer with state := .transferring, updatedAt := now })]) []
            [control]
          return (n', true)

/-- What an arriving chunk belongs to. -/
structure ChunkTarget (Digest : Type) where
  transfer : MediaTransferRecord
  object : MediaObjectRecord Digest
  attachmentKey : Octets 32
  context : AttachmentChunkContext Digest

/-- Find the transfer, the object and the manifest of a chunk. -/
def chunkTarget (role : AttachmentRole) (index : ℕ) (peer : Octets 32) :
    Except NodeError (Option (ChunkTarget Digest)) :=
  match n.resolveBulkTransfer record peer .inbound with
  | none => .ok none
  | some transfer =>
    match n.resolveBulkObject transfer record.objectId role with
    | none => .ok none
    | some object =>
      if index ≥ object.chunkCount then .ok none
      else do
        let manifest ← n.loadManifest transfer
        let found := manifest.objects.find? fun candidate =>
          candidate.objectId = object.objectId ∧ candidate.role = role
        return found.map fun candidate =>
          ⟨transfer, object, manifest.attachmentKey, chunkContext transfer candidate⟩

/-- How a chunk that cannot be stored ends its transfer. -/
def refusal : StoreError → Option (MediaTransferState × AttachmentBulkOperation Digest)
  | .mediaQuota => some (.rejected, .reject .quota)
  | .lowStorage => some (.rejected, .reject .lowStorage)
  | .mediaState => some (.corrupt, .cancel .corrupt)
  | _ => none

def verifiedChunkCount : ℕ :=
  ((n.media.objectsFor transferId).map fun object => object.addresses.length).sum

/-- A request round is over when all its chunks have come. -/
def settleRequest : Node Digest :=
  match n.requestTarget.lookup transferId with
  | some target => if target ≤ n.verifiedChunkCount transferId then n.clearRequest transferId else n
  | none => n

/-- The transfer after one of its objects was written. -/
def transferWith (after : MediaObjectRecord Digest) (now : ℕ) : MediaTransferRecord :=
  let others := (n.media.objectsFor transfer.localId).filter fun o => o.localId ≠ after.localId
  { transfer with
    state := if after.state = .complete ∧ ∀ other ∈ others, other.state = .complete then .complete
      else .transferring
    updatedAt := now }

/-- Commit an object with a new chunk, and report its completion. -/
def commitChunk (target : ChunkTarget Digest) (role : AttachmentRole)
    (before after : MediaObjectRecord Digest) (completed : Bool) (control : DeferredControlRecord)
    (now : ℕ) : Except NodeError (Node Digest) := do
  let n' ← n.commitEnd target.transfer (n.transferWith target.transfer after now)
    (changed [(before, after)]) target.object.objectId
    (if completed then some (.complete role after.contentHash) else none) control
  return n'.settleRequest target.transfer.localId

/-- Go on with a chunk whose file is written.  The last chunk of an object must complete its
hash. -/
def acceptChunk (target : ChunkTarget Digest) (role : AttachmentRole)
    (staged : MediaStore.StagedMediaChunk Digest) (control : DeferredControlRecord) (now : ℕ) :
    Except NodeError (Node Digest) :=
  if staged.after.chunkAddresses.all Option.isSome then do
    let bytes ← storedBytes S n.media target.attachmentKey target.context staged.after
    if S.hash bytes ≠ staged.after.contentHash then
      n.finishAttachmentFromControl target.transfer staged.after.objectId .corrupt
        (some (.cancel .corrupt)) control
    else
      n.commitChunk target role staged.before { staged.after with state := .complete } true
        control now
  else n.commitChunk target role staged.before staged.after false control now

/-- Store an arriving chunk.  The file stays when the commit fails. -/
def applyChunk (available : ℕ) (record : AttachmentBulkRecord Digest) (role : AttachmentRole)
    (index : ℕ) (sealedChunk : Bytes) (control : DeferredControlRecord) (now : ℕ) :
    Effect (Node Digest) NodeError Bool :=
  match n.chunkTarget record role index control.peer with
  | .error e => ⟨n, .error e⟩
  | .ok none => ⟨n, .ok false⟩
  | .ok (some target) =>
    if openAttachmentChunk S target.attachmentKey target.context index sealedChunk = none then
      .ofExcept n <| (n.finishAttachmentFromControl target.transfer target.object.objectId .corrupt
        (some (.cancel .corrupt)) control).map fun n' => (n', true)
    else match n.media.stageMediaChunk S available target.object.localId index sealedChunk with
    | .error e =>
      match refusal e with
      | some (state, operation) =>
        .ofExcept n <| (n.finishAttachmentFromControl target.transfer target.object.objectId state
          (some operation) control).map fun n' => (n', true)
      | none => ⟨n, .error (.store e)⟩
    | .ok (media, staged) =>
      let n := { n with media }
      .ofExcept n <| (n.acceptChunk S target role staged control now).map fun n' => (n', true)

/-- The peer has everything. -/
def applyComplete (role : AttachmentRole) (contentHash : Digest) (control : DeferredControlRecord)
    (now : ℕ) : Except NodeError (Node Digest × Bool) :=
  match n.resolveBulkTransfer record control.peer .outbound with
  | none => .ok (n, false)
  | some transfer =>
    match n.resolveBulkObject transfer record.objectId role with
    | none => .ok (n, false)
    | some object =>
      if object.contentHash ≠ contentHash ∨ transfer.state.negativeTerminal = true then
        .ok (n, false)
      else do
        let n' ← n.commitAttachmentState transfer
          { transfer with state := .complete, updatedAt := now } [] [control]
        return (n', true)

/-- The peer cancels or rejects a transfer. -/
def applyEnd (transfer : Option MediaTransferRecord) (state : MediaTransferState)
    (record : AttachmentBulkRecord Digest) (control : DeferredControlRecord) :
    Except NodeError (Node Digest × Bool) :=
  match transfer with
  | none => .ok (n, false)
  | some transfer =>
    if transfer.state.negativeTerminal = true ∨
        ∀ object ∈ n.media.objectsFor transfer.localId, object.objectId ≠ record.objectId then
      .ok (n, false)
    else do
      let n' ← n.finishAttachmentFromControl transfer record.objectId state none control
      return (n', true)

/-- `apply_attachment_bulk` on a deferred control whose body decodes to `record`.  It returns
whether the control was deleted. -/
def applyAttachmentBulk (available : ℕ) (record : Option (AttachmentBulkRecord Digest))
    (control : DeferredControlRecord) (now : ℕ) : Effect (Node Digest) NodeError Bool :=
  match record with
  | none => ⟨n, .ok false⟩
  | some record =>
    match record.operation with
    | .requestMissing role ranges =>
      .ofExcept n (n.applyRequestMissing S record role ranges control now)
    | .chunk role index sealedChunk =>
      n.applyChunk S available record role index sealedChunk control now
    | .complete role contentHash =>
      .ofExcept n (n.applyComplete record role contentHash control now)
    | .cancel _ => .ofExcept n <|
        n.applyEnd (n.resolveBulkTransferAnyDirection record control.peer) .cancelled record control
    | .reject _ => .ofExcept n <|
        n.applyEnd (n.resolveBulkTransfer record control.peer .outbound) .rejected record control

/-- The part of `apply_deferred_controls` about one bulk control: what was not deleted with its
effects is deleted now. -/
def applyDeferredBulk (decode : Bytes → Option (AttachmentBulkRecord Digest)) (available : ℕ)
    (control : DeferredControlRecord) (now : ℕ) : Effect (Node Digest) NodeError Unit :=
  (n.applyAttachmentBulk S available (decode control.body) control now).andThen fun n deleted =>
    if deleted then ⟨n, .ok ()⟩
    else .ofExcept n <| (do
      n.validateControl control
      return (n.withoutControls [control], ())).mapError .store

end Node

end Komms.Attachment
