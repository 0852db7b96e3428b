import Komms.Attachment.Node

/-!
# Runs of the transfer engine

Offers that arrive, the periodic pass over the transfers, expiry, reconciliation and export, and the
steps of a run.

Whether a peer can be served and how its outbound manifest fares is left to the environment
(`Carriers`).
-/

namespace Komms.Attachment.Node

open GroupState (DeferredControlRecord)

variable {Key Digest : Type} [DecidableEq Digest] (S : Suite Key Digest) (n : Node Digest)

/-! ### Offers -/

/-- An attachment manifest as it arrives.  The local ids are drawn at random. -/
structure Offer (Digest : Type) where
  author : Octets 32
  /-- The group it was sent to, and its members then. -/
  group : Option (Octets 32 × List (Octets 32))
  contentId : Octets 16
  manifest : AttachmentManifest Digest
  /-- The deadline of a view-once attachment. -/
  expiresAt : Option ℕ
  transferId : Octets 16
  objectIds : AttachmentRole → Octets 16

variable (transfer : MediaTransferRecord) (offer : Offer Digest)

omit [DecidableEq Digest] in
def Offer.conversation : Conversation :=
  match offer.group with
  | none => .pairwise offer.author
  | some (group, _) => .group group

/-- `prepare_pairwise_attachment_offer`, `prepare_group_attachment_offer` -/
def offeredTransfer (now : ℕ) : MediaTransferRecord where
  localId := offer.transferId
  peer := offer.author
  direction := .inbound
  scope := match offer.group with
    | none => .pairwise
    | some _ => .group
  scopeId := match offer.group with
    | none => S.pairwiseScopeId n.me offer.author
    | some (group, _) => group
  manifestAuthor := offer.author
  manifestContentId := offer.contentId
  entitledPeers := match offer.group with
    | none => [n.me]
    | some (_, members) => members
  state := .awaitingConsent
  updatedAt := now

def offeredObject (descriptor : AttachmentObject Digest) : MediaObjectRecord Digest where
  localId := offer.objectIds descriptor.role
  transferId := offer.transferId
  objectId := descriptor.objectId
  role := descriptor.role
  totalLen := descriptor.totalLen
  chunkCount := descriptor.chunkCount
  contentHash := descriptor.contentHash
  mediaType := descriptor.mediaType
  filename := descriptor.filename
  state := .awaitingConsent
  verifiedBitmap := List.replicate (bitmapLen descriptor.chunkCount) 0
  chunkAddresses := List.replicate descriptor.chunkCount none
  verifiedBytes := 0

def offeredObjects : List (MediaObjectRecord Digest) :=
  offer.manifest.objects.map (offeredObject offer)

/-- The sender's content was seen before. -/
def seenBefore : Bool :=
  (n.ephemeral.any fun record => record.conversation = offer.conversation ∧
    record.author = offer.author ∧ record.contentId = offer.contentId) ||
  n.messages.rows.any fun message => message.conversation = offer.conversation ∧
    message.sender = offer.author ∧ message.id = offer.contentId

/-- `validate_new_media` and the unique index of message ids. -/
def validateOffer : Except StoreError Unit := do
  rejectIf ((n.messages.get (offer.conversation.isGroup, offer.contentId)).isSome)
    .invalidTransition
  rejectIf (¬ ((offeredObjects offer).map MediaObjectRecord.localId).Nodup ∨
    (n.media.getTransfer offer.transferId).isSome ∨ offer.transferId ∈ n.media.unknownTransfers ∨
    ∃ object ∈ offeredObjects offer,
      (n.media.getObject object.localId).isSome ∨ object.localId ∈ n.media.unknownObjects)
    .invalidTransition

def ephemeralRecord (expiresAt : ℕ) (active : Bool) : EphemeralRecord where
  conversation := offer.conversation
  author := offer.author
  contentId := offer.contentId
  expiresAt
  active
  transferIds := if active then [offer.transferId] else []

/-- Keep the message with its transfer and objects. -/
def commitOffer (now : ℕ) : Except StoreError (Node Digest) := do
  n.validateOffer offer
  let media ← n.media.putTransfer (n.offeredTransfer S offer now)
  let media ← (offeredObjects offer).foldlM (fun s object => s.putObject object) media
  let message : MessageRow Digest :=
    ⟨offer.conversation, offer.author, offer.contentId, some offer.manifest, false⟩
  return { n with
    media
    messages := n.messages.put message
    ephemeral := n.ephemeral ++
      (offer.expiresAt.map fun expiresAt => ephemeralRecord offer expiresAt true).toList }

/-- Take in an offer whose manifest was decoded.  One past its deadline leaves a tombstone only. -/
def receiveOffer (now : ℕ) : Except NodeError (Node Digest) := do
  rejectIf (¬ Returns (validateManifest S offer.manifest)) .protocol
  if n.seenBefore offer then return n
  else if offer.expiresAt.any (fun expiresAt => expiresAt ≤ now) then
    return { n with ephemeral := n.ephemeral ++
      (offer.expiresAt.map fun expiresAt => ephemeralRecord offer expiresAt false).toList }
  else (n.commitOffer S offer now).mapError .store

/-! ### The periodic pass -/

/-- The runs of empty slots, the first slot having index `i`. -/
def missingRuns : ℕ → List (Option Digest) → List MissingRange
  | _, [] => []
  | i, some _ :: slots => missingRuns (i + 1) slots
  | i, none :: slots =>
    let run := (slots.takeWhile Option.isNone).length + 1
    ⟨i, run⟩ :: missingRuns (i + run) (slots.drop (run - 1))
  termination_by _ slots => slots.length

def missingRanges (object : MediaObjectRecord Digest) : List MissingRange :=
  (missingRuns 0 object.chunkAddresses).take maxMissingRanges

def missingChunkCount (ranges : List MissingRange) : ℕ := (ranges.map MissingRange.count).sum

/-- What the environment decides in one pass. -/
structure Carriers where
  /-- The peer supports attachments and a fresh carrier allows bulk. -/
  eligible : Octets 32 → Bool
  /-- Outcome of `queue_pairwise_attachment_manifest`: whether the manifest went into the queue. -/
  manifest : MediaTransferRecord → Except NodeError Bool
  /-- Outcome of `queue_group_attachment_manifest`. -/
  groupManifest : Octets 32 → Octets 16 → Except NodeError Bool

/-- What one object asks for: its missing chunks, or an acknowledgement of it. -/
def objectRequest (object : MediaObjectRecord Digest) : Option (AttachmentBulkRecord Digest) :=
  if object.state = .complete then
    some (bulkRecord transfer object.objectId (.complete object.role object.contentHash))
  else if missingRanges object = [] then none
  else
    some (bulkRecord transfer object.objectId (.requestMissing object.role (missingRanges object)))

def requestedChunks (objects : List (MediaObjectRecord Digest)) : ℕ :=
  ((objects.filter fun object => object.state ≠ .complete).map fun object =>
    min (missingChunkCount (missingRanges object)) maxChunksPerRequest).sum

/-- Ask for the missing chunks of an inbound transfer. -/
def requestMissing (now : ℕ) : Except NodeError (Node Digest) :=
  let objects := n.media.objectsFor transfer.localId
  let records := objects.filterMap (objectRequest transfer)
  if records = [] then .ok n
  else do
    let state := if objects.all fun object => object.state = .complete then .complete
      else .transferring
    let n' ← n.queueToAccount transfer.peer records (changed [(transfer, { transfer with state })])
    let requested := requestedChunks objects
    return { n' with
      requestTarget := if requested = 0 then n'.requestTarget.erase transfer.localId
        else n'.requestTarget.insert transfer.localId
          (n.verifiedChunkCount transfer.localId + requested)
      requestAt := n'.requestAt.insert transfer.localId now }

/-- A round is due again. -/
def retryDue (transferId : Octets 16) (now : ℕ) : Bool :=
  (n.requestAt.lookup transferId).all fun last => missingRetrySecs ≤ now - last

/-- Report a local refusal to the peer. -/
def reportEnd (operation : AttachmentBulkOperation Digest) : Except NodeError (Node Digest) :=
  match n.media.objectsFor transfer.localId with
  | [] => .ok n
  | object :: _ => n.queueToAccount transfer.peer [bulkRecord transfer object.objectId operation]
      [(transfer, { transfer with updatedAt := 0 })]

/-- The pass over one transfer. -/
def activateTransfer (carriers : Carriers) (now : ℕ) (transfer : MediaTransferRecord) :
    Except NodeError (Node Digest) :=
  if transfer.direction = .inbound ∧ transfer.state = .transferring ∧
      now - transfer.updatedAt > maxAutomaticIdleSecs then
    n.pauseAttachment transfer.localId now
  else if carriers.eligible transfer.peer = false then .ok n
  else match transfer.direction, transfer.state with
  | .outbound, .queued =>
    if transfer.scope = .pairwise ∧
        (n.media.objectsFor transfer.localId).all fun object => object.state = .complete then do
      let queued ← carriers.manifest transfer
      if queued then
        (n.commitMedia [(transfer, { transfer with state := .transferring, updatedAt := now })] []
          []).mapError .store
      else return n
    else .ok n
  | .inbound, .queued => n.requestMissing transfer now
  | .inbound, .transferring =>
    if n.retryDue transfer.localId now then n.requestMissing transfer now else .ok n
  | _, .rejected => if transfer.updatedAt ≠ 0 then n.reportEnd transfer (.reject .user) else .ok n
  | _, .cancelled => if transfer.updatedAt ≠ 0 then n.reportEnd transfer (.cancel .user) else .ok n
  | _, _ => .ok n

/-- The outbound copies of a group attachment that wait for its manifest. -/
def groupCopies (transfers : List MediaTransferRecord) (key : Octets 32 × Octets 16) :
    List MediaTransferRecord :=
  transfers.filter fun transfer => transfer.scope = .group ∧ transfer.direction = .outbound ∧
    transfer.scopeId = key.1 ∧ transfer.manifestContentId = key.2

/-- The manifest goes out when every copy is ready. -/
def activateGroup (carriers : Carriers) (now : ℕ) (transfers : List MediaTransferRecord)
    (key : Octets 32 × Octets 16) : Except NodeError (Node Digest) :=
  if (groupCopies transfers key).all fun transfer => transfer.state = .queued ∧
      carriers.eligible transfer.peer = true ∧
      (n.media.objectsFor transfer.localId).all fun object => object.state = .complete then do
    let queued ← carriers.groupManifest key.1 key.2
    if queued then
      let waiting := (groupCopies n.media.transfers.rows key).filter fun t => t.state = .queued
      (n.commitMedia
        (waiting.map fun t => (t, { t with state := .transferring, updatedAt := now })) []
        []).mapError .store
    else return n
  else .ok n

def activateAttachmentTransfers (carriers : Carriers) (now : ℕ) :
    Effect (Node Digest) NodeError Unit :=
  let transfers := n.media.transfers.rows
  let groups := ((transfers.filter fun transfer => transfer.scope = .group ∧
    transfer.direction = .outbound ∧ transfer.state = .queued).map fun transfer =>
      (transfer.scopeId, transfer.manifestContentId)).dedup
  (Effect.forEach (fun transfer n =>
      .ofExcept n ((activateTransfer n carriers now transfer).map fun n' => (n', ())))
    transfers n).andThen fun n _ => Effect.forEach (fun key n =>
      .ofExcept n ((activateGroup n carriers now transfers key).map fun n' => (n', ()))) groups n

/-! ### Expiry and reconciliation -/

/-- `sweep_ephemeral`: a view-once attachment past its deadline goes with its message. -/
def sweepEphemeral (now : ℕ) : Except NodeError (Node Digest) := do
  let due := (n.ephemeral.filter fun record => record.active ∧ record.expiresAt ≤ now).take
    maxEphemeralExpiriesPerTick
  let transferIds := due.flatMap EphemeralRecord.transferIds
  rejectIf (∃ id ∈ transferIds, id ∈ n.media.unknownTransfers) (.store .invalidTransition)
  let n := { n with
    ephemeral := n.ephemeral.map fun record =>
      if record ∈ due then { record with active := false } else record
    messages := n.messages.filter fun message => ¬ ∃ record ∈ due,
      record.conversation = message.conversation ∧ record.author = message.sender ∧
        record.contentId = message.id
    media := { n.media with
      transfers := n.media.transfers.filter fun transfer => transfer.localId ∉ transferIds
      objects := n.media.objects.filter fun object => object.transferId ∉ transferIds }
    requestAt := HashMap.eraseAll transferIds n.requestAt
    requestTarget := HashMap.eraseAll transferIds n.requestTarget }
  return n.collectMediaGarbage

def markUnavailable (batch : List (MediaObjectRecord Digest)) : Except NodeError (Node Digest) :=
  if batch = [] then .ok n
  else (n.commitMedia [] (batch.map fun object => (object, { object with state := .unavailable }))
    []).mapError .store

/-- The startup pass: an object whose file is gone becomes unavailable, and files that no row refers
to are removed. -/
def reconcileMedia : Except NodeError (Node Digest) := do
  let missing := n.media.objects.rows.filter fun object =>
    n.media.missingFile object ∧ object.state ≠ .unavailable
  let n ← n.markUnavailable (missing.take maxMaintenanceTransitions)
  return if missing.length ≤ maxMaintenanceTransitions then
    { n with media := n.media.garbageCollect (n.media.unknownObjects ≠ []) } else n

/-! ### Steps -/

inductive Op (Digest : Type) where
  | offer (offer : Offer Digest)
  | accept (transferId : Octets 16)
  | reject (transferId : Octets 16)
  | cancel (transferId : Octets 16)
  | pause (transferId : Octets 16)
  | resume (transferId : Octets 16)
  /-- An authenticated control was received. -/
  | arrive (control : DeferredControlRecord)
  /-- A received bulk control is applied, with so much free space on the disk. -/
  | bulk (control : DeferredControlRecord) (available : ℕ)
  | activate (carriers : Carriers)
  | sweep
  | reconcile

/-- The state after a call with one commit. -/
def attempt (x : Except NodeError (Node Digest)) : Node Digest :=
  match x with
  | .ok n' => n'
  | .error _ => n

/-- The state after a step at some time. -/
def perform (decode : Bytes → Option (AttachmentBulkRecord Digest)) (now : ℕ) :
    Op Digest → Node Digest
  | .offer offer => n.attempt (n.receiveOffer S offer now)
  | .accept id => n.attempt (n.acceptAttachment id now)
  | .reject id => n.attempt (n.rejectAttachment id now)
  | .cancel id => n.attempt (n.cancelAttachment id now)
  | .pause id => n.attempt (n.pauseAttachment id now)
  | .resume id => n.attempt (n.resumeAttachment id now)
  | .arrive control =>
    if (n.controls.get control.contentId).isSome then n
    else { n with controls := n.controls.put control }
  | .bulk control available => (n.applyDeferredBulk S decode available control now).state
  | .activate carriers => (n.activateAttachmentTransfers carriers now).state
  | .sweep => n.attempt (n.sweepEphemeral now)
  | .reconcile => n.attempt n.reconcileMedia

/-- A run whose steps are all allowed in the states they start from, the last step first. -/
inductive Run (decode : Bytes → Option (AttachmentBulkRecord Digest))
    (allowed : Node Digest → Op Digest → Prop) : List (Op Digest) → Node Digest → Prop
  | start : Run decode allowed [] n
  | step {ops : List (Op Digest)} {n' : Node Digest} (now : ℕ) (op : Op Digest)
      (run : Run decode allowed ops n') (hallowed : allowed n' op) :
      Run decode allowed (op :: ops) (n'.perform S decode now op)

end Komms.Attachment.Node
