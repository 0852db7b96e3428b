import Komms.Attachment.Manifest
import Komms.Lib.HashMap
import Komms.Lib.Transition

/-!
# The media store

`kult-store/src/media.rs`: transfer and object rows, and the chunk files they refer to by the hash
of the sealed chunk.  A file is written before the row that refers to it, and removed by a later
collection once no row does.

Rows of an unknown record version are kept apart by their ids.
A chunk file holds the sealed chunk, under a local seal that only adds to its size.
-/

namespace Komms.Attachment

def localSealOverhead : ℕ := 24 + 16
def maxEntitlements : ℕ := 64

inductive StoreError where
  | mediaState
  | mediaQuota
  | lowStorage
  | invalidTransition
  | maintenanceBounds
  | io
  deriving DecidableEq, Repr

/-! ### Records -/

inductive MediaDirection where
  | inbound
  | outbound
  deriving DecidableEq, Repr

inductive MediaTransferState where
  | offered
  | awaitingConsent
  | queued
  | transferring
  | paused
  | complete
  | rejected
  | cancelled
  | corrupt
  | unavailable
  deriving DecidableEq, Repr

namespace MediaTransferState

variable (state : MediaTransferState)

def active : Bool := state = queued || state = transferring || state = paused

def incomplete : Bool :=
  !(state = complete || state = rejected || state = cancelled || state = corrupt)

/-- The user has not decided yet. -/
def undecided : Bool := state = offered || state = awaitingConsent

/-- `attachment_state_is_negative_terminal` -/
def negativeTerminal : Bool := state = rejected || state = cancelled || state = corrupt

end MediaTransferState

structure MediaLimits where
  activeInboundPerPeer : ℕ
  activeOutboundPerPeer : ℕ
  activeGlobal : ℕ
  incompleteBytes : ℕ
  storeBytes : ℕ
  freeSpaceReserve : ℕ

def MediaLimits.default : MediaLimits where
  activeInboundPerPeer := 8
  activeOutboundPerPeer := 8
  activeGlobal := 32
  incompleteBytes := 1024 * 1024 * 1024
  storeBytes := 2 * 1024 * 1024 * 1024
  freeSpaceReserve := 256 * 1024 * 1024

structure MediaTransferRecord where
  localId : Octets 16
  peer : Octets 32
  direction : MediaDirection
  scope : AttachmentScope
  scopeId : Octets 32
  manifestAuthor : Octets 32
  manifestContentId : Octets 16
  entitledPeers : List (Octets 32)
  state : MediaTransferState
  updatedAt : ℕ
  deriving DecidableEq

structure MediaObjectRecord (Digest : Type) where
  localId : Octets 16
  transferId : Octets 16
  objectId : Octets 16
  role : AttachmentRole
  totalLen : ℕ
  chunkCount : ℕ
  contentHash : Digest
  mediaType : String
  filename : Option String
  state : MediaTransferState
  /-- One bit per durably committed chunk. -/
  verifiedBitmap : Bytes
  chunkAddresses : List (Option Digest)
  verifiedBytes : ℕ
  deriving DecidableEq

def bitmapLen (chunkCount : ℕ) : ℕ := (chunkCount + 7) / 8

def setBit (bitmap : Bytes) (index : ℕ) : Bytes :=
  bitmap.modify (index / 8) fun byte => UInt8.ofNat (byte.toNat ||| 2 ^ (index % 8))

def bitIsSet (bitmap : Bytes) (index : ℕ) : Bool :=
  (bitmap.getD (index / 8) 0).toNat.testBit (index % 8)

/-- The true lengths of the filled slots, the first slot having index `i`. -/
def verifiedBytesFrom {Digest : Type} (totalLen : ℕ) : ℕ → List (Option Digest) → ℕ
  | _, [] => 0
  | i, address :: addresses =>
    (if address.isSome then chunkLen totalLen i else 0) +
      verifiedBytesFrom totalLen (i + 1) addresses

def maxObjectChunks : AttachmentRole → ℕ
  | .primary => maxPrimaryChunks
  | .preview => maxPreviewChunks

def validateTransfer (record : MediaTransferRecord) : Except StoreError Unit := do
  rejectIf (record.entitledPeers.length > maxEntitlements) .mediaQuota
  rejectIf (¬ record.entitledPeers.Nodup) .mediaState

namespace MediaObjectRecord

variable {Digest : Type} (record : MediaObjectRecord Digest)

/-- `validate_object` -/
def Valid : Prop :=
  record.totalLen ≤ maxObjectLen record.role ∧
    record.chunkCount = Attachment.chunkCount record.totalLen ∧
    record.chunkCount ≤ maxObjectChunks record.role ∧
    record.verifiedBitmap.length = bitmapLen record.chunkCount ∧
    record.chunkAddresses.length = record.chunkCount ∧ record.verifiedBytes ≤ record.totalLen ∧
    validMediaType record.mediaType = true ∧ validFilename record.filename = true ∧
    (record.role = .preview →
      previewMediaType record.mediaType = true ∧ record.filename.isNone = true) ∧
    (∀ i < record.chunkAddresses.length,
      (record.chunkAddresses.getD i none).isSome = bitIsSet record.verifiedBitmap i) ∧
    verifiedBytesFrom record.totalLen 0 record.chunkAddresses = record.verifiedBytes

instance (record : MediaObjectRecord Digest) : Decidable record.Valid := by
  unfold Valid
  infer_instance

def addresses : List Digest := record.chunkAddresses.filterMap id

/-- `media_object_with_state`: refusing an object lets go of its chunks. -/
def withState (state : MediaTransferState) : MediaObjectRecord Digest :=
  if state.negativeTerminal then
    { record with
      state
      chunkAddresses := record.chunkAddresses.map fun _ => none
      verifiedBitmap := record.verifiedBitmap.map fun _ => 0
      verifiedBytes := 0 }
  else { record with state }

def withChunk (index : ℕ) (address : Digest) : MediaObjectRecord Digest :=
  let chunkAddresses := record.chunkAddresses.set index (some address)
  { record with
    chunkAddresses
    verifiedBitmap := setBit record.verifiedBitmap index
    verifiedBytes := verifiedBytesFrom record.totalLen 0 chunkAddresses
    state := if record.state = .complete then .complete else .transferring }

end MediaObjectRecord

/-! ### The store -/

structure MediaStore (Digest : Type) where
  transfers : Keyed MediaTransferRecord.localId
  objects : Keyed (@MediaObjectRecord.localId Digest)
  /-- Rows of an unknown record version. -/
  unknownTransfers : List (Octets 16)
  unknownObjects : List (Octets 16)
  files : HashMap Digest Bytes
  limits : MediaLimits

namespace MediaStore

variable {Key Digest : Type} [DecidableEq Digest] (S : Suite Key Digest) (s : MediaStore Digest)
  (localId : Octets 16)

def getTransfer : Option MediaTransferRecord := s.transfers.get localId

def getObject : Option (MediaObjectRecord Digest) := s.objects.get localId

def requireTransfer : Except StoreError MediaTransferRecord :=
  required .mediaState (s.getTransfer localId)

def requireObject : Except StoreError (MediaObjectRecord Digest) :=
  required .mediaState (s.getObject localId)

/-- `media_objects_for_transfer`: the primary object comes first. -/
def objectsFor (transferId : Octets 16) : List (MediaObjectRecord Digest) :=
  let objects := s.objects.rows.filter fun object => object.transferId = transferId
  (objects.filter fun object => object.role = .primary) ++
    objects.filter fun object => object.role = .preview

/-! Writing rows. -/

def putTransfer (record : MediaTransferRecord) : Except StoreError (MediaStore Digest) := do
  validateTransfer record
  return { s with transfers := s.transfers.put record }

/-- The active objects beside the one to be replaced. -/
def otherActive (replacing : Octets 16) : List (MediaObjectRecord Digest) :=
  s.objects.rows.filter fun object => object.localId ≠ replacing ∧ object.state.active = true

def peerLimit : MediaDirection → ℕ
  | .inbound => s.limits.activeInboundPerPeer
  | .outbound => s.limits.activeOutboundPerPeer

def enforceActiveLimits (transfer : MediaTransferRecord) (replacing : Octets 16) :
    Except StoreError Unit := do
  let others := s.otherActive replacing
  let owners ← mapEach (fun object => s.requireTransfer object.transferId) others
  let perPeer := owners.countP fun owner =>
    owner.peer = transfer.peer ∧ owner.direction = transfer.direction
  rejectIf (others.length ≥ s.limits.activeGlobal ∨ perPeer ≥ s.peerLimit transfer.direction)
    .mediaQuota

/-- An active record must find room. -/
def checkActive (transfer : MediaTransferRecord) (record : MediaObjectRecord Digest) :
    Except StoreError Unit :=
  if record.state.active then s.enforceActiveLimits transfer record.localId else .ok ()

def putObject (record : MediaObjectRecord Digest) : Except StoreError (MediaStore Digest) := do
  rejectIf (¬ record.Valid) .mediaState
  let transfer ← s.requireTransfer record.transferId
  s.checkActive transfer record
  return { s with objects := s.objects.put record }

/-! Chunk files. -/

def fileLen (chunk : Bytes) : ℕ := chunk.length + localSealOverhead

def sealedFileBytes : ℕ := (s.files.entries.map fun file => fileLen file.2).sum

def incompleteBytes : ℕ :=
  let addresses := ((s.objects.rows.filter fun object => object.state.incomplete).flatMap
    MediaObjectRecord.addresses).dedup
  ((addresses.filterMap s.files.lookup).map fileLen).sum

/-- Write the file of a chunk unless it is there.  `available` is the free space of the disk. -/
def writeChunk (available : ℕ) (address : Digest) (sealedChunk : Bytes) :
    Except StoreError (MediaStore Digest) :=
  if s.files.lookup address = some sealedChunk then .ok s
  else do
    let projected := fileLen sealedChunk
    rejectIf (s.sealedFileBytes + projected > s.limits.storeBytes ∨
      s.incompleteBytes + projected > s.limits.incompleteBytes) .mediaQuota
    rejectIf (available < projected + s.limits.freeSpaceReserve) .lowStorage
    return { s with files := s.files.insert address sealedChunk }

structure StagedMediaChunk (Digest : Type) where
  before : MediaObjectRecord Digest
  after : MediaObjectRecord Digest

def stageMediaChunk (available : ℕ) (localId : Octets 16) (index : ℕ) (sealedChunk : Bytes) :
    Except StoreError (MediaStore Digest × StagedMediaChunk Digest) := do
  rejectIf (sealedChunk.length ≠ attachmentSealedChunkLen) .mediaState
  let before ← s.requireObject localId
  rejectIf (index ≥ before.chunkAddresses.length) .mediaState
  let address := S.hash sealedChunk
  match before.chunkAddresses.getD index none with
  | some existing => do
    rejectIf (existing ≠ address ∨ s.files.lookup address = none) .mediaState
    return (s, ⟨before, before⟩)
  | none => do
    let s ← s.writeChunk available address sealedChunk
    return (s, ⟨before, before.withChunk index address⟩)

/-- `read_media_chunk_from_record` -/
def readChunk (object : MediaObjectRecord Digest) (index : ℕ) : Except StoreError Bytes := do
  rejectIf (¬ object.Valid) .mediaState
  let address ← required .mediaState (object.chunkAddresses.getD index none)
  let chunk ← required .io (s.files.lookup address)
  rejectIf (chunk.length ≠ attachmentSealedChunkLen ∨ S.hash chunk ≠ address) .mediaState
  return chunk

def referenced : List Digest := s.objects.rows.flatMap MediaObjectRecord.addresses

/-- `garbage_collect_media_files` -/
def garbageCollect (preserveUnknown : Bool) : MediaStore Digest :=
  if preserveUnknown then s
  else { s with files := HashMap.retain (fun address _ => address ∈ s.referenced) s.files }

/-! Startup reconciliation. -/

/-- A file the object refers to is gone. -/
def missingFile (object : MediaObjectRecord Digest) : Bool :=
  object.addresses.any fun address => s.files.lookup address = none

end MediaStore

end Komms.Attachment
