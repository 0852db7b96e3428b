import Komms.Lib.Bytes
import Komms.Lib.Checked

/-!
# Attachment chunks, manifests and bulk records

`kult-crypto/src/attachment.rs`: an object is cut into chunks of 49,152 bytes, and each is padded to
one size and sealed under a key of its own, bound to everything the manifest says of the object.
`kult-protocol/src/attachment.rs` and `attachment_bulk.rs`: the manifest that offers an attachment,
and the records by which its chunks are requested, sent, acknowledged and refused.

Digests form an arbitrary type, so that a hash without collisions exists; `Suite.digestBytes` writes
one down.
-/

namespace Komms.Attachment

open List Option

def attachmentChunkDataLen : ℕ := 49152
def attachmentChunkPlaintextLen : ℕ := 49156
def attachmentSealedChunkLen : ℕ := 49172

def maxPrimaryObjectLen : ℕ := 536870912
def maxPreviewObjectLen : ℕ := 262144

/-- Key derivation, the chunk cipher with its fixed nonce, and the hash. -/
structure Suite (Key Digest : Type) where
  objectKey : (salt : Octets 16) → (attachmentKey : Octets 32) → (info : Bytes) → Key
  chunkKey : (salt : Bytes) → Key → (info : Bytes) → Key
  aeadEncrypt : Key → (ad : Bytes) → Bytes → Bytes
  aeadDecrypt : Key → (ad : Bytes) → Bytes → Option Bytes
  hash : Bytes → Digest
  digestBytes : Digest → Bytes
  pairwiseScopeId : Octets 32 → Octets 32 → Octets 32

inductive AttachmentScope where
  | pairwise
  | group
  deriving DecidableEq, Repr

inductive AttachmentRole where
  | primary
  | preview
  deriving DecidableEq, Repr

def AttachmentScope.code : AttachmentScope → UInt8
  | .pairwise => 0
  | .group => 1

def AttachmentRole.code : AttachmentRole → UInt8
  | .primary => 0
  | .preview => 1

/-- All manifest-derived context authenticated by one attachment chunk. -/
structure AttachmentChunkContext (Digest : Type) where
  scope : AttachmentScope
  scopeId : Octets 32
  manifestAuthor : Octets 32
  manifestContentId : Octets 16
  objectId : Octets 16
  role : AttachmentRole
  totalLen : ℕ
  chunkCount : ℕ
  contentHash : Digest

def chunkCount (totalLen : ℕ) : ℕ :=
  if totalLen = 0 then 0 else (totalLen - 1) / attachmentChunkDataLen + 1

def maxObjectLen : AttachmentRole → ℕ
  | .primary => maxPrimaryObjectLen
  | .preview => maxPreviewObjectLen

def chunkLen (totalLen index : ℕ) : ℕ :=
  min (totalLen - index * attachmentChunkDataLen) attachmentChunkDataLen

section

variable {Key Digest : Type} (S : Suite Key Digest) (attachmentKey : Octets 32)
  (context : AttachmentChunkContext Digest)

/-- `validate_context_index`: the length of the chunk, when the object has one at this index. -/
def validateContextIndex (index : ℕ) : Option ℕ :=
  if context.chunkCount ≠ chunkCount context.totalLen then none
  else if context.totalLen > maxObjectLen context.role ∨ index ≥ context.chunkCount then none
  else some (chunkLen context.totalLen index)

def deriveObjectKey : Key :=
  S.objectKey context.objectId attachmentKey <|
    ascii "KAT-object-v1" ++ [context.scope.code] ++ context.scopeId.toBytes ++
      context.manifestAuthor.toBytes ++ context.manifestContentId.toBytes ++ [context.role.code]

def chunkKeyAndAd (index actualLen : ℕ) : Key × Bytes :=
  (S.chunkKey (leBytes 4 index) (deriveObjectKey S attachmentKey context) (ascii "KAT-chunk-v1"),
    ascii "KAT-chunk-ad-v1" ++ [context.scope.code] ++ context.scopeId.toBytes ++
      context.manifestAuthor.toBytes ++ context.manifestContentId.toBytes ++
      context.objectId.toBytes ++ [context.role.code] ++ leBytes 4 index ++
      leBytes 8 context.totalLen ++ leBytes 4 actualLen ++ leBytes 4 context.chunkCount ++
      S.digestBytes context.contentHash)

/-- The length of the data, the data, and zeros up to the fixed size. -/
def chunkPlaintext (data : Bytes) : Bytes :=
  leBytes 4 data.length ++ data ++ List.replicate (attachmentChunkDataLen - data.length) 0

def sealAttachmentChunk (index : ℕ) (data : Bytes) : Option Bytes :=
  (validateContextIndex context index).bind fun actualLen =>
    if data.length ≠ actualLen then none
    else
      let (key, ad) := chunkKeyAndAd S attachmentKey context index actualLen
      some (S.aeadEncrypt key ad (chunkPlaintext data))

def openAttachmentChunk (index : ℕ) (sealed : Bytes) : Option Bytes :=
  (validateContextIndex context index).bind fun actualLen =>
    if sealed.length ≠ attachmentSealedChunkLen then none
    else
      let (key, ad) := chunkKeyAndAd S attachmentKey context index actualLen
      (S.aeadDecrypt key ad sealed).bind fun plaintext =>
        if plaintext.length ≠ attachmentChunkPlaintextLen ∨
            ofLeBytes (plaintext.take 4) ≠ actualLen ∨
            (plaintext.drop (4 + actualLen)).any (fun byte => byte ≠ 0) = true then none
        else some ((plaintext.drop 4).take actualLen)

theorem chunkLen_le (totalLen index : ℕ) : chunkLen totalLen index ≤ attachmentChunkDataLen :=
  Nat.min_le_right _ _

variable {context : AttachmentChunkContext Digest} {index : ℕ} {attachmentKey : Octets 32}
  {sealed data : Bytes}

theorem validateContextIndex_eq_some_iff {len : ℕ} : validateContextIndex context index = some len ↔
      context.chunkCount = chunkCount context.totalLen ∧
        context.totalLen ≤ maxObjectLen context.role ∧ index < context.chunkCount ∧
        len = chunkLen context.totalLen index := by
  unfold validateContextIndex
  split_ifs with hcnt hran
  · simp [hcnt]
  · simp only [false_iff]
    omega
  · rw [not_not] at hcnt
    rw [not_or, not_lt, not_le] at hran
    rw [some.injEq, eq_comm, and_iff_right hcnt, and_iff_right hran.1, and_iff_right hran.2]

theorem length_chunkPlaintext (h : data.length ≤ attachmentChunkDataLen) :
    (chunkPlaintext data).length = attachmentChunkPlaintextLen := by
  unfold attachmentChunkPlaintextLen
  unfold attachmentChunkDataLen at h
  simp only [chunkPlaintext, length_append, length_leBytes, length_replicate,
    attachmentChunkDataLen]
  omega

/-- What was sealed for a place is opened there. -/
theorem openAttachmentChunk_of_decrypt (hix : validateContextIndex context index = some data.length)
    (hseal : sealed.length = attachmentSealedChunkLen)
    (hdec : S.aeadDecrypt (chunkKeyAndAd S attachmentKey context index data.length).1
      (chunkKeyAndAd S attachmentKey context index data.length).2 sealed =
        some (chunkPlaintext data)) :
    openAttachmentChunk S attachmentKey context index sealed = some data := by
  have hlen : data.length ≤ attachmentChunkDataLen :=
    (validateContextIndex_eq_some_iff.mp hix).2.2.2 ▸ chunkLen_le _ _
  have hsize : data.length < 256 ^ 4 := by
    unfold attachmentChunkDataLen at hlen
    omega
  have htake : (chunkPlaintext data).take 4 = leBytes 4 data.length := by
    exact take_left' (length_leBytes 4 _)
  have hdrop : (chunkPlaintext data).drop 4 =
      data ++ List.replicate (attachmentChunkDataLen - data.length) 0 := by
    rw [chunkPlaintext, append_assoc]
    exact drop_left' (length_leBytes 4 _)
  -- The rest of the plaintext is padding.
  have hpad : ((chunkPlaintext data).drop (4 + data.length)).any (fun byte => byte ≠ 0) =
      false := by
    rw [← drop_drop, hdrop, drop_left]
    simp
  unfold openAttachmentChunk
  rw [hix, bind_some, if_neg (not_not.mpr hseal)]
  dsimp only
  rw [hdec, bind_some, if_neg, hdrop, take_left]
  rw [length_chunkPlaintext hlen, htake, ofLeBytes_leBytes hsize, hpad]
  simp

end

def maxPrimaryChunks : ℕ := 10923
def maxPreviewChunks : ℕ := 6
def maxAttachmentFilenameLen : ℕ := 255
def maxAttachmentMediaTypeLen : ℕ := 127
def maxMissingRanges : ℕ := 64

inductive ProtocolError where
  | malformed
  | tooLarge
  deriving DecidableEq, Repr

/-! ### Manifests -/

structure AttachmentObject (Digest : Type) where
  role : AttachmentRole
  objectId : Octets 16
  totalLen : ℕ
  chunkDataLen : ℕ
  chunkCount : ℕ
  contentHash : Digest
  mediaType : String
  filename : Option String
  deriving DecidableEq

/-- A primary object and perhaps an image preview of it. -/
structure AttachmentManifest (Digest : Type) where
  attachmentKey : Octets 32
  primary : AttachmentObject Digest
  preview : Option (AttachmentObject Digest)
  deriving DecidableEq

def AttachmentManifest.objects {Digest : Type} (manifest : AttachmentManifest Digest) :
    List (AttachmentObject Digest) :=
  manifest.primary :: manifest.preview.toList

/-- The characters of a media type beside its slash. -/
def mediaTypeChar (c : Char) : Bool :=
  c.isLower || c.isDigit || "!#$&^_.+-".toList.contains c

/-- Two nonempty parts around one slash. -/
def validMediaType (value : String) : Bool :=
  let chars := value.toList
  chars.length ≤ maxAttachmentMediaTypeLen && chars.all (fun c => c = '/' || mediaTypeChar c) &&
    chars.count '/' = 1 && chars.head? ≠ some '/' && chars.getLast? ≠ some '/'

/-- A name that is no path and has no control character. -/
def validFilename : Option String → Bool
  | none => true
  | some value =>
    value ≠ "" && value.utf8ByteSize ≤ maxAttachmentFilenameLen && value ≠ "." && value ≠ ".." &&
      !(value.toList.any fun c => c = '/' || c = '\\' || c.toNat ≤ 0x1f ||
        0x7f ≤ c.toNat && c.toNat ≤ 0x9f)

def previewMediaType (value : String) : Bool := value = "image/jpeg" || value = "image/png"

section

variable {Key Digest : Type} [DecidableEq Digest] (S : Suite Key Digest)

def validateManifestObject (object : AttachmentObject Digest) : Except ProtocolError Unit := do
  rejectIf (object.chunkDataLen ≠ attachmentChunkDataLen ∨
    object.chunkCount ≠ chunkCount object.totalLen ∨
    object.totalLen = 0 ∧ object.contentHash ≠ S.hash [] ∨
    validMediaType object.mediaType = false ∨ validFilename object.filename = false) .malformed
  match object.role with
  | .primary =>
    rejectIf (object.totalLen > maxPrimaryObjectLen ∨ object.chunkCount > maxPrimaryChunks)
      .tooLarge
  | .preview =>
    rejectIf (object.totalLen > maxPreviewObjectLen ∨ object.chunkCount > maxPreviewChunks ∨
      previewMediaType object.mediaType = false ∨ object.filename.isSome = true) .malformed

def validateManifest (manifest : AttachmentManifest Digest) : Except ProtocolError Unit := do
  rejectIf (manifest.primary.role ≠ .primary) .malformed
  validateManifestObject S manifest.primary
  match manifest.preview with
  | none => .ok ()
  | some preview => do
    rejectIf (preview.role ≠ .preview ∨ preview.objectId = manifest.primary.objectId ∨
      preview.filename.isSome = true) .malformed
    validateManifestObject S preview

end

/-! ### Bulk records -/

structure MissingRange where
  start : ℕ
  count : ℕ
  deriving DecidableEq, Repr

inductive AttachmentReason where
  | user
  | unsupported
  | quota
  | lowStorage
  | policy
  | corrupt
  deriving DecidableEq, Repr

inductive AttachmentBulkOperation (Digest : Type) where
  | requestMissing (role : AttachmentRole) (ranges : List MissingRange)
  | chunk (role : AttachmentRole) (index : ℕ) (sealedChunk : Bytes)
  | complete (role : AttachmentRole) (contentHash : Digest)
  | cancel (reason : AttachmentReason)
  | reject (reason : AttachmentReason)
  deriving DecidableEq

structure AttachmentBulkRecord (Digest : Type) where
  scope : AttachmentScope
  scopeId : Octets 32
  manifestAuthor : Octets 32
  manifestContentId : Octets 16
  objectId : Octets 16
  operation : AttachmentBulkOperation Digest
  deriving DecidableEq

/-- Ranges are nonempty, in ascending order with gaps between them, and end within the object. -/
def validRangesAfter (chunkCount : ℕ) : Option ℕ → List MissingRange → Bool
  | _, [] => true
  | previousEnd, range :: ranges =>
    range.count ≠ 0 && range.start + range.count ≤ chunkCount &&
      previousEnd.all (fun previous => previous < range.start) &&
      validRangesAfter chunkCount (some (range.start + range.count)) ranges

def validMissingRanges (ranges : List MissingRange) (chunkCount : ℕ) : Bool :=
  ranges.length ≤ maxMissingRanges && validRangesAfter chunkCount none ranges

end Komms.Attachment
