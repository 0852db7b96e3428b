import Komms.Attachment.Run

/-!
# What a call does to the media rows

Every call changes media rows by commits, and a commit replaces a list of current rows
(`commitMedia_eq_ok`).  `Moves` says this of the state before and after a call, and what has become
of the chunk files: those that rows refer to are kept, and a new one stands under its hash.

Bulk records and the periodic pass move rows in the few ways of `ByPeer` and `ByPass`.
-/

namespace Komms.Attachment

open GroupState (DeferredControlRecord)
open List Except MediaStore AList Keyed

variable {Key Digest : Type} {S : Suite Key Digest}

/-! ### Rows and files -/

namespace MediaStore

variable {s s' : MediaStore Digest}

theorem mem_objectsFor {id : Octets 16} {object : MediaObjectRecord Digest} :
    object ∈ s.objectsFor id ↔ object ∈ s.objects ∧ object.transferId = id := by
  simp only [objectsFor, mem_append, mem_filter, decide_eq_true_eq, ← and_or_left]
  rw [mem_rows]
  cases object.role <;> simp

theorem putTransfer_eq_ok_iff {record : MediaTransferRecord} : s.putTransfer record = .ok s' ↔
      (record.entitledPeers.length ≤ maxEntitlements ∧ record.entitledPeers.Nodup) ∧
        s' = { s with transfers := s.transfers.put record } := by
  unfold putTransfer validateTransfer
  simp only [check_bind_eq_ok_iff, rejectIf_eq_ok_iff, not_lt, not_not]
  exact and_congr_right fun _ => ⟨fun h => (ok.inj h).symm, fun h => h ▸ rfl⟩

/-- The limits on active objects allow a record to be written. -/
def Allows (s : MediaStore Digest) (record : MediaObjectRecord Digest) : Prop :=
  ∃ transfer, s.getTransfer record.transferId = some transfer ∧
    s.checkActive transfer record = .ok ()

theorem putObject_eq_ok_iff {record : MediaObjectRecord Digest} : s.putObject record = .ok s' ↔
      (record.Valid ∧ s.Allows record) ∧ s' = { s with objects := s.objects.put record } := by
  unfold putObject Allows
  rw [rejectIf_bind_eq_ok_iff, not_not, bind_eq_ok_iff, and_assoc]
  refine and_congr_right fun _ => ?_
  simp only [check_bind_eq_ok_iff, requireTransfer, required_eq_ok_iff]
  constructor
  · rintro ⟨transfer, htr, hact, h⟩
    exact ⟨⟨transfer, htr, hact⟩, (ok.inj h).symm⟩
  · rintro ⟨⟨transfer, htr, hact⟩, rfl⟩
    exact ⟨transfer, htr, hact, rfl⟩

theorem foldlM_putTransfer_eq_ok_iff {transfers : List TransferTransition} :
    transfers.foldlM (fun s t => s.putTransfer t.2) s = .ok s' ↔
      (∀ t ∈ transfers, t.2.entitledPeers.length ≤ maxEntitlements ∧ t.2.entitledPeers.Nodup) ∧
        s' = { s with transfers := s.transfers.putAll (transfers.map Prod.snd) } := by
  induction transfers generalizing s with
  | nil => exact ⟨fun h => ⟨nofun, (ok.inj h).symm⟩, fun h => h.2 ▸ rfl⟩
  | cons t transfers ih =>
    simp only [foldlM_cons, bind_eq_ok_iff, putTransfer_eq_ok_iff, forall_mem_cons, and_assoc]
    constructor
    · rintro ⟨_, hlen, hnd, rfl, hrest⟩
      obtain ⟨hall, rfl⟩ := ih.mp hrest
      exact ⟨hlen, hnd, hall, rfl⟩
    · rintro ⟨hlen, hnd, hall, rfl⟩
      exact ⟨_, hlen, hnd, rfl, ih.mpr ⟨hall, rfl⟩⟩

theorem foldlM_putObject_eq_ok {objects : List (ObjectTransition Digest)}
    (h : objects.foldlM (fun s t => s.putObject t.2) s = .ok s') :
    (∀ t ∈ objects, t.2.Valid) ∧
      s' = { s with objects := s.objects.putAll (objects.map Prod.snd) } := by
  induction objects generalizing s with
  | nil => exact ⟨nofun, (ok.inj h).symm⟩
  | cons t objects ih =>
    rw [foldlM_cons, bind_eq_ok_iff] at h
    obtain ⟨_, h₁, hrest⟩ := h
    obtain ⟨⟨hval, -⟩, rfl⟩ := putObject_eq_ok_iff.mp h₁
    obtain ⟨hall, rfl⟩ := ih hrest
    exact ⟨forall_mem_cons.mpr ⟨hval, hall⟩, rfl⟩

theorem foldlM_putObject_rows {objects : List (MediaObjectRecord Digest)}
    (h : objects.foldlM (fun s => s.putObject) s = .ok s') :
    s' = { s with objects := s.objects.putAll objects } := by
  induction objects generalizing s with
  | nil => exact (ok.inj h).symm
  | cons object objects ih =>
    rw [foldlM_cons, bind_eq_ok_iff] at h
    obtain ⟨_, h₁, hrest⟩ := h
    obtain ⟨-, rfl⟩ := putObject_eq_ok_iff.mp h₁
    exact ih hrest

theorem garbageCollect_rows [DecidableEq Digest] {preserve : Bool} :
    (s.garbageCollect preserve).transfers = s.transfers ∧
      (s.garbageCollect preserve).objects = s.objects := by
  cases preserve <;> exact ⟨rfl, rfl⟩

theorem lookup_garbageCollect [DecidableEq Digest] (address : Digest) :
    (s.garbageCollect false).files.lookup address =
      (s.files.lookup address).filter fun _ => address ∈ s.referenced := HashMap.lookup_retain _ _ _

end MediaStore

namespace Node

variable [DecidableEq Digest] {n n' n'' : Node Digest} {transfers : List TransferTransition}
  {objects : List (ObjectTransition Digest)} {controls : List DeferredControlRecord}

/-! ### Commits -/

def replaced (n : Node Digest) (transfers : List TransferTransition)
    (objects : List (ObjectTransition Digest)) : Node Digest :=
  { n with media := { n.media with
    transfers := n.media.transfers.putAll (transfers.map Prod.snd)
    objects := n.media.objects.putAll (objects.map Prod.snd) } }

/-- The rows to be replaced are current, and what replaces them is valid. -/
structure Current (n : Node Digest) (transfers : List TransferTransition)
    (objects : List (ObjectTransition Digest)) : Prop where
  transfers : ∀ t ∈ transfers, t.1 ∈ n.media.transfers ∧ t.2.localId = t.1.localId
  objects : ∀ t ∈ objects, t.1 ∈ n.media.objects ∧ t.2.localId = t.1.localId ∧
    t.2.transferId = t.1.transferId ∧ t.2.Valid

theorem commitMedia_eq_ok (h : n.commitMedia transfers objects controls = .ok n') :
    n.Current transfers objects ∧ n' = (n.replaced transfers objects).withoutControls controls := by
  rw [commitMedia, check_bind_eq_ok_iff, check_bind_eq_ok_iff, check_bind_eq_ok_iff] at h
  simp only [bind_eq_ok_iff, forEach_eq_ok_iff, foldlM_putTransfer_eq_ok_iff] at h
  obtain ⟨htrs, hobject, -, _, ⟨-, rfl⟩, _, hmed, hn'⟩ := h
  obtain ⟨hval, rfl⟩ := foldlM_putObject_eq_ok hmed
  refine ⟨⟨fun t ht => ?_, fun t ht => ?_⟩, (ok.inj hn').symm⟩
  · have hchk := htrs t ht
    rw [validateTransferTransition, rejectIf_eq_ok_iff] at hchk
    push Not at hchk
    exact ⟨(get_eq_some_iff.mp hchk.2.2).1, hchk.1.symm⟩
  · have hchk := hobject t ht
    rw [validateObjectTransition, rejectIf_eq_ok_iff] at hchk
    push Not at hchk
    exact ⟨(get_eq_some_iff.mp hchk.2.2.2).1, hchk.1.symm, hchk.2.1.symm, hval t ht⟩

variable {before after transfer : MediaTransferRecord} {devices : List (Octets 32)}
  {records : List (AttachmentBulkRecord Digest)} {state : MediaTransferState} {objectId : Octets 16}
  {response : Option (AttachmentBulkOperation Digest)} {control : DeferredControlRecord}

theorem commitAttachmentState_eq_ok
    (h : n.commitAttachmentState before after objects controls = .ok n') :
    n.Current (changed [(before, after)]) (changed objects) ∧
      n' = (n.replaced (changed [(before, after)]) (changed objects)).withoutControls controls := by
  unfold commitAttachmentState at h
  rw [mapError_eq_ok_iff, check_bind_eq_ok_iff, check_bind_eq_ok_iff] at h
  exact commitMedia_eq_ok h.2.2

theorem queueBulkRecords_eq_ok
    (h : n.queueBulkRecords devices records transfers objects controls = .ok n') :
    n.Current transfers objects ∧ ∃ queue,
      n' = { (n.replaced transfers objects).withoutControls controls with queue } := by
  rw [queueBulkRecords, check_bind_eq_ok_iff, check_bind_eq_ok_iff, check_bind_eq_ok_iff,
    check_bind_eq_ok_iff] at h
  simp only [bind_eq_ok_iff, mapError_eq_ok_iff] at h
  obtain ⟨-, -, -, -, _, hcom, hn'⟩ := h
  obtain ⟨hcur, rfl⟩ := commitMedia_eq_ok hcom
  exact ⟨hcur, _, (ok.inj hn').symm⟩

/-! ### Moves -/

/-- Files that rows refer to are kept, and a new file stands under its hash. -/
structure FilesKept (S : Suite Key Digest) (s s' : MediaStore Digest) : Prop where
  kept : ∀ address ∈ s'.referenced, ∀ chunk, s.files.lookup address = some chunk →
    S.hash chunk = address → s'.files.lookup address = some chunk
  fresh : ∀ address chunk, s'.files.lookup address = some chunk →
    s.files.lookup address = some chunk ∨
      S.hash chunk = address ∧ chunk.length = attachmentSealedChunkLen

/-- What a call did to the rows: those on the left stood there, and those on the right have replaced
them. -/
structure Moves (S : Suite Key Digest) (n n' : Node Digest) (transfers : List TransferTransition)
    (objects : List (ObjectTransition Digest)) : Prop where
  current : n.Current transfers objects
  transfers : n'.media.transfers = n.media.transfers.putAll (transfers.map Prod.snd)
  objects : n'.media.objects = n.media.objects.putAll (objects.map Prod.snd)
  messages : n'.messages = n.messages
  ephemeral : n'.ephemeral = n.ephemeral
  files : Function.Injective S.hash → FilesKept S n.media n'.media

theorem Current.moves (h : n.Current transfers objects) :
    Moves S n (n.replaced transfers objects) transfers objects where
  current := h
  transfers := rfl
  objects := rfl
  messages := rfl
  ephemeral := rfl
  files _ := ⟨fun _ _ _ hchunk _ => hchunk, fun _ _ => .inl⟩

theorem Moves.stay : Moves S n n [] [] :=
  Current.moves ⟨fun _ h => absurd h not_mem_nil, fun _ h => absurd h not_mem_nil⟩

theorem Moves.congr (h : Moves S n n' transfers objects) (hmed : n''.media = n'.media)
    (hmsgs : n''.messages = n'.messages) (hephemeral : n''.ephemeral = n'.ephemeral) :
    Moves S n n'' transfers objects where
  current := h.current
  transfers := hmed ▸ h.transfers
  objects := hmed ▸ h.objects
  messages := hmsgs.trans h.messages
  ephemeral := hephemeral.trans h.ephemeral
  files hinj := hmed ▸ h.files hinj

theorem Moves.collect (h : Moves S n n' transfers objects) (preserve : Bool) :
    Moves S n { n' with media := n'.media.garbageCollect preserve } transfers objects := by
  cases preserve with
  | true => exact h.congr rfl rfl rfl
  | false =>
    refine ⟨h.current, h.transfers, h.objects, h.messages, h.ephemeral, fun hinj => ⟨?_, ?_⟩⟩
    · intro address hadr chunk hchunk hhash
      have hkept := (h.files hinj).kept address hadr chunk hchunk hhash
      have hmem : address ∈ n'.media.referenced := hadr
      simp [lookup_garbageCollect, hkept, hmem]
    · intro address chunk hchunk
      rw [lookup_garbageCollect, Option.filter_eq_some_iff] at hchunk
      exact (h.files hinj).fresh address chunk hchunk.1

/-! ### Ending a transfer -/

theorem commitAttachmentState_moves
    (h : n.commitAttachmentState before after objects controls = .ok n') :
    Moves S n n' (changed [(before, after)]) (changed objects) := by
  obtain ⟨hcur, rfl⟩ := commitAttachmentState_eq_ok h
  exact hcur.moves.congr rfl rfl rfl

theorem queueBulkRecords_moves
    (h : n.queueBulkRecords devices records transfers objects controls = .ok n') :
    Moves S n n' transfers objects := by
  obtain ⟨hcur, _, rfl⟩ := queueBulkRecords_eq_ok h
  exact hcur.moves.congr rfl rfl rfl

theorem finishAttachmentLocally_moves {now : ℕ}
    (h : n.finishAttachmentLocally transfer state now = .ok n') :
    Moves S n n' (changed [(transfer, { transfer with state, updatedAt := now })])
      (changed (n.finishPairs transfer state)) := by
  obtain ⟨_, hcom, hn'⟩ := bind_eq_ok_iff.mp h
  cases hn'
  exact (commitAttachmentState_moves hcom).congr rfl rfl rfl

theorem commitEnd_moves
    (h : n.commitEnd transfer after objects objectId response control = .ok n') :
    Moves S n n' (changed [(transfer, after)]) (changed objects) := by
  cases response with
  | some operation => exact queueBulkRecords_moves h
  | none => exact commitAttachmentState_moves h

theorem finishAttachmentFromControl_moves
    (h : n.finishAttachmentFromControl transfer objectId state response control = .ok n') :
    Moves S n n' (changed [(transfer, { transfer with state, updatedAt := 0 })])
      (changed (n.finishPairs transfer state)) := by
  obtain ⟨n₁, hcom, hn'⟩ := bind_eq_ok_iff.mp h
  have hclear : Moves S n (n₁.clearRequest transfer.localId) _ _ :=
    (commitEnd_moves hcom).congr rfl rfl rfl
  cases hn'
  split_ifs
  · exact hclear
  · exact hclear.collect false

end Node

/-! ### Staging a chunk -/

section Stage

variable [DecidableEq Digest] {s s' : MediaStore Digest} {available index : ℕ} {localId : Octets 16}
  {sealedChunk : Bytes} {staged : MediaStore.StagedMediaChunk Digest}

/-- The record has the chunk already, or gets it. -/
def Extends (before : MediaObjectRecord Digest) (index : ℕ) (address : Digest)
    (after : MediaObjectRecord Digest) : Prop :=
  before.chunkAddresses.getD index none = some address ∧ after = before ∨
    before.chunkAddresses.getD index none = none ∧ after = before.withChunk index address

/-- What staging a chunk leaves: the file is there, and the other files are as they were. -/
structure Staged (S : Suite Key Digest) (s s' : MediaStore Digest) (sealedChunk : Bytes) :
    Prop where
  rows : s'.transfers = s.transfers ∧ s'.objects = s.objects
  length : sealedChunk.length = attachmentSealedChunkLen
  present : (∃ chunk, s.files.lookup (S.hash sealedChunk) = some chunk) ∧ s' = s ∨
    s'.files = s.files.insert (S.hash sealedChunk) sealedChunk

variable {address : Digest} {chunk : Bytes}

/-- What staging a chunk does to its object and to the files. -/
theorem stageMediaChunk_eq_ok
    (h : s.stageMediaChunk S available localId index sealedChunk = .ok (s', staged)) :
    staged.before ∈ s.objects ∧ staged.before.localId = localId ∧
      index < staged.before.chunkAddresses.length ∧
      Extends staged.before index (S.hash sealedChunk) staged.after ∧ Staged S s s' sealedChunk ∧
      (staged.before.chunkAddresses.getD index none ≠ none → s' = s) := by
  rw [MediaStore.stageMediaChunk, rejectIf_bind_eq_ok_iff, not_not, bind_eq_ok_iff] at h
  obtain ⟨hlen, before, hbef, h⟩ := h
  rw [rejectIf_bind_eq_ok_iff, not_le] at h
  obtain ⟨hix, h⟩ := h
  obtain ⟨hmem, hid⟩ := get_eq_some_iff.mp (required_eq_ok_iff.mp hbef)
  cases hslot : before.chunkAddresses.getD index none with
  -- A chunk that is there must be the same, and nothing is written.
  | some existing =>
    simp only [hslot] at h
    rw [rejectIf_bind_eq_ok_iff] at h
    push Not at h
    obtain ⟨⟨rfl, hfile⟩, h⟩ := h
    cases h
    exact ⟨hmem, hid, hix, .inl ⟨hslot, rfl⟩,
      ⟨⟨rfl, rfl⟩, hlen, .inl ⟨Option.ne_none_iff_exists'.mp hfile, rfl⟩⟩, fun _ => rfl⟩
  | none =>
    simp only [hslot, bind_eq_ok_iff] at h
    obtain ⟨_, hwr, h⟩ := h
    cases h
    refine ⟨hmem, hid, hix, .inr ⟨hslot, rfl⟩, ?_, fun h => absurd hslot h⟩
    unfold MediaStore.writeChunk at hwr
    split_ifs at hwr with hfile
    · cases hwr
      exact ⟨⟨rfl, rfl⟩, hlen, .inl ⟨⟨_, hfile⟩, rfl⟩⟩
    · rw [check_bind_eq_ok_iff, check_bind_eq_ok_iff] at hwr
      cases hwr.2.2
      exact ⟨⟨rfl, rfl⟩, hlen, .inr rfl⟩

theorem Staged.kept (h : Staged S s s' sealedChunk) (hinj : Function.Injective S.hash)
    (hchunk : s.files.lookup address = some chunk) (hhash : S.hash chunk = address) :
    s'.files.lookup address = some chunk := by
  rcases h.present with ⟨-, rfl⟩ | hfil
  · exact hchunk
  · rw [hfil]
    by_cases hadr : address = S.hash sealedChunk
    · rw [hadr, lookup_insert, hinj (hhash.trans hadr)]
    · rw [lookup_insert_ne hadr, hchunk]

theorem Staged.fresh (h : Staged S s s' sealedChunk)
    (hchunk : s'.files.lookup address = some chunk) :
    s.files.lookup address = some chunk ∨
      S.hash chunk = address ∧ chunk.length = attachmentSealedChunkLen := by
  rcases h.present with ⟨-, rfl⟩ | hfil
  · exact .inl hchunk
  · rw [hfil] at hchunk
    by_cases hadr : address = S.hash sealedChunk
    · rw [hadr, lookup_insert] at hchunk
      cases hchunk
      exact .inr ⟨hadr.symm, h.length⟩
    · rw [lookup_insert_ne hadr] at hchunk
      exact .inl hchunk

theorem Staged.moves {n n' : Node Digest} {transfers : List TransferTransition}
    {objects : List (ObjectTransition Digest)} (h : Staged S n.media s' sealedChunk)
    (hmov : Node.Moves S { n with media := s' } n' transfers objects) :
    Node.Moves S n n' transfers objects := by
  obtain ⟨htrs, hobject⟩ := h.rows
  refine ⟨⟨?_, ?_⟩, ?_, ?_, hmov.messages, hmov.ephemeral, fun hinj => ⟨?_, ?_⟩⟩
  · exact htrs ▸ hmov.current.transfers
  · exact hobject ▸ hmov.current.objects
  · rw [hmov.transfers, htrs]
  · rw [hmov.objects, hobject]
  · intro address hadr chunk hchunk hhash
    exact (hmov.files hinj).kept address hadr chunk (h.kept hinj hchunk hhash) hhash
  · intro address chunk hchunk
    rcases (hmov.files hinj).fresh address chunk hchunk with hold | hnew
    · exact h.fresh hold
    · exact .inr hnew

end Stage

end Komms.Attachment
