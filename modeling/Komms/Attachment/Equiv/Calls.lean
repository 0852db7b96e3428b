import Komms.Attachment.Equiv.Moves

/-!
# What the calls of a node do

One lemma for each kind of call says which rows it moves: a record of a peer
(`applyAttachmentBulk_moves` with the cases of `ByPeer`), a decision of the user (`ByUser`) and the
periodic pass (`ByPass`).  Calls that fail leave the rows alone, but a chunk may have left its file.
-/

namespace Komms.Attachment.Node

open GroupState (DeferredControlRecord)
open List Option Effect

variable {Key Digest : Type} {S : Suite Key Digest} {n n' : Node Digest}
  {transfers : List TransferTransition} {objects : List (ObjectTransition Digest)} {now : ℕ}
  {id : Octets 16}

/-! ### What the calls look up -/

variable {transfer : MediaTransferRecord} {peer : Octets 32}

theorem mem_of_resolveBulkTransfer {record : AttachmentBulkRecord Digest}
    {direction : MediaDirection} (h : n.resolveBulkTransfer record peer direction = some transfer) :
    transfer ∈ n.media.transfers ∧ transfer.direction = direction ∧ transfer.peer = peer := by
  have hmat := find?_some h
  simp only [matchesRecord, Bool.and_eq_true, decide_eq_true_eq] at hmat
  exact ⟨mem_of_find?_eq_some h, hmat.1.1.1.1.1.1, hmat.1.1.1.1.1.2⟩

theorem peer_of_resolveBulkTransferAnyDirection {record : AttachmentBulkRecord Digest}
    (h : n.resolveBulkTransferAnyDirection record peer = some transfer) : transfer.peer = peer := by
  rcases or_eq_some_iff.mp h with h | ⟨-, h⟩
  all_goals exact (mem_of_resolveBulkTransfer h).2.2

variable {role : AttachmentRole} {target : ChunkTarget Digest}

theorem chunkTarget_eq_ok {record : AttachmentBulkRecord Digest} {index : ℕ}
    (h : n.chunkTarget record role index peer = .ok (some target)) :
    target.object ∈ n.media.objects ∧ target.object.transferId = target.transfer.localId := by
  unfold chunkTarget at h
  split at h
  · cases h
  split at h
  · cases h
  next object hobject =>
  split_ifs at h
  · cases h
  obtain ⟨_, -, h⟩ := bind_eq_ok_iff.mp h
  obtain ⟨_, -, rfl⟩ := map_eq_some_iff.mp (Except.ok.inj h)
  exact MediaStore.mem_objectsFor.mp (mem_of_find?_eq_some hobject)

theorem settleRequest_media :
    (n.settleRequest id).media = n.media ∧ (n.settleRequest id).messages = n.messages ∧
      (n.settleRequest id).ephemeral = n.ephemeral := by
  unfold settleRequest
  split
  · split_ifs <;> exact ⟨rfl, rfl, rfl⟩
  · exact ⟨rfl, rfl, rfl⟩

theorem finishPairs_congr (h : n'.media.objects = n.media.objects) {state : MediaTransferState} :
    n'.finishPairs transfer state = n.finishPairs transfer state := by
  unfold finishPairs MediaStore.objectsFor
  rw [h]

theorem transferWith_congr (h : n'.media.objects = n.media.objects)
    {after : MediaObjectRecord Digest} :
    n'.transferWith transfer after now = n.transferWith transfer after now := by
  unfold transferWith MediaStore.objectsFor
  rw [h]

theorem requireAttachment_eq_ok (h : n.requireAttachment id = .ok transfer) :
    transfer ∈ n.media.transfers ∧ transfer.localId = id :=
  Keyed.get_eq_some_iff.mp (required_eq_ok_iff.mp h)

variable [DecidableEq Digest]

/-! ### Records of peers -/

/-- The object row after a chunk was stored.  With its last chunk the object must have its hash. -/
structure Stored (S : Suite Key Digest) (s' : MediaStore Digest) (target : ChunkTarget Digest)
    (index : ℕ) (sealedChunk : Bytes) (after : MediaObjectRecord Digest) : Prop where
  opens : ∃ plain,
    openAttachmentChunk S target.attachmentKey target.context index sealedChunk = some plain
  index_lt : index < target.object.chunkAddresses.length
  file : ∃ chunk, s'.files.lookup (S.hash sealedChunk) = some chunk
  row : ∃ base, Extends target.object index (S.hash sealedChunk) base ∧
    (base.chunkAddresses.all Option.isSome = false ∧ after = base ∨
      base.chunkAddresses.all Option.isSome = true ∧ after = { base with state := .complete } ∧
        ∃ bytes, storedBytes S s' target.attachmentKey target.context base = .ok bytes ∧
          S.hash bytes = base.contentHash)

/-- The rows that a record of a peer moves. -/
inductive ByPeer (S : Suite Key Digest) (n : Node Digest) (s' : MediaStore Digest)
    (peer : Octets 32) : Option (AttachmentBulkRecord Digest) → List TransferTransition →
      List (ObjectTransition Digest) → Prop
  | stay {record} : ByPeer S n s' peer record [] []
  | outbound {record} (transfer : MediaTransferRecord) (state : MediaTransferState) (updatedAt : ℕ)
      (hdirection : transfer.direction = .outbound) :
      ByPeer S n s' peer record (changed [(transfer, { transfer with state, updatedAt })]) []
  | ended {record : AttachmentBulkRecord Digest} (transfer : MediaTransferRecord)
      (state : MediaTransferState) (hpeer : transfer.peer = peer)
      (hlive : transfer.state.negativeTerminal = false)
      (hstate : (∃ reason, record.operation = .cancel reason) ∧ state = .cancelled ∨
        state = .rejected ∧ transfer.direction = .outbound) :
      ByPeer S n s' peer (some record)
        (changed [(transfer, { transfer with state, updatedAt := 0 })])
        (changed (n.finishPairs transfer state))
  | refused {record : AttachmentBulkRecord Digest} {role index sealedChunk}
      (hoperation : record.operation = .chunk role index sealedChunk) (target : ChunkTarget Digest)
      (htarget : n.chunkTarget record role index peer = .ok (some target))
      (state : MediaTransferState) (hstate : state = .rejected ∨ state = .corrupt) :
      ByPeer S n s' peer (some record)
        (changed [(target.transfer, { target.transfer with state, updatedAt := 0 })])
        (changed (n.finishPairs target.transfer state))
  | stored {record : AttachmentBulkRecord Digest} {role index sealedChunk}
      (hoperation : record.operation = .chunk role index sealedChunk) (target : ChunkTarget Digest)
      (htarget : n.chunkTarget record role index peer = .ok (some target))
      (after : MediaObjectRecord Digest) (hafter : Stored S s' target index sealedChunk after)
      (now : ℕ) :
      ByPeer S n s' peer (some record)
        (changed [(target.transfer, n.transferWith target.transfer after now)])
        (changed [(target.object, after)])

/-- A record moved rows in one of the ways of `ByPeer`. -/
def PeerMoved (S : Suite Key Digest) (n : Node Digest) (peer : Octets 32)
    (record : Option (AttachmentBulkRecord Digest)) (n' : Node Digest) : Prop :=
  ∃ transfers objects, ByPeer S n n'.media peer record transfers objects ∧
    Moves S n n' transfers objects

section

variable {record : AttachmentBulkRecord Digest} {control : DeferredControlRecord} {b : Bool}

theorem PeerMoved.stay {record : Option (AttachmentBulkRecord Digest)} :
    PeerMoved S n peer record n :=
  ⟨[], [], .stay, .stay⟩

theorem applyRequestMissing_moves {ranges : List MissingRange}
    (h : n.applyRequestMissing S record role ranges control now = .ok (n', b)) :
    PeerMoved S n control.peer (some record) n' := by
  unfold applyRequestMissing at h
  split at h
  · exact holds_of_ok_eq .stay h
  next transfer htr =>
  split_ifs at h
  · exact holds_of_ok_eq .stay h
  split at h
  · exact holds_of_ok_eq .stay h
  split_ifs at h
  · exact holds_of_ok_eq .stay h
  obtain ⟨_, -, h⟩ := bind_eq_ok_iff.mp h
  split_ifs at h
  · exact holds_of_ok_eq .stay h
  obtain ⟨_, hqueue, h⟩ := bind_eq_ok_iff.mp h
  cases h
  exact ⟨_, _, .outbound transfer .transferring now (mem_of_resolveBulkTransfer htr).2.1,
    queueBulkRecords_moves hqueue⟩

theorem applyComplete_moves {contentHash : Digest}
    (h : n.applyComplete record role contentHash control now = .ok (n', b)) :
    PeerMoved S n control.peer (some record) n' := by
  unfold applyComplete at h
  split at h
  · exact holds_of_ok_eq .stay h
  next transfer htr =>
  split at h
  · exact holds_of_ok_eq .stay h
  split_ifs at h
  · exact holds_of_ok_eq .stay h
  obtain ⟨_, hcom, h⟩ := bind_eq_ok_iff.mp h
  cases h
  exact ⟨_, _, .outbound transfer .complete now (mem_of_resolveBulkTransfer htr).2.1,
    commitAttachmentState_moves hcom⟩

theorem applyEnd_moves {transfer : Option MediaTransferRecord} {state : MediaTransferState}
    (hpeer : ∀ t ∈ transfer, t.peer = control.peer)
    (hst : ∀ t ∈ transfer, (∃ reason, record.operation = .cancel reason) ∧ state = .cancelled ∨
      state = .rejected ∧ t.direction = .outbound)
    (h : n.applyEnd transfer state record control = .ok (n', b)) :
    PeerMoved S n control.peer (some record) n' := by
  unfold applyEnd at h
  cases transfer with
  | none =>
    cases h
    exact .stay
  | some transfer =>
    dsimp only at h
    split_ifs at h with hskip
    · cases h
      exact .stay
    rw [not_or, Bool.not_eq_true] at hskip
    obtain ⟨_, hfin, h⟩ := bind_eq_ok_iff.mp h
    cases h
    exact ⟨_, _, .ended transfer state (hpeer transfer rfl) hskip.1 (hst transfer rfl),
      finishAttachmentFromControl_moves hfin⟩

theorem commitEnd_files {after : MediaTransferRecord} {objectId : Octets 16}
    {response : Option (AttachmentBulkOperation Digest)}
    (h : n.commitEnd transfer after objects objectId response control = .ok n') :
    n'.media.files = n.media.files := by
  cases response with
  | some operation =>
    obtain ⟨-, _, rfl⟩ := queueBulkRecords_eq_ok h
    rfl
  | none =>
    obtain ⟨-, rfl⟩ := commitAttachmentState_eq_ok h
    rfl

theorem changed_changed {α : Type} [DecidableEq α] (pairs : List (α × α)) :
    changed (changed pairs) = changed pairs := by
  simp [changed]

theorem commitChunk_moves {before after : MediaObjectRecord Digest} {completed : Bool}
    (h : n.commitChunk target role before after completed control now = .ok n') :
    Moves S n n' (changed [(target.transfer, n.transferWith target.transfer after now)])
      (changed [(before, after)]) ∧ n'.media.files = n.media.files := by
  obtain ⟨n₁, hcom, h⟩ := bind_eq_ok_iff.mp h
  cases h
  have hmov : Moves S n n₁ _ _ := commitEnd_moves hcom
  rw [changed_changed] at hmov
  have hmed := @settleRequest_media _ n₁ target.transfer.localId
  exact ⟨hmov.congr hmed.1 hmed.2.1 hmed.2.2, hmed.1 ▸ commitEnd_files hcom⟩

theorem storedBytes_congr {s s' : MediaStore Digest} (h : s'.files = s.files) {key : Octets 32}
    {context : AttachmentChunkContext Digest} {object : MediaObjectRecord Digest} :
    storedBytes S s' key context object = storedBytes S s key context object := by
  unfold storedBytes openStored MediaStore.readChunk
  rw [h]

theorem acceptChunk_moves {target : ChunkTarget Digest} {role : AttachmentRole} {index : ℕ}
    {sealedChunk plain : Bytes} {s' : MediaStore Digest} {after : MediaObjectRecord Digest}
    (hop : record.operation = .chunk role index sealedChunk)
    (htgt : n.chunkTarget record role index control.peer = .ok (some target))
    (hopen : openAttachmentChunk S target.attachmentKey target.context index sealedChunk =
      some plain)
    (hix : index < target.object.chunkAddresses.length)
    (hext : Extends target.object index (S.hash sealedChunk) after)
    (hstage : Staged S n.media s' sealedChunk)
    (h : { n with media := s' }.acceptChunk S target role ⟨target.object, after⟩ control now =
      .ok n') :
    PeerMoved S n control.peer (some record) n' := by
  have hobject : { n with media := s' }.media.objects = n.media.objects := hstage.rows.2
  have hfile : ∃ chunk, s'.files.lookup (S.hash sealedChunk) = some chunk := by
    rcases hstage.present with ⟨hpresent, rfl⟩ | hfil
    · exact hpresent
    · exact ⟨sealedChunk, by rw [hfil, AList.lookup_insert]⟩
  -- a committed chunk leaves the files as they were staged
  have hsto {after'} {completed}
      (hcom : { n with media := s' }.commitChunk target role target.object after' completed control
        now = .ok n')
      (hrow : after.chunkAddresses.all Option.isSome = false ∧ after' = after ∨
        after.chunkAddresses.all Option.isSome = true ∧ after' = { after with state := .complete } ∧
          ∃ bytes, storedBytes S s' target.attachmentKey target.context after = .ok bytes ∧
            S.hash bytes = after.contentHash) :
      PeerMoved S n control.peer (some record) n' := by
    obtain ⟨hmov, hfil⟩ := commitChunk_moves hcom
    rw [transferWith_congr hobject] at hmov
    refine ⟨_, _, .stored hop target htgt after' ⟨⟨plain, hopen⟩, hix, ?_, after,
      hext, ?_⟩ now, hstage.moves hmov⟩
    · rwa [hfil]
    · rwa [storedBytes_congr hfil]
  unfold acceptChunk at h
  cases hall : after.chunkAddresses.all Option.isSome with
  | false =>
    rw [if_neg (by simp [hall])] at h
    exact hsto h (.inl ⟨hall, rfl⟩)
  | true =>
    rw [if_pos hall] at h
    obtain ⟨bytes, hbytes, h⟩ := bind_eq_ok_iff.mp h
    split_ifs at h with hhash
    · have hmov : Moves S _ n' _ _ := finishAttachmentFromControl_moves h
      rw [finishPairs_congr hobject] at hmov
      exact ⟨_, _, .refused hop target htgt .corrupt (.inr rfl), hstage.moves hmov⟩
    · exact hsto h (.inr ⟨hall, rfl, bytes, hbytes, not_not.mp hhash⟩)

theorem applyChunk_moves {available index : ℕ} {sealedChunk : Bytes}
    (hop : record.operation = .chunk role index sealedChunk) :
    PeerMoved S n control.peer (some record)
      (n.applyChunk S available record role index sealedChunk control now).state := by
  -- ending the transfer is one commit
  have hfin {target : ChunkTarget Digest} {state : MediaTransferState}
      {operation : AttachmentBulkOperation Digest}
      (htgt : n.chunkTarget record role index control.peer = .ok (some target))
      (hst : state = .rejected ∨ state = .corrupt) :
      PeerMoved S n control.peer (some record) (Effect.ofExcept n
        ((n.finishAttachmentFromControl target.transfer target.object.objectId state
          (some operation) control).map fun n' => (n', true))).state := by
    refine ofExcept_state .stay fun n' b h => ?_
    obtain ⟨n₁, hfin, heq⟩ := map_eq_ok_iff.mp h
    cases heq
    exact ⟨_, _, .refused hop target htgt state hst, finishAttachmentFromControl_moves hfin⟩
  unfold applyChunk
  cases htgt : n.chunkTarget record role index control.peer with
  | error e => exact .stay
  | ok found =>
    cases found with
    | none => exact .stay
    | some target =>
      dsimp only
      obtain ⟨hobject, -⟩ := chunkTarget_eq_ok htgt
      split_ifs with hopen
      · exact hfin htgt (.inr rfl)
      obtain ⟨_, hplain⟩ := ne_none_iff_exists'.mp hopen
      cases hstage : n.media.stageMediaChunk S available target.object.localId index
          sealedChunk with
      | error e =>
        cases e <;> first
          | exact hfin htgt (.inl rfl)
          | exact hfin htgt (.inr rfl)
          | exact .stay
      | ok result =>
        obtain ⟨_, before, _⟩ := result
        obtain ⟨hbef, hid, hix, hext, hstaged, -⟩ := stageMediaChunk_eq_ok hstage
        obtain rfl : before = target.object := Keyed.eq_of_key_eq hbef hobject hid
        refine ofExcept_state ⟨[], [], .stay, hstaged.moves .stay⟩ fun n' b h => ?_
        obtain ⟨_, hacc, heq⟩ := map_eq_ok_iff.mp h
        cases heq
        exact acceptChunk_moves hop htgt hplain hix hext hstaged hacc

/-- **What a record of a peer does.** -/
theorem applyAttachmentBulk_moves {available : ℕ} {record : Option (AttachmentBulkRecord Digest)} :
    PeerMoved S n control.peer record
      (n.applyAttachmentBulk S available record control now).state := by
  unfold applyAttachmentBulk
  cases record with
  | none => exact .stay
  | some record =>
    dsimp only
    cases hop : record.operation with
    | requestMissing role ranges =>
      exact ofExcept_state .stay fun _ _ => applyRequestMissing_moves
    | chunk role index sealedChunk => exact applyChunk_moves hop
    | complete role contentHash =>
      exact ofExcept_state .stay fun _ _ => applyComplete_moves
    | cancel reason =>
      exact ofExcept_state .stay fun _ _ h => applyEnd_moves
        (fun _ => peer_of_resolveBulkTransferAnyDirection)
        (fun _ _ => .inl ⟨⟨reason, hop⟩, rfl⟩) h
    | reject reason =>
      exact ofExcept_state .stay fun _ _ h => applyEnd_moves
        (fun _ ht => (mem_of_resolveBulkTransfer ht).2.2)
        (fun _ ht => .inr ⟨rfl, (mem_of_resolveBulkTransfer ht).2.1⟩) h

theorem applyDeferredBulk_moves {decode : Bytes → Option (AttachmentBulkRecord Digest)}
    {available : ℕ} :
    PeerMoved S n control.peer (decode control.body)
      (n.applyDeferredBulk S decode available control now).state := by
  have hmov : PeerMoved S n control.peer (decode control.body)
      (n.applyAttachmentBulk S available (decode control.body) control now).state :=
    applyAttachmentBulk_moves
  refine andThen_state hmov fun deleted _ => ?_
  cases deleted with
  | true => exact hmov
  | false =>
    refine ofExcept_state hmov fun n' b h => ?_
    obtain ⟨-, h⟩ := check_bind_eq_ok_iff.mp (mapError_eq_ok_iff.mp h)
    cases h
    obtain ⟨transfers, objects, hby, hmove⟩ := hmov
    exact ⟨transfers, objects, hby, hmove.congr rfl rfl rfl⟩

end

/-! ### Decisions of the user -/

/-- The rows that a decision about a transfer moves. -/
inductive ByUser (n : Node Digest) (id : Octets 16) :
    List TransferTransition → List (ObjectTransition Digest) → Prop
  | stay : ByUser n id [] []
  | accepted (transfer : MediaTransferRecord) (hid : transfer.localId = id)
      (hdirection : transfer.direction = .inbound) (now : ℕ) :
      ByUser n id
        (changed [(transfer, { transfer with
          state := if (n.media.objectsFor id).all fun object => object.chunkCount = 0 then .complete
            else .queued
          updatedAt := now })])
        (changed ((n.media.objectsFor id).map fun object =>
          (object, object.withState (if object.chunkCount = 0 then .complete else .queued))))
  | finished (transfer : MediaTransferRecord) (hid : transfer.localId = id)
      (state : MediaTransferState) (hstate : state.negativeTerminal = true) (now : ℕ) :
      ByUser n id (changed [(transfer, { transfer with state, updatedAt := now })])
        (changed (n.finishPairs transfer state))
  | suspended (transfer : MediaTransferRecord) (hid : transfer.localId = id)
      (state objectState : MediaTransferState) (hstate : state.active = true)
      (hobjectState : objectState.active = true)
      (hold : transfer.state.active = true) (now : ℕ) :
      ByUser n id (changed [(transfer, { transfer with state, updatedAt := now })])
        (changed (n.incompletePairs transfer objectState))

def UserMoved (S : Suite Key Digest) (n : Node Digest) (id : Octets 16) (n' : Node Digest) : Prop :=
  ∃ transfers objects, ByUser n id transfers objects ∧ Moves S n n' transfers objects

theorem acceptAttachment_moves (h : n.acceptAttachment id now = .ok n') : UserMoved S n id n' := by
  obtain ⟨transfer, htr, h⟩ := bind_eq_ok_iff.mp h
  obtain ⟨-, hid⟩ := requireAttachment_eq_ok htr
  rw [rejectIf_bind_eq_ok_iff, not_or, not_not] at h
  exact ⟨_, _, .accepted transfer hid h.1.1 now, commitAttachmentState_moves h.2⟩

theorem rejectAttachment_moves (h : n.rejectAttachment id now = .ok n') : UserMoved S n id n' := by
  obtain ⟨transfer, htr, h⟩ := bind_eq_ok_iff.mp h
  obtain ⟨-, hid⟩ := requireAttachment_eq_ok htr
  rw [check_bind_eq_ok_iff] at h
  exact ⟨_, _, .finished transfer hid .rejected rfl now, finishAttachmentLocally_moves h.2⟩

theorem cancelAttachment_moves (h : n.cancelAttachment id now = .ok n') : UserMoved S n id n' := by
  obtain ⟨transfer, htr, h⟩ := bind_eq_ok_iff.mp h
  obtain ⟨-, hid⟩ := requireAttachment_eq_ok htr
  exact ⟨_, _, .finished transfer hid .cancelled rfl now, finishAttachmentLocally_moves h⟩

theorem pauseAttachment_eq_ok (h : n.pauseAttachment id now = .ok n') :
    ∃ transfer ∈ n.media.transfers, transfer.localId = id ∧ transfer.state.active = true ∧
      Moves S n n' (changed [(transfer, { transfer with state := .paused, updatedAt := now })])
        (changed (n.incompletePairs transfer .paused)) := by
  obtain ⟨transfer, htr, h⟩ := bind_eq_ok_iff.mp h
  obtain ⟨hmem, hid⟩ := requireAttachment_eq_ok htr
  rw [rejectIf_bind_eq_ok_iff, not_not, bind_eq_ok_iff] at h
  obtain ⟨hst, _, hcom, h⟩ := h
  cases h
  refine ⟨transfer, hmem, hid, ?_, (commitAttachmentState_moves hcom).congr rfl rfl rfl⟩
  rcases hst with hst | hst <;> rw [hst] <;> rfl

theorem pauseAttachment_moves (h : n.pauseAttachment id now = .ok n') : UserMoved S n id n' := by
  obtain ⟨transfer, -, hid, hold, hmov⟩ := pauseAttachment_eq_ok h
  exact ⟨_, _, .suspended transfer hid .paused .paused rfl rfl hold now, hmov⟩

theorem resumeAttachment_moves (h : n.resumeAttachment id now = .ok n') : UserMoved S n id n' := by
  obtain ⟨transfer, htr, h⟩ := bind_eq_ok_iff.mp h
  obtain ⟨-, hid⟩ := requireAttachment_eq_ok htr
  rw [rejectIf_bind_eq_ok_iff, not_not, bind_eq_ok_iff] at h
  obtain ⟨hst, _, hcom, h⟩ := h
  cases h
  refine ⟨_, _, .suspended transfer hid _ .queued ?_ rfl (by rw [hst]; rfl) now,
    (commitAttachmentState_moves hcom).congr rfl rfl rfl⟩
  split_ifs <;> rfl

/-! ### The periodic pass -/

/-- The rows that the pass moves at one transfer. -/
inductive ByPass (n : Node Digest) : List TransferTransition → List (ObjectTransition Digest) → Prop
  | stay : ByPass n [] []
  | outbound (rows : List TransferTransition)
      (h : ∀ t ∈ rows, t.1.direction = .outbound ∧
        ∃ state updatedAt, t.2 = { t.1 with state, updatedAt }) : ByPass n rows []
  | paused (transfer : MediaTransferRecord) (hmem : transfer ∈ n.media.transfers)
      (hold : transfer.state.active = true) (now : ℕ) :
      ByPass n (changed [(transfer, { transfer with state := .paused, updatedAt := now })])
        (changed (n.incompletePairs transfer .paused))
  | requested (transfer : MediaTransferRecord) (hold : transfer.state.active = true)
      (state : MediaTransferState)
      (hstate : state = .transferring ∨ state = .complete ∧
        ∀ object ∈ n.media.objectsFor transfer.localId, object.state = .complete) :
      ByPass n (changed [(transfer, { transfer with state })]) []
  | reported (transfer : MediaTransferRecord) :
      ByPass n [(transfer, { transfer with updatedAt := 0 })] []

def PassMoved (S : Suite Key Digest) (n n' : Node Digest) : Prop :=
  ∃ transfers objects, ByPass n transfers objects ∧ Moves S n n' transfers objects

section

variable {carriers : Carriers} {transfer : MediaTransferRecord}

theorem PassMoved.stay : PassMoved S n n := ⟨[], [], .stay, .stay⟩

theorem requestMissing_moves (hold : transfer.state.active = true)
    (h : n.requestMissing transfer now = .ok n') : PassMoved S n n' := by
  unfold requestMissing at h
  dsimp only at h
  split at h
  · cases h
    exact .stay
  obtain ⟨_, hqueue, h⟩ := bind_eq_ok_iff.mp h
  cases h
  refine ⟨_, _, .requested transfer hold _ ?_, (queueBulkRecords_moves hqueue).congr rfl rfl rfl⟩
  split_ifs with hall
  · exact .inr ⟨rfl, by simpa using hall⟩
  · exact .inl rfl

theorem reportEnd_moves {operation : AttachmentBulkOperation Digest}
    (h : n.reportEnd transfer operation = .ok n') : PassMoved S n n' := by
  unfold reportEnd at h
  split at h
  · cases h
    exact .stay
  · exact ⟨_, _, .reported transfer, queueBulkRecords_moves h⟩

/-- What a pass over a transfer moves. -/
theorem activateTransfer_moves (h : n.activateTransfer carriers now transfer = .ok n') :
    PassMoved S n n' := by
  unfold activateTransfer at h
  split at h
  · obtain ⟨transfer', hmem, -, hold, hmov⟩ := pauseAttachment_eq_ok h
    exact ⟨_, _, .paused transfer' hmem hold now, hmov⟩
  split at h
  · cases h
    exact .stay
  split at h
  · next hdir hst =>
    split_ifs at h with hread
    · obtain ⟨_, -, h⟩ := bind_eq_ok_iff.mp h
      split_ifs at h
      · obtain ⟨hcur, rfl⟩ := commitMedia_eq_ok (mapError_eq_ok_iff.mp h)
        refine ⟨_, _, .outbound _ ?_, hcur.moves.congr rfl rfl rfl⟩
        exact forall_mem_singleton.mpr ⟨hdir, _, _, rfl⟩
      · cases h
        exact .stay
    · cases h
      exact .stay
  · next hdir hst => exact requestMissing_moves (by rw [hst]; rfl) h
  · next hdir hst =>
    split_ifs at h
    · exact requestMissing_moves (by rw [hst]; rfl) h
    · cases h
      exact .stay
  -- A transfer that has ended is only reported.
  any_goals
    split_ifs at h
    · exact reportEnd_moves h
    · cases h
      exact .stay
  · cases h
    exact .stay

theorem activateGroup_moves {rows : List MediaTransferRecord} {key : Octets 32 × Octets 16}
    (h : n.activateGroup carriers now rows key = .ok n') : PassMoved S n n' := by
  unfold activateGroup at h
  split_ifs at h with hread
  · obtain ⟨_, -, h⟩ := bind_eq_ok_iff.mp h
    split_ifs at h
    · obtain ⟨hcur, rfl⟩ := commitMedia_eq_ok (mapError_eq_ok_iff.mp h)
      refine ⟨_, _, .outbound _ ?_, hcur.moves.congr rfl rfl rfl⟩
      refine forall_mem_map.mpr fun t ht => ⟨?_, _, _, rfl⟩
      have hcopy := (mem_filter.mp (mem_filter.mp ht).1).2
      exact (of_decide_eq_true hcopy).2.1
    · cases h
      exact .stay
  · cases h
    exact .stay

/-- **What the periodic pass does**: one move after the other. -/
theorem activateAttachmentTransfers_moves :
    Relation.ReflTransGen (PassMoved S) n (n.activateAttachmentTransfers carriers now).state := by
  have hstep {β : Type} {f : Node Digest → β → Except NodeError (Node Digest)}
      (hf : ∀ n b n', f n b = .ok n' → PassMoved S n n') (b : β) (n₁ : Node Digest)
      (h : Relation.ReflTransGen (PassMoved S) n n₁) :
      Relation.ReflTransGen (PassMoved S) n
        (Effect.ofExcept n₁ ((f n₁ b).map fun n' => (n', ()))).state := by
    refine ofExcept_state h fun n' u hn' => ?_
    obtain ⟨_, hn₂, heq⟩ := map_eq_ok_iff.mp hn'
    cases heq
    exact h.tail (hf n₁ b _ hn₂)
  have hfst : Relation.ReflTransGen (PassMoved S) n (Effect.forEach (fun transfer n =>
      .ofExcept n ((activateTransfer n carriers now transfer).map fun n' => (n', ())))
      n.media.transfers.rows n).state :=
    forEach_state .refl (hstep fun _ _ _ => activateTransfer_moves)
  exact andThen_keeps hfst fun _ _ h =>
    forEach_state h (hstep fun _ _ _ => activateGroup_moves)

end

end Komms.Attachment.Node
