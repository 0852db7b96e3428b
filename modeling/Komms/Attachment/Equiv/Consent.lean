import Komms.Attachment.Equiv.Calls
import Komms.Attachment.Equiv.Validity

/-!
# Consent and refusals

An inbound transfer that waits for the user's decision, or that was refused, is to stay as it is,
with no chunk stored for it, until the user accepts it; the peer may cancel one that waits.  A chunk
record is handled without a look at the state of its transfer, so this holds of the runs in which no
chunk for the transfer is applied (`refusal_durable_of_no_chunk`), and fails as soon as one is
(`Sample.chunk_before_consent`).

The induction carries `Kept`: the row of the transfer has its old state, or was cancelled, and its
objects have no chunks they did not have.
-/

namespace Komms.Attachment.Node

open GroupState (DeferredControlRecord)
open List MediaStore Keyed

variable {Key Digest : Type} {S : Suite Key Digest}
  {decode : Bytes → Option (AttachmentBulkRecord Digest)} {n₀ n n' : Node Digest}
  {t : MediaTransferRecord} {cancelled : Prop}

/-! ### What is kept -/

/-- The states of a transfer that has no consent. -/
def dormant (state : MediaTransferState) : Bool := state.undecided || state.negativeTerminal

/-- A message that names the transfer has expired from `n₀` to `n`. -/
def Expired (t : MediaTransferRecord) (n₀ n : Node Digest) : Prop :=
  ∃ record ∈ n₀.ephemeral, record.active = true ∧ t.localId ∈ record.transferIds ∧
    { record with active := false } ∈ n.ephemeral

/-- The transfer is as it was, unless it waited and the peer cancelled it, and no chunk was stored
for it.  It is gone only with a message that expired, which was there before. -/
structure Kept (t : MediaTransferRecord) (cancelled : Prop) (n₀ n : Node Digest) : Prop where
  present : (∃ row ∈ n.media.transfers, row.localId = t.localId) ∨ Expired t n₀ n
  ephemeral : ∀ record ∈ n.ephemeral, record.active = true → t.localId ∈ record.transferIds →
    record ∈ n₀.ephemeral
  transfer : ∀ row ∈ n.media.transfers, row.localId = t.localId →
    row.direction = .inbound ∧ row.peer = t.peer ∧
      (row.state = t.state ∨ t.state.undecided = true ∧ row.state = .cancelled ∧ cancelled)
  chunks : ∀ object ∈ n.media.objects, object.transferId = t.localId →
    ∀ address ∈ object.addresses, ∃ old ∈ n₀.media.objects,
      old.localId = object.localId ∧ old.transferId = t.localId ∧ address ∈ old.addresses

/-- The step is none of the user's decisions about the transfer.  A new offer has a new id. -/
def Foreign (id : Octets 16) : Op Digest → Prop
  | .offer offer => offer.transferId ≠ id
  | .accept id' | .reject id' | .cancel id' | .pause id' | .resume id' => id' ≠ id
  | _ => True

/-- The step applies no chunk of the transfer. -/
def NoChunkFor (decode : Bytes → Option (AttachmentBulkRecord Digest)) (id : Octets 16)
    (n : Node Digest) : Op Digest → Prop
  | .bulk control _ => ∀ record role index sealedChunk target, decode control.body = some record →
      record.operation = .chunk role index sealedChunk →
      n.chunkTarget record role index control.peer = .ok (some target) →
      target.transfer.localId ≠ id
  | _ => True

/-- The step applies a cancellation by the peer. -/
def Cancels (decode : Bytes → Option (AttachmentBulkRecord Digest)) (peer : Octets 32) :
    Op Digest → Prop
  | .bulk control _ => control.peer = peer ∧
      ∃ record reason, decode control.body = some record ∧ record.operation = .cancel reason
  | _ => False

/-! ### One move -/

variable {state : MediaTransferState}

theorem addresses_withState_of_negative {object : MediaObjectRecord Digest}
    (h : state.negativeTerminal = true) : (object.withState state).addresses = [] := by
  simp [MediaObjectRecord.withState, h, MediaObjectRecord.addresses]

theorem mem_changed {α : Type} [DecidableEq α] {pairs : List (α × α)} {pair : α × α}
    (h : pair ∈ changed pairs) : pair ∈ pairs := (mem_filter.mp h).1

/-- The objects of a transfer that ends are its own, and are cleared by a refusal. -/
theorem mem_finishPairs {transfer : MediaTransferRecord}
    {pair : ObjectTransition Digest} (h : pair ∈ n.finishPairs transfer state) :
    pair.1.transferId = transfer.localId ∧ pair.2 = pair.1.withState state := by
  unfold finishPairs at h
  split_ifs at h
  · obtain ⟨_, hobject, rfl⟩ := mem_map.mp h
    exact ⟨(mem_objectsFor.mp hobject).2, rfl⟩
  · cases h

theorem mem_incompletePairs {transfer : MediaTransferRecord}
    {pair : ObjectTransition Digest} (h : pair ∈ n.incompletePairs transfer state) :
    pair.1.transferId = transfer.localId := by
  unfold incompletePairs at h
  split_ifs at h
  · obtain ⟨_, hobject, rfl⟩ := mem_map.mp h
    exact (mem_objectsFor.mp (mem_filter.mp hobject).1).2
  · cases h

variable (h : Kept t cancelled n₀ n)
include h

theorem Kept.not_active (hdormant : dormant t.state = true)
    {row : MediaTransferRecord} (hrow : row ∈ n.media.transfers) (hid : row.localId = t.localId) :
    row.state.active = false := by
  obtain ⟨-, -, hst | ⟨-, hst, -⟩⟩ := h.transfer row hrow hid
  · rw [hst]
    cases hs : t.state <;> rw [hs] at hdormant <;> first | rfl | cases hdormant
  · rw [hst]
    rfl

theorem Kept.not_outbound {row : MediaTransferRecord}
    (hrow : row ∈ n.media.transfers) (hid : row.localId = t.localId) :
    row.direction ≠ .outbound := by
  rw [(h.transfer row hrow hid).1]
  exact MediaDirection.noConfusion

theorem Kept.attempt {x : Except NodeError (Node Digest)}
    (hx : ∀ n', x = .ok n' → Kept t cancelled n₀ n') : Kept t cancelled n₀ (n.attempt x) := by
  cases x with
  | error e => exact h
  | ok n' => exact hx n' rfl

variable [DecidableEq Digest] {objects : List (ObjectTransition Digest)}

/-- A move keeps the transfer when it does nothing to its row but cancel it while it waits, and
gives its objects no chunk. -/
theorem Kept.moves {transfers : List TransferTransition} (hmov : Moves S n n' transfers objects)
    (htrs : ∀ p ∈ transfers, p.1 ∈ n.media.transfers → p.1.localId = t.localId →
      p.2.direction = p.1.direction ∧ p.2.peer = p.1.peer ∧
        (p.2.state = p.1.state ∨ p.1.state.negativeTerminal = false ∧ t.state.undecided = true ∧
          p.2.state = .cancelled ∧ cancelled))
    (hobj : ∀ p ∈ objects, p.1.transferId = t.localId → p.2.addresses ⊆ p.1.addresses) :
    Kept t cancelled n₀ n' where
  present := by
    rw [hmov.transfers, Expired, hmov.ephemeral]
    exact h.present.imp_left (exists_mem_putAll _)
  ephemeral := by
    rw [hmov.ephemeral]
    exact h.ephemeral
  transfer row hrow hid := by
    rw [hmov.transfers] at hrow
    rcases mem_putAll hrow with ⟨hold, -⟩ | hnew
    · exact h.transfer row hold hid
    obtain ⟨p, hp, rfl⟩ := mem_map.mp hnew
    obtain ⟨hmem, hloc⟩ := hmov.current.transfers p hp
    -- The row was written over a row with the same id.
    have hid' : p.1.localId = t.localId := hloc ▸ hid
    obtain ⟨hdir, hpeer, _⟩ := h.transfer p.1 hmem hid'
    obtain ⟨hdir', hpeer', hst'⟩ := htrs p hp hmem hid'
    refine ⟨hdir'.trans hdir, hpeer'.trans hpeer, ?_⟩
    rcases hst' with heq | ⟨-, hcan⟩
    · rwa [heq]
    · exact .inr hcan
  chunks object hobject hid address hadr := by
    rw [hmov.objects] at hobject
    rcases mem_putAll hobject with ⟨hold, -⟩ | hnew
    · exact h.chunks object hold hid address hadr
    obtain ⟨p, hp, rfl⟩ := mem_map.mp hnew
    obtain ⟨hmem, hloc, hpar, -⟩ := hmov.current.objects p hp
    have hid' : p.1.transferId = t.localId := hpar ▸ hid
    obtain ⟨old, hold, hlocal, hrest⟩ :=
      h.chunks p.1 hmem hid' address (hobj p hp hid' hadr)
    exact ⟨old, hold, hlocal.trans hloc.symm, hrest⟩

theorem Kept.elsewhere {row row' : MediaTransferRecord}
    (hmov : Moves S n n' (changed [(row, row')]) objects)
    (hne : row.localId ≠ t.localId) (hobject : ∀ p ∈ objects, p.1.transferId = row.localId) :
    Kept t cancelled n₀ n' := by
  refine h.moves hmov (fun p hp _ hid => ?_) fun p hp hid => ?_
  · obtain rfl := mem_singleton.mp (mem_changed hp)
    exact absurd hid hne
  · exact absurd ((hobject p hp).symm.trans hid) hne

theorem Kept.byPeer {control : DeferredControlRecord} {available : ℕ} {record}
    {transfers : List TransferTransition}
    (hdormant : dormant t.state = true)
    (hcan : ∀ record reason, decode control.body = some record → record.operation = .cancel reason →
      control.peer = t.peer → cancelled)
    (hchunk : NoChunkFor decode t.localId n (.bulk control available))
    (hrec : decode control.body = record)
    (hby : ByPeer S n n'.media control.peer record transfers objects)
    (hmov : Moves S n n' transfers objects) : Kept t cancelled n₀ n' := by
  cases hby with
  | stay => exact h.moves hmov (by simp) (by simp)
  | outbound transfer state updatedAt hdir =>
    refine h.moves hmov (fun p hp hmem hid => ?_) (by simp)
    obtain rfl := mem_singleton.mp (mem_changed hp)
    exact absurd hdir (h.not_outbound hmem hid)
  | @ended record transfer state hpeer hlive hst =>
    have hneg : state.negativeTerminal = true := by
      rcases hst with ⟨-, rfl⟩ | ⟨rfl, -⟩ <;> rfl
    refine h.moves hmov (fun p hp hmem hid => ?_) fun p hp _ => ?_
    · obtain rfl := mem_singleton.mp (mem_changed hp)
      obtain ⟨-, hpeer', hold⟩ := h.transfer _ hmem hid
      rcases hst with ⟨⟨reason, hreason⟩, rfl⟩ | ⟨-, hdir⟩
      · -- it was not refused before, so it waited
        refine ⟨rfl, rfl, .inr ⟨hlive, ?_, rfl, ?_⟩⟩
        · rcases hold with hold | ⟨hund, -⟩
          · rw [dormant, ← hold, hlive, Bool.or_false] at hdormant
            rwa [← hold]
          · exact hund
        · exact hcan record reason hrec hreason (hpeer.symm.trans hpeer')
      · exact absurd hdir (h.not_outbound hmem hid)
    · rw [(mem_finishPairs (mem_changed hp)).2, addresses_withState_of_negative hneg]
      exact nil_subset _
  | @refused record role index sealedChunk hop target htgt state hst =>
    have hne := hchunk record role index sealedChunk target hrec hop htgt
    exact h.elsewhere hmov hne fun p hp => (mem_finishPairs (mem_changed hp)).1
  | @stored record role index sealedChunk hop target htgt after haft now =>
    have hne := hchunk record role index sealedChunk target hrec hop htgt
    refine h.elsewhere hmov hne fun p hp => ?_
    obtain rfl := mem_singleton.mp (mem_changed hp)
    exact (chunkTarget_eq_ok htgt).2

theorem Kept.byUser {id : Octets 16} (hid : id ≠ t.localId)
    (hmov : UserMoved S n id n') : Kept t cancelled n₀ n' := by
  obtain ⟨_, _, hby, hmove⟩ := hmov
  cases hby with
  | stay => exact h.moves hmove (by simp) (by simp)
  | accepted transfer hloc hdir now =>
    refine h.elsewhere hmove (hloc.trans_ne hid) fun p hp => ?_
    obtain ⟨_, hobj, rfl⟩ := mem_map.mp (mem_changed hp)
    exact (mem_objectsFor.mp hobj).2.trans hloc.symm
  | finished transfer hloc state hst now =>
    exact h.elsewhere hmove (hloc.trans_ne hid) fun p hp => (mem_finishPairs (mem_changed hp)).1
  | suspended transfer hloc state objectState hst hobject hold now =>
    exact h.elsewhere hmove (hloc.trans_ne hid) fun p hp => mem_incompletePairs (mem_changed hp)

theorem Kept.byPass (hdormant : dormant t.state = true)
    (hmov : PassMoved S n n') : Kept t cancelled n₀ n' := by
  obtain ⟨transfers, _, hby, hmove⟩ := hmov
  -- the pass touches inbound transfers that are active, and reports refusals
  have hact {row : MediaTransferRecord} (hrow : row ∈ n.media.transfers)
      (hold : row.state.active = true) : row.localId ≠ t.localId := fun hid =>
    Bool.false_ne_true ((h.not_active hdormant hrow hid).symm.trans hold)
  cases hby with
  | stay => exact h.moves hmove (by simp) (by simp)
  | outbound rows hrows =>
    exact h.moves hmove (fun p hp hmem hid => absurd (hrows p hp).1 (h.not_outbound hmem hid))
      (by simp)
  | paused transfer hmem hold now =>
    exact h.elsewhere hmove (hact hmem hold) fun p hp => mem_incompletePairs (mem_changed hp)
  | requested transfer hold state hst =>
    refine h.moves hmove (fun p hp hmem hid => ?_) (by simp)
    obtain rfl := mem_singleton.mp (mem_changed hp)
    exact absurd hid (hact hmem hold)
  | reported transfer =>
    refine h.moves hmove (fun p hp hmem hid => ?_) (by simp)
    obtain rfl := mem_singleton.mp hp
    exact ⟨rfl, rfl, .inl rfl⟩

theorem Kept.pass (hdormant : dormant t.state = true)
    (hpass : Relation.ReflTransGen (PassMoved S) n n') : Kept t cancelled n₀ n' := by
  induction hpass with
  | refl => exact h
  | tail _ hmov ih => exact ih.byPass hdormant hmov

/-! ### One step -/

omit h [DecidableEq Digest] in
theorem Expired.append {records : List EphemeralRecord} (hexpired : Expired t n₀ n) :
    Expired t n₀ { n with ephemeral := n.ephemeral ++ records } := by
  obtain ⟨record, hrecord, hactive, hnames, hnow⟩ := hexpired
  exact ⟨record, hrecord, hactive, hnames, mem_append_left _ hnow⟩

theorem Kept.offer {offer : Offer Digest} {now : ℕ}
    (hid : offer.transferId ≠ t.localId) (hoff : n.receiveOffer S offer now = .ok n') :
    Kept t cancelled n₀ n' := by
  rw [receiveOffer, check_bind_eq_ok_iff] at hoff
  replace hoff := hoff.2
  by_cases hseen : n.seenBefore offer = true
  · rw [if_pos hseen] at hoff
    cases hoff
    exact h
  rw [if_neg hseen] at hoff
  by_cases hlate : offer.expiresAt.any (fun expiresAt => expiresAt ≤ now) = true
  · -- Past its deadline it leaves a record that names no transfer.
    rw [if_pos hlate] at hoff
    cases hoff
    refine { h with present := h.present.imp_right .append, ephemeral := ?_ }
    intro record hrecord hactive hnames
    rcases mem_append.mp hrecord with hold | hnew
    · exact h.ephemeral record hold hactive hnames
    · obtain ⟨_, -, rfl⟩ := Option.map_eq_some_iff.mp (Option.mem_toList.mp hnew)
      cases hnames
  rw [if_neg hlate, mapError_eq_ok_iff, commitOffer, check_bind_eq_ok_iff] at hoff
  simp only [bind_eq_ok_iff, putTransfer_eq_ok_iff] at hoff
  obtain ⟨-, _, ⟨-, rfl⟩, _, hmed, hn'⟩ := hoff
  cases hn'
  -- the new rows are of another transfer
  have hrows := foldlM_putObject_rows hmed
  refine ⟨?_, fun record hrecord hactive hnames => ?_, fun row hrow hloc => ?_,
    fun object hobject hpar => ?_⟩
  · rw [hrows]
    exact h.present.imp (exists_mem_put _) .append
  · rcases mem_append.mp hrecord with hold | hnew
    · exact h.ephemeral record hold hactive hnames
    · obtain ⟨_, -, rfl⟩ := Option.map_eq_some_iff.mp (Option.mem_toList.mp hnew)
      exact absurd (mem_singleton.mp hnames).symm hid
  · rw [hrows] at hrow
    rcases mem_put_iff.mp hrow with ⟨hold, -⟩ | rfl
    · exact h.transfer row hold hloc
    · exact absurd hloc hid
  · rw [hrows] at hobject
    rcases mem_putAll hobject with ⟨hold, -⟩ | hnew
    · exact h.chunks object hold hpar
    · obtain ⟨_, -, rfl⟩ := mem_map.mp hnew
      exact absurd hpar hid

theorem Kept.sweep {now : ℕ} (hsweep : n.sweepEphemeral now = .ok n') : Kept t cancelled n₀ n' := by
  rw [sweepEphemeral, check_bind_eq_ok_iff] at hsweep
  obtain rfl := Except.ok.inj hsweep.2
  generalize hdef : (n.ephemeral.filter fun record => record.active ∧ record.expiresAt ≤ now).take
    maxEphemeralExpiriesPerTick = due at *
  -- What is due was active.
  have hdue : ∀ record ∈ due, record ∈ n.ephemeral ∧ record.active = true := by
    intro record hrecord
    rw [← hdef] at hrecord
    obtain ⟨hmem, hactive⟩ := mem_filter.mp (mem_of_mem_take hrecord)
    simp only [decide_eq_true_eq] at hactive
    exact ⟨hmem, hactive.1⟩
  refine ⟨?_, fun record hrecord hactive hnames => ?_,
    fun row hrow => h.transfer row (mem_filter_iff.mp hrow).1,
    fun object hobject => h.chunks object (mem_filter_iff.mp hobject).1⟩
  · rcases h.present with ⟨row, hrow, hid⟩ | ⟨record, hold, hactive, hnames, hnow⟩
    · by_cases hgone : t.localId ∈ due.flatMap EphemeralRecord.transferIds
      · obtain ⟨record, hdue', hnames⟩ := mem_flatMap.mp hgone
        obtain ⟨hrecord, hactive⟩ := hdue record hdue'
        refine .inr ⟨record, h.ephemeral record hrecord hactive hnames, hactive, hnames, ?_⟩
        exact mem_map.mpr ⟨record, hrecord, if_pos hdue'⟩
      · exact .inl ⟨row, mem_filter_iff.mpr ⟨hrow, by simpa [hid] using hgone⟩, hid⟩
    · refine .inr ⟨record, hold, hactive, hnames, mem_map.mpr ⟨_, hnow, if_neg fun hmem => ?_⟩⟩
      cases (hdue _ hmem).2
  · obtain ⟨old, hold, rfl⟩ := mem_map.mp hrecord
    split_ifs at hactive hnames ⊢ with hmem
    exact h.ephemeral old hold hactive hnames

theorem Kept.reconcile (S : Suite Key Digest) (hrec : n.reconcileMedia = .ok n') :
    Kept t cancelled n₀ n' := by
  obtain ⟨n₁, hcom, hn'⟩ := bind_eq_ok_iff.mp hrec
  have hkept : Kept t cancelled n₀ n₁ := by
    unfold markUnavailable at hcom
    split_ifs at hcom
    · cases hcom
      exact h
    obtain ⟨hcur, rfl⟩ := commitMedia_eq_ok (mapError_eq_ok_iff.mp hcom)
    refine h.moves (S := S) (hcur.moves.congr rfl rfl rfl) (by simp) fun p hp _ => ?_
    obtain ⟨object, -, rfl⟩ := mem_map.mp hp
    exact fun _ hadr => hadr
  cases hn'
  split_ifs
  · refine ⟨?_, hkept.ephemeral, fun row hrow => hkept.transfer row ?_,
      fun object hobject => hkept.chunks object ?_⟩
    · rw [garbageCollect_rows.1]
      exact hkept.present
    · rwa [garbageCollect_rows.1] at hrow
    · rwa [garbageCollect_rows.2] at hobject
  · exact hkept

/-- **An operation keeps the transfer**, unless it is the user's on it or brings it a chunk. -/
theorem Kept.perform {now : ℕ} {op : Op Digest}
    (hdormant : dormant t.state = true) (hfor : Foreign t.localId op)
    (hchunk : NoChunkFor decode t.localId n op) (hcan : Cancels decode t.peer op → cancelled) :
    Kept t cancelled n₀ (n.perform S decode now op) := by
  cases op with
  | offer offer => exact h.attempt fun _ => h.offer hfor
  | accept id => exact h.attempt fun n' hn' => h.byUser (S := S) hfor (acceptAttachment_moves hn')
  | reject id => exact h.attempt fun n' hn' => h.byUser (S := S) hfor (rejectAttachment_moves hn')
  | cancel id => exact h.attempt fun n' hn' => h.byUser (S := S) hfor (cancelAttachment_moves hn')
  | pause id => exact h.attempt fun n' hn' => h.byUser (S := S) hfor (pauseAttachment_moves hn')
  | resume id => exact h.attempt fun n' hn' => h.byUser (S := S) hfor (resumeAttachment_moves hn')
  | arrive control =>
    show Kept t cancelled n₀ (if _ then _ else _)
    split_ifs
    · exact h
    · exact { h with }
  -- Only the peer can cancel it meanwhile.
  | bulk control available =>
    obtain ⟨_, _, hby, hmov⟩ :=
      @applyDeferredBulk_moves _ _ S n now _ control decode available
    refine h.byPeer hdormant (fun record reason hrec hreason hpeer => ?_) hchunk rfl hby hmov
    exact hcan ⟨hpeer, record, reason, hrec, hreason⟩
  | activate carriers =>
    have hpass : Relation.ReflTransGen (PassMoved S) n
        (n.activateAttachmentTransfers carriers now).state := activateAttachmentTransfers_moves
    exact h.pass hdormant hpass
  | sweep => exact h.attempt fun _ => h.sweep
  | reconcile => exact h.attempt fun _ => h.reconcile S

omit h

/-! ### Whole runs -/

/-- **No bytes without consent, and refusals last**, in every run in which no chunk for the transfer
is applied.  The run has any other steps: records of any peers, the periodic pass, expiry, new
offers and decisions about other transfers.  The transfer keeps its state, but one that waits for a
decision may be cancelled by its peer; and no chunk is stored for it. -/
theorem refusal_durable_of_no_chunk (S : Suite Key Digest)
    (decode : Bytes → Option (AttachmentBulkRecord Digest)) (n n' : Node Digest)
    (t : MediaTransferRecord) (ops : List (Op Digest)) (ht : t ∈ n.media.transfers)
    (hinbound : t.direction = .inbound) (hdormant : dormant t.state = true)
    (hrun : n.Run S decode
      (fun n₁ op => Foreign t.localId op ∧ NoChunkFor decode t.localId n₁ op) ops n') :
    Kept t (∃ op ∈ ops, Cancels decode t.peer op) n n' := by
  induction hrun with
  | start =>
    refine ⟨.inl ⟨t, ht, rfl⟩, fun record hrecord _ _ => hrecord, fun row hrow hid => ?_,
      fun object hobject hid address hadr => ?_⟩
    · obtain rfl := eq_of_key_eq hrow ht hid
      exact ⟨hinbound, rfl, .inl rfl⟩
    · exact ⟨object, hobject, rfl, hid, hadr⟩
  | @step ops n₁ now op run hall ih =>
    have hweak : Kept t (∃ op' ∈ op :: ops, Cancels decode t.peer op') n n₁ := by
      refine ⟨ih.present, ih.ephemeral, fun row hrow hid => ?_, ih.chunks⟩
      obtain ⟨hdir, hpeer, hst⟩ := ih.transfer row hrow hid
      refine ⟨hdir, hpeer, hst.imp_right ?_⟩
      rintro ⟨hund, hcan, op', hop', hcancel⟩
      exact ⟨hund, hcan, op', .tail _ hop', hcancel⟩
    exact hweak.perform hdormant hall.1 hall.2 fun hcancel => ⟨op, .head _, hcancel⟩

namespace Sample

def suite : Suite Unit Bytes where
  objectKey _ _ _ := ()
  chunkKey _ _ _ := ()
  aeadEncrypt _ _ plaintext := plaintext ++ List.replicate 16 0
  aeadDecrypt _ _ sealedChunk := some (sealedChunk.take (sealedChunk.length - 16))
  hash := id
  digestBytes := id
  pairwiseScopeId _ _ := .replicate 32 9

def me : Octets 32 := .replicate 32 1
def author : Octets 32 := .replicate 32 2
def device : Octets 32 := .replicate 32 3
def id (i : UInt8) : Octets 16 := .replicate 16 i

def emptyNode : Node Bytes where
  me
  media := ⟨.empty, .empty, [], [], ∅, .default⟩
  messages := .empty
  ephemeral := []
  controls := .empty
  sessions := [device]
  contactDevices _ := [device]
  queue := []
  requestAt := ∅
  requestTarget := ∅

def descriptor : AttachmentObject Bytes where
  role := .primary
  objectId := id 7
  totalLen := 1
  chunkDataLen := attachmentChunkDataLen
  chunkCount := 1
  contentHash := [7]
  mediaType := "image/png"
  filename := none

def manifest : AttachmentManifest Bytes := ⟨.replicate 32 5, descriptor, none⟩

def offer : Offer Bytes where
  author
  group := none
  contentId := id 4
  manifest
  expiresAt := none
  transferId := id 1
  objectIds _ := id 2

def transfer (state : MediaTransferState) : MediaTransferRecord where
  localId := id 1
  peer := author
  direction := .inbound
  scope := .pairwise
  scopeId := .replicate 32 9
  manifestAuthor := author
  manifestContentId := id 4
  entitledPeers := [me]
  state
  updatedAt := 5

def object (state : MediaTransferState) : MediaObjectRecord Bytes where
  localId := id 2
  transferId := id 1
  objectId := id 7
  role := .primary
  totalLen := 1
  chunkCount := 1
  contentHash := [7]
  mediaType := "image/png"
  filename := none
  state
  verifiedBitmap := [0]
  chunkAddresses := [none]
  verifiedBytes := 0

def message : MessageRow Bytes := ⟨.pairwise author, author, id 4, some manifest, false⟩

def control : DeferredControlRecord where
  contentId := id 8
  peer := author
  peerDevice := device
  kind := .attachmentBulk
  body := []
  receivedAt := 6

/-- The offer is there. -/
def holding (state : MediaTransferState) : Node Bytes :=
  { emptyNode with
    media := { emptyNode.media with
      transfers := ⟨[transfer state], List.nodup_singleton _⟩
      objects := ⟨[object state], List.nodup_singleton _⟩ }
    messages := ⟨[message], List.nodup_singleton _⟩ }

def context (state : MediaTransferState) : AttachmentChunkContext Bytes :=
  chunkContext (transfer state) descriptor

def record (chunk : Bytes) : AttachmentBulkRecord Bytes :=
  bulkRecord (transfer .awaitingConsent) (id 7) (.chunk .primary 0 chunk)

/-- The holding node with the control that brings the chunk. -/
def arrived (state : MediaTransferState) : Node Bytes :=
  { holding state with controls := ⟨[control], List.nodup_singleton _⟩ }

def cancelRecord : AttachmentBulkRecord Bytes :=
  bulkRecord (transfer .awaitingConsent) (id 7) (.cancel .user)

/-- The author cancels the offer: it stays so, with no chunk. -/
theorem refusal_durable_cancelled : Kept (transfer .awaitingConsent)
      (∃ op ∈ [.bulk control 0, .arrive control], Cancels (fun _ => some cancelRecord) author op)
      (holding .awaitingConsent)
      ((arrived .awaitingConsent).perform suite (fun _ => some cancelRecord) 9
        (.bulk control 0)) := by
  refine refusal_durable_of_no_chunk suite (fun _ => some cancelRecord) (holding .awaitingConsent) _
    (transfer .awaitingConsent) _ (mem_singleton.mpr rfl) rfl rfl ?_
  refine .step 9 _ (.step 8 _ .start ⟨trivial, trivial⟩) ⟨trivial, ?_⟩
  intro record role index chunk target hrec hop
  cases hrec
  cases hop

def target (state : MediaTransferState) : ChunkTarget Bytes :=
  ⟨transfer state, object state, .replicate 32 5, context state⟩

def storedObject (state : MediaTransferState) (chunk : Bytes) : MediaObjectRecord Bytes :=
  (object state).withChunk 0 chunk

variable {chunk : Bytes} {state : MediaTransferState}
  (hlength : chunk.length = attachmentSealedChunkLen)
  (hopen : openAttachmentChunk suite (.replicate 32 5) (context state) 0 chunk = some [7])

def withFile (state : MediaTransferState) (chunk : Bytes) : MediaStore Bytes :=
  { (arrived state).media with files := AList.insert chunk chunk ∅ }

include hlength in
theorem stage_arrived : (arrived state).media.stageMediaChunk suite (2 ^ 40) (id 2) 0 chunk =
      .ok (withFile state chunk, ⟨object state, storedObject state chunk⟩) := by
  have hfile : (arrived state).media.files.lookup chunk ≠ some chunk := (Option.some_ne_none _).symm
  have hseal : (arrived state).media.sealedFileBytes = 0 := rfl
  have hinc : (arrived state).media.incompleteBytes = 0 := by cases state <;> rfl
  have hlim : (arrived state).media.limits = .default := rfl
  have hfil : MediaStore.fileLen chunk = 49212 := by rw [MediaStore.fileLen, hlength]; rfl
  rw [stageMediaChunk, rejectIf_bind_of_not (not_not.mpr hlength)]
  show ((arrived state).media.writeChunk (2 ^ 40) chunk chunk >>= fun s => _) = _
  rw [MediaStore.writeChunk, if_neg hfile, hseal, hinc, hlim, hfil]
  rfl

theorem valid_storedObject : (storedObject state chunk).Valid := by
  have hval : (object .offered).Valid := by decide
  exact MediaObjectRecord.withChunk_valid (MediaObjectRecord.valid_with_state hval state)
    (show 0 < 1 from Nat.one_pos)

include hlength hopen in
theorem stored_arrived : storedBytes suite (withFile state chunk) (.replicate 32 5) (context state)
      (storedObject state chunk) = .ok [7] := by
  have hread : (withFile state chunk).readChunk suite (storedObject state chunk) 0 = .ok chunk := by
    have hfile : (withFile state chunk).files.lookup chunk = some chunk := AList.lookup_insert _
    rw [readChunk, rejectIf_bind_of_not (not_not.mpr valid_storedObject)]
    show (required StoreError.io ((withFile state chunk).files.lookup chunk) >>= fun _ => _) = _
    rw [hfile]
    exact rejectIf_bind_of_not (by simp [hlength, suite])
  have hopened : openStored suite (withFile state chunk) (.replicate 32 5) (context state)
      (storedObject state chunk) 0 = .ok [7] := by
    rw [openStored, hread]
    exact required_eq_ok_iff.mpr hopen
  show (mapEach _ [0] >>= fun chunks => _) = _
  rw [mapEach, hopened]
  rfl

def staged (state : MediaTransferState) (chunk : Bytes) : Node Bytes :=
  { arrived state with media := withFile state chunk }

def completedTransfer : MediaTransferRecord := { transfer .complete with updatedAt := 9 }

def completedObject (state : MediaTransferState) (chunk : Bytes) : MediaObjectRecord Bytes :=
  { storedObject state chunk with state := .complete }

/-- The node with the whole attachment. -/
def completed (state : MediaTransferState) (chunk : Bytes) : Node Bytes :=
  { arrived state with
    media := { withFile state chunk with
      transfers := ⟨[completedTransfer], List.nodup_singleton _⟩
      objects := ⟨[completedObject state chunk], List.nodup_singleton _⟩ }
    controls := .empty
    queue := [(device, bulkRecord (transfer state) (id 7) (.complete .primary [7]))] }

variable (hcommit : (staged state chunk).commitChunk (target state) .primary (object state)
    (completedObject state chunk) true control 9 = .ok (completed state chunk))
include hlength hopen hcommit

theorem apply_arrived :
    (arrived state).applyAttachmentBulk suite (2 ^ 40) (some (record chunk)) control 9 =
      ⟨completed state chunk, .ok true⟩ := by
  have hne : openAttachmentChunk suite (target state).attachmentKey (target state).context 0 chunk ≠
      none := hopen.trans_ne (Option.some_ne_none _)
  have hacc : (staged state chunk).acceptChunk suite (target state) .primary
      ⟨object state, storedObject state chunk⟩ control 9 = .ok (completed state chunk) := by
    have hbytes : storedBytes suite (staged state chunk).media (target state).attachmentKey
        (target state).context (storedObject state chunk) = .ok [7] := stored_arrived hlength hopen
    have hhash : ¬ suite.hash [7] ≠ (storedObject state chunk).contentHash := not_not.mpr rfl
    unfold acceptChunk
    rwa [hbytes, ok_bind, if_neg hhash]
  show (arrived state).applyChunk suite (2 ^ 40) (record chunk) .primary 0 chunk control 9 = _
  unfold applyChunk
  rw [show (arrived state).chunkTarget (record chunk) .primary 0 control.peer =
    .ok (some (target state)) from rfl]
  dsimp only
  rw [if_neg hne, show (target state).object.localId = id 2 from rfl, stage_arrived hlength]
  show Effect.ofExcept (staged state chunk)
    (((staged state chunk).acceptChunk _ _ _ _ _ _).map _) = _
  rw [hacc]
  rfl

theorem run_arrived :
    (holding state).Run suite (fun _ => some (record chunk)) (fun _ op => Foreign (id 1) op)
      [.bulk control (2 ^ 40), .arrive control] (completed state chunk) := by
  have harr : (holding state).perform suite (fun _ => some (record chunk)) 8 (.arrive control) =
      arrived state := rfl
  have hbulk : (arrived state).perform suite (fun _ => some (record chunk)) 9
      (.bulk control (2 ^ 40)) = completed state chunk := by
    show Effect.state (Effect.andThen _ _) = _
    rw [apply_arrived hlength hopen hcommit]
    rfl
  rw [← hbulk, ← harr]
  exact .step 9 _ (.step 8 _ .start trivial) trivial

omit hlength hopen hcommit

/-- The one chunk of the attachment, as its author seals it. -/
def sealedChunk : Bytes := chunkPlaintext [7] ++ List.replicate 16 0

def decodeChunk (_ : Bytes) : Option (AttachmentBulkRecord Bytes) := some (record sealedChunk)

theorem length_sealedChunk : sealedChunk.length = attachmentSealedChunkLen := by
  rw [sealedChunk, length_append, length_chunkPlaintext (by decide), length_replicate]
  rfl

theorem open_sealedChunk :
    openAttachmentChunk suite (.replicate 32 5) (context state) 0 sealedChunk = some [7] := by
  refine openAttachmentChunk_of_decrypt suite ?_ length_sealedChunk ?_
  · have hix : validateContextIndex (context .offered) 0 = some 1 := by decide
    exact hix
  · show some (sealedChunk.take (sealedChunk.length - 16)) = some (chunkPlaintext [7])
    rw [length_sealedChunk, sealedChunk]
    exact congrArg some (take_left' (length_chunkPlaintext (by decide)))

-- evaluated with the chunk kept folded
attribute [local irreducible] sealedChunk in
theorem commit_sealedChunk (hstate : state = .awaitingConsent ∨ state = .rejected) :
    (staged state sealedChunk).commitChunk (target state) .primary (object state)
      (completedObject state sealedChunk) true control 9 = .ok (completed state sealedChunk) := by
  rcases hstate with rfl | rfl <;> rfl

/-- **A chunk comes before the decision, or after a refusal.**  The offer arrives, and the user may
reject it; its author sends the one chunk all the same, and the attachment is stored and
complete. -/
theorem chunk_before_consent :
    emptyNode.perform suite decodeChunk 5 (.offer offer) = holding .awaitingConsent ∧
    (holding .awaitingConsent).perform suite decodeChunk 5 (.reject (id 1)) = holding .rejected ∧
    sealAttachmentChunk suite manifest.attachmentKey (context .awaitingConsent) 0 [7] =
      some sealedChunk ∧
    ∀ state, state = .awaitingConsent ∨ state = .rejected →
      ∃ n', (holding state).Run suite decodeChunk
      (fun _ op => Foreign (id 1) op) [.bulk control (2 ^ 40), .arrive control] n' ∧
        (∃ row ∈ n'.media.transfers, row.localId = id 1 ∧ row.state = .complete) ∧
        (∃ object ∈ n'.media.objects, object.transferId = id 1 ∧ sealedChunk ∈ object.addresses) ∧
        ∀ cancelled, ¬ Kept (transfer state) cancelled (holding state) n' := by
  refine ⟨rfl, rfl, ?_, fun state hst => ⟨completed state sealedChunk,
    run_arrived length_sealedChunk open_sealedChunk (commit_sealedChunk hst), ?_, ?_,
    fun _ hkept => ?_⟩⟩
  · unfold sealAttachmentChunk
    rfl
  · exact ⟨completedTransfer, mem_singleton.mpr rfl, rfl, rfl⟩
  · exact ⟨completedObject state sealedChunk, mem_singleton.mpr rfl, rfl, mem_singleton.mpr rfl⟩
  · obtain ⟨-, -, hrow⟩ := hkept.transfer completedTransfer (mem_singleton.mpr rfl) rfl
    rcases hst with rfl | rfl <;> rcases hrow with hrow | ⟨-, hrow, -⟩ <;> cases hrow

end Sample

end Komms.Attachment.Node
