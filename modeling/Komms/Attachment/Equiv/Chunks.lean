import Mathlib.Algebra.Order.BigOperators.Group.Finset
import Komms.Attachment.Equiv.Consent

/-!
# Chunks of a file

Chunks are staged in any order.  In every record this leads to, the bitmap, the slots and the count
of bytes say the same, and nothing that the code reads for them is out of range.

The chunks of a file are its consecutive pieces, each of which opens where it was sealed and nowhere
else: the associated data spells out the whole context and the index in fields of fixed width.
-/

namespace Komms.Attachment

open Finset (range)
open List hiding range

variable {Key Digest : Type}

/-- The bytes of the chunk in a slot, if it has one. -/
def slotLen (totalLen : ℕ) (slots : List (Option Digest)) (i : ℕ) : ℕ :=
  if (slots.getD i none).isSome then chunkLen totalLen i else 0

theorem verifiedBytesFrom_eq_sum (totalLen : ℕ) (slots : List (Option Digest)) (i : ℕ) :
    verifiedBytesFrom totalLen i slots = ∑ j ∈ range slots.length,
      if (slots.getD j none).isSome then chunkLen totalLen (i + j) else 0 := by
  induction slots generalizing i with
  | nil => rfl
  | cons slot slots ih =>
    rw [verifiedBytesFrom, ih, List.length_cons, Finset.sum_range_succ', add_comm]
    simp only [List.getD_cons_succ, List.getD_cons_zero, add_zero, add_assoc, add_comm 1]

theorem sum_chunkLen (totalLen n : ℕ) :
    ∑ i ∈ range n, chunkLen totalLen i = min totalLen (n * attachmentChunkDataLen) := by
  induction n with
  | zero => simp
  | succ n ih =>
    rw [Finset.sum_range_succ, ih]
    unfold chunkLen attachmentChunkDataLen
    omega

theorem lt_chunkCount_iff {totalLen i : ℕ} :
    i < chunkCount totalLen ↔ i * attachmentChunkDataLen < totalLen := by
  unfold chunkCount attachmentChunkDataLen
  split_ifs <;> omega

/-- A record whose three accounts of its chunks agree. -/
structure Exact [DecidableEq Digest] (S : Suite Key Digest) (record : MediaObjectRecord Digest) :
    Prop where
  valid : record.Valid
  /-- `bit_is_set` and `set_bit` find a byte, and `verified_bytes` subtracts no more than there
  is. -/
  slot : ∀ i < record.chunkAddresses.length,
    bitIsSet record.verifiedBitmap i = (record.chunkAddresses.getD i none).isSome ∧
      i / 8 < record.verifiedBitmap.length ∧ i * attachmentChunkDataLen < record.totalLen
  bytes : record.verifiedBytes =
    ∑ i ∈ range record.chunkAddresses.length, slotLen record.totalLen record.chunkAddresses i
  whole : record.verifiedBytes = record.totalLen ↔
    ∀ i < record.chunkAddresses.length, (record.chunkAddresses.getD i none).isSome = true
  /-- A chunk that is there changes nothing. -/
  again : ∀ (s s' : MediaStore Digest) available localId index sealedChunk after,
    record.chunkAddresses.getD index none ≠ none →
    s.stageMediaChunk S available localId index sealedChunk = .ok (s', ⟨record, after⟩) →
    s' = s ∧ after = record

section Progress

variable [DecidableEq Digest] {S : Suite Key Digest} {record record' : MediaObjectRecord Digest}

theorem MediaObjectRecord.Valid.exact (h : record.Valid) : Exact S record := by
  obtain ⟨-, hcnt, -, hbit, hslots, -, -, -, -, hbits, hbytes⟩ := id h
  have hstart : ∀ i < record.chunkAddresses.length, i * attachmentChunkDataLen < record.totalLen :=
    fun i hi => lt_chunkCount_iff.mp (hcnt ▸ hslots ▸ hi)
  have hsum : record.verifiedBytes = ∑ i ∈ range record.chunkAddresses.length,
      slotLen record.totalLen record.chunkAddresses i := by
    rw [← hbytes, verifiedBytesFrom_eq_sum]
    simp only [zero_add, slotLen]
  refine ⟨h, fun i hi => ⟨(hbits i hi).symm, ?_, hstart i hi⟩, hsum, ?_, ?_⟩
  · rw [hbit, bitmapLen]
    omega
  · -- every slot counts for at most its chunk, and all chunks together are the whole
    have hend := mt lt_chunkCount_iff.mpr (lt_irrefl (Attachment.chunkCount record.totalLen))
    have hall := sum_chunkLen record.totalLen record.chunkAddresses.length
    rw [hslots, hcnt, Nat.min_eq_left (not_lt.mp hend), ← hcnt, ← hslots] at hall
    have hiff := Finset.sum_eq_sum_iff_of_le (s := range record.chunkAddresses.length)
      (f := slotLen record.totalLen record.chunkAddresses) (g := chunkLen record.totalLen)
      fun i _ => by unfold slotLen; split_ifs <;> omega
    rw [← hsum, hall] at hiff
    refine hiff.trans (forall_congr' fun i => ?_)
    rw [Finset.mem_range]
    refine imp_congr_right fun hi => ?_
    have hpos : 0 < chunkLen record.totalLen i :=
      lt_min (Nat.sub_pos_of_lt (hstart i hi)) (by decide)
    unfold slotLen
    split_ifs with hslot
    · exact iff_of_true rfl hslot
    · exact iff_of_false hpos.ne hslot
  · intro s s' available localId index sealedChunk after hslot hstage
    obtain ⟨-, -, -, ⟨-, haft⟩ | ⟨hnone, -⟩, -, hstored⟩ := stageMediaChunk_eq_ok hstage
    · exact ⟨hstored hslot, haft⟩
    · exact absurd hnone hslot

/-- Staging a chunk in some store leads from a record to the next. -/
def Stages (S : Suite Key Digest) (record record' : MediaObjectRecord Digest) : Prop :=
  ∃ (s s' : MediaStore Digest) (available index : ℕ) (localId : Octets 16) (sealedChunk : Bytes),
    s.stageMediaChunk S available localId index sealedChunk = .ok (s', ⟨record, record'⟩)

theorem Stages.valid (h : Stages S record record') (hval : record.Valid) : record'.Valid := by
  obtain ⟨s, _, _, index, _, _, h⟩ := h
  obtain ⟨-, -, hix, ⟨-, haft⟩ | ⟨-, haft⟩, -⟩ := stageMediaChunk_eq_ok h
  · rwa [show record' = record from haft]
  · rw [show record' = record.withChunk index _ from haft]
    exact MediaObjectRecord.withChunk_valid hval hix

/-- **Progress is exact**, whatever chunks are staged, in whatever order and however often. -/
theorem progress_exact (S : Suite Key Digest) (record record' : MediaObjectRecord Digest)
    (hvalid : record.Valid) (hrun : Relation.ReflTransGen (Stages S) record record') :
    Exact S record' := by
  have hval' : record'.Valid := by
    induction hrun with
    | refl => exact hvalid
    | tail _ hstep ih => exact hstep.valid ih
  exact hval'.exact

end Progress

namespace Node.Sample

/-- An object of two whole chunks and a short one. -/
def longObject : MediaObjectRecord Bytes :=
  { object .awaitingConsent with
    totalLen := 2 * attachmentChunkDataLen + 5
    chunkCount := 3
    chunkAddresses := [none, none, none] }

/-- A store that has the object, and the file of a chunk already. -/
def storeOf (record : MediaObjectRecord Bytes) : MediaStore Bytes :=
  { emptyNode.media with
    objects := ⟨[record], nodup_singleton _⟩
    files := AList.insert sealedChunk sealedChunk ∅ }

theorem stages_withChunk {record : MediaObjectRecord Bytes} {index : ℕ}
    (hindex : index < record.chunkAddresses.length)
    (hslot : record.chunkAddresses.getD index none = none) :
    Stages suite record (record.withChunk index sealedChunk) := by
  refine ⟨storeOf record, storeOf record, 0, index, record.localId, sealedChunk, ?_⟩
  have hobject : (storeOf record).requireObject record.localId = .ok record := by
    exact required_eq_ok_iff.mpr (Keyed.get_eq_some_iff.mpr ⟨mem_singleton.mpr rfl, rfl⟩)
  have hfile : (storeOf record).files.lookup (suite.hash sealedChunk) = some sealedChunk :=
    AList.lookup_insert _
  rw [MediaStore.stageMediaChunk, rejectIf_bind_of_not (not_not.mpr length_sealedChunk), hobject,
    ok_bind, rejectIf_bind_of_not (Nat.not_le.mpr hindex)]
  dsimp only
  rw [hslot]
  dsimp only
  rw [MediaStore.writeChunk, if_pos hfile]
  rfl

/-- The short last chunk is staged first, then the first one. -/
theorem progress_exact_staged :
    let record := (longObject.withChunk 2 sealedChunk).withChunk 0 sealedChunk
    Exact suite record ∧ record.verifiedBytes = attachmentChunkDataLen + 5 := by
  refine ⟨progress_exact suite longObject _ (by decide) ?_, rfl⟩
  exact .tail (.single (stages_withChunk (by decide) rfl)) (stages_withChunk (by decide) rfl)

end Node.Sample

/-! ### Chunks of a file -/

variable {S : Suite Key Digest} {context context' : AttachmentChunkContext Digest}
  {index index' len len' : ℕ}

/-- The part of a file that goes into one chunk. -/
def piece (file : Bytes) (index : ℕ) : Bytes :=
  (file.drop (index * attachmentChunkDataLen)).take (chunkLen file.length index)

/-- What an ideal cipher grants a sealed plaintext. -/
structure Suite.Seals (S : Suite Key Digest) (key : Key) (ad plaintext : Bytes) : Prop where
  length : (S.aeadEncrypt key ad plaintext).length = plaintext.length + 16
  opens : S.aeadDecrypt key ad (S.aeadEncrypt key ad plaintext) = some plaintext
  only : ∀ key' ad' plaintext',
    S.aeadDecrypt key' ad' (S.aeadEncrypt key ad plaintext) = some plaintext' → ad' = ad

theorem length_piece (file : Bytes) (index : ℕ) :
    (piece file index).length = chunkLen file.length index := by
  rw [piece, length_take, length_drop]
  exact min_eq_left (min_le_left _ _)

theorem flatMap_piece (file : Bytes) (n : ℕ) :
    (List.range n).flatMap (piece file) = file.take (n * attachmentChunkDataLen) := by
  induction n with
  | zero => simp
  | succ n ih =>
    rw [range_succ, flatMap_append, ih, flatMap_singleton, Nat.succ_mul, take_add, piece]
    congr 1
    rw [take_eq_take_iff, length_drop, chunkLen]
    omega

theorem lt_of_validateContextIndex (h : validateContextIndex context index = some len) :
    context.totalLen < 256 ^ 8 ∧ context.chunkCount < 256 ^ 4 ∧ index < 256 ^ 4 := by
  obtain ⟨_, hmax, _, -⟩ := validateContextIndex_eq_some_iff.mp h
  have hmax' : context.totalLen ≤ 536870912 :=
    hmax.trans (by cases context.role <;> decide)
  have hchunk : chunkCount context.totalLen ≤ 10923 := by
    unfold chunkCount attachmentChunkDataLen
    split_ifs <;> omega
  omega

attribute [ext] AttachmentChunkContext

theorem AttachmentScope.code_inj : Function.Injective code := by
  intro a b h
  cases a <;> cases b <;> first | rfl | cases h

theorem AttachmentRole.code_inj : Function.Injective code := by
  intro a b h
  cases a <;> cases b <;> first | rfl | cases h

theorem chunkAd_inj (hdig : Function.Injective S.digestBytes) (key key' : Octets 32)
    (h : validateContextIndex context index = some len)
    (h' : validateContextIndex context' index' = some len')
    (had : (chunkKeyAndAd S key' context' index' len').2 =
      (chunkKeyAndAd S key context index len).2) :
    index' = index ∧ context' = context := by
  obtain ⟨htot, hcnt, hix⟩ := lt_of_validateContextIndex h
  obtain ⟨htot', hcnt', hix'⟩ := lt_of_validateContextIndex h'
  have hlen : (leBytes 4 len').length = (leBytes 4 len).length := by simp
  simp only [chunkKeyAndAd, append_assoc, append_cancel_left_eq, cons_append, nil_append,
    cons.injEq, Octets.append_inj_iff, leBytes_append_inj_iff hix' hix,
    leBytes_append_inj_iff htot' htot,
    append_inj_iff_of_length hlen, leBytes_append_inj_iff hcnt' hcnt] at had
  obtain ⟨hscope, hscopeId, haut, hcon, hobject, hrole, hi, ht, -, hc, hhash⟩ := had
  exact ⟨hi, AttachmentChunkContext.ext (AttachmentScope.code_inj hscope) hscopeId haut hcon hobject
    (AttachmentRole.code_inj hrole) ht hc (hdig hhash)⟩

/-- A file in its chunks. -/
structure Covered (S : Suite Key Digest) (attachmentKey : Octets 32)
    (context : AttachmentChunkContext Digest) (file : Bytes) : Prop where
  /-- Nothing underflows where the length of a chunk is computed, and no chunk is empty. -/
  lengths : ∀ i < context.chunkCount, i * attachmentChunkDataLen < context.totalLen ∧
    ∃ len, 0 < len ∧ validateContextIndex context i = some len ∧ (piece file i).length = len
  sum : ((List.range context.chunkCount).map fun i => (piece file i).length).sum = context.totalLen
  whole : (List.range context.chunkCount).flatMap (piece file) = file
  chunks : ∀ i < context.chunkCount, ∃ chunk,
    sealAttachmentChunk S attachmentKey context i (piece file i) = some chunk ∧
    openAttachmentChunk S attachmentKey context i chunk = some (piece file i) ∧
    ∀ key context' index data, openAttachmentChunk S key context' index chunk = some data →
      index = i ∧ context' = context

/-- **Chunks cover the file**, each bound to its place, if the cipher is ideal for what is
sealed. -/
theorem covered (S : Suite Key Digest) (attachmentKey : Octets 32)
    (context : AttachmentChunkContext Digest) (file : Bytes) (index : ℕ)
    (hacc : validateContextIndex context index ≠ none) (hfile : file.length = context.totalLen)
    (hdig : Function.Injective S.digestBytes)
    (hseal : ∀ i < context.chunkCount,
      S.Seals (chunkKeyAndAd S attachmentKey context i (piece file i).length).1
        (chunkKeyAndAd S attachmentKey context i (piece file i).length).2
        (chunkPlaintext (piece file i))) : Covered S attachmentKey context file := by
  obtain ⟨_, hlen⟩ := Option.ne_none_iff_exists'.mp hacc
  obtain ⟨hcnt, hmax, -⟩ := validateContextIndex_eq_some_iff.mp hlen
  have hval (i : ℕ) (hi : i < context.chunkCount) :
      validateContextIndex context i = some (piece file i).length :=
    validateContextIndex_eq_some_iff.mpr ⟨hcnt, hmax, hi, by rw [length_piece, hfile]⟩
  -- The pieces follow one another and the last ends the file.
  have hwhole : (List.range context.chunkCount).flatMap (piece file) = file := by
    rw [flatMap_piece, hcnt, take_of_length_le]
    rw [hfile]
    exact not_lt.mp (mt lt_chunkCount_iff.mpr (lt_irrefl _))
  refine ⟨fun i hi => ?_, ?_, hwhole, fun i hi => ?_⟩
  · have hstart := lt_chunkCount_iff.mp (hcnt ▸ hi)
    refine ⟨hstart, _, ?_, hval i hi, rfl⟩
    rw [length_piece, hfile]
    exact lt_min (Nat.sub_pos_of_lt hstart) (by decide)
  · rw [← hfile, ← length_flatMap, hwhole]
  · have hsealed := (hseal i hi).length
    rw [length_chunkPlaintext (by rw [length_piece]; exact chunkLen_le _ _)] at hsealed
    refine ⟨_, ?_, openAttachmentChunk_of_decrypt S (hval i hi) hsealed (hseal i hi).opens, ?_⟩
    · rw [sealAttachmentChunk, hval i hi, Option.bind_some, if_neg (not_not.mpr rfl)]
    -- Another key, context or index gives other associated data.
    · intro key context' index data hopen
      obtain ⟨_, hlen', hopen⟩ := Option.bind_eq_some_iff.mp hopen
      split_ifs at hopen
      obtain ⟨_, hdec, -⟩ := Option.bind_eq_some_iff.mp hopen
      exact chunkAd_inj hdig _ key (hval i hi) hlen' ((hseal i hi).only _ _ _ hdec)

namespace Node.Sample

/-- The context of an object of two whole chunks and a short one. -/
def longContext : AttachmentChunkContext Bytes :=
  { Sample.context .queued with totalLen := 2 * attachmentChunkDataLen + 5, chunkCount := 3 }

/-- What the three chunks are bound to. -/
def places : List Bytes :=
  (List.range 3).map fun i =>
    (chunkKeyAndAd suite me longContext i (chunkLen longContext.totalLen i)).2

def tag (ad : Bytes) : Bytes := replicate 16 (.ofNat (places.idxOf ad))

/-- A suite that seals the three chunks, each with the tag of its place. -/
def bindingSuite : Suite Unit Bytes :=
  { suite with
    aeadEncrypt := fun _ ad plaintext => plaintext ++ tag ad
    aeadDecrypt := fun _ ad chunk =>
      if ad ∈ places ∧ chunk.drop (chunk.length - 16) = tag ad then
        some (chunk.take (chunk.length - 16)) else none }

theorem length_tag (ad : Bytes) : (tag ad).length = 16 := length_replicate

theorem tag_inj {ad ad' : Bytes} (had : ad ∈ places) (had' : ad' ∈ places) (h : tag ad' = tag ad) :
    ad' = ad := by
  have hlt : places.idxOf ad < 3 := idxOf_lt_length_of_mem had
  have hlt' : places.idxOf ad' < 3 := idxOf_lt_length_of_mem had'
  have hbyte : UInt8.ofNat (places.idxOf ad') = UInt8.ofNat (places.idxOf ad) := by
    simpa [tag] using h
  have hidx : places.idxOf ad' = places.idxOf ad := by
    have hnat := congrArg UInt8.toNat hbyte
    simpa [Nat.mod_eq_of_lt, hlt.trans, hlt'.trans] using hnat
  exact (idxOf_inj had').mp hidx

theorem seals_of_mem_places (key : Unit) {ad : Bytes} (had : ad ∈ places) (plaintext : Bytes) :
    bindingSuite.Seals key ad plaintext := by
  have hlen : (plaintext ++ tag ad).length - 16 = plaintext.length := by simp [length_tag]
  refine ⟨by simp [bindingSuite, length_tag], ?_, fun _ ad' _ hopen => ?_⟩
  · unfold bindingSuite
    dsimp only
    rw [hlen, if_pos ⟨had, drop_left⟩, take_left]
  · unfold bindingSuite at hopen
    dsimp only at hopen
    rw [hlen, drop_left] at hopen
    split_ifs at hopen with hplace
    exact tag_inj had hplace.1 hplace.2.symm

/-- A file of three chunks, the last of them short. -/
theorem covered_three :
    Covered bindingSuite me longContext (replicate (2 * attachmentChunkDataLen + 5) 7) := by
  have hlength : (replicate (2 * attachmentChunkDataLen + 5) 7 : Bytes).length =
      longContext.totalLen := length_replicate
  refine covered bindingSuite me longContext _ 0 (by decide) hlength Function.injective_id
    fun i hi => seals_of_mem_places _ ?_ _
  rw [length_piece, hlength]
  exact mem_map.mpr ⟨i, List.mem_range.mpr hi, rfl⟩

end Node.Sample

end Komms.Attachment
