import Komms.GroupAuthority.Equiv.Structure

/-!
# The bytes of a state

* `SaysTransfer.unique`, `signingBytes_unique`: bytes that a signature covers are the bytes of one
  transfer, or of one state up to its signature.
* `decodeGroupAuthority_encode`: what `encodeGroupAuthorityState` writes, `decodeGroupAuthority`
  reads back.  The capacity the encoder reserves is the exact length of what it writes, so its size
  check is the one the decoder repeats.
* `encode_of_decodeGroupAuthority`: what is decoded has no other encoding.
-/

namespace Komms.GroupAuthority

open List Except Octets

/-! ### Transfers -/

/-- What an ownership transfer says. -/
structure TransferTerms where
  group : Octets 32
  epoch : UInt64
  generation : UInt64
  priorStateId : Octets 16
  fromOwner : Octets 32
  toOwner : Octets 32
  deriving DecidableEq

def OwnerTransfer.terms (t : OwnerTransfer) : TransferTerms where
  group := t.group
  epoch := t.epoch
  generation := t.generation
  priorStateId := t.priorStateId
  fromOwner := t.fromOwner
  toOwner := t.toOwner

@[simp] theorem length_legacyBytes (t : OwnerTransfer) : t.legacyBytes.length = 128 := by
  simp [OwnerTransfer.legacyBytes]

variable {t : OwnerTransfer} {bytes : Bytes} {version : UInt8} {s : SignedState}

theorem terms_eq_of_legacyBytes_eq {u : OwnerTransfer} (h : t.legacyBytes = u.legacyBytes) :
    t.terms = u.terms := by
  simp only [OwnerTransfer.legacyBytes, append_assoc, append_inj_iff, u64_append_inj_iff,
    ← Octets.ext_iff] at h
  exact (TransferTerms.mk.injEq ..).mpr h

/-- The bytes are those of a transfer with the given terms, signed by an account key or by a
device. -/
def SaysTransfer (bytes : Bytes) (terms : TransferTerms) : Prop :=
  ∃ t : OwnerTransfer, t.terms = terms ∧
    (ownerTransferSigningBytes t = .ok bytes ∨ ownerTransferDeviceSigningBytes t = .ok bytes)

theorem ownerTransferSigningBytes_eq_ok (h : ownerTransferSigningBytes t = .ok bytes) :
    bytes = t.legacyBytes := by
  simp only [ownerTransferSigningBytes, check_bind_eq_ok_iff, ok.injEq] at h
  exact h.2.symm

theorem ownerTransferDeviceSigningBytes_eq_ok (h : ownerTransferDeviceSigningBytes t = .ok bytes) :
    ∃ rest, bytes = (groupAuthorityVersion :: t.legacyBytes) ++ rest := by
  simp only [ownerTransferDeviceSigningBytes, bind_eq_ok_iff, ok.injEq] at h
  obtain ⟨-, -, _, hleg, rfl⟩ := h
  rw [ownerTransferSigningBytes_eq_ok hleg]
  exact ⟨_, by rw [append_assoc, append_assoc]⟩

/-- **Transfer bytes are unambiguous.** -/
theorem SaysTransfer.unique {a b : TransferTerms} (ha : SaysTransfer bytes a)
    (hb : SaysTransfer bytes b) : a = b := by
  obtain ⟨t, rfl, ht⟩ := ha
  obtain ⟨u, rfl, hu⟩ := hb
  rcases ht with ht | ht <;> rcases hu with hu | hu
  · exact terms_eq_of_legacyBytes_eq
      ((ownerTransferSigningBytes_eq_ok ht).symm.trans (ownerTransferSigningBytes_eq_ok hu))
  · -- an account-signed certificate has 128 bytes, a device-signed one more
    obtain ⟨rest, hrest⟩ := ownerTransferDeviceSigningBytes_eq_ok hu
    have hlen := congrArg List.length ((ownerTransferSigningBytes_eq_ok ht).symm.trans hrest)
    simp at hlen
    omega
  · obtain ⟨_, hrest⟩ := ownerTransferDeviceSigningBytes_eq_ok ht
    have hlen := congrArg List.length ((ownerTransferSigningBytes_eq_ok hu).symm.trans hrest)
    simp at hlen
    omega
  · obtain ⟨r, hr⟩ := ownerTransferDeviceSigningBytes_eq_ok ht
    obtain ⟨_, hr'⟩ := ownerTransferDeviceSigningBytes_eq_ok hu
    obtain ⟨hcons, -⟩ := append_inj (hr.symm.trans hr') (by simp)
    exact terms_eq_of_legacyBytes_eq (List.cons.inj hcons).2

/-! ### States -/

/-- The bounds under which a proof field is read back. -/
theorem reads_proofBytes {needed : Bool} {device : Octets 32} {authority : Bytes}
    (hle : authority.length ≤ maxGroupDeviceAuthorityBytes)
    (hneed : version = groupAuthorityVersion → needed = true → authority ≠ [])
    (hleg : version ≠ groupAuthorityVersion → device = .zero 32 ∧ authority = []) :
    Reads (decodeProof version needed) (proofBytes version device authority)
      (device, authority) := by
  unfold decodeProof proofBytes
  by_cases hv : version = groupAuthorityVersion
  · rw [if_pos hv, if_pos hv]
    have hlen : authority.length < 256 ^ 4 := Nat.lt_of_le_of_lt hle (by decide)
    have hok : ¬ ((needed = true ∧ authority.length = 0) ∨
        authority.length > maxGroupDeviceAuthorityBytes) := by
      rw [not_or, not_lt]
      exact ⟨fun h => hneed hv h.1 (eq_nil_of_length_eq_zero h.2), hle⟩
    exact (reads_octets _ device).bind ((reads_le _ hlen).bind ((reads_reject hok).bind_nil
      ((reads_take rfl).bind_last (reads_pure (device, authority)))))
  · rw [if_neg hv, if_neg hv, (hleg hv).1, (hleg hv).2]
    exact reads_pure _

theorem reads_memberBytes {m : Member} (hne : m.identity ≠ [])
    (hle : m.identity.length ≤ maxGroupMemberIdentityLen) : Reads decodeMember m.bytes m := by
  have hlen : m.identity.length < 256 ^ 2 := Nat.lt_of_le_of_lt hle (by decide)
  have hcode : m.role.code < 256 ^ 1 := by cases m.role <;> decide
  have hok : ¬ (m.identity.length = 0 ∨ m.identity.length > maxGroupMemberIdentityLen) := by
    rw [not_or, not_lt]
    exact ⟨fun h => hne (eq_nil_of_length_eq_zero h), hle⟩
  refine (reads_octets _ m.peer).bind ((reads_le _ hcode).bind ?_)
  rw [GroupRole.decode_code]
  exact reads_require.bind_nil ((reads_le _ hlen).bind ((reads_reject hok).bind_nil
    ((reads_take rfl).bind_last (reads_pure m))))

/-- The proof of a transfer inside a valid state. -/
structure OwnerTransfer.ProofFits (version : UInt8) (t : OwnerTransfer) : Prop where
  le : t.fromAuthority.length ≤ maxGroupDeviceAuthorityBytes
  legacy : version ≠ groupAuthorityVersion → t.fromDevice = .zero 32 ∧ t.fromAuthority = []

theorem reads_transferBytes (h : t.ProofFits version) :
    Reads (decodeTransfer version t.group) (t.bytes version) t :=
  (reads_u64 _ t.epoch).bind ((reads_u64 _ t.generation).bind
    ((reads_octets _ t.priorStateId).bind ((reads_octets _ t.fromOwner).bind
      ((reads_octets _ t.toOwner).bind
        ((reads_proofBytes h.le (fun _ hf => by cases hf) h.legacy).bind
          ((reads_octets _ t.signature).bind_last (reads_pure t)))))))

/-- The proofs that `validate_state` asks for are the ones the decoder reads. -/
theorem proofFits_of_validateProofs (h : validateProofs s = .ok ()) :
    (s.signerAuthority.length ≤ maxGroupDeviceAuthorityBytes ∧
      (s.version = groupAuthorityVersion → s.signerAuthority ≠ []) ∧
      (s.version ≠ groupAuthorityVersion → s.signerDevice = .zero 32 ∧ s.signerAuthority = [])) ∧
    ∀ t ∈ s.transfers, t.ProofFits s.version := by
  unfold validateProofs at h
  by_cases hv : s.version = groupAuthorityVersion
  · rw [if_pos hv, rejectIf_eq_ok_iff] at h
    simp only [not_or, not_lt, any_eq_true, not_exists, not_and] at h
    obtain ⟨-, hne, hle, htrs⟩ := h
    refine ⟨⟨hle, fun _ => hne, fun hv' => absurd hv hv'⟩,
      fun t ht => ⟨?_, fun hv' => absurd hv hv'⟩⟩
    by_cases hleg : t.isLegacy = true
    · have hempty : t.fromAuthority = [] := by simp_all [OwnerTransfer.isLegacy]
      rw [hempty]
      exact Nat.zero_le _
    · simp_all [OwnerTransfer.isDeviceAuthorized]
  · rw [if_neg hv, rejectIf_eq_ok_iff] at h
    simp only [not_or, ne_eq, not_not, any_eq_true, not_exists, not_and] at h
    obtain ⟨hdev, hempty, htrs⟩ := h
    refine ⟨⟨by simp [hempty], fun hv' => absurd hv' hv, fun _ => ⟨hdev, hempty⟩⟩, ?_⟩
    intro t ht
    have hkind := htrs t ht
    have hboth : t.fromDevice = .zero 32 ∧ t.fromAuthority = [] := by simpa using hkind
    exact ⟨by simp [hboth.2], fun _ => hboth⟩

/-- A state without its signature, as the decoder of the signed fields returns it. -/
def SignedState.unsigned (s : SignedState) : SignedState := { s with signature := .zero 64 }

/-- **The decoder reads back the fields of a valid state.** -/
theorem reads_fieldBytes (h : s.Valid) :
    Reads (decodeFields s.version) s.fieldBytes s.unsigned := by
  obtain ⟨⟨hle, hne, hleg⟩, hfits⟩ := proofFits_of_validateProofs h.proofs
  -- The lengths fit their fields.
  have hname : s.name.bytes.length < 256 ^ 2 := Nat.lt_of_le_of_lt h.name_le (by decide)
  have hmem : s.members.length < 256 ^ 1 := Nat.lt_of_le_of_lt h.members_le (by decide)
  have htrs : s.transfers.length < 256 ^ 1 := Nat.lt_of_le_of_lt h.transfers_le (by decide)
  have hok : ¬ (s.name.bytes.length = 0 ∨ s.name.bytes.length > maxGroupNameLen ∨
      s.members.length = 0 ∨ s.members.length > maxGroupAuthorityMembers ∨
      s.transfers.length > maxGroupAuthorityMembers) := by
    have hn := length_pos_of_ne_nil h.name_ne
    have hm := length_pos_of_ne_nil h.members_ne
    have := h.name_le
    have := h.members_le
    have := h.transfers_le
    omega
  have hrows : Reads (Parser.times decodeMember s.members.length)
      (s.members.flatMap Member.bytes) s.members :=
    reads_times fun m hm => reads_memberBytes (h.identities m hm).1 (h.identities m hm).2
  have hch : Reads (Parser.times (decodeTransfer s.version s.group) s.transfers.length)
      (s.transfers.flatMap (OwnerTransfer.bytes s.version)) s.transfers := by
    refine reads_times fun t ht => ?_
    obtain ⟨i, hi⟩ := mem_iff_getElem?.mp ht
    rw [← (h.succession.steps i t hi).group_eq]
    exact reads_transferBytes (hfits t ht)
  -- The fields, in the order of the encoder.
  refine (reads_octets _ s.group).bind ((reads_u64 _ s.generation).bind
    ((reads_u64 _ s.ownerEpoch).bind ((reads_octets _ s.originalOwner).bind
      ((reads_octets _ s.owner).bind ((reads_octets _ s.signer).bind
        ((reads_proofBytes hle (fun hv _ => hne hv) hleg).bind ((reads_octets _ s.priorStateId).bind
          ((reads_le _ hname).bind ((reads_le _ hmem).bind ((reads_le _ htrs).bind
            ((reads_octets _ s.secretHash).bind ((reads_reject hok).bind_nil
              ((reads_take rfl).bind ?_)))))))))))))
  rw [Utf8.ofBytes?_eq_some_iff.mpr rfl]
  exact reads_require.bind_nil (hrows.bind (hch.bind_last (reads_pure _)))

theorem signingBytes_eq_ok (h : groupAuthorityStateSigningBytes s = .ok bytes) :
    s.Valid ∧ bytes = [s.version, opState, 0, 0] ++ s.fieldBytes := by
  simp only [groupAuthorityStateSigningBytes, check_bind_eq_ok_iff, ok.injEq] at h
  exact ⟨validateState_valid h.1, h.2.2.symm⟩

/-- **State bytes are unambiguous.** -/
theorem signingBytes_unique {u : SignedState} (hs : groupAuthorityStateSigningBytes s = .ok bytes)
    (hu : groupAuthorityStateSigningBytes u = .ok bytes) :
    u.unsigned = s.unsigned := by
  obtain ⟨hsv, hsb⟩ := signingBytes_eq_ok hs
  obtain ⟨huv, hub⟩ := signingBytes_eq_ok hu
  obtain ⟨hhead, hfields⟩ := append_inj (hub.symm.trans hsb) (by simp)
  have hver : u.version = s.version := (List.cons.inj hhead).1
  have hread := reads_fieldBytes huv
  rw [hver, hfields] at hread
  exact hread.inj (reads_fieldBytes hsv)

open Komms.Parser

/-! ### Lengths -/

theorem length_proofBytes (version : UInt8) (device : Octets 32) (authority : Bytes) :
    (proofBytes version device authority).length =
      if version = groupAuthorityVersion then 36 + authority.length else 0 := by
  unfold proofBytes
  split_ifs
  · simp
    omega
  · rfl

theorem length_memberBytes (m : Member) : m.bytes.length = memberHeaderLen + m.identity.length := by
  simp [Member.bytes, memberHeaderLen]
  omega

theorem length_transferBytes (version : UInt8) (t : OwnerTransfer) :
    (t.bytes version).length = t.encodedLen version := by
  simp only [OwnerTransfer.bytes, length_append, length_leBytes, Octets.length_toBytes,
    length_proofBytes, OwnerTransfer.encodedLen, transferFixedLenV2, transferLenV1]
  split_ifs <;> omega

theorem length_fieldBytes (s : SignedState) : 4 + s.fieldBytes.length = s.capacity := by
  have hmem : (s.members.flatMap Member.bytes).length =
      (s.members.map fun m => memberHeaderLen + m.identity.length).sum := by
    rw [length_flatMap]
    simp only [length_memberBytes]
  have htrs : (s.transfers.flatMap (OwnerTransfer.bytes s.version)).length =
      (s.transfers.map (OwnerTransfer.encodedLen s.version)).sum := by
    rw [length_flatMap]
    simp only [length_transferBytes]
  simp only [SignedState.fieldBytes, length_append, length_leBytes, Octets.length_toBytes,
    length_proofBytes, hmem, htrs, SignedState.capacity, SignedState.headerLen,
    headerLenV2, headerLenV1]
  split_ifs <;> omega

theorem minHeaderLen_le_capacity (s : SignedState) : minHeaderLen s.version ≤ s.capacity := by
  unfold SignedState.capacity SignedState.headerLen minHeaderLen
  split_ifs <;> omega

/-! ### The round trip -/

theorem decodeState_fieldBytes {s : SignedState} (h : validateState s = .ok ()) :
    decodeState s.version (s.fieldBytes ++ s.signature.toBytes) = .ok s := by
  have hfields := reads_fieldBytes (validateState_valid h) s.signature.toBytes
  have hsig := reads_octets ProtocolError.malformed s.signature []
  rw [append_nil] at hsig
  have hst : { s.unsigned with signature := s.signature } = s := rfl
  rw [decodeState, hfields, ok_bind]
  simp only [hsig, ok_bind, hst]
  rw [rejectIf_bind_of_not (by simp), h]
  rfl

/-- **Encoded states decode to themselves.** -/
theorem decodeGroupAuthority_encode {s : SignedState} {payload : Bytes}
    (h : encodeGroupAuthorityState s = .ok payload) : decodeGroupAuthority payload = .state s := by
  simp only [encodeGroupAuthorityState, groupAuthorityStateSigningBytes, bind_eq_ok_iff,
    rejectIf_eq_ok_iff, Except.ok.injEq, not_lt] at h
  obtain ⟨_, ⟨⟨⟩, hval, ⟨⟩, _, rfl⟩, rfl⟩ := h
  have hlen : ([s.version, opState, 0, 0] ++ s.fieldBytes ++ s.signature.toBytes).length =
      s.capacity + 64 := by
    rw [← length_fieldBytes s]
    simp
    omega
  have hver := (validateState_valid hval).version_eq
  have hmin := minHeaderLen_le_capacity s
  simp only [cons_append, nil_append] at hlen ⊢
  simp only [decodeGroupAuthority]
  rw [if_neg (by omega), if_neg (by tauto),
    if_neg (by simp only [hlen, ne_eq, not_true, false_or]; omega), decodeState_fieldBytes hval]

/-! ### What is accepted is canonical -/

variable {version : UInt8} {input rest : Bytes} {s : SignedState}

theorem proofBytes_of_decodeProof {needed : Bool} {device : Octets 32} {authority : Bytes}
    (h : decodeProof version needed input = .ok ((device, authority), rest)) :
    input = proofBytes version device authority ++ rest := by
  unfold decodeProof at h
  unfold proofBytes
  split_ifs at h ⊢
  · simp only [Parser.bind_eq_ok_iff, octets_eq_ok_iff, le_eq_ok_iff, reject_eq_ok_iff,
      take_eq_ok_iff, pure_eq_ok_iff, Prod.mk.injEq] at h
    obtain ⟨_, _, rfl, _, _, ⟨-, rfl⟩, _, _, ⟨-, rfl⟩, _, _, ⟨rfl, rfl⟩, ⟨rfl, rfl⟩, rfl⟩ := h
    simp
  · obtain ⟨-, rfl⟩ := pure_eq_ok_iff.mp h
    rfl

theorem memberBytes_of_decodeMember {m : Member} (h : decodeMember input = .ok (m, rest)) :
    input = m.bytes ++ rest := by
  simp only [decodeMember, Parser.bind_eq_ok_iff, octets_eq_ok_iff, le_eq_ok_iff, require_eq_ok_iff,
    reject_eq_ok_iff, take_eq_ok_iff, pure_eq_ok_iff] at h
  obtain ⟨_, _, rfl, _, _, ⟨-, rfl⟩, role, _, ⟨hrole, rfl⟩, _, _, ⟨-, rfl⟩, _, _, ⟨-, rfl⟩, _, _,
    ⟨rfl, rfl⟩, rfl, rfl⟩ := h
  simp [Member.bytes, GroupRole.code_of_decode hrole]

theorem transferBytes_of_decodeTransfer {group : Octets 32} {t : OwnerTransfer}
    (h : decodeTransfer version group input = .ok (t, rest)) : input = t.bytes version ++ rest := by
  simp only [decodeTransfer, Parser.bind_eq_ok_iff, octets_eq_ok_iff, u64_eq_ok_iff,
    pure_eq_ok_iff] at h
  obtain ⟨_, _, rfl, _, _, rfl, _, _, rfl, _, _, rfl, _, _, rfl, _, _, hproof, _, _, rfl, rfl,
    rfl⟩ := h
  rw [proofBytes_of_decodeProof hproof]
  simp [OwnerTransfer.bytes]

theorem fieldBytes_of_decodeFields (h : decodeFields version input = .ok (s, rest)) :
    s.version = version ∧ input = s.fieldBytes ++ rest := by
  simp only [decodeFields, Parser.bind_eq_ok_iff, octets_eq_ok_iff, u64_eq_ok_iff, le_eq_ok_iff,
    reject_eq_ok_iff, take_eq_ok_iff, require_eq_ok_iff, Utf8.ofBytes?_eq_some_iff,
    pure_eq_ok_iff] at h
  obtain ⟨_, _, rfl, _, _, rfl, _, _, rfl, _, _, rfl, _, _, rfl, _, _, rfl, _, _, hproof, _, _, rfl,
    _, _, ⟨-, rfl⟩, _, _, ⟨-, rfl⟩, _, _, ⟨-, rfl⟩, _, _, rfl, _, _, ⟨-, rfl⟩, _, _, ⟨rfl, rfl⟩,
    _, _, ⟨rfl, rfl⟩, _, _, hmem, _, _, htrs, rfl, rfl⟩ := h
  obtain ⟨rfl, rfl⟩ := times_eq_ok memberBytes_of_decodeMember hmem
  obtain ⟨rfl, rfl⟩ := times_eq_ok transferBytes_of_decodeTransfer htrs
  rw [proofBytes_of_decodeProof hproof]
  simp [SignedState.fieldBytes]

theorem decodeState_eq_ok (h : decodeState version input = .ok s) :
    s.version = version ∧ input = s.fieldBytes ++ s.signature.toBytes ∧
      validateState s = .ok () := by
  simp only [decodeState, Komms.bind_eq_ok_iff, Prod.exists, rejectIf_eq_ok_iff, not_not] at h
  obtain ⟨_, _, hfields, _, _, hsig, -, rfl, ⟨⟩, hval, ⟨⟩⟩ := h
  obtain ⟨rfl, rfl⟩ := fieldBytes_of_decodeFields hfields
  rw [octets_eq_ok_iff.mp hsig, append_nil]
  exact ⟨rfl, rfl, hval⟩

/-- **What is decoded encodes to itself.** -/
theorem encode_of_decodeGroupAuthority {payload : Bytes}
    (h : decodeGroupAuthority payload = .state s) : encodeGroupAuthorityState s = .ok payload := by
  unfold decodeGroupAuthority at h
  split at h
  · split_ifs at h with hlen hver hhead
    split at h
    · next version op r₁ r₂ input _ _ hst =>
      cases h
      obtain ⟨rfl, rfl, hval⟩ := decodeState_eq_ok hst
      simp only [not_or, not_not] at hhead
      obtain ⟨rfl, rfl, rfl, -⟩ := hhead
      have hcap : ¬ s.capacity + 64 > maxGroupAuthorityStateBytes := by
        rw [← length_fieldBytes]
        simp only [length_cons, length_append, Octets.length_toBytes] at hlen
        omega
      simp only [encodeGroupAuthorityState, groupAuthorityStateSigningBytes, hval, ok_bind,
        rejectIf_bind_of_not hcap]
      rfl
    · cases h
  · cases h

theorem decodeGroupAuthority_valid {payload : Bytes} (h : decodeGroupAuthority payload = .state s) :
    validateState s = .ok () := by
  have henc := encode_of_decodeGroupAuthority h
  simp only [encodeGroupAuthorityState, groupAuthorityStateSigningBytes,
    Komms.bind_eq_ok_iff] at henc
  obtain ⟨_, ⟨⟨⟩, hval, -⟩, -⟩ := henc
  exact hval

/-- **Group-authority states are a canonical codec**: a payload is the encoding of a state just when
it decodes to it, and bytes that are signed are the bytes of one state up to its signature. -/
theorem authority_codec_canonical :
    (∀ s payload, encodeGroupAuthorityState s = .ok payload ↔
      decodeGroupAuthority payload = .state s) ∧
    ∀ s u bytes, groupAuthorityStateSigningBytes s = .ok bytes →
      groupAuthorityStateSigningBytes u = .ok bytes → u.unsigned = s.unsigned :=
  ⟨fun _ _ => ⟨decodeGroupAuthority_encode, encode_of_decodeGroupAuthority⟩,
    fun _ _ _ => signingBytes_unique⟩

namespace Sample

/-- Member `b` of a small group, whose identity is encoded by that byte. -/
def peer (b : UInt8) : Octets 32 := .replicate 32 b

/-- Owner 1 hands the group over to member 2. -/
def transfer : OwnerTransfer where
  group := peer 9
  epoch := 1
  generation := 7
  priorStateId := .replicate 16 5
  fromOwner := peer 1
  toOwner := peer 2
  fromDevice := .zero 32
  fromAuthority := []
  signature := .zero 64

/-- The state that enacts the transfer, signed by the previous owner. -/
def transferState : SignedState where
  version := legacyGroupAuthorityVersion
  group := peer 9
  generation := 7
  ownerEpoch := 1
  originalOwner := peer 1
  owner := peer 2
  signer := peer 1
  signerDevice := .zero 32
  signerAuthority := []
  priorStateId := .replicate 16 5
  name := ⟨[0x67], by decide⟩
  members := [⟨peer 1, [1], .admin⟩, ⟨peer 2, [2], .owner⟩]
  secretHash := .zero 32
  transfers := [transfer]
  signature := .zero 64

def payload : Bytes :=
  [transferState.version, opState, 0, 0] ++ transferState.fieldBytes ++ (Octets.zero 64).toBytes

theorem codec_of_transferState : encodeGroupAuthorityState transferState = .ok payload ∧
    decodeGroupAuthority payload = .state transferState := by
  have henc : encodeGroupAuthorityState transferState = .ok payload := by decide +kernel
  exact ⟨henc, (authority_codec_canonical.1 _ _).mp henc⟩

end Sample

end Komms.GroupAuthority
