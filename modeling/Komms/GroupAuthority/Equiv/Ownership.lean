import Komms.GroupAuthority.Equiv.Codec
import Komms.GroupAuthority.Verify

/-!
# Group ownership cannot be forged

For signatures that verify only on bytes their key holder signed, an authority state that decodes
and verifies carries an unbroken chain of signed ownership transfers from the original owner to the
owner it names, and was itself signed for that owner, or for the previous one in the state that
enacts the last transfer (`ownership_unforgeable`).
-/

namespace Komms.GroupAuthority

open DeviceAuthority (Manifest)

variable {S : Suite} {P : Postcard} {log : Octets 32 → SignatureDomain → Bytes → Prop}

/-! ### Signatures on behalf of an account -/

/-- The device is active in a verified manifest of the account. -/
def ActiveDevice (S : Suite) (account device : Octets 32) : Prop :=
  ∃ manifest : Manifest, manifest.verify S = .ok () ∧
    manifest.account?.map IdentityPublic.ed = some account ∧
    (manifest.activeCertificate device).isSome = true

/-- A message signed by the account key or by an active device of the account. -/
def OnBehalf (S : Suite) (log : Octets 32 → SignatureDomain → Bytes → Prop) (account : Octets 32)
    (domain : SignatureDomain) (message : Bytes) : Prop :=
  log account domain message ∨
    ∃ device, ActiveDevice S account device ∧ log device domain message

variable {bytes : Bytes} {s : SignedState}

theorem activeDevice_of_verify {account device : Octets 32} {encoded : Bytes}
    (h : verifyGroupDeviceAuthority S P account device encoded = .ok ()) :
    ActiveDevice S account device := by
  simp only [verifyGroupDeviceAuthority, bind_eq_ok_iff, mapError_eq_ok_iff,
    rejectIf_eq_ok_iff, not_or, ne_eq, not_not] at h
  obtain ⟨manifest, hdec, hacc, hact⟩ := h
  simp only [Manifest.decode, bind_eq_ok_iff] at hdec
  obtain ⟨-, -, _, -, ⟨_, _⟩, -, -, -, ⟨⟩, hver, heq⟩ := hdec
  cases heq
  exact ⟨_, hver, hacc, Option.isSome_iff_ne_none.mpr hact⟩

theorem onBehalf_of_verifyTransfer (hS : S.Unforgeable log) {t : OwnerTransfer}
    (h : verifyTransfer S P t = .ok ()) :
    ∃ bytes, SaysTransfer bytes t.terms ∧ OnBehalf S log t.fromOwner .groupOwnerTransfer bytes := by
  unfold verifyTransfer at h
  by_cases hempty : t.fromAuthority = []
  · simp only [hempty, if_true, bind_eq_ok_iff, mapError_eq_ok_iff] at h
    obtain ⟨bytes, hbytes, hver⟩ := h
    exact ⟨bytes, ⟨t, rfl, .inl hbytes⟩, .inl (log_of_verifyPeerDomain hS hver)⟩
  · simp only [hempty, if_false, bind_eq_ok_iff, mapError_eq_ok_iff] at h
    obtain ⟨⟨⟩, hdev, bytes, hbytes, hver⟩ := h
    exact ⟨bytes, ⟨t, rfl, .inr hbytes⟩, .inr ⟨t.fromDevice, activeDevice_of_verify hdev,
      log_of_verifyPeerDomain hS hver⟩⟩

theorem onBehalf_of_verifyStateSignature (hS : S.Unforgeable log) {signing : Bytes}
    (h : verifyStateSignature S P s signing = .ok ()) :
    OnBehalf S log s.signer .groupAuthorityState signing := by
  unfold verifyStateSignature at h
  split_ifs at h with hleg hver
  · exact .inl (log_of_verifyPeerDomain hS (mapError_eq_ok_iff.mp h))
  · simp only [bind_eq_ok_iff, mapError_eq_ok_iff] at h
    obtain ⟨⟨⟩, hdev, hveri⟩ := h
    exact .inr ⟨s.signerDevice, activeDevice_of_verify hdev, log_of_verifyPeerDomain hS hveri⟩

/-! ### Ownership -/

/-- A transfer was signed for its previous owner, on bytes that say this transfer and no other. -/
def SignedTransfer (S : Suite) (log : Octets 32 → SignatureDomain → Bytes → Prop)
    (terms : TransferTerms) : Prop :=
  ∃ bytes, OnBehalf S log terms.fromOwner .groupOwnerTransfer bytes ∧
    ∀ said, SaysTransfer bytes said ↔ said = terms

/-- The ownership that a state asserts is backed by signatures. -/
structure Owned (S : Suite) (log : Octets 32 → SignatureDomain → Bytes → Prop) (s : SignedState) :
    Prop where
  /-- One row has the owner role, and it is the owner's. -/
  one_owner : (s.members.filter fun m => m.role = .owner).map Member.peer = [s.owner]
  /-- The transfers lead from the original owner to the owner. -/
  owners : (ownersFrom s.originalOwner s.transfers).getLast? = some s.owner
  /-- Step `i` hands the group on from owner `i` to owner `i + 1`, and owner `i` signed it. -/
  step : ∀ i t, s.transfers[i]? = some t →
    TransferStep s i (ownersFrom s.originalOwner s.transfers)[i]?
      (ownersFrom s.originalOwner s.transfers)[i + 1]? t ∧ SignedTransfer S log t.terms
  /-- The generations of the transfers increase. -/
  increasing : (s.transfers.map OwnerTransfer.generation).Pairwise (· < ·)
  /-- The state was signed for its signer, on bytes that say this state and no other. -/
  signed : ∃ bytes, OnBehalf S log s.signer .groupAuthorityState bytes ∧
    groupAuthorityStateSigningBytes s = .ok bytes ∧
    ∀ u, groupAuthorityStateSigningBytes u = .ok bytes → u.unsigned = s.unsigned
  /-- The signer is the owner, or the previous owner in the state that enacts the last transfer. -/
  signer : SignerRule s

/-- **Ownership cannot be forged.** -/
theorem ownership_unforgeable (hS : S.Unforgeable log) {payload : Bytes} {s : SignedState}
    {secret : Option (Octets 32)} (hdecode : decodeGroupAuthority payload = .state s)
    (hverify : verifyAuthorityState S P s secret = .ok ()) : Owned S log s := by
  have hval := validateState_valid (decodeGroupAuthority_valid hdecode)
  simp only [verifyAuthorityState, bind_eq_ok_iff, mapError_eq_ok_iff] at hverify
  obtain ⟨signing, hsig, ⟨⟩, hst, ⟨⟩, htrs, -⟩ := hverify
  rw [forEach_eq_ok_iff] at htrs
  refine ⟨hval.one_owner, hval.owner_last, ?_, ?_, ?_, hval.signer⟩
  · intro i t ht
    have hstep := hval.succession.steps i t ht
    rw [Nat.zero_add] at hstep
    obtain ⟨bytes, hsays, hsign⟩ :=
      onBehalf_of_verifyTransfer hS (htrs t (List.mem_of_getElem? ht))
    exact ⟨hstep, bytes, hsign, fun said => ⟨fun h => h.unique hsays, fun h => h ▸ hsays⟩⟩
  · have hch := List.isChain_iff_pairwise.mp hval.succession.increasing
    exact (List.pairwise_cons.mp hch).2
  · exact ⟨signing, onBehalf_of_verifyStateSignature hS hst, hsig,
      fun _ => signingBytes_unique hsig⟩

namespace Sample

def identity (b : UInt8) : IdentityPublic := ⟨peer b, peer b, .zero 64⟩

def postcard : Postcard where
  identity := fun bytes => bytes.head?.map identity
  manifest := fun _ => none

def signings : List (Octets 32 × SignatureDomain × Bytes) :=
  [(peer 1, .crossSign, (peer 1).toBytes), (peer 2, .crossSign, (peer 2).toBytes),
    (peer 1, .groupOwnerTransfer, transfer.legacyBytes),
    (peer 1, .groupAuthorityState, [transferState.version, opState, 0, 0] ++
      transferState.fieldBytes)]

def suite : Suite := .ofLog signings fun _ => .zero 32

theorem ownership_of_transferState : decodeGroupAuthority payload = .state transferState ∧
      verifyAuthorityState suite postcard transferState none = .ok () ∧
      Owned suite (fun key domain message => (key, domain, message) ∈ signings) transferState := by
  have hdec : decodeGroupAuthority payload = .state transferState := by decide +kernel
  have hver : verifyAuthorityState suite postcard transferState none = .ok () := by
    decide +kernel
  exact ⟨hdec, hver, ownership_unforgeable (Suite.ofLog_unforgeable signings _) hdec hver⟩

end Sample

end Komms.GroupAuthority
