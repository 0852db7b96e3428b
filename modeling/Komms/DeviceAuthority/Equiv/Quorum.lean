import Mathlib.Data.Finset.Card
import Komms.DeviceAuthority.Equiv.History

/-!
# Quorums of devices

An ordinary transition carries the approvals of a strict majority of the devices that are active in
its parent (`Approved`).  Two majorities of one state share a device, and a device that was revoked
is in no later majority (`quorum_intersection_and_revocation`).
-/

namespace Komms.DeviceAuthority

open List

section Quorum

variable {S : Suite}

/-- The devices whose approval a transition carries. -/
def Transition.signers (t : Transition) : List (Octets 32) :=
  match t.authorization with
  | .devices signatures => signatures.map Approval.signer
  | .root _ => []

def activeIds (devices : List Entry) : List (Octets 32) :=
  (devices.filter Entry.isActive).map Entry.deviceId

theorem mem_activeIds {devices : List Entry} {id : Octets 32} :
    id ∈ activeIds devices ↔ ∃ e ∈ devices, e.isActive = true ∧ e.deviceId = id := by
  simp [activeIds, and_assoc]

theorem length_activeIds (devices : List Entry) :
    (activeIds devices).length = activeCount devices := by
  rw [activeIds, length_map, activeCount, countP_eq_length_filter]

/-! ### Approvals -/

/-- The loop over the approvals: ascending signers, each an active device that signed the
message. -/
theorem verifyApprovals_eq_ok {parent : List Entry} {message : Bytes} {prior : Option (Octets 32)}
    {approvals : List Approval} (h : verifyApprovals S parent message prior approvals = .ok ()) :
    (prior.toList ++ approvals.map Approval.signer).IsChain (· < ·) ∧
      ∀ a ∈ approvals, a.signer ∈ activeIds parent ∧
        verifyPeerDomain S a.signer .authorityTransition message a.signature = .ok () := by
  induction approvals generalizing prior with
  | nil => cases prior <;> simp
  | cons approval rest ih =>
    simp only [verifyApprovals, bind_eq_ok_iff, rejectIf_eq_ok_iff, required_eq_ok_iff] at h
    obtain ⟨-, hprior, entry, hentry, ⟨⟩, hver, hrest⟩ := h
    obtain ⟨hch, hother⟩ := ih hrest
    have hfnd : entry.deviceId = approval.signer ∧ entry.isActive = true := by
      simpa using find?_some hentry
    have hmem : entry ∈ parent := mem_of_find?_eq_some hentry
    refine ⟨?_, forall_mem_cons.mpr ⟨⟨?_, ?_⟩, hother⟩⟩
    · rw [map_cons, isChain_prior_cons]
      exact ⟨hprior, hch⟩
    · exact mem_activeIds.mpr ⟨entry, hmem, hfnd.2, hfnd.1⟩
    · rw [← hfnd.1]
      exact hver

/-- What the approvals of an ordinary transition show. -/
structure Approved (S : Suite) (parent candidate : Transition) : Prop where
  active : ∀ id ∈ candidate.signers, id ∈ activeIds parent.devices
  nodup : candidate.signers.Nodup
  majority : activeCount parent.devices < 2 * candidate.signers.length
  signed : ∀ id ∈ candidate.signers, ∃ signature,
    verifyPeerDomain S id .authorityTransition candidate.canonical signature = .ok ()

theorem approved_of_verifyTransition {parent candidate : Transition}
    (h : verifyTransition S parent candidate true = .ok ()) (hkind : candidate.kind ≠ .recovery) :
    Approved S parent candidate := by
  obtain ⟨hrec, -⟩ | ⟨-, -, hord⟩ := verifyTransition_eq_ok h
  · exact absurd hrec hkind
  rw [verifyOrdinary, check_bind_eq_ok_iff, check_bind_eq_ok_iff] at hord
  obtain ⟨-, -, happ⟩ := hord
  cases haut : candidate.authorization with
  | root signature => simp [haut] at happ
  | devices signatures =>
    simp only [haut, check_bind_eq_ok_iff, rejectIf_eq_ok_iff, true_and, Nat.not_lt] at happ
    obtain ⟨-, happroval, _⟩ := happ
    obtain ⟨hch, hsig⟩ := verifyApprovals_eq_ok happroval
    have hsign : candidate.signers = signatures.map Approval.signer := by
      rw [Transition.signers, haut]
    rw [Option.toList_none, nil_append, isChain_iff_pairwise] at hch
    refine ⟨?_, hsign ▸ hch.imp ne_of_lt, ?_, ?_⟩
    · rw [hsign, forall_mem_map]
      exact fun a ha => (hsig a ha).1
    · rw [hsign, length_map]
      omega
    · rw [hsign, forall_mem_map]
      exact fun a ha => ⟨a.signature, (hsig a ha).2⟩

/-! ### Majorities -/

theorem exists_common_signer {parent t₁ t₂ : Transition} (h₁ : Approved S parent t₁)
    (h₂ : Approved S parent t₂) : ∃ id ∈ t₁.signers, id ∈ t₂.signers := by
  have hcard : (activeIds parent.devices).toFinset.card <
      t₁.signers.toFinset.card + t₂.signers.toFinset.card := by
    have hle := (activeIds parent.devices).toFinset_card_le
    have hmajority₁ := h₁.majority
    have hmajority₂ := h₂.majority
    rw [length_activeIds] at hle
    rw [toFinset_card_of_nodup h₁.nodup, toFinset_card_of_nodup h₂.nodup]
    omega
  have hsub {t : Transition} (h : Approved S parent t) :
      t.signers.toFinset ⊆ (activeIds parent.devices).toFinset := fun id hid =>
    mem_toFinset.mpr (h.active id (mem_toFinset.mp hid))
  obtain ⟨id, hid⟩ := Finset.inter_nonempty_of_card_lt_card_add_card (hsub h₁) (hsub h₂) hcard
  rw [Finset.mem_inter, mem_toFinset, mem_toFinset] at hid
  exact ⟨id, hid.1, hid.2⟩

theorem append_eq_ok {m m' : Manifest} {t : Transition} (h : m.append S t = .ok m') :
    ∃ parent ∈ m.current?, verifyTransition S parent t true = .ok () := by
  simp only [Manifest.append, bind_eq_ok_iff, required_eq_ok_iff] at h
  obtain ⟨-, -, -, -, parent, hpar, ⟨⟩, hver, -⟩ := h
  exact ⟨parent, hpar, hver⟩

/-- The signers of a later ordinary transition are active in the state before it, and a revoked
device is not. -/
theorem revoked_not_signer {m : Manifest} (hver : m.verify S = .ok ()) {i j : ℕ} (hij : i < j)
    (hj : j < m.transitions.length) (hkind : m.transitions[j].kind ≠ .recovery) {e : Entry}
    (he : e ∈ m.transitions[i].devices) (hrev : e.isActive = false) :
    e.deviceId ∉ m.transitions[j].signers := by
  obtain ⟨k, rfl⟩ : ∃ k, j = k + 1 := ⟨j - 1, by omega⟩
  obtain ⟨-, -, hlin⟩ := verify_eq_ok_iff.mp hver
  have happ := approved_of_verifyTransition (hlin.getElem k hj) hkind
  intro hsig
  obtain ⟨e', he', hact, hid⟩ := mem_activeIds.mp (happ.active _ hsig)
  have hkept := (history_of_verify hver).unchanged i k (by omega) (by omega) e he e' he' hid
  rw [(hkept.2.2 hrev).1] at hact
  cases hact

variable {log : Octets 32 → SignatureDomain → Bytes → Prop}

/-- **Quorums intersect and revocation is final.** Any two ordinary children of a manifest are
signed by active devices of its current state, and one of them has signed both; and no device that
is revoked in some state signs a later ordinary transition. -/
theorem quorum_intersection_and_revocation (hS : S.Unforgeable log) :
    (∀ (m m₁ m₂ : Manifest) (t₁ t₂ : Transition), m.append S t₁ = .ok m₁ → m.append S t₂ = .ok m₂ →
      t₁.kind ≠ .recovery → t₂.kind ≠ .recovery →
        ∃ parent ∈ m.current?, (∀ id ∈ t₁.signers, id ∈ activeIds parent.devices) ∧
          (∀ id ∈ t₂.signers, id ∈ activeIds parent.devices) ∧
          ∃ id ∈ t₁.signers, id ∈ t₂.signers ∧ log id .authorityTransition t₁.canonical ∧
            log id .authorityTransition t₂.canonical) ∧
    ∀ m : Manifest, m.verify S = .ok () →
      ∀ i j (_ : i < j) (_ : j < m.transitions.length), m.transitions[j].kind ≠ .recovery →
        ∀ e ∈ m.transitions[i].devices, e.isActive = false →
          e.deviceId ∉ m.transitions[j].signers := by
  constructor
  · intro m m₁ m₂ t₁ t₂ happ₁ happ₂ hkind₁ hkind₂
    obtain ⟨parent, hpar, hver₁⟩ := append_eq_ok happ₁
    obtain ⟨_, hpar', hver₂⟩ := append_eq_ok happ₂
    obtain rfl := Option.mem_unique hpar hpar'
    have h₁ := approved_of_verifyTransition hver₁ hkind₁
    have h₂ := approved_of_verifyTransition hver₂ hkind₂
    -- Both are approved by a majority of the same active devices.
    obtain ⟨id, hid₁, hid₂⟩ := exists_common_signer h₁ h₂
    obtain ⟨_, hsig₁⟩ := h₁.signed id hid₁
    obtain ⟨_, hsig₂⟩ := h₂.signed id hid₂
    exact ⟨parent, hpar, h₁.active, h₂.active, id, hid₁, hid₂,
      log_of_verifyPeerDomain hS hsig₁, log_of_verifyPeerDomain hS hsig₂⟩
  · intro m hver i j hij hj hkind e he hrev
    exact revoked_not_signer hver hij hj hkind he hrev

end Quorum

namespace Sample

/-- The certificate of device `b` of account 1. -/
def certificate (b : UInt8) : Certificate where
  account := Identity.toPublic keys ⟨1, 1⟩
  device := Identity.toPublic keys ⟨b, b⟩
  serial := id16.val
  issuedAt := 10
  deviceSignature := .zero 64

/-- A row of device `b` under a one-letter name. -/
def row (b : UInt8) (name : Utf8) : Entry := .fresh (certificate b) name 10

theorem valid_nameA : validUtf8 [0x61] = true := by decide

def nameA : Utf8 := ⟨[0x61], valid_nameA⟩

theorem valid_nameB : validUtf8 [0x62] = true := by decide

def nameB : Utf8 := ⟨[0x62], valid_nameB⟩

def nameC : Utf8 := ⟨[0x63], by decide⟩

/-- Account 1 starts with device 2. -/
def genesis : Transition where
  version := deviceAuthorityVersion
  account := Identity.toPublic keys ⟨1, 1⟩
  parentHash := .zero 32
  parentGeneration := 0
  generation := 1
  recoveryEpoch := 0
  transitionId := id16.val
  recoveryId := none
  kind := .genesis
  devices := [row 2 nameA]
  newCertificates := [certificate 2]
  authorization := .root (.zero 64)

/-- Device 2 renames itself. -/
def renamed (name : Utf8) : Transition :=
  { genesis with
    parentGeneration := 1
    generation := 2
    kind := .renameDevice
    devices := [row 2 name]
    newCertificates := []
    authorization := .devices [⟨.replicate 32 2, .zero 64⟩] }

/-- The root revokes device 2 and introduces device 3. -/
def replaced : Transition :=
  { genesis with
    parentGeneration := 1
    generation := 2
    recoveryEpoch := 1
    recoveryId := some id16.val
    kind := .recovery
    devices := [(row 2 nameA).revokeForRecovery 20, row 3 nameA]
    newCertificates := [certificate 3] }

/-- Device 3 renames itself. -/
def renamedAfter : Transition :=
  { replaced with
    parentGeneration := 2
    generation := 3
    recoveryId := none
    kind := .renameDevice
    devices := [(row 2 nameA).revokeForRecovery 20, row 3 nameB]
    newCertificates := []
    authorization := .devices [⟨.replicate 32 3, .zero 64⟩] }

/-- What the keys have signed. -/
def signatures : List (Octets 32 × SignatureDomain × Bytes) :=
  [(.replicate 32 1, .crossSign, (Octets.replicate 32 1).toBytes),
    (.replicate 32 2, .crossSign, (Octets.replicate 32 2).toBytes),
    (.replicate 32 3, .crossSign, (Octets.replicate 32 3).toBytes),
    (.replicate 32 2, .authorityCertificate, (certificate 2).canonical),
    (.replicate 32 3, .authorityCertificate, (certificate 3).canonical),
    (.replicate 32 1, .authorityRootTransition, genesis.canonical),
    (.replicate 32 1, .authorityRootTransition, replaced.canonical),
    (.replicate 32 2, .authorityTransition, (renamed nameB).canonical),
    (.replicate 32 2, .authorityTransition, (renamed nameC).canonical),
    (.replicate 32 3, .authorityTransition, renamedAfter.canonical)]

def signedSuite : Suite := .ofLog signatures fun _ => .zero 32

/-- Two renames of one state are both signed by its device; after the recovery the old device signs
no more. -/
theorem renames_share_signer : (∃ id ∈ (renamed nameB).signers, id ∈ (renamed nameC).signers ∧
      (id, SignatureDomain.authorityTransition, (renamed nameB).canonical) ∈ signatures ∧
      (id, SignatureDomain.authorityTransition, (renamed nameC).canonical) ∈ signatures) ∧
    (row 2 nameA).deviceId ∉ renamedAfter.signers := by
  have hS := Suite.ofLog_unforgeable signatures fun _ => .zero 32
  have happ (name : Utf8) (h : name = nameB ∨ name = nameC) :
      Manifest.append signedSuite ⟨[genesis]⟩ (renamed name) = .ok ⟨[genesis, renamed name]⟩ := by
    obtain rfl | rfl := h <;> decide +kernel
  have hver : Manifest.verify signedSuite ⟨[genesis, replaced, renamedAfter]⟩ = .ok () := by
    decide +kernel
  obtain ⟨hcom, hrev⟩ := quorum_intersection_and_revocation hS
  constructor
  · obtain ⟨_, -, -, -, hid⟩ := hcom _ _ _ _ _ (happ nameB (.inl rfl)) (happ nameC (.inr rfl))
      (by decide) (by decide)
    exact hid
  · exact hrev _ hver 1 2 (by decide) (by decide) (by decide)
      ((row 2 nameA).revokeForRecovery 20) (.head _) (by decide)

end Sample

end Komms.DeviceAuthority
