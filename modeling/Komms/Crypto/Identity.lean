import Komms.Lib.Bytes
import Komms.Lib.Checked

/-!
# Identities and domain-separated signatures

The public identity of `kult-crypto/src/identity.rs` and the signature checks over it.  Ed25519
and X25519 are parameters.  Every signature of the code base covers `domain ‖ message` for one of
the fixed domains of `SignatureDomain`.

* `verifyPeerDomain_eq_ok_iff`: what a verified signature says.
* `SignatureDomain.eq_of_append_eq`: the signed bytes determine the domain and the message.
-/

namespace Komms

open List

/-- The errors of `kult-crypto` that the modelled functions return. -/
inductive CryptoError where
  | invalidSignature
  | invalidMessage
  | headerAuthentication
  | messageAuthentication
  | tooManySkipped
  | invalidKey
  | serialization
  | invalidBundle
  | handshakeMismatch
  deriving DecidableEq, Repr

/-! ### Domains -/

/-- The domain separators under which a key signs. -/
inductive SignatureDomain where
  | crossSign
  | groupAuthorityState
  | groupOwnerTransfer
  | groupAdminRequest
  | groupPollModeration
  | deviceCertificate
  | deviceManifest
  | deviceLinkOffer
  | deviceLinkResponse
  | deviceSyncEvent
  | authorityCertificate
  | authorityTransition
  | authorityRootTransition
  | authorityLinkOffer
  | authorityLinkResponse
  | pairingBundle
  | signedPrekey
  | pqSignedPrekey
  | prekeyBundle
  | discoveryRecord
  | admissionDescriptor
  | providerDirectory
  deriving DecidableEq, Repr

namespace SignatureDomain

def bytes : SignatureDomain → Bytes
  | crossSign => ascii "Komms-cross-sign-v1"
  | groupAuthorityState => ascii "Komms-group-authority-state-v1"
  | groupOwnerTransfer => ascii "Komms-group-owner-transfer-v1"
  | groupAdminRequest => ascii "Komms-group-admin-request-v1"
  | groupPollModeration => ascii "Komms-group-poll-moderation-v1"
  | deviceCertificate => ascii "Komms-device-certificate-v1"
  | deviceManifest => ascii "Komms-device-manifest-v1"
  | deviceLinkOffer => ascii "Komms-device-link-offer-v1"
  | deviceLinkResponse => ascii "Komms-device-link-response-v1"
  | deviceSyncEvent => ascii "Komms-device-sync-event-v1"
  | authorityCertificate => ascii "Komms-device-authority-certificate-v2"
  | authorityTransition => ascii "Komms-device-authority-transition-v2"
  | authorityRootTransition => ascii "Komms-device-authority-root-transition-v2"
  | authorityLinkOffer => ascii "Komms-device-link-offer-v2"
  | authorityLinkResponse => ascii "Komms-device-link-response-v2"
  | pairingBundle => ascii "Komms-connect-pairing-bundle-v2"
  | signedPrekey => ascii "Komms-spk-v1"
  | pqSignedPrekey => ascii "Komms-pqspk-v1"
  | prekeyBundle => ascii "Komms-bundle-v1"
  | discoveryRecord => ascii "Komms-DHT-Record-Signature-v2"
  | admissionDescriptor => ascii "Komms-admission-descriptor-v1"
  | providerDirectory => ascii "Komms-Provider-Directory-v1"

def all : List SignatureDomain :=
  [crossSign, groupAuthorityState, groupOwnerTransfer, groupAdminRequest, groupPollModeration,
    deviceCertificate, deviceManifest, deviceLinkOffer, deviceLinkResponse, deviceSyncEvent,
    authorityCertificate, authorityTransition, authorityRootTransition, authorityLinkOffer,
    authorityLinkResponse, pairingBundle, signedPrekey, pqSignedPrekey, prekeyBundle,
    discoveryRecord, admissionDescriptor, providerDirectory]

theorem mem_all (d : SignatureDomain) : d ∈ all := by cases d <;> decide

theorem eq_of_isPrefix (d e : SignatureDomain) (h : d.bytes <+: e.bytes) : d = e := by
  have hall : ∀ d ∈ all, ∀ e ∈ all, d.bytes.isPrefixOf e.bytes = true → d = e := by
    decide +kernel
  exact hall d (mem_all d) e (mem_all e) ( isPrefixOf_iff_prefix.mpr h)

/-- **Domains separate.** Two signed byte strings agree only when their domains and their messages
do. -/
theorem eq_of_append_eq {d e : SignatureDomain} {m k : Bytes}
    (h : d.bytes ++ m = e.bytes ++ k) : d = e ∧ m = k := by
  have hde : d = e := by
    rcases Nat.le_total d.bytes.length e.bytes.length with hle | hle
    · exact eq_of_isPrefix d e (prefix_of_prefix_length_le ⟨m, h⟩ (prefix_append _ _) hle)
    · exact (eq_of_isPrefix e d
        (prefix_of_prefix_length_le ⟨k, h.symm⟩ (prefix_append _ _) hle)).symm
  subst hde
  exact ⟨rfl, append_cancel_left h⟩

end SignatureDomain

/-! ### Keys and signatures -/

/-- Ed25519 verification: which 32 bytes are a key, and which signatures a key accepts. -/
structure Ed25519 where
  fromBytes : Octets 32 → Bool
  verify : Octets 32 → Bytes → Octets 64 → Bool

/-- The public primitives the verifiers call: Ed25519 and SHA-256. -/
structure Suite where
  ed25519 : Ed25519
  sha256 : Bytes → Octets 32

/-- A suite in which a signature is a reference to the record of what each key signed. -/
def Suite.ofSigned (signed : Octets 32 → Bytes → Bool) (sha256 : Bytes → Octets 32) : Suite where
  ed25519 := { fromBytes := fun _ => true, verify := fun key bytes _ => signed key bytes }
  sha256 := sha256

/-- Unforgeability: a key accepts only the bytes that its holder signed.  `log key domain message`
records that the holder of `key` signed `message` in `domain`. -/
def Suite.Unforgeable (S : Suite) (log : Octets 32 → SignatureDomain → Bytes → Prop) : Prop :=
  ∀ key bytes signature, S.ed25519.verify key bytes signature = true →
    ∃ domain message, log key domain message ∧ bytes = domain.bytes ++ message

/-- The suite of a finite record of signatures. -/
def Suite.ofLog (entries : List (Octets 32 × SignatureDomain × Bytes))
    (sha256 : Bytes → Octets 32) : Suite :=
  .ofSigned (fun key bytes => entries.any fun e => e.1 = key && e.2.1.bytes ++ e.2.2 = bytes) sha256

theorem Suite.ofLog_unforgeable (entries : List (Octets 32 × SignatureDomain × Bytes))
    (sha256 : Bytes → Octets 32) :
    (Suite.ofLog entries sha256).Unforgeable fun key domain message =>
      (key, domain, message) ∈ entries := by
  intro key bytes _ h
  simp only [Suite.ofLog, Suite.ofSigned, any_eq_true, Bool.and_eq_true, decide_eq_true_eq] at h
  obtain ⟨⟨k, d, m⟩, hmem, rfl, rfl⟩ := h
  exact ⟨d, m, hmem, rfl⟩

/-- Verify a domain-separated signature from an exact public key. -/
def verifyPeerDomain (S : Suite) (peer : Octets 32) (domain : SignatureDomain) (message : Bytes)
    (signature : Octets 64) : Except CryptoError Unit := do
  rejectIf (S.ed25519.fromBytes peer = false) .invalidKey
  rejectIf (S.ed25519.verify peer (domain.bytes ++ message) signature = false) .invalidSignature

variable {S : Suite} {peer : Octets 32} {domain : SignatureDomain} {message : Bytes}
  {signature : Octets 64}

theorem verifyPeerDomain_eq_ok_iff : verifyPeerDomain S peer domain message signature = .ok () ↔
      S.ed25519.fromBytes peer = true ∧
        S.ed25519.verify peer (domain.bytes ++ message) signature = true := by
  simp [verifyPeerDomain, check_bind_eq_ok_iff]

/-- A signature that verifies in a domain was made in that domain, on those bytes. -/
theorem log_of_verifyPeerDomain {log : Octets 32 → SignatureDomain → Bytes → Prop}
    (hS : S.Unforgeable log) (h : verifyPeerDomain S peer domain message signature = .ok ()) :
    log peer domain message := by
  obtain ⟨d, m, hlog, heq⟩ := hS _ _ _ (verifyPeerDomain_eq_ok_iff.mp h).2
  obtain ⟨rfl, rfl⟩ := SignatureDomain.eq_of_append_eq heq
  exact hlog

/-- The public identity: Ed25519 key, X25519 key, and the cross-signature that binds them. -/
structure IdentityPublic where
  ed : Octets 32
  x : Octets 32
  crossSig : Octets 64
  deriving DecidableEq

namespace IdentityPublic

def verify (S : Suite) (identity : IdentityPublic) : Except CryptoError Unit :=
  verifyPeerDomain S identity.ed .crossSign identity.x.toBytes identity.crossSig

/-- Verify a domain-separated signature made by this identity. -/
def verifyDomain (S : Suite) (identity : IdentityPublic) (domain : SignatureDomain)
    (message : Bytes) (signature : Octets 64) : Except CryptoError Unit :=
  verifyPeerDomain S identity.ed domain message signature

/-- `append_identity`: the fixed-width canonical form. -/
def canonical (identity : IdentityPublic) : Bytes :=
  identity.ed.toBytes ++ identity.x.toBytes ++ identity.crossSig.toBytes

end IdentityPublic

/-- The secret-key side of the same schemes, over an abstract type of secret keys. -/
structure SecretKeys (Secret : Type) where
  verifyingKey : Secret → Octets 32
  agreementKey : Secret → Octets 32
  sign : Secret → Bytes → Octets 64

/-- A full identity: long-term signing and agreement secrets. -/
structure Identity (Secret : Type) where
  signing : Secret
  agreement : Secret

namespace Identity

variable {Secret : Type} (K : SecretKeys Secret) (identity : Identity Secret)

def signDomain (domain : SignatureDomain) (message : Bytes) : Octets 64 :=
  K.sign identity.signing (domain.bytes ++ message)

/-- `public`: the half that is shared. -/
def toPublic : IdentityPublic where
  ed := K.verifyingKey identity.signing
  x := K.agreementKey identity.agreement
  crossSig := identity.signDomain K .crossSign (K.agreementKey identity.agreement).toBytes

end Identity

end Komms
