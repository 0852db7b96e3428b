import Komms.Crypto.Identity

/-!
# Prekeys and prekey bundles

The prekey secrets and the self-authenticating prekey bundle of `kult-crypto/src/prekeys.rs`.  A
bundle is signed three times: the two medium-term prekeys each on its own, and the whole of it
(`signingBytes`), with the invitation entries of its hints left out.

`VerifiedBundle` is the only kind of bundle a handshake starts from.  `Offers` says that a bundle
carries the public halves of given secrets, as one that was built from them does
(`verify_build`).
-/

namespace Komms

def maxPrekeyRelayHints : ℕ := 20
def maxPrekeyRelayHintBytes : ℕ := 4 * 1024
def maxPrekeyRelayHintTotalBytes : ℕ := 16 * 1024

def mlkem768EkLen : ℕ := 1184

def mlkem768CtLen : ℕ := 1088

def mlkem768DkLen : ℕ := 2400

/-- Signatures verify under the key of their signer. -/
structure Suite.Signs (S : Suite) {Secret : Type} (K : SecretKeys Secret) : Prop where
  fromBytes : ∀ sk, S.ed25519.fromBytes (K.verifyingKey sk) = true
  verify_sign : ∀ sk m, S.ed25519.verify (K.verifyingKey sk) m (K.sign sk m) = true

/-! ### Secrets -/

/-- Medium-term X25519 signed prekey (secret half). -/
structure SignedPrekeySecret (Secret : Type) where
  id : UInt32
  secret : Secret

/-- Single-use X25519 one-time prekey (secret half). -/
structure OneTimePrekeySecret (Secret : Type) where
  id : UInt32
  secret : Secret

/-- Medium-term ML-KEM-768 signed prekey (secret half).  Both constructors of the source fix the two
lengths. -/
structure PqPrekeySecret where
  id : UInt32
  dk : Octets mlkem768DkLen
  ek : Octets mlkem768EkLen

/-! ### Bundles -/

structure PrekeyBundle where
  identity : IdentityPublic
  spkId : UInt32
  spk : Octets 32
  spkSig : Octets 64
  pqspkId : UInt32
  pqspk : Bytes
  pqspkSig : Octets 64
  opk : Option (UInt32 × Octets 32)
  expiresAt : UInt64
  relayHints : List Bytes
  bundleSig : Octets 64
  deriving DecidableEq

namespace PrekeyBundle

def invitationMagic : Bytes := ascii "KAI1"

def isInvitationExtension (bytes : Bytes) : Bool := invitationMagic.isPrefixOf bytes

/-- The bytes under the signature of a prekey: its id and its public half. -/
def prekeyBytes (id : UInt32) (key : Bytes) : Bytes := leBytes 4 id.toNat ++ key

/-- A one-time prekey, or its absence. -/
def opkBytes : Option (UInt32 × Octets 32) → Bytes
  | none => [0]
  | some (id, key) => 1 :: (leBytes 4 id.toNat ++ key.toBytes)

def hintBytes (hint : Bytes) : Bytes := leBytes 4 hint.length ++ hint

def signingBytesWithHints (bundle : PrekeyBundle) (hints : List Bytes) : Bytes :=
  bundle.identity.ed.toBytes ++ bundle.identity.x.toBytes ++
    prekeyBytes bundle.spkId bundle.spk.toBytes ++ prekeyBytes bundle.pqspkId bundle.pqspk ++
    opkBytes bundle.opk ++ leBytes 8 bundle.expiresAt.toNat ++ leBytes 4 hints.length ++
    hints.flatMap hintBytes

def signingBytes (bundle : PrekeyBundle) : Bytes :=
  bundle.signingBytesWithHints (bundle.relayHints.filter fun hint => !isInvitationExtension hint)

/-- Verify all signatures and structural invariants; at time 0 the expiry is not looked at. -/
def verify (S : Suite) (bundle : PrekeyBundle) (now : UInt64) : Except CryptoError Unit := do
  rejectIf (bundle.pqspk.length ≠ mlkem768EkLen ∨ bundle.relayHints.length > maxPrekeyRelayHints ∨
    (∃ hint ∈ bundle.relayHints, hint.length > maxPrekeyRelayHintBytes) ∨
    (bundle.relayHints.map List.length).sum > maxPrekeyRelayHintTotalBytes) .invalidBundle
  rejectIf (now ≠ 0 ∧ bundle.expiresAt < now) .invalidBundle
  bundle.identity.verify S
  bundle.identity.verifyDomain S .signedPrekey (prekeyBytes bundle.spkId bundle.spk.toBytes)
    bundle.spkSig
  bundle.identity.verifyDomain S .pqSignedPrekey (prekeyBytes bundle.pqspkId bundle.pqspk)
    bundle.pqspkSig
  bundle.identity.verifyDomain S .prekeyBundle bundle.signingBytes bundle.bundleSig

section Build

variable {Secret : Type} (K : SecretKeys Secret)

def build (identity : Identity Secret) (spk : SignedPrekeySecret Secret) (pqspk : PqPrekeySecret)
    (opk : Option (OneTimePrekeySecret Secret)) (expiresAt : UInt64) (relayHints : List Bytes) :
    PrekeyBundle :=
  let bundle : PrekeyBundle :=
    { identity := identity.toPublic K
      spkId := spk.id
      spk := K.agreementKey spk.secret
      spkSig := identity.signDomain K .signedPrekey
        (prekeyBytes spk.id (K.agreementKey spk.secret).toBytes)
      pqspkId := pqspk.id
      pqspk := pqspk.ek.toBytes
      pqspkSig := identity.signDomain K .pqSignedPrekey (prekeyBytes pqspk.id pqspk.ek.toBytes)
      opk := opk.map fun k => (k.id, K.agreementKey k.secret)
      expiresAt
      relayHints
      bundleSig := .zero 64 }
  { bundle with bundleSig := identity.signDomain K .prekeyBundle bundle.signingBytes }

/-- The bundle carries the public halves of these secrets, with their ids. -/
structure Offers (bundle : PrekeyBundle) (identity : Identity Secret)
    (spk : SignedPrekeySecret Secret) (pqspk : PqPrekeySecret)
    (opk : Option (OneTimePrekeySecret Secret)) : Prop where
  identity : bundle.identity = identity.toPublic K
  spkId : bundle.spkId = spk.id
  spk : bundle.spk = K.agreementKey spk.secret
  pqspkId : bundle.pqspkId = pqspk.id
  pqspk : bundle.pqspk = pqspk.ek.toBytes
  opk : bundle.opk = opk.map fun k => (k.id, K.agreementKey k.secret)

variable {K}

/-- **Built bundles verify**, within the limits on hints and until they expire. -/
theorem verify_build {S : Suite} (hK : S.Signs K) (identity : Identity Secret)
    (spk : SignedPrekeySecret Secret) (pqspk : PqPrekeySecret)
    (opk : Option (OneTimePrekeySecret Secret)) {expiresAt now : UInt64} {relayHints : List Bytes}
    (hcnt : relayHints.length ≤ maxPrekeyRelayHints)
    (heach : ∀ hint ∈ relayHints, hint.length ≤ maxPrekeyRelayHintBytes)
    (htot : (relayHints.map List.length).sum ≤ maxPrekeyRelayHintTotalBytes)
    (hnow : now ≤ expiresAt) :
    (build K identity spk pqspk opk expiresAt relayHints).verify S now = .ok () := by
  have hsig : ∀ domain message, verifyPeerDomain S (identity.toPublic K).ed domain message
      (identity.signDomain K domain message) = .ok () := fun domain message =>
    verifyPeerDomain_eq_ok_iff.mpr ⟨hK.fromBytes _, hK.verify_sign _ _⟩
  simp only [verify, check_bind_eq_ok_iff, rejectIf_eq_ok_iff]
  simp only [not_or, not_and, not_exists, not_lt, ne_eq, not_not]
  exact ⟨⟨pqspk.ek.length_toBytes, hcnt, heach, htot⟩, fun _ => UInt64.not_lt.mpr hnow,
    hsig _ _, hsig _ _, hsig _ _, hsig _ _⟩

variable (K)

end Build

end PrekeyBundle

/-! ### Verified bundles -/

/-- A bundle that was verified, with or without the one-time prekey it was verified with. -/
structure VerifiedBundle (S : Suite) where
  bundle : PrekeyBundle
  verified : ∃ (original : PrekeyBundle) (now : UInt64), original.verify S now = .ok () ∧
    (bundle = original ∨ bundle = { original with opk := none })

end Komms
