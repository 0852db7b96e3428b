import Komms.Crypto.Identity
import Komms.Lib.IdealCrypto

/-!
# The Double Ratchet session with header encryption

The session state of `kult-crypto/src/ratchet.rs` and the operations on it: `initInitiator`,
`initResponder`, `encrypt` and `decrypt`, with the helpers `decrypt` is made of (`trySkipped`,
`skipMessageKeys`, `dhRatchet`, `decryptCurrent`, `purgeExpired`).

Randomness is an argument: `encrypt` takes its two nonces and `decrypt` the private half of the
ratchet keypair it may need.  Counters are 32-bit machine integers; `overflowChecks` tells
whether the build traps on overflow or wraps.  An outer `none` is a panic.
-/

namespace Komms.Ratchet

/-! ### Constants -/

def maxSkip : ℕ := 1000

def maxStoredSkipped : ℕ := 2000

def skippedKeyTtlSecs : ℕ := 30 * 86400

/-- Length of an encoded header: `dh(32) ‖ pn(4) ‖ n(4)`. -/
def headerLen : ℕ := 40

def protocolVersion : UInt8 := 1

/-- `KK-root` -/
def infoRoot : Bytes := [0x4b, 0x4b, 0x2d, 0x72, 0x6f, 0x6f, 0x74]

/-- `KK-chain` -/
def infoChain : Bytes := [0x4b, 0x4b, 0x2d, 0x63, 0x68, 0x61, 0x69, 0x6e]

/-- `KK-msg` -/
def infoMsg : Bytes := [0x4b, 0x4b, 0x2d, 0x6d, 0x73, 0x67]

/-- `KK-hdr` -/
def hdrAdDomain : Bytes := [0x4b, 0x4b, 0x2d, 0x68, 0x64, 0x72]

/-! ### Primitives and messages -/

abbrev Nonce := Octets 24

/-- An encrypted header as it travels: `nonce(24) ‖ box`. -/
structure SealedHeader (Box : Type) where
  nonce : Nonce
  box : Box
  deriving DecidableEq

/-- Associated data is a byte string in which an encrypted header may stand.  A header fills a
field of fixed width in the source, so one symbol in its place keeps the cut unambiguous. -/
abbrev Ad (Box : Type) := List (UInt8 ⊕ SealedHeader Box)

/-- The primitives the ratchet calls: HKDF-SHA-256, X25519 and XChaCha20-Poly1305. -/
structure Primitives (Key Box : Type) where
  hkdf : Hkdf Key
  x25519 : DiffieHellman Key (Octets 32) Key
  aead : Aead Key Nonce (Ad Box) Box

/-- The idealisation under which runs are analysed. -/
structure Primitives.Ideal {Key Box : Type} (P : Primitives Key Box) : Prop where
  hkdf : P.hkdf.Ideal
  x25519 : P.x25519.Commutes
  aead : P.aead.Ideal

/-- A single encrypted ratchet message. -/
structure RatchetMessage (Box : Type) where
  encHeader : SealedHeader Box
  nonce : Nonce
  ct : Box
  deriving DecidableEq

/-- Plaintext header: the sender's current ratchet key and counters. -/
structure Header where
  dh : Octets 32
  pn : UInt32
  n : UInt32
  deriving DecidableEq

def Header.encode (h : Header) : Bytes :=
  h.dh.toBytes ++ leBytes 4 h.pn.toNat ++ leBytes 4 h.n.toNat

def Header.decode (bytes : Bytes) : Except CryptoError Header :=
  if hlen : bytes.length = headerLen then
    .ok { dh := ⟨bytes.take 32, by simp [hlen, headerLen]⟩,
          pn := UInt32.ofNat (ofLeBytes ((bytes.drop 32).take 4)),
          n := UInt32.ofNat (ofLeBytes ((bytes.drop 36).take 4)) }
  else .error .invalidMessage

/-- A skipped message key, retained for late or out-of-order delivery. -/
structure SkippedKey (Key : Type) where
  make ::
  hk : Key
  n : UInt32
  mk : Key
  storedAt : ℕ

/-- Session state. -/
structure Session (Key : Type) where
  sessionId : Octets 32
  dhsPriv : Key
  dhsPub : Octets 32
  dhr : Option (Octets 32)
  rk : Key
  cks : Option Key
  ckr : Option Key
  hks : Option Key
  hkr : Option Key
  nhks : Key
  nhkr : Key
  ns : UInt32
  nr : UInt32
  pn : UInt32
  skipped : List (SkippedKey Key)

variable {Key Box : Type} (P : Primitives Key Box)

/-! ### Key derivation -/

/-- `KDF_RK_HE`: (root key, DH output) to (root key, chain key, next header key). -/
def kdfRk (rk dhOut : Key) : Key × Key × Key :=
  (P.hkdf.block (some rk) dhOut infoRoot 0, P.hkdf.block (some rk) dhOut infoRoot 1,
    P.hkdf.block (some rk) dhOut infoRoot 2)

/-- `KDF_CK`: chain key to (next chain key, message key). -/
def kdfCk (ck : Key) : Key × Key :=
  (P.hkdf.block none ck infoChain 0, P.hkdf.block none ck infoMsg 0)

/-- `x += 1` on a 32-bit counter: past the maximum it panics when the build checks for overflow
and wraps to zero otherwise. -/
def increment (overflowChecks : Bool) (x : UInt32) : Option UInt32 :=
  if overflowChecks && x.toNat + 1 == 2 ^ 32 then none else some (x + 1)

/-! ### Session setup -/

/-- Start as the handshake initiator.  `privBytes` is the fresh ratchet key. -/
def initInitiator (privBytes : Key) (sessionId : Octets 32) (skRoot : Key)
    (theirRatchetPub : Octets 32) (sharedHka sharedNhkb : Key) : Session Key :=
  let (rk, cks, nhks) := kdfRk P skRoot (P.x25519.shared privBytes theirRatchetPub)
  { sessionId := sessionId, dhsPriv := privBytes, dhsPub := P.x25519.publicKey privBytes,
    dhr := some theirRatchetPub, rk := rk, cks := some cks, ckr := none,
    hks := some sharedHka, hkr := none, nhks := nhks, nhkr := sharedNhkb,
    ns := 0, nr := 0, pn := 0, skipped := [] }

/-- Start as the handshake responder.  `ratchetPriv` is the private half of the signed prekey. -/
def initResponder (sessionId : Octets 32) (skRoot ratchetPriv sharedHka sharedNhkb : Key) :
    Session Key :=
  { sessionId := sessionId, dhsPriv := ratchetPriv, dhsPub := P.x25519.publicKey ratchetPriv,
    dhr := none, rk := skRoot, cks := none, ckr := none, hks := none, hkr := none,
    nhks := sharedNhkb, nhkr := sharedHka, ns := 0, nr := 0, pn := 0, skipped := [] }

namespace Session

/-! ### Associated data -/

variable (overflowChecks : Bool) (s : Session Key)

def baseAd : Bytes := s.sessionId.toBytes ++ [protocolVersion]

def headerAd : Ad Box := (s.baseAd ++ hdrAdDomain).map .inl

/-- Session binding, encrypted header, caller's data. -/
def payloadAd (encHeader : SealedHeader Box) (userAd : Bytes) : Ad Box :=
  s.baseAd.map .inl ++ [.inr encHeader] ++ userAd.map .inl

/-- `aead_open` of an encrypted header under `hk`. -/
def openHeader (hk : Key) (encHeader : SealedHeader Box) : Option Bytes :=
  P.aead.decrypt hk encHeader.nonce s.headerAd encHeader.box

/-- `aead_decrypt_with_nonce` of a message body under `mk`. -/
def openPayload (mk : Key) (msg : RatchetMessage Box) (userAd : Bytes) : Option Bytes :=
  P.aead.decrypt mk msg.nonce (s.payloadAd msg.encHeader userAd) msg.ct

/-! ### Encryption -/

def purgeExpired (nowSecs : ℕ) : Session Key :=
  { s with skipped := s.skipped.filter fun sk => nowSecs - sk.storedAt ≤ skippedKeyTtlSecs }

/-- Encrypt `plaintext`; `hdrNonce` and `nonce` are the two random nonces. -/
def encrypt (overflowChecks : Bool) (s : Session Key) (hdrNonce nonce : Nonce) (nowSecs : ℕ)
    (plaintext userAd : Bytes) : Option (Session Key × RatchetMessage Box) := do
  let s := s.purgeExpired nowSecs
  let cks ← s.cks
  let (nextCk, msgKey) := kdfCk P cks
  let header : Header := { dh := s.dhsPub, pn := s.pn, n := s.ns }
  let hks ← s.hks
  let encHeader : SealedHeader Box :=
    { nonce := hdrNonce, box := P.aead.encrypt hks hdrNonce s.headerAd header.encode }
  let ct := P.aead.encrypt msgKey nonce (s.payloadAd encHeader userAd) plaintext
  let ns ← increment overflowChecks s.ns
  return ({ s with cks := some nextCk, ns := ns },
    { encHeader := encHeader, nonce := nonce, ct := ct })

/-! ### Decryption -/

/-- Open the body with the next key of the receiving chain, and commit only on success. -/
def decryptCurrent (msg : RatchetMessage Box) (userAd : Bytes) :
    Option (Session Key × Except CryptoError Bytes) := do
  let ckr ← s.ckr
  let (nextCk, msgKey) := kdfCk P ckr
  match s.openPayload P msgKey msg userAd with
  | none => return (s, .error .messageAuthentication)
  | some pt =>
    let nr ← increment overflowChecks s.nr
    return ({ s with ckr := some nextCk, nr := nr }, .ok pt)

/-- The scan of `try_skipped` over the stored keys.  Each header key is tried once; the first
that opens the header decides, by the joint (header key, counter) lookup. -/
def findSkipped [DecidableEq Key] (s : Session Key) (encHeader : SealedHeader Box) :
    List Key → List (SkippedKey Key) → Except CryptoError (Option ℕ)
  | _, [] => .ok none
  | tried, sk :: rest =>
    if sk.hk ∈ tried then s.findSkipped encHeader tried rest
    else
      match s.openHeader P sk.hk encHeader with
      | none => s.findSkipped encHeader (tried ++ [sk.hk]) rest
      | some hdrBytes => do
        let header ← Header.decode hdrBytes
        return s.skipped.findIdx? fun cand => cand.hk == sk.hk && cand.n == header.n

/-- A message of a chain already passed: use the stored key, and remove it on success. -/
def trySkipped [DecidableEq Key] (s : Session Key) (msg : RatchetMessage Box) (userAd : Bytes) :
    Session Key × Except CryptoError (Option Bytes) :=
  match s.findSkipped P msg.encHeader [] s.skipped with
  | .error e => (s, .error e)
  | .ok none => (s, .ok none)
  | .ok (some idx) =>
    match s.skipped[idx]? with
    | none => (s, .ok none)
    | some sk =>
      match s.openPayload P sk.mk msg userAd with
      | none => (s, .error .messageAuthentication)
      | some pt => ({ s with skipped := s.skipped.eraseIdx idx }, .ok (some pt))

/-- The loop of `skip_message_keys`: `count` turns, each storing the key it passes. -/
def skipLoop (hkr : Key) (nowSecs : ℕ) :
    ℕ → Key → UInt32 → List (SkippedKey Key) → Key × UInt32 × List (SkippedKey Key)
  | 0, ckr, nr, skipped => (ckr, nr, skipped)
  | count + 1, ckr, nr, skipped =>
    skipLoop hkr nowSecs count (kdfCk P ckr).1 (nr + 1)
      (skipped ++ [{ hk := hkr, n := nr, mk := (kdfCk P ckr).2, storedAt := nowSecs }])

def capSkipped (skipped : List (SkippedKey Key)) : List (SkippedKey Key) :=
  skipped.drop (skipped.length - maxStoredSkipped)

def skipLimit (nr : UInt32) : ℕ := min (nr.toNat + maxSkip) (2 ^ 32 - 1)

/-- Advance the receiving chain to `untilN`, storing the keys passed over. -/
def skipMessageKeys (untilN : UInt32) (nowSecs : ℕ) :
    Option (Session Key × Except CryptoError Unit) :=
  if skipLimit s.nr < untilN.toNat then some (s, .error .tooManySkipped)
  else
    match s.ckr with
    | none => some (s, if untilN = 0 then .ok () else .error .tooManySkipped)
    | some ckr => do
      let hkr ← s.hkr
      let (ckr, nr, skipped) :=
        skipLoop P hkr nowSecs (untilN.toNat - s.nr.toNat) ckr s.nr s.skipped
      return ({ s with ckr := some ckr, nr := nr, skipped := capSkipped skipped }, .ok ())

/-- The DH ratchet step: receive the peer's new chain, start a new one of our own. -/
def dhRatchet (privBytes : Key) (header : Header) : Session Key :=
  let (rk, ckr, nhkr) := kdfRk P s.rk (P.x25519.shared s.dhsPriv header.dh)
  let (rk, cks, nhks) := kdfRk P rk (P.x25519.shared privBytes header.dh)
  { s with
    pn := s.ns, ns := 0, nr := 0, hks := some s.nhks, hkr := some s.nhkr,
    dhr := some header.dh, rk := rk, ckr := some ckr, nhkr := nhkr,
    dhsPriv := privBytes, dhsPub := P.x25519.publicKey privBytes, cks := some cks, nhks := nhks }

/-- The end of both header cases: skip to message `n` of the receiving chain, then open the
body. -/
def skipAndDecrypt (n : UInt32) (nowSecs : ℕ) (msg : RatchetMessage Box) (userAd : Bytes) :
    Option (Session Key × Except CryptoError Bytes) :=
  match s.skipMessageKeys P n nowSecs with
  | none => none
  | some (s, .error e) => some (s, .error e)
  | some (s, .ok ()) => s.decryptCurrent P overflowChecks msg userAd

/-- The rest of `decrypt` once the current header key has opened the header.  An index in the
chain's past that is not stored is a replay. -/
def decryptOnCurrentChain (nowSecs : ℕ) (msg : RatchetMessage Box) (userAd : Bytes)
    (header : Header) : Option (Session Key × Except CryptoError Bytes) :=
  if header.n < s.nr then some (s, .error .messageAuthentication)
  else s.skipAndDecrypt P overflowChecks header.n nowSecs msg userAd

/-- The rest of `decrypt` once the next header key has opened the header: finish the old chain,
make the DH step, then go on in the new chain. -/
def decryptOnNextChain (privBytes : Key) (nowSecs : ℕ) (msg : RatchetMessage Box) (userAd : Bytes)
    (header : Header) : Option (Session Key × Except CryptoError Bytes) :=
  match s.skipMessageKeys P header.pn nowSecs with
  | none => none
  | some (s, .error e) => some (s, .error e)
  | some (s, .ok ()) =>
    (s.dhRatchet P privBytes header).skipAndDecrypt P overflowChecks header.n nowSecs msg userAd

/-- Parse an opened header and go on with it. -/
def withHeader (hdrBytes : Bytes) (k : Header → Option (Session Key × Except CryptoError Bytes)) :
    Option (Session Key × Except CryptoError Bytes) :=
  match Header.decode hdrBytes with
  | .error e => some (s, .error e)
  | .ok header => k header

/-- Steps 2 and 3 of `decrypt`: the current receiving header key, then the next one. -/
def decryptByHeader (privBytes : Key) (nowSecs : ℕ) (msg : RatchetMessage Box) (userAd : Bytes) :
    Option (Session Key × Except CryptoError Bytes) :=
  match s.hkr.bind (s.openHeader P · msg.encHeader) with
  | some hdrBytes =>
    s.withHeader hdrBytes (s.decryptOnCurrentChain P overflowChecks nowSecs msg userAd)
  | none =>
    match s.openHeader P s.nhkr msg.encHeader with
    | some hdrBytes =>
      s.withHeader hdrBytes (s.decryptOnNextChain P overflowChecks privBytes nowSecs msg userAd)
    | none => some (s, .error .headerAuthentication)

/-- Decrypt a message, tolerating loss and reordering within the bounds. -/
def decrypt [DecidableEq Key] (overflowChecks : Bool) (s : Session Key) (privBytes : Key)
    (nowSecs : ℕ) (msg : RatchetMessage Box) (userAd : Bytes) :
    Option (Session Key × Except CryptoError Bytes) :=
  match (s.purgeExpired nowSecs).trySkipped P msg userAd with
  | (s, .error e) => some (s, .error e)
  | (s, .ok (some pt)) => some (s, .ok pt)
  | (s, .ok none) => s.decryptByHeader P overflowChecks privBytes nowSecs msg userAd

end Session

end Komms.Ratchet
