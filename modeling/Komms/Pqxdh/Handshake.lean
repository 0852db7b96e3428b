import Komms.Crypto.Prekeys
import Komms.Ratchet.Equiv.KeySchedule

/-!
# The hybrid handshake

`initiate` and `respond` of `kult-crypto/src/handshake.rs`: X25519 in three or four products,
ML-KEM-768, a transcript hash that becomes the session id, the roots of the ratchet and two service
secrets.

Keys and boxes are symbols, as in the ratchet.  So the key material that the source concatenates is
joined by `concat`, and the 80 bytes of an encrypted header and the bytes of a body are one symbol
each of the encoded first message.  An outer `none` is a panic.
-/

namespace Komms.Pqxdh

open Ratchet (Nonce RatchetMessage Roots SealedHeader Session deriveRoots initInitiator
    initResponder
  protocolVersion)

def pqxdhInfo : Bytes := ascii "Komms-PQXDH-v1"
def infoMailbox : Bytes := ascii "KK-mailbox"
def infoHybridServiceExporter : Bytes := ascii "Komms-Hybrid-Service-Exporter-v1"

/-- The primitives of the handshake, beside those of the ratchet. -/
structure Primitives (Key Box Coins : Type) where
  ratchet : Ratchet.Primitives Key Box
  suite : Suite
  verifyingKey : Key → Octets 32
  sign : Key → Bytes → Octets 64
  kem : Kem (Octets mlkem768EkLen) (Octets mlkem768DkLen) (Octets mlkem768CtLen) Key Coins
  /-- 32 bytes used as key material. -/
  ofOctets : Octets 32 → Key
  /-- Key material put one after the other. -/
  concat : List Key → Key

variable {Key Box Coins : Type}

/-- The secret-key side: X25519 serves the identity, the prekeys and the ratchet alike. -/
def Primitives.secretKeys (P : Primitives Key Box Coins) : SecretKeys Key where
  verifyingKey := P.verifyingKey
  agreementKey := P.ratchet.x25519.publicKey
  sign := P.sign

/-! ### The first message on the wire -/

/-- A piece of an encoded message: a byte, an encrypted header, or a body. -/
inductive WireSymbol (Box : Type) where
  | byte (b : UInt8)
  | header (h : SealedHeader Box)
  | body (b : Box)
  deriving DecidableEq

abbrev Wire (Box : Type) := List (WireSymbol Box)

def WireSymbol.byte? : WireSymbol Box → Option UInt8
  | .byte b => some b
  | _ => none

/-- `version ‖ enc_header ‖ nonce ‖ ct` -/
def encode (msg : RatchetMessage Box) : Wire Box :=
  .byte protocolVersion :: .header msg.encHeader :: (msg.nonce.toBytes.map .byte ++ [.body msg.ct])

def decode : Wire Box → Except CryptoError (RatchetMessage Box)
  | .byte version :: .header encHeader :: rest => do
    rejectIf (version ≠ protocolVersion) .invalidMessage
    let nonce ← required .invalidMessage
      (((rest.take 24).mapM WireSymbol.byte?).bind (Octets.ofBytes? 24))
    match rest.drop 24 with
    | [.body ct] => return { encHeader, nonce, ct }
    | _ => throw .invalidMessage
  | _ => .error .invalidMessage

/-- The initiator's first flight. -/
structure InitialMessage (Box : Type) where
  initiator : IdentityPublic
  ek : Octets 32
  spkId : UInt32
  pqspkId : UInt32
  opkId : Option UInt32
  kemCt : Bytes
  first : Wire Box
  deriving DecidableEq

/-! ### Transcript and keys -/

/-- A one-time prekey in the transcript, or its absence. -/
def transcriptOpk : Option (Octets 32) → Bytes
  | some k => 1 :: k.toBytes
  | none => [0]

def transcriptBytes (initiator responder : IdentityPublic) (spk : Octets 32) (pqspk : Bytes)
    (ek : Octets 32) (kemCt : Bytes) (opk : Option (Octets 32)) : Bytes :=
  pqxdhInfo ++ (initiator.ed.toBytes ++ (initiator.x.toBytes ++ (responder.ed.toBytes ++
    (responder.x.toBytes ++ (spk.toBytes ++ (pqspk ++ (ek.toBytes ++ (kemCt ++
      transcriptOpk opk))))))))

/-- The service secrets a session carries beside its ratchet state. -/
structure SessionServiceSecrets (Key : Type) where
  mailbox : Key
  hybridServiceExporter : Key

/-- What each end derives before it sets up its ratchet. -/
structure SessionKeys (Key : Type) where
  sessionId : Octets 32
  roots : Roots Key
  services : SessionServiceSecrets Key

/-- A session as the handshake returns it. -/
structure Established (Key : Type) where
  session : Session Key
  services : SessionServiceSecrets Key

section Functions

variable (P : Primitives Key Box Coins)

def transcript (initiator responder : IdentityPublic) (spk : Octets 32) (pqspk : Bytes)
    (ek : Octets 32) (kemCt : Bytes) (opk : Option (Octets 32)) : Octets 32 :=
  P.suite.sha256 (transcriptBytes initiator responder spk pqspk ek kemCt opk)

/-- `SK_root = HKDF(0xFF*32 ‖ DH1..DH4 ‖ KEM_ss)`, and the two initial header keys. -/
def deriveRoot (dh1 dh2 dh3 : Key) (dh4 : Option Key) (kemSs : Key) : Roots Key :=
  let ikm := P.concat
    ([P.ofOctets (.replicate 32 0xff), dh1, dh2, dh3] ++ dh4.toList ++ [kemSs])
  deriveRoots P.ratchet (P.ratchet.hkdf.block (some (P.ofOctets (.zero 32))) ikm pqxdhInfo 0)

/-- The session id, the roots, and the service secrets that follow from them. -/
def sessionKeys (sessionId : Octets 32) (roots : Roots Key) : SessionKeys Key where
  sessionId
  roots
  services :=
    { mailbox := P.ratchet.hkdf.block none roots.skRoot infoMailbox 0
      hybridServiceExporter := P.ratchet.hkdf.block (some (P.ofOctets sessionId)) roots.skRoot
        infoHybridServiceExporter 0 }

/-! ### The initiator -/

/-- The random bytes `initiate` draws. -/
structure InitiatorRandom (Key Coins : Type) where
  ek : Key
  encapsulation : Coins
  ratchet : Key
  hdrNonce : Nonce
  nonce : Nonce

/-- The part of `initiate` before the ratchet: four products, the encapsulation, the transcript. -/
def initiatorKeys (me : Identity Key) (b : PrekeyBundle) (rng : InitiatorRandom Key Coins) :
    Except CryptoError (SessionKeys Key × Octets mlkem768CtLen) := do
  let dh := P.ratchet.x25519
  let dh1 := dh.shared me.agreement b.spk
  let dh2 := dh.shared rng.ek b.identity.x
  let dh3 := dh.shared rng.ek b.spk
  let dh4 := b.opk.map fun opk => dh.shared rng.ek opk.2
  let kemEk ← required .invalidBundle (Octets.ofBytes? mlkem768EkLen b.pqspk)
  let (kemCt, kemSs) ← required .invalidBundle (P.kem.encapsulate kemEk rng.encapsulation)
  let sessionId := transcript P (me.toPublic P.secretKeys) b.identity b.spk b.pqspk
    (dh.publicKey rng.ek) kemCt.toBytes (b.opk.map Prod.snd)
  return (sessionKeys P sessionId (deriveRoot P dh1 dh2 dh3 dh4 kemSs), kemCt)

def initiate (overflowChecks : Bool) (me : Identity Key) (bundle : VerifiedBundle P.suite)
    (firstPayload : Bytes) (nowSecs : ℕ) (rng : InitiatorRandom Key Coins) :
    Option (Except CryptoError (Established Key × InitialMessage Box)) :=
  let b := bundle.bundle
  match initiatorKeys P me b rng with
  | .error e => some (.error e)
  | .ok (keys, kemCt) => do
    let session := initInitiator P.ratchet rng.ratchet keys.sessionId keys.roots.skRoot b.spk
      keys.roots.hka keys.roots.nhkb
    let (session, first) ← session.encrypt P.ratchet overflowChecks rng.hdrNonce rng.nonce nowSecs
      firstPayload []
    return .ok ({ session, services := keys.services },
      { initiator := me.toPublic P.secretKeys
        ek := P.ratchet.x25519.publicKey rng.ek
        spkId := b.spkId
        pqspkId := b.pqspkId
        opkId := b.opk.map Prod.fst
        kemCt := kemCt.toBytes
        first := encode first })

/-! ### The responder -/

def decapsulate (pqspk : PqPrekeySecret) (ct : Bytes) : Except CryptoError Key := do
  let ct ← required .invalidMessage (Octets.ofBytes? mlkem768CtLen ct)
  required .invalidMessage (P.kem.decapsulate pqspk.dk ct)

/-- The part of `respond` before the ratchet: the checks, four products, the transcript. -/
def responderKeys (me : Identity Key) (spk : SignedPrekeySecret Key) (pqspk : PqPrekeySecret)
    (opk : Option (OneTimePrekeySecret Key)) (msg : InitialMessage Box) :
    Except CryptoError (SessionKeys Key) := do
  rejectIf (msg.spkId ≠ spk.id ∨ msg.pqspkId ≠ pqspk.id ∨
    msg.opkId ≠ opk.map OneTimePrekeySecret.id ∨ msg.kemCt.length ≠ mlkem768CtLen)
    .handshakeMismatch
  msg.initiator.verify P.suite
  let dh := P.ratchet.x25519
  let dh1 := dh.shared spk.secret msg.initiator.x
  let dh2 := dh.shared me.agreement msg.ek
  let dh3 := dh.shared spk.secret msg.ek
  let dh4 := opk.map fun k => dh.shared k.secret msg.ek
  let kemSs ← decapsulate P pqspk msg.kemCt
  let sessionId := transcript P msg.initiator (me.toPublic P.secretKeys) (dh.publicKey spk.secret)
    pqspk.ek.toBytes msg.ek msg.kemCt (opk.map fun k => dh.publicKey k.secret)
  return sessionKeys P sessionId (deriveRoot P dh1 dh2 dh3 dh4 kemSs)

/-- The session `respond` sets up, and the message it opens with it. -/
def respondSession (me : Identity Key) (spk : SignedPrekeySecret Key) (pqspk : PqPrekeySecret)
    (opk : Option (OneTimePrekeySecret Key)) (msg : InitialMessage Box) :
    Except CryptoError (Established Key × RatchetMessage Box) := do
  let keys ← responderKeys P me spk pqspk opk msg
  let first ← decode msg.first
  return ({ session := initResponder P.ratchet keys.sessionId keys.roots.skRoot spk.secret
              keys.roots.hka keys.roots.nhkb
            services := keys.services }, first)

/-- Respond to an initial message with the prekey secrets it references.  `privBytes` is the random
ratchet key of the first decryption. -/
def respond [DecidableEq Key] (overflowChecks : Bool) (me : Identity Key)
    (spk : SignedPrekeySecret Key) (pqspk : PqPrekeySecret)
    (opk : Option (OneTimePrekeySecret Key)) (msg : InitialMessage Box) (nowSecs : ℕ)
    (privBytes : Key) : Option (Except CryptoError (Established Key × Bytes)) :=
  match respondSession P me spk pqspk opk msg with
  | .error e => some (.error e)
  | .ok (established, first) => do
    let (session, payload) ← established.session.decrypt P.ratchet overflowChecks privBytes nowSecs
      first []
    return payload.map fun payload => ({ established with session }, payload)

end Functions

end Komms.Pqxdh
