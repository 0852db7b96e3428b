import Komms.Handshake.Admission

/-!
# Reading a handshake envelope

The first part of `consume_handshake`, `kult-node/src/lib.rs`: the admission wrapper of a first
contact, the anonymous box, the flight in it with the sender's prekey bundle, the contact it comes
from, and the answer to the key agreement.

Everything here ends in one of three ways: the flight is read, the envelope waits for a later tick,
or it is terminal, marked seen and dropped (`Stop`).  Decoders and cryptography are parameters
(`Env`).
-/

namespace Komms.Handshake

open DeviceAuthority (Certificate Manifest)
open Protocol (Envelope)

def maxProvisionalRequests : ℕ := 32

/-! ### Bundles and flights -/

/-- A device-signed prekey bundle; `hints` is its `transport_hints`. -/
structure PrekeyBundle where
  identity : IdentityPublic
  spkId : UInt32
  spk : Octets 32
  pqspkId : UInt32
  pqspk : Bytes
  hints : List Bytes
  deriving DecidableEq

/-- `AuthorityDevicePrekeyBundle`. -/
structure DevicePrekeyBundle where
  certificate : Certificate
  manifest : Manifest
  prekey : PrekeyBundle
  deriving DecidableEq

/-- The signed descriptor of an admission policy. -/
structure AdmissionDescriptor where
  bundleDigest : Octets 32
  validityEpoch : UInt64
  maxFirstCiphertext : UInt32
  difficulty : UInt8
  deriving DecidableEq

inductive DeviceHandshakeIntent where
  | establish
  | replace (priorSessionId : Octets 32)
  | reset
  | legacy
  deriving DecidableEq

structure DeviceInitialFlight where
  initial : Bytes
  returnBundle : Bytes
  intent : DeviceHandshakeIntent

structure AccountInitialFlight where
  initial : Bytes
  returnBundle : Bytes

/-- `agreement` stands for the key-agreement values and the first ciphertext. -/
structure InitialMessage where
  initiator : IdentityPublic
  spkId : UInt32
  pqspkId : UInt32
  opkId : Option UInt32
  agreement : Bytes
  deriving DecidableEq

/-- What `decode_content` finds in a first payload, as far as it is distinguished here. -/
inductive Content where
  | legacyText (text : Bytes)
  | text (id : Octets 16) (text : Bytes)
  | attachment (id : Octets 16) (primary : Bytes) (preview : Option Bytes)
  | edit (id : Octets 16)
  | ephemeral (id : Octets 16)
  | mention (id : Octets 16)
  | poll (id : Octets 16)
  | groupAuthority (id : Octets 16)
  | callControl
  | unsupported
  | malformed
  deriving DecidableEq

/-! ### The prekey vault -/

structure Opk where
  id : UInt32
  secret : Octets 32
  deriving DecidableEq

structure Invitation where
  bundleDigest : Octets 32
  secret : Octets 32
  expiresAt : UInt64
  deriving DecidableEq

structure PrekeyVault where
  spkId : UInt32
  spk : Octets 32
  pqspkId : UInt32
  pqDk : Bytes
  pqEk : Bytes
  opks : List Opk
  nextOpkId : UInt32
  invitations : List Invitation
  deriving DecidableEq

namespace PrekeyVault

variable (vault : PrekeyVault)

def opk (id : UInt32) : Option Opk := vault.opks.find? fun o => o.id = id

def removeOpk (id : UInt32) : PrekeyVault :=
  { vault with opks := vault.opks.filter fun o => o.id ≠ id }

def invitation (bundleDigest : Octets 32) (now : UInt64) : Option (Octets 32) :=
  (vault.invitations.find? fun i => i.bundleDigest = bundleDigest && i.expiresAt ≥ now).map
    Invitation.secret

def removeInvitation (bundleDigest : Octets 32) : PrekeyVault :=
  { vault with invitations := vault.invitations.filter fun i => i.bundleDigest ≠ bundleDigest }

end PrekeyVault

/-! ### The node -/

/-- The identity of the local device, the decoders, and the cryptography. -/
structure Env (Session : Type) where
  group : Group.Env
  account : IdentityPublic
  device : IdentityPublic
  account_eq : account.ed = group.me
  device_eq : device.ed = group.deviceId
  contentId : Envelope → Octets 16
  decodeAdmission : Bytes → Option AdmissionEnvelope
  decodePrekey : Bytes → Option PrekeyBundle
  encodePrekey : PrekeyBundle → Bytes
  verifyPrekey : PrekeyBundle → UInt64 → Bool
  verifyAdmission : PrekeyBundle → UInt64 → Option AdmissionDescriptor
  verifyPuzzle : AdmissionContext → Octets 16 → Octets 32 → UInt8 → Bool
  invitationProof : Octets 32 → AdmissionContext → Octets 16 → Octets 32
  spkPublic : Octets 32 → Octets 32
  /-- `open_anonymous` with the device identity. -/
  openAnonymous : Bytes → Option Bytes
  decodeDeviceInitial : Bytes → Option DeviceInitialFlight
  decodeAccountInitial : Bytes → Option AccountInitialFlight
  decodeDeviceBundle : Bytes → Option DevicePrekeyBundle
  decodeInitial : Bytes → Option InitialMessage
  /-- The responder's key agreement, with the ratchet key it draws. -/
  agree : PrekeyVault → Option Opk → InitialMessage → UInt64 → Octets 32 → Option (Session × Bytes)
  sessionId : Session → Octets 32
  sessionBytes : Session → Bytes
  /-- The ratchet key that a session drew last. -/
  ratchetKey : Session → Octets 32
  /-- Encrypt a padded control payload: the session after it and the encoded message. -/
  encrypt : Session → Bytes → UInt64 → Session × Bytes
  /-- The delivery token of a session for a device on the day of a time. -/
  deliveryToken : Session → UInt64 → Octets 32 → Octets 32
  encodeReceipt : Octets 16 → Bytes
  unpad : Bytes → Option Bytes
  decodeContent : Bytes → Content
  encodeVault : PrekeyVault → Bytes
  encodeManifest : Manifest → Bytes
  safetyNumber : IdentityPublic → IdentityPublic → SafetyNumber
  /-- The sealed size of a request row. -/
  requestSize : ProvisionalRequest Session → ℕ

/-- What is left of the first-contact work of this tick. -/
structure Budgets where
  carriers : AdmissionTransportClass → ℕ
  puzzles : ℕ
  kems : ℕ
  notifications : ℕ

structure Node (Session : Type) where
  store : Store Session
  vault : PrekeyVault
  budgets : Budgets

/-- Ways in which an envelope is not consumed: it stays pending, or it is marked seen and
dropped. -/
inductive Stop where
  | later
  | terminal
  deriving DecidableEq, Repr

variable {Session : Type}

/-! ### First-contact admission -/

/-- `none` when the time slice is over or the carrier has had its candidates. -/
def Node.reserveAdmissionCandidate (node : Node Session) (late : Bool)
    (transport : AdmissionTransportClass) : Option (Node Session) :=
  if late || node.budgets.carriers transport = 0 then none
  else some { node with
    budgets := { node.budgets with
      carriers := Function.update node.budgets.carriers transport
        (node.budgets.carriers transport - 1) } }

def proofValid (E : Env Session) (vault : PrekeyVault) (admission : AdmissionEnvelope)
    (policy : AdmissionDescriptor) (now : UInt64) : Bool :=
  match admission.proofKind with
  | .puzzle => E.verifyPuzzle admission.context admission.contentId admission.proof
      policy.difficulty
  | .invitation => (vault.invitation admission.context.bundleDigest now).any fun secret =>
      E.invitationProof secret admission.context admission.contentId = admission.proof

/-- The wrapper is for this device, its proof is valid, and it names the current prekeys. -/
def checkAdmission (E : Env Session) (vault : PrekeyVault) (body : Bytes) (now : UInt64) :
    Except Stop AdmissionEnvelope := do
  let admission ← required .terminal (E.decodeAdmission body)
  let target ← required .terminal (E.decodePrekey admission.targetBundle)
  let policy ← required .terminal (E.verifyAdmission target now)
  rejectIf (admission.context.targetAccount ≠ E.account.ed ∨
    admission.context.targetDevice ≠ E.device.ed ∨ target.identity ≠ E.device ∨
    admission.context.bundleDigest ≠ policy.bundleDigest ∨
    admission.context.validityEpoch ≠ policy.validityEpoch ∨
    admission.sealedFlight.length > policy.maxFirstCiphertext.toNat) .terminal
  rejectIf (proofValid E vault admission policy now = false) .terminal
  rejectIf (target.spkId ≠ vault.spkId ∨ target.spk ≠ E.spkPublic vault.spk ∨
    target.pqspkId ≠ vault.pqspkId ∨ target.pqspk ≠ vault.pqEk) .terminal
  .ok admission

def admitFlight (E : Env Session) (node : Node Session) (body : Bytes)
    (transport : AdmissionTransportClass) (late : Bool) (now : UInt64) :
    Effect (Node Session) Stop (Option AdmissionEnvelope) :=
  if AdmissionEnvelope.isEncoded body then
    match node.reserveAdmissionCandidate late transport with
    | none => ⟨node, .error .later⟩
    | some node =>
      if node.budgets.puzzles = 0 then ⟨node, .error .later⟩
      else
        let node := { node with
          budgets := { node.budgets with puzzles := node.budgets.puzzles - 1 } }
        ⟨node, (checkAdmission E node.vault body now).map some⟩
  else ⟨node, .ok none⟩

/-! ### The flight -/

/-- Verify authority, active certificate, and device-signed prekeys. -/
def DevicePrekeyBundle.verify (E : Env Session) (bundle : DevicePrekeyBundle) (now : UInt64) :
    Bool :=
  bundle.manifest.verify E.group.suite = .ok () &&
    bundle.certificate.verify E.group.suite = .ok () &&
    E.verifyPrekey bundle.prekey now &&
    bundle.manifest.account? = some bundle.certificate.account &&
    bundle.certificate.device = bundle.prekey.identity &&
    bundle.manifest.activeCertificate bundle.certificate.deviceId = some bundle.certificate

/-- The flight with its sender bundle decoded. -/
structure Opened where
  init : InitialMessage
  deviceBundle : Option DevicePrekeyBundle
  accountBundle : Option PrekeyBundle
  intent : DeviceHandshakeIntent
  deriving DecidableEq

namespace Opened

def peerDevice (o : Opened) : Octets 32 := o.init.initiator.ed

/-- The account of the sender: of its manifest, or the initiator itself. -/
def accountIdentity (o : Opened) : IdentityPublic :=
  (o.deviceBundle.bind fun bundle => bundle.manifest.account?).getD o.init.initiator

def peer (o : Opened) : Octets 32 := o.accountIdentity.ed

end Opened

variable (E : Env Session)

/-- The initial message and the verified bundle to answer to. -/
def decodeFlight (plain : Bytes) (now : UInt64) :
    Except Stop (Bytes × Option DevicePrekeyBundle × Option PrekeyBundle × DeviceHandshakeIntent) :=
  match E.decodeDeviceInitial plain with
  | some flight => do
    let bundle ← required .terminal (E.decodeDeviceBundle flight.returnBundle)
    rejectIf (bundle.verify E now = false) .terminal
    .ok (flight.initial, some bundle, none, flight.intent)
  | none =>
    match E.decodeAccountInitial plain with
    | some flight => do
      let bundle ← required .terminal (E.decodePrekey flight.returnBundle)
      rejectIf (E.verifyPrekey bundle now = false) .terminal
      .ok (flight.initial, none, some bundle, .legacy)
    | none => .ok (plain, none, none, .legacy)

def openFlight (sealedFlight : Bytes) (now : UInt64) : Except Stop Opened := do
  let plain ← required .terminal (E.openAnonymous sealedFlight)
  let (initial, deviceBundle, accountBundle, intent) ← decodeFlight E plain now
  let init ← required .terminal (E.decodeInitial initial)
  rejectIf (deviceBundle.any (fun bundle => bundle.prekey.identity ≠ init.initiator) ∨
    accountBundle.any (fun bundle => bundle.identity ≠ init.initiator)) .terminal
  .ok { init, deviceBundle, accountBundle, intent }

/-! ### The sender -/

/-- The stored contact, or `none` for a first contact that may go on. -/
def meetContact (node : Node Session) (admitted : Bool) (peer : Octets 32) :
    Effect (Node Session) Stop (Option ContactRecord) :=
  match node.store.contacts peer with
  | some contact =>
    if node.store.blocked peer then ⟨node, .error .terminal⟩ else ⟨node, .ok (some contact)⟩
  | none =>
    if admitted = false ∨ node.store.blocked peer then ⟨node, .error .terminal⟩
    else if (node.store.getProvisionalRequest peer).isNone ∧
        node.store.requests.length ≥ maxProvisionalRequests then ⟨node, .error .terminal⟩
    else if node.budgets.kems = 0 then ⟨node, .error .later⟩
    else ⟨{ node with budgets := { node.budgets with kems := node.budgets.kems - 1 } }, .ok none⟩

/-- `respond`: the initiator's identity is checked before the key agreement. -/
def respond (vault : PrekeyVault) (opk : Option Opk) (init : InitialMessage) (now : UInt64)
    (ratchetKey : Octets 32) : Option (Session × Bytes) :=
  if init.initiator.verify E.group.suite = .ok () then E.agree vault opk init now ratchetKey
  else none

/-- The session and the first payload, with the prekeys the initiator used. -/
def answer (vault : PrekeyVault) (init : InitialMessage) (now : UInt64) (ratchetKey : Octets 32) :
    Except Stop (Session × Bytes) := do
  rejectIf (init.spkId ≠ vault.spkId ∨ init.pqspkId ≠ vault.pqspkId) .terminal
  match init.opkId with
  | some id => do
    let opk ← required .terminal (vault.opk id)
    required .terminal (respond E vault (some opk) init now ratchetKey)
  | none => required .terminal (respond E vault none init now ratchetKey)

/-! ### The whole first part -/

/-- An opened and answered handshake. -/
structure Flight (Session : Type) where
  admission : Option AdmissionEnvelope
  opened : Opened
  contact : Option ContactRecord
  session : Session
  payload : Bytes

def readFlight (node : Node Session) (env : Envelope) (transport : AdmissionTransportClass)
    (late : Bool) (now : UInt64) (ratchetKey : Octets 32) :
    Effect (Node Session) Stop (Flight Session) :=
  (admitFlight E node env.body transport late now).andThen fun node admission =>
  (Effect.inspect node (openFlight E
    ((admission.map AdmissionEnvelope.sealedFlight).getD env.body) now)).andThen fun node opened =>
  (meetContact node admission.isSome opened.peer).andThen fun node contact =>
  (Effect.inspect node (answer E node.vault opened.init now ratchetKey)).andThen
    fun node (session, payload) => ⟨node, .ok { admission, opened, contact, session, payload }⟩

end Komms.Handshake
