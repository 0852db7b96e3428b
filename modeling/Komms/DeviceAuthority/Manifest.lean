import Mathlib.Data.List.Sort
import Komms.Crypto.Identity

/-!
# Offline-root and quorum-authorized device authority

The append-only manifest of `kult-crypto/src/device_authority.rs`.  The account key signs genesis
and recovery; every other transition is signed by a strict majority of the preceding active device
set.  Each transition carries the complete next state and is bound to its parent by hash.

`verify` walks the whole list: `verifyGenesis` on the first transition and `verifyTransition` on
each adjacent pair.  `initial`, `append` and `recover` build manifests.  Random ids are arguments,
of a type without the zero id that `fill_nonzero_16` redraws.  `relation` compares an accepted
manifest with a candidate: first their recovery epochs; within an epoch they must share their
recovery, and the longer one must extend the shorter one.
-/

namespace Komms.DeviceAuthority

/-! ### Constants -/

def deviceAuthorityVersion : UInt16 := 2

def maxTransitions : ℕ := 64

/-- Maximum encoded authority proof accepted from an untrusted peer. -/
def maxDeviceAuthorityBytes : ℕ := 1024 * 1024

def maxAuthorityDevices : ℕ := 8

/-- Maximum lifetime certificate and tombstone rows retained in one state. -/
def maxAuthorityEntries : ℕ := 64

def maxDeviceNameBytes : ℕ := 64

def authorityMagic : Bytes := ascii "KDA2"

/-- A random id as `fill_nonzero_16` leaves it. -/
abbrev NonZero16 := { id : Octets 16 // id ≠ .zero 16 }

/-! ### Certificates and state rows -/

/-- Immutable candidate-owned credential for one physical device. -/
structure Certificate where
  account : IdentityPublic
  device : IdentityPublic
  serial : Octets 16
  issuedAt : UInt64
  deviceSignature : Octets 64
  deriving DecidableEq

namespace Certificate

def deviceId (c : Certificate) : Octets 32 := c.device.ed

def canonical (c : Certificate) : Bytes :=
  leBytes 2 deviceAuthorityVersion.toNat ++ c.account.canonical ++ c.device.canonical ++
    c.serial.toBytes ++ leBytes 8 c.issuedAt.toNat

/-- Identity consistency, the non-zero serial, and device possession. -/
def verify (S : Suite) (c : Certificate) : Except CryptoError Unit := do
  c.account.verify S
  c.device.verify S
  rejectIf (c.serial = .zero 16) .invalidMessage
  c.device.verifyDomain S .authorityCertificate c.canonical c.deviceSignature

end Certificate

/-- State row for one physical-device certificate. -/
structure Entry where
  certificate : Certificate
  name : Utf8
  lastSeen : UInt64
  revokedAt : Option UInt64
  revokedAfterCounter : Option UInt64
  deriving DecidableEq

namespace Entry

def deviceId (e : Entry) : Octets 32 := e.certificate.deviceId

def isActive (e : Entry) : Bool := e.revokedAt.isNone

/-- An optional integer: a presence byte, then the eight bytes of the value. -/
def optionalBytes : Option UInt64 → Bytes
  | some value => 1 :: leBytes 8 value.toNat
  | none => [0]

/-- `append_entry`. -/
def canonical (e : Entry) : Bytes :=
  leBytes 4 e.certificate.canonical.length ++ e.certificate.canonical ++
    e.certificate.deviceSignature.toBytes ++ leBytes 4 e.name.bytes.length ++ e.name.bytes ++
    leBytes 8 e.lastSeen.toNat ++ optionalBytes e.revokedAt ++ optionalBytes e.revokedAfterCounter

end Entry

def activeCount (devices : List Entry) : ℕ := devices.countP Entry.isActive

def findDevice (devices : List Entry) (id : Octets 32) : Option Entry :=
  devices.find? fun entry => entry.deviceId = id

/-! ### Transitions -/

/-- Declared kind of a transition. -/
inductive TransitionKind where
  | genesis
  | addDevice
  | renameDevice
  | observeDevice
  | revokeDevice
  | replaceDevice
  | recovery
  deriving DecidableEq, Repr

def TransitionKind.code : TransitionKind → UInt8
  | genesis => 1
  | addDevice => 2
  | renameDevice => 3
  | observeDevice => 4
  | revokeDevice => 5
  | replaceDevice => 6
  | recovery => 7

/-- One device signature over an ordinary transition. -/
structure Approval where
  signer : Octets 32
  signature : Octets 64
  deriving DecidableEq

/-- Authorization proof attached to a transition. -/
inductive Authorization where
  | devices (signatures : List Approval)
  | root (signature : Octets 64)
  deriving DecidableEq

/-- One versioned, parent-bound, complete-state transition. -/
structure Transition where
  version : UInt16
  account : IdentityPublic
  parentHash : Octets 32
  parentGeneration : UInt64
  generation : UInt64
  recoveryEpoch : UInt64
  transitionId : Octets 16
  recoveryId : Option (Octets 16)
  kind : TransitionKind
  devices : List Entry
  newCertificates : List Certificate
  authorization : Authorization
  deriving DecidableEq

namespace Transition

def canonical (t : Transition) : Bytes :=
  leBytes 2 t.version.toNat ++ t.account.canonical ++ t.parentHash.toBytes ++
    leBytes 8 t.parentGeneration.toNat ++ leBytes 8 t.generation.toNat ++
    leBytes 8 t.recoveryEpoch.toNat ++ t.transitionId.toBytes ++
    (match t.recoveryId with
      | some id => 1 :: id.toBytes
      | none => [0]) ++
    [t.kind.code] ++
    leBytes 4 t.devices.length ++ t.devices.flatMap Entry.canonical ++
    leBytes 4 t.newCertificates.length ++ t.newCertificates.flatMap fun c =>
      leBytes 4 c.canonical.length ++ c.canonical ++ c.deviceSignature.toBytes

/-- Digest that binds all fields and every accepted signature. -/
def transitionHash (S : Suite) (t : Transition) : Octets 32 :=
  S.sha256 (t.canonical ++
    match t.authorization with
    | .devices signatures =>
      1 :: leBytes 4 signatures.length ++
        signatures.flatMap fun s => s.signer.toBytes ++ s.signature.toBytes
    | .root signature => 2 :: signature.toBytes)

end Transition

/-! ### State validation -/

section Validation

variable (S : Suite)

/-- The loop of `validate_state`: every row well formed, ids strictly ascending; returns the number
of active rows. -/
def validateEntries (account : IdentityPublic) :
    Option (Octets 32) → ℕ → List Entry → Except CryptoError ℕ
  | _, active, [] => .ok active
  | prior, active, entry :: rest => do
    entry.certificate.verify S
    rejectIf (entry.certificate.account ≠ account ∨ entry.name.bytes = [] ∨
      entry.name.bytes.length > maxDeviceNameBytes ∨ entry.lastSeen < entry.certificate.issuedAt ∨
      entry.revokedAt.any (· < entry.certificate.issuedAt) = true ∨
      entry.revokedAt.isSome ≠ entry.revokedAfterCounter.isSome ∨
      prior.any (· ≥ entry.deviceId) = true) .invalidMessage
    validateEntries account (some entry.deviceId) (if entry.isActive then active + 1 else active)
      rest

def validateState (account : IdentityPublic) (devices : List Entry) : Except CryptoError Unit := do
  let active ← validateEntries S account none 0 devices
  rejectIf (active = 0 ∨ active > maxAuthorityDevices) .invalidMessage

/-- The loop over the new certificates in `validate_transition_common`. -/
def validateCertificates (account : IdentityPublic) :
    Option (Octets 32) → List Certificate → Except CryptoError Unit
  | _, [] => .ok ()
  | prior, certificate :: rest => do
    certificate.verify S
    rejectIf (certificate.account ≠ account ∨ prior.any (· ≥ certificate.deviceId) = true)
      .invalidMessage
    validateCertificates account (some certificate.deviceId) rest

def validateTransitionCommon (t : Transition) : Except CryptoError Unit := do
  t.account.verify S
  rejectIf (t.version ≠ deviceAuthorityVersion ∨ t.transitionId = .zero 16 ∨ t.devices = [] ∨
    t.devices.length > maxAuthorityEntries ∨ t.newCertificates.length > maxAuthorityDevices)
    .invalidMessage
  validateState S t.account t.devices
  validateCertificates S t.account none t.newCertificates

/-! ### Differences between a state and its successor -/

/-- Certificates and revocations are permanent, and `last_seen` does not go back. -/
def validateParentContinuity (parent candidate : List Entry) : Except CryptoError Unit :=
  forEach (fun old => do
    let new ← required .invalidMessage (findDevice candidate old.deviceId)
    rejectIf (new.certificate ≠ old.certificate ∨
      (old.revokedAt.isSome = true ∧ new.revokedAt ≠ old.revokedAt) ∨
      (old.revokedAfterCounter.isSome = true ∧ new.revokedAfterCounter ≠ old.revokedAfterCounter) ∨
      new.lastSeen < old.lastSeen) CryptoError.invalidMessage) parent

/-- The certificates of the rows that have no row in the parent. -/
def introducedCertificates (parent candidate : List Entry) : List Certificate :=
  (candidate.filter fun entry => !parent.any fun old => old.deviceId = entry.deviceId).map
    Entry.certificate

variable (parent candidate : Transition)

def validateNewCertificates : Except CryptoError Unit :=
  rejectIf (introducedCertificates parent.devices candidate.devices ≠ candidate.newCertificates)
    .invalidMessage

/-- What an ordinary transition may do to one row. -/
inductive Change where
  | unchanged
  | renamed
  | observed
  | revoked
  deriving DecidableEq, Repr

/-- The change from a row to its successor, if it is one of the admissible ones. -/
def classify (old new : Entry) : Option Change :=
  if new = old then some .unchanged
  else if old.isActive ∧ new.isActive ∧ new.name ≠ old.name ∧ new.lastSeen = old.lastSeen ∧
      { old with name := new.name } = new then some .renamed
  else if old.isActive ∧ new.isActive ∧ new.name = old.name ∧ new.lastSeen > old.lastSeen ∧
      { old with lastSeen := new.lastSeen } = new then some .observed
  else if old.isActive ∧ !new.isActive ∧ new.name = old.name ∧ new.lastSeen = old.lastSeen ∧
      { old with revokedAt := new.revokedAt, revokedAfterCounter := new.revokedAfterCounter } = new
    then some .revoked
  else none

/-- The changes of all rows of a parent state, in its order. -/
def changes (candidate : List Entry) : List Entry → Except CryptoError (List Change)
  | [] => .ok []
  | old :: rest => do
    let new ← required .invalidMessage (findDevice candidate old.deviceId)
    let change ← required .invalidMessage (classify old new)
    let others ← changes candidate rest
    .ok (change :: others)

/-- The numbers of introduced, renamed, observed and revoked rows each ordinary kind declares. -/
def TransitionKind.effect : TransitionKind → Option (ℕ × ℕ × ℕ × ℕ)
  | addDevice => some (1, 0, 0, 0)
  | renameDevice => some (0, 1, 0, 0)
  | observeDevice => some (0, 0, 1, 0)
  | revokeDevice => some (0, 0, 0, 1)
  | replaceDevice => some (1, 0, 0, 1)
  | genesis | recovery => none

def validateOrdinaryDifference (kind : TransitionKind) (parent candidate : List Entry) :
    Except CryptoError Unit := do
  let found ← changes candidate parent
  rejectIf (kind.effect ≠ some (candidate.length - parent.length, found.count .renamed,
    found.count .observed, found.count .revoked)) .invalidMessage

def validateRecoveryDifference : Except CryptoError Unit := do
  rejectIf (candidate.newCertificates.length ≠ 1 ∨
    candidate.devices.length ≠ parent.devices.length + 1 ∨ activeCount candidate.devices ≠ 1)
    .invalidMessage
  forEach (fun old => do
    let new ← required .invalidMessage (findDevice candidate.devices old.deviceId)
    rejectIf (if old.isActive then new.isActive ∨ new.name ≠ old.name ∨ new.lastSeen ≠ old.lastSeen
      else new ≠ old) CryptoError.invalidMessage) parent.devices
  let certificate ← required .invalidMessage candidate.newCertificates.head?
  let fresh ← required .invalidMessage (findDevice candidate.devices certificate.deviceId)
  rejectIf (fresh.isActive = false) .invalidMessage

/-! ### Transition verification -/

/-- The one device of a genesis state is the one certified there, and it is active. -/
def genesisShape (t : Transition) : Bool :=
  match t.devices, t.newCertificates with
  | [entry], [certificate] => entry.certificate = certificate && entry.isActive
  | _, _ => false

def verifyGenesis (t : Transition) : Except CryptoError Unit := do
  validateTransitionCommon S t
  rejectIf (t.parentHash ≠ .zero 32 ∨ t.parentGeneration ≠ 0 ∨ t.generation ≠ 1 ∨
    t.recoveryEpoch ≠ 0 ∨ t.recoveryId.isSome = true ∨ t.kind ≠ .genesis ∨ genesisShape t = false)
    .invalidMessage
  match t.authorization with
  | .root signature => t.account.verifyDomain S .authorityRootTransition t.canonical signature
  | .devices _ => .error .invalidMessage

/-- The loop over the device approvals: signers strictly ascending, each an active device of the
parent, each signature over the candidate. -/
def verifyApprovals (parent : List Entry) (message : Bytes) :
    Option (Octets 32) → List Approval → Except CryptoError Unit
  | _, [] => .ok ()
  | prior, approval :: rest => do
    rejectIf (prior.any (· ≥ approval.signer) = true) .invalidMessage
    let signer ← required .invalidSignature
      (parent.find? fun entry => entry.deviceId = approval.signer ∧ entry.isActive)
    signer.certificate.device.verifyDomain S .authorityTransition message approval.signature
    verifyApprovals parent message (some approval.signer) rest

/-- The `Recovery` branch of `verify_transition`. -/
def verifyRecovery : Except CryptoError Unit := do
  rejectIf (candidate.recoveryEpoch ≠ (checkedSucc parent.recoveryEpoch).getD 0 ∨
    candidate.recoveryId.all (· = .zero 16) = true) .invalidMessage
  validateRecoveryDifference parent candidate
  match candidate.authorization with
  | .root signature =>
    candidate.account.verifyDomain S .authorityRootTransition candidate.canonical signature
  | .devices _ => .error .invalidMessage

/-- The branch of `verify_transition` for the ordinary kinds. -/
def verifyOrdinary (requireQuorum : Bool) : Except CryptoError Unit := do
  rejectIf (candidate.recoveryEpoch ≠ parent.recoveryEpoch ∨ candidate.recoveryId.isSome = true)
    .invalidMessage
  validateOrdinaryDifference candidate.kind parent.devices candidate.devices
  match candidate.authorization with
  | .root _ => .error .invalidMessage
  | .devices signatures =>
    rejectIf (signatures.length > activeCount parent.devices) .invalidMessage
    verifyApprovals S parent.devices candidate.canonical none signatures
    rejectIf (requireQuorum ∧ signatures.length < activeCount parent.devices / 2 + 1)
      .invalidSignature

def verifyTransition (requireQuorum : Bool) : Except CryptoError Unit := do
  validateTransitionCommon S candidate
  rejectIf (candidate.account ≠ parent.account ∨ candidate.parentHash ≠ parent.transitionHash S ∨
    candidate.parentGeneration ≠ parent.generation ∨
    candidate.generation ≠ (checkedSucc parent.generation).getD 0) .invalidMessage
  validateParentContinuity parent.devices candidate.devices
  validateNewCertificates parent candidate
  match candidate.kind with
  | .genesis => .error .invalidMessage
  | .recovery => verifyRecovery S parent candidate
  | _ => verifyOrdinary S parent candidate requireQuorum

end Validation

/-! ### Manifests -/

/-- Bounded append-only proof ending in one complete device authority state. -/
structure Manifest where
  transitions : List Transition
  deriving DecidableEq

/-- Every pair of neighbours, as `windows(2)` lists them. -/
def verifyLinks (S : Suite) : List Transition → Except CryptoError Unit
  | parent :: candidate :: rest => do
    verifyTransition S parent candidate true
    verifyLinks S (candidate :: rest)
  | _ => .ok ()

namespace Manifest

variable (S : Suite)

/-- Verify every transition from genesis through the current state. -/
def verify (m : Manifest) : Except CryptoError Unit := do
  rejectIf (m.transitions = [] ∨ m.transitions.length > maxTransitions) .invalidMessage
  let genesis ← required .invalidMessage m.transitions.head?
  verifyGenesis S genesis
  verifyLinks S m.transitions

/-- The last transition, which carries the current state. -/
def current? (m : Manifest) : Option Transition := m.transitions.getLast?

/-- Strictly decode, bound allocation, reject trailing bytes, and verify.  `parse` is the
deserializer of the body, which returns the bytes it did not read. -/
def decode (parse : Bytes → Option (Manifest × Bytes)) (bytes : Bytes) :
    Except CryptoError Manifest := do
  rejectIf (bytes.length > authorityMagic.length + maxDeviceAuthorityBytes) .invalidMessage
  let body ← required .serialization (bytes.dropPrefix? authorityMagic)
  let (manifest, remainder) ← required .serialization (parse body)
  rejectIf (remainder ≠ []) .serialization
  manifest.verify S
  .ok manifest

def account? (m : Manifest) : Option IdentityPublic := m.transitions.head?.map Transition.account

def activeCertificate (m : Manifest) (device : Octets 32) : Option Certificate := do
  let current ← m.current?
  let entry ← current.devices.find? fun entry => entry.deviceId = device ∧ entry.isActive
  some entry.certificate

/-- Verify and append one fully authorized direct child. -/
def append (m : Manifest) (transition : Transition) : Except CryptoError Manifest := do
  m.verify S
  rejectIf (m.transitions.length ≥ maxTransitions) .invalidMessage
  let parent ← required .invalidMessage m.current?
  verifyTransition S parent transition true
  let manifest : Manifest := ⟨m.transitions ++ [transition]⟩
  manifest.verify S
  .ok manifest

end Manifest

/-! ### Building manifests -/

section Build

variable (S : Suite) {Secret : Type} (K : SecretKeys Secret)

/-- `issue`, with the drawn serial. -/
def Certificate.issue (account : IdentityPublic) (device : Identity Secret) (serial : NonZero16)
    (issuedAt : UInt64) : Except CryptoError Certificate := do
  account.verify S
  let unsigned : Certificate :=
    { account, device := device.toPublic K, serial := serial.val, issuedAt,
      deviceSignature := .zero 64 }
  let certificate : Certificate :=
    { unsigned with
      deviceSignature := device.signDomain K .authorityCertificate unsigned.canonical }
  certificate.verify S
  .ok certificate

def Entry.fresh (certificate : Certificate) (name : Utf8) (lastSeen : UInt64) : Entry :=
  { certificate, name, lastSeen, revokedAt := none, revokedAfterCounter := none }

/-- The transition with the root's signature in place of its placeholder. -/
def Transition.signRoot (root : Identity Secret) (t : Transition) : Transition :=
  { t with
    authorization := .root (root.signDomain K .authorityRootTransition t.canonical) }

/-- Root-authorized genesis with one fresh physical device. -/
def Manifest.initial (root device : Identity Secret) (name : Utf8) (issuedAt : UInt64)
    (serial transitionId : NonZero16) : Except CryptoError Manifest := do
  let account := root.toPublic K
  let certificate ← Certificate.issue S K account device serial issuedAt
  let unsigned : Transition :=
    { version := deviceAuthorityVersion, account, parentHash := .zero 32, parentGeneration := 0,
      generation := 1, recoveryEpoch := 0, transitionId := transitionId.val, recoveryId := none,
      kind := .genesis, devices := [Entry.fresh certificate name issuedAt],
      newCertificates := [certificate], authorization := .root (.zero 64) }
  let manifest : Manifest := ⟨[unsigned.signRoot K root]⟩
  manifest.verify S
  .ok manifest

/-- A row as recovery leaves it: revoked, at the recovery time or at its issue if that is later. -/
def Entry.revokeForRecovery (recoveredAt : UInt64) (e : Entry) : Entry :=
  if e.isActive then
    { e with revokedAt := some (max recoveredAt e.certificate.issuedAt),
             revokedAfterCounter := some 0 }
  else e

def sortDevices (devices : List Entry) : List Entry :=
  devices.insertionSort fun a b => a.deviceId ≤ b.deviceId

/-- Higher recovery epoch: every active certificate is revoked and one fresh recovery device is
introduced. -/
def Manifest.recover (m : Manifest) (root recoveryDevice : Identity Secret) (name : Utf8)
    (recoveredAt : UInt64) (serial transitionId recoveryId : NonZero16) :
    Except CryptoError Manifest := do
  m.verify S
  let first ← required .invalidKey m.transitions.head?
  let parent ← required .invalidKey m.current?
  rejectIf (root.toPublic K ≠ first.account ∨ m.transitions.length ≥ maxTransitions ∨
    parent.devices.length ≥ maxAuthorityEntries) .invalidKey
  let certificate ← Certificate.issue S K (root.toPublic K) recoveryDevice serial recoveredAt
  rejectIf (parent.devices.any (fun entry => entry.deviceId = certificate.deviceId) = true)
    .invalidMessage
  let devices := sortDevices
    (parent.devices.map (Entry.revokeForRecovery recoveredAt) ++
      [Entry.fresh certificate name recoveredAt])
  let generation ← required .invalidMessage (checkedSucc parent.generation)
  let recoveryEpoch ← required .invalidMessage (checkedSucc parent.recoveryEpoch)
  let unsigned : Transition :=
    { version := deviceAuthorityVersion, account := first.account,
      parentHash := parent.transitionHash S, parentGeneration := parent.generation, generation,
      recoveryEpoch, transitionId := transitionId.val, recoveryId := some recoveryId.val,
      kind := .recovery, devices, newCertificates := [certificate],
      authorization := .root (.zero 64) }
  m.append S (unsigned.signRoot K root)

end Build

namespace Manifest

variable (S : Suite)

/-! ### The current state

The defaults are those of no verified manifest, which has a last transition. -/

def devices (m : Manifest) : List Entry := (m.current?.map Transition.devices).getD []

def generation (m : Manifest) : UInt64 := (m.current?.map Transition.generation).getD 0

def recoveryEpoch (m : Manifest) : UInt64 := (m.current?.map Transition.recoveryEpoch).getD 0

/-- Stable digest of the current exact transition. -/
def stateId (m : Manifest) : Octets 32 :=
  (m.current?.map (Transition.transitionHash S)).getD (.zero 32)

end Manifest

/-! ### The relation -/

inductive Relation where
  | same
  | descendant
  | stale
  | fork
  | recoverySupersedes
  | oldEpoch
  | recoveryConflict
  deriving DecidableEq, Repr

/-- The transition that opened a recovery epoch. -/
def recoveryAnchor (S : Suite) (m : Manifest) (epoch : UInt64) : Option (Octets 32) :=
  if epoch = 0 then m.transitions.head?.map (Transition.transitionHash S)
  else (m.transitions.find? fun t => t.recoveryEpoch = epoch ∧ t.kind = .recovery).map
    (Transition.transitionHash S)

def commonPrefixLen (S : Suite) (left right : Manifest) : ℕ :=
  ((left.transitions.zip right.transitions).takeWhile fun pair =>
    pair.1.transitionHash S = pair.2.transitionHash S).length

/-- Compare a verified candidate without selecting forks by ordering. -/
def Manifest.relation (S : Suite) (m candidate : Manifest) : Except CryptoError Relation := do
  m.verify S
  candidate.verify S
  rejectIf (m.account? ≠ candidate.account?) .invalidKey
  .ok <|
    if m.stateId S = candidate.stateId S then .same
    else if candidate.recoveryEpoch > m.recoveryEpoch then .recoverySupersedes
    else if candidate.recoveryEpoch < m.recoveryEpoch then .oldEpoch
    else if m.recoveryEpoch > 0 ∧ recoveryAnchor S m m.recoveryEpoch ≠
        recoveryAnchor S candidate candidate.recoveryEpoch then .recoveryConflict
    else if commonPrefixLen S m candidate = m.transitions.length then .descendant
    else if commonPrefixLen S m candidate = candidate.transitions.length then .stale
    else .fork

end Komms.DeviceAuthority
