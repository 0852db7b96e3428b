import Komms.Lib.Parser

/-!
# Signed group-authority states

The authority state of `kult-protocol/src/group_authority.rs`: the roster with roles, the chain of
ownership transfers, the bytes that signatures cover, and the strict binary codec.
`decodeGroupAuthority` reads with explicit bounds, refuses trailing bytes and validates what it
read.

Version two binds each signature to one active device of the signing account; version one is signed
by account keys.  A version-two state may carry version-one transfers.
-/

namespace Komms.GroupAuthority

/-! ### Constants -/

def groupAuthorityVersion : UInt8 := 2

def legacyGroupAuthorityVersion : UInt8 := 1

def maxGroupNameLen : ℕ := 256

def maxGroupMemberIdentityLen : ℕ := 512

def maxGroupAuthorityMembers : ℕ := 64

/-- Maximum encoded device-authority proof attached to one signature. -/
def maxGroupDeviceAuthorityBytes : ℕ := 1024 * 1024

def maxGroupAuthorityStateBytes : ℕ := 4 * 1024 * 1024

def opState : UInt8 := 1

def headerLenV1 : ℕ := 4 + 32 + 8 + 8 + 32 + 32 + 32 + 16 + 2 + 1 + 1 + 32

def headerLenV2 : ℕ := headerLenV1 + 32 + 4

def memberHeaderLen : ℕ := 35

def transferLenV1 : ℕ := 160

def transferFixedLenV2 : ℕ := transferLenV1 + 32 + 4

/-- The errors of `kult-protocol` that the codec returns. -/
inductive ProtocolError where
  | malformed
  | tooLarge
  deriving DecidableEq, Repr

/-! ### States -/

/-- Fixed role vocabulary. -/
inductive GroupRole where
  | owner
  | admin
  | member
  deriving DecidableEq, Repr

def GroupRole.code : GroupRole → ℕ
  | owner => 1
  | admin => 2
  | member => 3

def GroupRole.decode : ℕ → Option GroupRole
  | 1 => some owner
  | 2 => some admin
  | 3 => some member
  | _ => none

theorem GroupRole.decode_code (r : GroupRole) : GroupRole.decode r.code = some r := by
  cases r <;> rfl

theorem GroupRole.code_of_decode {n : ℕ} {r : GroupRole} (h : GroupRole.decode n = some r) :
    r.code = n := by
  unfold GroupRole.decode at h
  split at h <;> cases h <;> rfl

/-- One roster identity and role. -/
structure Member where
  peer : Octets 32
  identity : Bytes
  role : GroupRole
  deriving DecidableEq

/-- One certificate in the original-owner to current-owner chain. -/
structure OwnerTransfer where
  group : Octets 32
  epoch : UInt64
  generation : UInt64
  priorStateId : Octets 16
  fromOwner : Octets 32
  toOwner : Octets 32
  fromDevice : Octets 32
  fromAuthority : Bytes
  signature : Octets 64
  deriving DecidableEq

/-- Complete authority-signed public authority state. -/
structure SignedState where
  version : UInt8
  group : Octets 32
  generation : UInt64
  ownerEpoch : UInt64
  originalOwner : Octets 32
  owner : Octets 32
  signer : Octets 32
  signerDevice : Octets 32
  signerAuthority : Bytes
  priorStateId : Octets 16
  name : Utf8
  members : List Member
  secretHash : Octets 32
  transfers : List OwnerTransfer
  signature : Octets 64
  deriving DecidableEq

/-! ### Structural validation -/

/-- A transfer signed by the account key of the previous owner. -/
def OwnerTransfer.isLegacy (t : OwnerTransfer) : Bool :=
  t.fromDevice = .zero 32 && t.fromAuthority.isEmpty

/-- A transfer signed by a device of the previous owner. -/
def OwnerTransfer.isDeviceAuthorized (t : OwnerTransfer) : Bool :=
  t.fromDevice ≠ .zero 32 && !t.fromAuthority.isEmpty &&
    t.fromAuthority.length ≤ maxGroupDeviceAuthorityBytes

/-- The version-dependent part of `validate_state`: which proofs have to be there. -/
def validateProofs (s : SignedState) : Except ProtocolError Unit :=
  if s.version = groupAuthorityVersion then
    rejectIf (s.signerDevice = .zero 32 ∨ s.signerAuthority = [] ∨
      s.signerAuthority.length > maxGroupDeviceAuthorityBytes ∨
      s.transfers.any (fun t => !t.isLegacy && !t.isDeviceAuthorized) = true) .malformed
  else
    rejectIf (s.signerDevice ≠ .zero 32 ∨ s.signerAuthority ≠ [] ∨
      s.transfers.any (fun t => t.fromDevice ≠ .zero 32 || !t.fromAuthority.isEmpty) = true)
      .malformed

/-- The roster loop: identities bounded, peers strictly ascending, owner rows naming the owner;
returns the number of owner rows. -/
def validateMembers (owner : Octets 32) :
    Option (Octets 32) → ℕ → List Member → Except ProtocolError ℕ
  | _, ownerCount, [] => .ok ownerCount
  | previous, ownerCount, m :: rest => do
    rejectIf (m.identity = [] ∨ m.identity.length > maxGroupMemberIdentityLen) .malformed
    rejectIf (previous.any (· ≥ m.peer) = true) .malformed
    rejectIf (m.role = .owner ∧ m.peer ≠ owner) .malformed
    validateMembers owner (some m.peer) (if m.role = .owner then ownerCount + 1 else ownerCount)
      rest

/-- The transfer loop: consecutive epochs, increasing generations, each owner handing on to the
next; returns the owner it ends at. -/
def validateTransfers (s : SignedState) :
    ℕ → UInt64 → Octets 32 → List OwnerTransfer → Except ProtocolError (Octets 32)
  | _, _, expectedOwner, [] => .ok expectedOwner
  | index, previousGeneration, expectedOwner, t :: rest => do
    rejectIf (t.group ≠ s.group ∨ t.epoch.toNat ≠ index + 1 ∨
      t.generation ≤ previousGeneration ∨ t.generation > s.generation ∨
      t.priorStateId = .zero 16 ∨ t.fromOwner ≠ expectedOwner ∨ t.fromOwner = t.toOwner) .malformed
    validateTransfers s (index + 1) t.generation t.toOwner rest

/-- Who may sign: the owner after the last transfer, or the previous owner for the state that
enacts it. -/
def validateSigner (s : SignedState) : Except ProtocolError Unit :=
  match s.transfers.getLast? with
  | some t =>
    if s.signer = s.owner then rejectIf (s.generation ≤ t.generation) .malformed
    else rejectIf (t.fromOwner ≠ s.signer ∨ t.toOwner ≠ s.owner ∨ t.generation ≠ s.generation ∨
      t.priorStateId ≠ s.priorStateId) .malformed
  | none => rejectIf (s.signer ≠ s.owner) .malformed

def validateState (s : SignedState) : Except ProtocolError Unit := do
  rejectIf ((s.version ≠ groupAuthorityVersion ∧ s.version ≠ legacyGroupAuthorityVersion) ∨
    s.generation = 0 ∨ s.name.bytes = [] ∨ s.name.bytes.length > maxGroupNameLen ∨ s.members = [] ∨
    s.members.length > maxGroupAuthorityMembers ∨ s.transfers.length > maxGroupAuthorityMembers ∨
    s.ownerEpoch.toNat ≠ s.transfers.length) .malformed
  validateProofs s
  let ownerCount ← validateMembers s.owner none 0 s.members
  rejectIf (ownerCount ≠ 1) .malformed
  let expectedOwner ← validateTransfers s 0 0 s.originalOwner s.transfers
  rejectIf (expectedOwner ≠ s.owner) .malformed
  validateSigner s

/-! ### Transfers -/

/-- The fixed-width fields of a transfer, as both kinds of certificate sign them. -/
def OwnerTransfer.legacyBytes (t : OwnerTransfer) : Bytes :=
  t.group.toBytes ++ leBytes 8 t.epoch.toNat ++ leBytes 8 t.generation.toNat ++
    t.priorStateId.toBytes ++ t.fromOwner.toBytes ++ t.toOwner.toBytes

/-- Canonical bytes signed by one owner-transfer certificate. -/
def ownerTransferSigningBytes (t : OwnerTransfer) : Except ProtocolError Bytes := do
  rejectIf (t.epoch = 0 ∨ t.generation = 0 ∨ t.priorStateId = .zero 16 ∨ t.fromOwner = t.toOwner)
    .malformed
  .ok t.legacyBytes

/-- Canonical bytes signed by a version-two owner-transfer device. -/
def ownerTransferDeviceSigningBytes (t : OwnerTransfer) : Except ProtocolError Bytes := do
  rejectIf (t.fromDevice = .zero 32 ∨ t.fromAuthority = [] ∨
    t.fromAuthority.length > maxGroupDeviceAuthorityBytes) .malformed
  let legacy ← ownerTransferSigningBytes t
  .ok (groupAuthorityVersion :: legacy ++ t.fromDevice.toBytes ++
    leBytes 4 t.fromAuthority.length ++ t.fromAuthority)

/-! ### States -/

/-- The device and the proof that version two puts beside an account. -/
def proofBytes (version : UInt8) (device : Octets 32) (authority : Bytes) : Bytes :=
  if version = groupAuthorityVersion then
    device.toBytes ++ (leBytes 4 authority.length ++ authority)
  else []

def Member.bytes (m : Member) : Bytes :=
  m.peer.toBytes ++ (leBytes 1 m.role.code ++ (leBytes 2 m.identity.length ++ m.identity))

/-- A transfer inside a state; its group is the state's. -/
def OwnerTransfer.bytes (version : UInt8) (t : OwnerTransfer) : Bytes :=
  leBytes 8 t.epoch.toNat ++ (leBytes 8 t.generation.toNat ++ (t.priorStateId.toBytes ++
    (t.fromOwner.toBytes ++ (t.toOwner.toBytes ++
      (proofBytes version t.fromDevice t.fromAuthority ++ t.signature.toBytes)))))

variable (s : SignedState)

/-- The fields after the four header bytes. -/
def SignedState.fieldBytes : Bytes :=
  s.group.toBytes ++ (leBytes 8 s.generation.toNat ++ (leBytes 8 s.ownerEpoch.toNat ++
    (s.originalOwner.toBytes ++ (s.owner.toBytes ++ (s.signer.toBytes ++
      (proofBytes s.version s.signerDevice s.signerAuthority ++ (s.priorStateId.toBytes ++
        (leBytes 2 s.name.bytes.length ++ (leBytes 1 s.members.length ++
          (leBytes 1 s.transfers.length ++ (s.secretHash.toBytes ++ (s.name.bytes ++
            (s.members.flatMap Member.bytes ++
              s.transfers.flatMap (OwnerTransfer.bytes s.version))))))))))))))

def SignedState.headerLen : ℕ :=
  if s.version = groupAuthorityVersion then headerLenV2 + s.signerAuthority.length else headerLenV1

def OwnerTransfer.encodedLen (version : UInt8) (t : OwnerTransfer) : ℕ :=
  if version = groupAuthorityVersion then transferFixedLenV2 + t.fromAuthority.length
  else transferLenV1

def SignedState.capacity : ℕ :=
  s.headerLen + s.name.bytes.length +
    (s.members.map fun m => memberHeaderLen + m.identity.length).sum +
    (s.transfers.map (OwnerTransfer.encodedLen s.version)).sum

/-- Canonical state bytes covered by the signer's signature. -/
def groupAuthorityStateSigningBytes : Except ProtocolError Bytes := do
  validateState s
  rejectIf (s.capacity + 64 > maxGroupAuthorityStateBytes) .tooLarge
  .ok ([s.version, opState, 0, 0] ++ s.fieldBytes)

def encodeGroupAuthorityState : Except ProtocolError Bytes := do
  let out ← groupAuthorityStateSigningBytes s
  .ok (out ++ s.signature.toBytes)

/-! ### Decoding -/

section Decode

open Komms.Parser

/-- The device and proof fields; only a signer's proof has to be non-empty here. -/
def decodeProof (version : UInt8) (required : Bool) :
    Parser ProtocolError (Octets 32 × Bytes) :=
  if version = groupAuthorityVersion then do
    let device ← octets .malformed 32
    let authorityLen ← le .malformed 4
    reject ((required ∧ authorityLen = 0) ∨ authorityLen > maxGroupDeviceAuthorityBytes) .malformed
    let authority ← take .malformed authorityLen
    pure (device, authority)
  else pure (.zero 32, [])

def decodeMember : Parser ProtocolError Member := do
  let peer ← octets .malformed 32
  let code ← le .malformed 1
  let role ← require .malformed (GroupRole.decode code)
  let identityLen ← le .malformed 2
  reject (identityLen = 0 ∨ identityLen > maxGroupMemberIdentityLen) .malformed
  let identity ← take .malformed identityLen
  pure { peer, identity, role }

def decodeTransfer (version : UInt8) (group : Octets 32) : Parser ProtocolError OwnerTransfer := do
  let epoch ← u64 .malformed
  let generation ← u64 .malformed
  let priorStateId ← octets .malformed 16
  let fromOwner ← octets .malformed 32
  let toOwner ← octets .malformed 32
  let (fromDevice, fromAuthority) ← decodeProof version false
  let signature ← octets .malformed 64
  pure { group, epoch, generation, priorStateId, fromOwner, toOwner, fromDevice, fromAuthority,
         signature }

/-- The fields a signature covers; the signature itself is left zero. -/
def decodeFields (version : UInt8) : Parser ProtocolError SignedState := do
  let group ← octets .malformed 32
  let generation ← u64 .malformed
  let ownerEpoch ← u64 .malformed
  let originalOwner ← octets .malformed 32
  let owner ← octets .malformed 32
  let signer ← octets .malformed 32
  let (signerDevice, signerAuthority) ← decodeProof version true
  let priorStateId ← octets .malformed 16
  let nameLen ← le .malformed 2
  let memberCount ← le .malformed 1
  let transferCount ← le .malformed 1
  let secretHash ← octets .malformed 32
  reject (nameLen = 0 ∨ nameLen > maxGroupNameLen ∨ memberCount = 0 ∨
    memberCount > maxGroupAuthorityMembers ∨ transferCount > maxGroupAuthorityMembers) .malformed
  let nameBytes ← take .malformed nameLen
  let name ← require .malformed (Utf8.ofBytes? nameBytes)
  let members ← times decodeMember memberCount
  let transfers ← times (decodeTransfer version group) transferCount
  pure { version, group, generation, ownerEpoch, originalOwner, owner, signer, signerDevice,
         signerAuthority, priorStateId, name, members, secretHash, transfers,
         signature := .zero 64 }

/-- `decode_state`, on the bytes after the header. -/
def decodeState (version : UInt8) (bytes : Bytes) : Except ProtocolError SignedState := do
  let (fields, rest) ← decodeFields version bytes
  let (signature, rest) ← octets .malformed 64 rest
  rejectIf (rest ≠ []) .malformed
  let state := { fields with signature }
  validateState state
  .ok state

end Decode

/-- Total classification of an authority payload. -/
inductive DecodedGroupAuthority where
  | state (s : SignedState)
  | unsupported
  | malformed
  deriving DecidableEq

/-- The shortest header of a version. -/
def minHeaderLen (version : UInt8) : ℕ :=
  if version = groupAuthorityVersion then headerLenV2 else headerLenV1

/-- Decode strictly with explicit bounds and trailing-byte rejection. -/
def decodeGroupAuthority (bytes : Bytes) : DecodedGroupAuthority :=
  match bytes with
  | version :: op :: reserved₁ :: reserved₂ :: rest =>
    if bytes.length > maxGroupAuthorityStateBytes then .malformed
    else if version ≠ groupAuthorityVersion ∧ version ≠ legacyGroupAuthorityVersion then
      .unsupported
    else if op ≠ opState ∨ reserved₁ ≠ 0 ∨ reserved₂ ≠ 0 ∨
        bytes.length < minHeaderLen version + 64 then
      .malformed
    else
      match decodeState version rest with
      | .ok s => .state s
      | .error _ => .malformed
  | _ => .malformed

end Komms.GroupAuthority
