import Komms.DeviceAuthority.Manifest
import Komms.GroupAuthority.State

/-!
# Verification of group-authority states

`verify_authority_state` of `kult-node/src/authority.rs`: the signature of the state, the signature
of every ownership transfer, the identities of the roster and, when the group secret is at hand, its
hash.  Deserialization of identities and manifests is a parameter (`Postcard`).
-/

namespace Komms.GroupAuthority

open DeviceAuthority (Manifest)

/-- The errors of `kult-node` that the group functions return. -/
inductive NodeError where
  | invalidGroupAuthority
  | corruptState
  | unknownGroup
  | unknownPeer
  | notGroupOwner
  | notGroupCreator
  | invalidGroupRole
  | lastGroupOwner
  | groupRolesUnsupported
  | groupSecurityUpgradeRequired
  | invalidPoll
  | pollClosed
  /-- An error of the wire protocol, passed on. -/
  | protocol (e : ProtocolError)
  /-- The storage layer refused or failed a transaction. -/
  | store
  /-- Not an error of the node: it panics at an arithmetic overflow where overflow checks are
  compiled in. -/
  | overflow
  deriving DecidableEq, Repr

/-- The deserializers of third-party formats that verification calls. -/
structure Postcard where
  /-- `from_bytes`, which ignores trailing bytes. -/
  identity : Bytes → Option IdentityPublic
  /-- `take_from_bytes`. -/
  manifest : Bytes → Option (Manifest × Bytes)

variable (S : Suite) (P : Postcard)

/-- The encoded manifest is verified, belongs to the account and has the device active. -/
def verifyGroupDeviceAuthority (account device : Octets 32) (encoded : Bytes) :
    Except NodeError Unit := do
  let manifest ← (Manifest.decode S P.manifest encoded).mapError fun _ => .invalidGroupAuthority
  rejectIf (manifest.account?.map IdentityPublic.ed ≠ some account ∨
    manifest.activeCertificate device = none) .invalidGroupAuthority

def verifyTransfer (t : OwnerTransfer) : Except NodeError Unit :=
  if t.fromAuthority = [] then do
    let bytes ← (ownerTransferSigningBytes t).mapError fun _ => .invalidGroupAuthority
    (verifyPeerDomain S t.fromOwner .groupOwnerTransfer bytes t.signature).mapError
      fun _ => .invalidGroupAuthority
  else do
    verifyGroupDeviceAuthority S P t.fromOwner t.fromDevice t.fromAuthority
    let bytes ← (ownerTransferDeviceSigningBytes t).mapError fun _ => .invalidGroupAuthority
    (verifyPeerDomain S t.fromDevice .groupOwnerTransfer bytes t.signature).mapError
      fun _ => .invalidGroupAuthority

/-- A roster row names the identity it carries. -/
def verifyMember (m : Member) : Except NodeError Unit := do
  let identity ← required .invalidGroupAuthority (P.identity m.identity)
  rejectIf (identity.ed ≠ m.peer) .invalidGroupAuthority
  (identity.verify S).mapError fun _ => .invalidGroupAuthority

/-- The state's own signature, by the account key or by a device of the account. -/
def verifyStateSignature (s : SignedState) (signing : Bytes) : Except NodeError Unit :=
  if s.version = legacyGroupAuthorityVersion then
    (verifyPeerDomain S s.signer .groupAuthorityState signing s.signature).mapError
      fun _ => .invalidGroupAuthority
  else if s.version = groupAuthorityVersion then do
    verifyGroupDeviceAuthority S P s.signer s.signerDevice s.signerAuthority
    (verifyPeerDomain S s.signerDevice .groupAuthorityState signing s.signature).mapError
      fun _ => .invalidGroupAuthority
  else .error .invalidGroupAuthority

def hashSecret (secret : Octets 32) : Octets 32 := S.sha256 secret.toBytes

def verifyAuthorityState (s : SignedState) (secret : Option (Octets 32)) :
    Except NodeError Unit := do
  let signing ← (groupAuthorityStateSigningBytes s).mapError fun _ => .invalidGroupAuthority
  verifyStateSignature S P s signing
  forEach (verifyTransfer S P) s.transfers
  forEach (verifyMember S P) s.members
  rejectIf (secret.any (fun value => hashSecret S value ≠ s.secretHash) = true)
    .invalidGroupAuthority

end Komms.GroupAuthority
