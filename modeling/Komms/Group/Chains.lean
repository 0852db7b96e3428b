import Mathlib.Data.Prod.Lex
import Komms.Group.Store
import Komms.Lib.Sorting

/-!
# Sender chains, receiver chains and routes

The parts of `kult-node/src/groups.rs` that mint and rotate this device's sending chain, install a
member's chain, and say which devices a group message has to reach.  Reading a stored chain
validates it, as the decoders do; writing one validates it again.
-/

namespace Komms.Group

open DeviceAuthority (Manifest)
open GroupAuthority (NodeError maxGroupAuthorityMembers)

def groupRotateMsgs : UInt32 := 1000

def maxDeviceGroupChains : ℕ := 64

def maxGroupOriginRoutes : ℕ := maxGroupAuthorityMembers * 8

/-- The content format and kind a device advertises when it supports origin authentication. -/
def groupOriginCapability : UInt8 × UInt16 := (255, 1)

/-! ### Stored sender states -/

def OutgoingOrigin.key (o : OutgoingOrigin) : Octets 32 ×ₗ Octets 32 :=
  toLex (o.recipientAccount, o.recipientDevice)

def validateSenderOrigins (state : OriginState) : Except NodeError Unit :=
  rejectIf (state.originGeneration = 0 ∨ state.origins.length > maxGroupOriginRoutes ∨
    ¬ state.origins.Pairwise (fun a b => a.key < b.key) ∨
    state.origins.any (fun o => o.recipientAccount = .zero 32 || o.recipientDevice = .zero 32 ||
      o.originKey = .zero 32 || o.chain.chainKey = .zero 32 || o.chain.keyId ≠ state.chain.keyId ||
      (o.acknowledged && o.wireId.isNone)) = true) .corruptState

/-- `decode_sender_state` and `encode_sender_state`, on the typed row. -/
def checkSenderState : SenderState → Except NodeError SenderState
  | .legacy chain => .ok (.legacy chain)
  | .origin state => do
    validateSenderOrigins state
    .ok (.origin state)

variable (E : Env)

/-- The chain after one message was sealed on it. -/
def SenderState.advance : SenderState → SenderState
  | .legacy chain => .legacy (next chain)
  | .origin state => .origin { state with chain := next state.chain }
where
  next (chain : ChainKeys) : ChainKeys :=
    { chain with chainKey := E.nextChainKey chain.chainKey, iteration := chain.iteration + 1 }

def pendingFor (me : Octets 32) (chain : ChainKeys) (members : List GroupMember) :
    List PendingAnnounce :=
  (members.filter fun m => m.peer ≠ me).map fun m => ⟨m.peer, chain, none, 0⟩

/-! ### Routes -/

/-- One device a group message has to reach, and whether its account authorizes it. -/
structure Route where
  account : Octets 32
  device : Octets 32
  authorized : Bool
  deriving DecidableEq

def Route.key (r : Route) : Octets 32 ×ₗ Octets 32 := toLex (r.account, r.device)

/-- The device's stored manifest is verified, belongs to the account and has the device active. -/
def authorizes (endpoint : ContactDevice) (account : Octets 32) : Bool :=
  match Manifest.decode E.suite E.postcard.manifest endpoint.authority with
  | .ok manifest =>
    manifest.verify E.suite = .ok () && manifest.account?.map IdentityPublic.ed = some account &&
      (manifest.activeCertificate endpoint.device).isSome
  | .error _ => false

variable (s : Store)

/-- The routes to one member: its devices that are not revoked, or the bare account. -/
def memberRoutes (m : GroupMember) : List Route :=
  let endpoints := sortDedup ContactDevice.device
    ((s.contactDevicesFor m.peer).filter fun endpoint => endpoint.revokedAt = none)
  if endpoints = [] then [⟨m.peer, m.peer, false⟩]
  else endpoints.map fun endpoint => ⟨m.peer, endpoint.device, authorizes E endpoint m.peer⟩

def groupRouteDevices (members : List GroupMember) : Except NodeError (List Route) := do
  let routes := sortDedup Route.key
    ((members.filter fun m => m.peer ≠ E.me).flatMap (memberRoutes E s))
  rejectIf (routes.length > maxGroupOriginRoutes) .corruptState
  .ok routes

def supports (device : Octets 32) (capability : UInt8 × UInt16) : Bool :=
  s.sessions device && (s.capabilities device).any (·.contains capability)

def routeSupportsGroupOrigins (device : Octets 32) : Bool := supports s device groupOriginCapability

/-- The account whose verified manifest lists the sending device. -/
def verifiedGroupSenderAccount (device : Octets 32) : Option (Octets 32) :=
  (s.contactDevices.find? fun endpoint =>
    endpoint.device = device && endpoint.revokedAt.isNone &&
      authorizes E endpoint endpoint.account).map ContactDevice.account

def canInitializeGroupOrigins (members : List GroupMember) : Except NodeError Bool := do
  let routes ← groupRouteDevices E s members
  .ok (routes.all fun r => r.authorized && routeSupportsGroupOrigins s r.device)

/-! ### Rotation -/

/-- What a route is given of a fresh origin epoch, in the `k`-th rotation of a call. -/
def Route.origin (d : Draws) (k : ℕ) (chain : ChainKeys) (r : Route) : OutgoingOrigin where
  recipientAccount := r.account
  recipientDevice := r.device
  chain := chain
  originKey := d.originKey k r.account r.device
  wireId := none
  lastSent := 0
  acknowledged := false

def newOriginSenderState (d : Draws) (k : ℕ) (members : List GroupMember) (chain : ChainKeys)
    (originGeneration : UInt64) : Except NodeError OriginState := do
  rejectIf (originGeneration = 0) .corruptState
  let routes ← groupRouteDevices E s members
  let state : OriginState :=
    ⟨originGeneration, chain, (routes.filter Route.authorized).map (Route.origin d k chain)⟩
  validateSenderOrigins state
  .ok state

def nextOriginGeneration : SenderState → Except NodeError UInt64
  | .legacy _ => .ok 1
  | .origin state => required .corruptState (checkedSucc state.originGeneration)

def rotateGroupOrigin (d : Draws) (k : ℕ) (rec : GroupRecord) : Except NodeError GroupRecord := do
  let sender ← checkSenderState rec.senderChain
  let originGeneration ← nextOriginGeneration sender
  let state ← newOriginSenderState E s d k rec.members (d.chain k) originGeneration
  let senderChain ← checkSenderState (.origin state)
  .ok { rec with pending := [], senderChain, sentSinceRotation := 0 }

/-- Fresh sending chain, everything reset. -/
def rotateGroup (d : Draws) (k : ℕ) (rec : GroupRecord) : Except NodeError GroupRecord := do
  match ← checkSenderState rec.senderChain with
  | .origin _ => rotateGroupOrigin E s d k rec
  | .legacy _ =>
    .ok { rec with
      pending := pendingFor E.me (d.chain k) rec.members
      senderChain := .legacy (d.chain k)
      sentSinceRotation := 0 }

/-! ### Receiver chains -/

/-- The sender of a control, as its pairwise session authenticated it. -/
structure GroupSender where
  account : Octets 32
  device : Octets 32

structure GroupOriginMaterial where
  key : Octets 32
  generation : UInt64

/-- `decode_device_group_chains` on the typed row; rows of the format without an ordering value have
origin keys at generation zero. -/
def decodeDeviceGroupChains (row : List DeviceChain) : Except NodeError (List DeviceChain) := do
  rejectIf (row = [] ∨ row.length > maxDeviceGroupChains ∨
    ¬ row.Pairwise (fun a b => a.device < b.device) ∨
    row.any (fun e => match e.originKey with
      | some key => key = .zero 32 || e.recipientDevice = .zero 32 ||
        (e.originGeneration = 0 && e.originAnnounceDigest ≠ .zero 32) ||
        (e.originGeneration ≠ 0 && e.originAnnounceDigest = .zero 32)
      | none => e.recipientDevice ≠ .zero 32 || e.originGeneration ≠ 0 ||
        e.originAnnounceDigest ≠ .zero 32) = true) .corruptState
  .ok row

/-- An origin key without an ordering value is retired when its row is rewritten. -/
def DeviceChain.retired (e : DeviceChain) : DeviceChain :=
  if e.originKey.isSome ∧ e.originGeneration = 0 ∧ e.originAnnounceDigest = .zero 32 then
    { e with originKey := none, recipientDevice := .zero 32 }
  else e

def encodeDeviceGroupChains (chains : List DeviceChain) : Except NodeError (List DeviceChain) := do
  let row := sortDedup DeviceChain.device (chains.map DeviceChain.retired)
  rejectIf (row = [] ∨ row.length > maxDeviceGroupChains ∨
    row.any (fun e => match e.originKey with
      | some key => key = .zero 32 || e.recipientDevice = .zero 32 || e.originGeneration = 0 ||
        e.originAnnounceDigest = .zero 32
      | none => e.recipientDevice ≠ .zero 32 || e.originGeneration ≠ 0 ||
        e.originAnnounceDigest ≠ .zero 32) = true) .corruptState
  .ok row

variable (group : Octets 32)

def groupOriginAnnounceDigest (sender : GroupSender) (recipientAccount recipientDevice : Octets 32)
    (chain : ChainKeys) (origin : GroupOriginMaterial) : Octets 32 :=
  E.suite.sha256 (ascii "Komms-Group-Origin-Announce-v1" ++ group.toBytes ++
    sender.account.toBytes ++ sender.device.toBytes ++ recipientAccount.toBytes ++
    recipientDevice.toBytes ++ leBytes 8 origin.generation.toNat ++ chain.keyId.toBytes ++
    chain.chainKey.toBytes ++ leBytes 4 chain.iteration.toNat ++ origin.key.toBytes)

/-- The entry that an announced chain installs for its device. -/
def receiverEntry (sender : GroupSender) (chain : ChainKeys) :
    Option GroupOriginMaterial → DeviceChain
  | none => ⟨sender.device, chain, none, .zero 32, 0, .zero 32⟩
  | some origin => ⟨sender.device, chain, some origin.key, E.deviceId, origin.generation,
      groupOriginAnnounceDigest E group sender E.me E.deviceId chain origin⟩

/-- Whether the announced chain replaces what the device had. -/
def replacesChain (chain : ChainKeys) : Option GroupOriginMaterial → DeviceChain → Bool
  | none, entry => entry.originKey.isNone && entry.chain.keyId ≠ chain.keyId
  | some origin, entry => entry.originGeneration = 0 || origin.generation > entry.originGeneration

def storedEntries (account : Octets 32) : Except NodeError (List DeviceChain) :=
  match s.chains group account with
  | some row => decodeDeviceGroupChains row
  | none => .ok []

/-- The row of the sender's account with the announced chain in it, or `none` when it stays. -/
def prepareGroupReceiverChain (sender : GroupSender) (chain : ChainKeys)
    (origin : Option GroupOriginMaterial) : Except NodeError (Option (List DeviceChain)) := do
  rejectIf (origin.any (fun o => o.key = .zero 32 || o.generation = 0) = true) .corruptState
  let chains ← storedEntries s group sender.account
  let entry := receiverEntry E group sender chain origin
  match chains.find? fun e => e.device = sender.device with
  | none => do
    let row ← encodeDeviceGroupChains (chains ++ [entry])
    .ok (some row)
  | some current =>
    if replacesChain chain origin current then do
      let row ← encodeDeviceGroupChains
        (chains.map fun e => if e.device = sender.device then entry else e)
      .ok (some row)
    else .ok none

def Store.installChain (account : Octets 32) : Option (List DeviceChain) → Store
  | some row => s.setChain group account (some row)
  | none => s

end Komms.Group
