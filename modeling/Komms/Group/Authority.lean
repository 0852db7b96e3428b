import Komms.Group.Send

/-!
# Signed authority: committing states

The part of `kult-node/src/authority.rs` that mints, signs and commits authority states: the local
operations of an owner, and the request an admin sends instead.  A commit writes the group record
and the authority record together.
-/

namespace Komms.Group

open GroupAuthority

def idRetryLimit : ℕ := 16

/-- The capability a device advertises when it understands signed authority. -/
def groupAuthorityCapability : UInt8 × UInt16 := (1, 7)

/-! ### Stored states -/

def decodeStored (record : GroupAuthorityRecord) : Except NodeError SignedState :=
  match decodeGroupAuthority record.statePayload with
  | .state state => if state.group = record.group then .ok state else .error .corruptState
  | _ => .error .corruptState

variable (E : Env) (s : Store) (d : Draws) (state : SignedState)

def stateMembers : List GroupMember := state.members.map fun m => ⟨m.peer, m.identity⟩

/-- The roster of a legacy group, with the roles its upgrade gives. -/
def authorityMembers (rec : GroupRecord) (owner : Octets 32) : List Member :=
  (rec.members.map fun m =>
    (⟨m.peer, m.identity, if m.peer = owner then .owner else .member⟩ : Member)).insertionSort
      fun a b => a.peer ≤ b.peer

def hasRole (peer : Octets 32) (role : GroupRole) : Bool :=
  state.members.any fun m => m.peer = peer && m.role = role

def lists (peer : Octets 32) : Bool := state.members.any fun m => m.peer = peer

def prepareNextState (S : Suite) (state : SignedState) (priorStateId : Octets 16)
    (secret : Octets 32) : Except NodeError SignedState := do
  let generation ← required .invalidGroupAuthority (checkedSucc state.generation)
  .ok { state with
    generation, priorStateId
    signer := state.owner
    secretHash := hashSecret S secret
    signature := .zero 64 }

/-! ### Committing -/

/-- The first of the drawn ids that passes, out of a bounded number. -/
def mintId (draw : ℕ → Octets 16) (fresh : Octets 16 → Bool) : Option (Octets 16) :=
  ((List.range idRetryLimit).map draw).find? fresh

variable (group : Octets 32)

def mintAuthorityId : Except NodeError (Octets 16) :=
  required .invalidGroupAuthority (mintId d.id fun id =>
    id ≠ .zero 16 && !(s.groupMessages group).any fun record => record.id = id)

def capRequests (requests : List (Octets 16)) : List (Octets 16) :=
  requests.drop (requests.length - maxGroupAdminRequests)

def addRequest (requests : List (Octets 16)) (id : Octets 16) : List (Octets 16) :=
  if id ∈ requests then requests else requests ++ [id]

/-- The consumed requests after a commit made for `request`. -/
def consumedAfter (requests : List (Octets 16)) : Option (Octets 16) → List (Octets 16)
  | none => requests
  | some id => capRequests (addRequest requests id)

def SignedState.bySelf : SignedState :=
  { state with
    version := groupAuthorityVersion
    signerDevice := E.deviceId
    signerAuthority := E.manifest }

/-- `commit_authority_state_signed_by`; returns the id of the new state. -/
def commitAuthorityState (k : ℕ) (state : SignedState) (secret : Octets 32)
    (request : Option (Octets 16)) : Except NodeError (Store × Octets 16) := do
  rejectIf (state.signer ≠ E.me) .notGroupOwner
  let state := SignedState.bySelf E state
  let id ← mintAuthorityId s d state.group
  let signing ← (groupAuthorityStateSigningBytes state).mapError fun _ => .invalidGroupAuthority
  let state := { state with signature := E.sign .groupAuthorityState signing }
  verifyAuthorityState E.suite E.postcard state (some secret)
  let payload ← (encodeGroupAuthorityState state).mapError fun _ => .invalidGroupAuthority
  rejectIf (payload.length > maxContentPayloadLen) .invalidGroupAuthority
  let consumed := ((s.authorities state.group).map GroupAuthorityRecord.consumedRequests).getD []
  let authority : PreparedAuthority :=
    { secret
      name := state.name
      creator := state.owner
      generation := state.generation
      members := stateMembers state
      record := ⟨state.group, id, payload, consumedAfter consumed request⟩ }
  let s' ← groupSendContent E s d k state.group id (.groupAuthority id payload) (some authority)
    false
  .ok (s', id)

/-! ### Reading the authority -/

structure GroupAuthorityInfo where
  signed : Bool
  originalOwner : Octets 32
  owner : Octets 32
  ownerEpoch : UInt64
  generation : UInt64
  members : List (Octets 32 × GroupRole)
  myRole : Option GroupRole
  deriving DecidableEq

/-- Current authority, synthesizing legacy creator and member roles. -/
def groupAuthority : Except NodeError GroupAuthorityInfo := do
  let row ← required .unknownGroup (s.groups group)
  match s.authorities group with
  | some stored => do
    let state ← decodeStored stored
    let members := state.members.map fun m => (m.peer, m.role)
    .ok ⟨true, state.originalOwner, state.owner, state.ownerEpoch, state.generation, members,
      (members.find? fun m => m.1 = E.me).map Prod.snd⟩
  | none =>
    let members := (authorityMembers row row.creator).map fun m => (m.peer, m.role)
    .ok ⟨false, row.creator, row.creator, 0, row.generation, members,
      (members.find? fun m => m.1 = E.me).map Prod.snd⟩

/-! ### Admin requests to the owner -/

def queueAdminRequest (action : GroupAdminAction) (now : UInt64) :
    Except NodeError (Store × Octets 16) := do
  let consumed := ((s.authorities state.group).map GroupAuthorityRecord.consumedRequests).getD []
  let requestId ← required .invalidGroupAuthority (mintId d.id fun id => !consumed.contains id)
  let request : GroupAdminRequest := ⟨requestId, state.group, state.generation, action, []⟩
  let signing ← (groupAdminRequestSigningBytes request).mapError fun _ => .invalidGroupAuthority
  let signature := (E.sign .groupAdminRequest signing).toBytes
  let s' ← queueGroupControl E s state.owner (.adminRequest { request with signature }) now
  .ok (s', requestId)

/-! ### Local operations -/

/-- `peer_supports_kind` for signed authority. -/
def peerSupportsAuthority (peer : Octets 32) : Bool :=
  match s.contactDevicesFor peer with
  | [] => supports s peer groupAuthorityCapability
  | endpoints => endpoints.all fun endpoint => supports s endpoint.device groupAuthorityCapability

/-- Capability-gated upgrade from legacy creator authority to signed state. -/
def groupUpgradeAuthority : Except NodeError (Store × Octets 16) :=
  match s.authorities group with
  | some authority => .ok (s, authority.stateId)
  | none => do
    let row ← required .unknownGroup (s.groups group)
    rejectIf (row.creator ≠ E.me) .notGroupOwner
    rejectIf ((recipientsOf E row).any (fun peer => !peerSupportsAuthority s peer) = true)
      .groupRolesUnsupported
    let generation ← required .invalidGroupAuthority (checkedSucc row.generation)
    commitAuthorityState E s d 0
      { version := groupAuthorityVersion
        group, generation
        ownerEpoch := 0
        originalOwner := E.me
        owner := E.me
        signer := E.me
        signerDevice := E.deviceId
        signerAuthority := E.manifest
        priorStateId := .zero 16
        name := row.name
        members := authorityMembers row E.me
        secretHash := hashSecret E.suite d.secret
        transfers := []
        signature := .zero 64 } d.secret none

def ensureSignedAuthority : NodeEffect Unit :=
  match s.authorities group with
  | some _ => ⟨s, .ok ()⟩
  | none => (Effect.ofExcept s (groupUpgradeAuthority E s d group)).andThen
      fun s' _ => ⟨s', .ok ()⟩

def storedState : Except NodeError (GroupAuthorityRecord × SignedState) := do
  let stored ← required .invalidGroupAuthority (s.authorities group)
  let state ← decodeStored stored
  .ok (stored, state)

/-- Commit the successor of the stored state with the given edit. -/
def commitNext (stored : GroupAuthorityRecord) (edited : SignedState)
    (request : Option (Octets 16)) : Except NodeError (Store × Octets 16) := do
  let next ← prepareNextState E.suite edited stored.stateId d.secret
  commitAuthorityState E s d 0 next d.secret request

/-- What `group_rename` does to a signed group. -/
def renameSigned (name : Utf8) (now : UInt64) : Except NodeError (Store × Octets 16) := do
  let (stored, state) ← storedState s group
  if state.owner ≠ E.me then
    if hasRole state E.me .admin then queueAdminRequest E s d state (.rename name) now
    else .error .notGroupOwner
  else commitNext E s d stored { state with name } none

def withRole (peer : Octets 32) (role : GroupRole) : SignedState :=
  { state with
    members := state.members.map fun m => if m.peer = peer then { m with role } else m }

/-- What `group_set_role` does to a signed group. -/
def setRoleSigned (peer : Octets 32) (role : GroupRole) : Except NodeError (Store × Octets 16) := do
  let (stored, state) ← storedState s group
  rejectIf (state.owner ≠ E.me) .notGroupOwner
  rejectIf (peer = state.owner) .lastGroupOwner
  let member ← required .unknownPeer (state.members.find? fun m => m.peer = peer)
  if member.role = role then .ok (s, stored.stateId)
  else commitNext E s d stored (withRole state peer role) none

def transferRoles (old new : Octets 32) (members : List Member) : List Member :=
  members.map fun m =>
    if m.peer = old then { m with role := .admin }
    else if m.peer = new then { m with role := .owner }
    else m

/-- The certificate that hands the group on, not yet signed. -/
def transferTo (stored : GroupAuthorityRecord) (state : SignedState) (newOwner : Octets 32)
    (epoch generation : UInt64) : OwnerTransfer where
  group := group
  epoch := epoch
  generation := generation
  priorStateId := stored.stateId
  fromOwner := state.owner
  toOwner := newOwner
  fromDevice := E.deviceId
  fromAuthority := E.manifest
  signature := .zero 64

/-- The state that enacts a transfer; it is still signed by the old owner. -/
def transferred (transfer : OwnerTransfer) (secret : Octets 32) : SignedState :=
  { state with
    transfers := state.transfers ++ [transfer]
    members := transferRoles state.owner transfer.toOwner state.members
    owner := transfer.toOwner
    signer := E.me
    ownerEpoch := transfer.epoch
    generation := transfer.generation
    priorStateId := transfer.priorStateId
    secretHash := hashSecret E.suite secret
    signature := .zero 64 }

/-- What `group_transfer_owner` does to a signed group. -/
def transferOwnerSigned (newOwner : Octets 32) : Except NodeError (Store × Octets 16) := do
  let (stored, state) ← storedState s group
  rejectIf (state.owner ≠ E.me) .notGroupOwner
  rejectIf (newOwner = state.owner ∨ lists state newOwner = false) .invalidGroupRole
  let epoch ← required .invalidGroupAuthority (checkedSucc state.ownerEpoch)
  let generation ← required .invalidGroupAuthority (checkedSucc state.generation)
  let transfer := transferTo E group stored state newOwner epoch generation
  let bytes ← (ownerTransferDeviceSigningBytes transfer).mapError fun _ => .invalidGroupAuthority
  let signature := E.sign .groupOwnerTransfer bytes
  commitAuthorityState E s d 0 (transferred E state { transfer with signature } d.secret) d.secret
    none

/-- The roster with one ordinary member more. -/
def invited (member : GroupMember) : SignedState :=
  { state with
    members := (state.members ++ [(⟨member.peer, member.identity, .member⟩ : Member)]).insertionSort
      fun a b => a.peer ≤ b.peer }

def excluded (peer : Octets 32) : SignedState :=
  { state with members := state.members.filter fun m => m.peer ≠ peer }

/-- What `group_authority_add_member` does to a signed group. -/
def addMemberSigned (member : GroupMember) (now : UInt64) :
    Except NodeError (Store × Octets 16) := do
  let (stored, state) ← storedState s group
  if state.owner ≠ E.me then
    if hasRole state E.me .admin then queueAdminRequest E s d state (.invite member) now
    else .error .notGroupOwner
  else if lists state member.peer then .ok (s, stored.stateId)
  else commitNext E s d stored (invited state member) none

/-- Tell the removed member; the state is committed whether or not this lands. -/
def notifyRemoved (removed : Octets 32) (stateId : Octets 16) (now : UInt64) :
    Except NodeError Store := do
  let authority ← required .corruptState (s.authorities group)
  queueGroupControl E s removed (.authorityRemove group stateId authority.statePayload) now

/-- Commit the roster without `removed` and notify it. -/
def commitExclusion (stored : GroupAuthorityRecord) (state : SignedState) (removed : Octets 32)
    (request : Option (Octets 16)) (now : UInt64) : NodeEffect (Octets 16) :=
  (Effect.ofExcept s (commitNext E s d stored (excluded state removed) request)).andThen
    fun s' stateId => .ofExcept s' do
      let s'' ← notifyRemoved E s' group removed stateId now
      .ok (s'', stateId)

/-- What `group_authority_remove_member` does to a signed group. -/
def removeMemberSigned (peer : Octets 32) (now : UInt64) : NodeEffect (Octets 16) :=
  match storedState s group with
  | .error e => ⟨s, .error e⟩
  | .ok (stored, state) =>
    match state.members.find? fun m => m.peer = peer with
    | none => ⟨s, .error .unknownPeer⟩
    | some target =>
      if peer = state.owner then ⟨s, .error .lastGroupOwner⟩
      else if state.owner ≠ E.me then
        if hasRole state E.me .admin && target.role = .member then
          .ofExcept s (queueAdminRequest E s d state (.remove peer) now)
        else ⟨s, .error .notGroupOwner⟩
      else commitExclusion E s d group stored state peer none now

/-- A new generation of the same state. -/
def advanceAuthority : Except NodeError (Store × Octets 16) := do
  let (stored, state) ← storedState s group
  rejectIf (state.owner ≠ E.me) .notGroupOwner
  commitNext E s d stored state none

/-- Owner-only exact group rename; admins use a signed request.  Each of the operations draws once
for a first upgrade and once for its own commit. -/
def groupRename (d' : Draws) (group : Octets 32) (name : Utf8) (now : UInt64) :
    NodeEffect (Octets 16) :=
  if name.bytes = [] ∨ name.bytes.length > maxGroupNameLen then ⟨s, .error .invalidGroupAuthority⟩
  else (ensureSignedAuthority E s d group).andThen fun s' _ =>
    .ofExcept s' (renameSigned E s' d' group name now)

/-- Owner-only grant or revocation of the fixed admin role. -/
def groupSetRole (d' : Draws) (group peer : Octets 32) (role : GroupRole) :
    NodeEffect (Octets 16) :=
  if role = .owner then ⟨s, .error .invalidGroupRole⟩
  else (ensureSignedAuthority E s d group).andThen fun s' _ =>
    .ofExcept s' (setRoleSigned E s' d' group peer role)

/-- Owner-only transfer to an existing member; the prior owner becomes admin. -/
def groupTransferOwner (d' : Draws) (group newOwner : Octets 32) : NodeEffect (Octets 16) :=
  (ensureSignedAuthority E s d group).andThen fun s' _ =>
    .ofExcept s' (transferOwnerSigned E s' d' group newOwner)

def groupAuthorityAddMember (d' : Draws) (group : Octets 32) (member : GroupMember) (now : UInt64) :
    NodeEffect (Octets 16) :=
  (ensureSignedAuthority E s d group).andThen fun s' _ =>
    .ofExcept s' (addMemberSigned E s' d' group member now)

def groupAuthorityRemoveMember (d' : Draws) (group peer : Octets 32) (now : UInt64) :
    NodeEffect (Octets 16) :=
  (ensureSignedAuthority E s d group).andThen fun s' _ => removeMemberSigned E s' d' group peer now

/-! ### Poll moderation -/

def commitGroupPollModeratedClose (k : ℕ) (group pollAuthor : Octets 32) (pollId : Octets 16) :
    Except NodeError (Store × Octets 16) := do
  let polls ← groupPolls E s group
  let poll ← required .invalidPoll (findPoll polls pollAuthor pollId)
  rejectIf (poll.closed = true) .pollClosed
  let info ← groupAuthority E s group
  let id ← required .invalidPoll (mintId d.closeId fun id =>
    !(s.groupMessages group).any fun record => record.id = id)
  let signing ← (pollModerationSigningBytes group pollAuthor pollId info.generation
    poll.votes).mapError fun _ => .invalidPoll
  let signature := E.sign .groupPollModeration signing
  let s' ← groupSendContent E s d k group id
    (.poll id (.moderatedClose group pollAuthor pollId info.generation poll.votes signature)) none
    true
  .ok (s', id)

end Komms.Group
