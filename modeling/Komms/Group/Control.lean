import Komms.Group.Announce

/-!
# Admin requests and deferred controls

`apply_group_admin_request` of `kult-node/src/authority.rs`: the owner's node checks a signed
request of an admin against its stored state, performs it through a commit of its own, and queues a
response that consumes the request.  A request may take several commits, so the store of a failed
call is the one its last commit left.

`apply_group_control` of `groups.rs` and the loop `apply_deferred_controls` of `lib.rs` that feeds
it from the queue.  The loop stops at the first error and leaves the failing control where it is.
-/

namespace Komms.Group

open GroupAuthority

/-! ### Authorization -/

variable (E : Env) (s : Store)

/-- The peer's stored device is not revoked and its manifest has it active. -/
def contactDeviceAuthorizes (account device : Octets 32) : Bool :=
  match (s.contactDevicesFor account).find? fun endpoint =>
      endpoint.device = device && endpoint.revokedAt.isNone with
  | some endpoint => authorizes E endpoint account
  | none => false

variable (d : Draws) (peer : Octets 32) (request : GroupAdminRequest)

/-- A moderation request one generation behind may be the interrupted one that advanced it. -/
def moderationResume (state : SignedState) : Bool :=
  match request.action with
  | .moderatePoll _ _ => checkedSucc request.baseGeneration = some state.generation
  | _ => false

/-- The request's bytes and its signature verify under the device it came from. -/
def requestVerifies (device : Octets 32) (request : GroupAdminRequest) : Bool :=
  match Octets.ofBytes? 64 request.signature, groupAdminRequestSigningBytes request with
  | some signature, .ok signing =>
    verifyPeerDomain E.suite device .groupAdminRequest signing signature = .ok ()
  | _, _ => false

def adminAuthorized (device : Octets 32) (request : GroupAdminRequest) (state : SignedState) :
    Bool :=
  state.owner = E.me &&
    (request.baseGeneration = state.generation || moderationResume request state) &&
    hasRole state peer .admin && contactDeviceAuthorizes E s peer device &&
    requestVerifies E device request

/-! ### Performing a request -/

/-- The value of `result`: `?` inside the match leaves the handler, an error kept in it becomes the
response. -/
abbrev AdminEffect := NodeEffect (Except NodeError (Option (Octets 16)))

def commitForRequest (stored : GroupAuthorityRecord) (edited : SignedState)
    (requestId : Octets 16) : AdminEffect :=
  match prepareNextState E.suite edited stored.stateId d.secret with
  | .error e => ⟨s, .error e⟩
  | .ok next =>
    match commitAuthorityState E s d 0 next d.secret (some requestId) with
    | .ok (s', stateId) => ⟨s', .ok (.ok (some stateId))⟩
    | .error e => ⟨s, .ok (.error e)⟩

/-- Close the poll; an error here is answered, not raised. -/
def closeModerated (group pollAuthor : Octets 32) (pollId : Octets 16) : AdminEffect :=
  match commitGroupPollModeratedClose E s d 2 group pollAuthor pollId with
  | .ok (s', id) => ⟨s', .ok (.ok (some id))⟩
  | .error e => ⟨s, .ok (.error e)⟩

/-- Advance the authority unless the request resumes one that did, then close the poll. -/
def moderatePoll (group pollAuthor : Octets 32) (pollId : Octets 16) (resume : Bool) :
    AdminEffect :=
  match groupPolls E s group with
  | .error e => ⟨s, .error e⟩
  | .ok polls =>
    match findPoll polls pollAuthor pollId with
    | none => ⟨s, .error .invalidPoll⟩
    | some poll =>
      if poll.closed then ⟨s, .ok (.ok none)⟩
      else
        let advanced : NodeEffect Unit :=
          if resume then ⟨s, .ok ()⟩
          else (Effect.ofExcept s (advanceAuthority E s d group)).andThen fun s' _ => ⟨s', .ok ()⟩
        advanced.andThen fun s' _ => closeModerated E s' d group pollAuthor pollId

def performAdminAction (stored : GroupAuthorityRecord) (state : SignedState) (now : UInt64) :
    AdminEffect :=
  match request.action with
  | .rename name =>
    if name.bytes = [] ∨ name.bytes.length > maxGroupNameLen ∨ moderationResume request state then
      ⟨s, .ok (.error .invalidGroupAuthority)⟩
    else commitForRequest E s d stored { state with name } request.requestId
  | .invite member =>
    if moderationResume request state then ⟨s, .ok (.error .invalidGroupAuthority)⟩
    else if lists state member.peer then ⟨s, .ok (.ok (some stored.stateId))⟩
    else commitForRequest E s d stored (invited state member) request.requestId
  | .remove removed =>
    if moderationResume request state ∨ removed = state.owner then
      ⟨s, .ok (.error .invalidGroupAuthority)⟩
    else if lists state removed = false then ⟨s, .ok (.error .unknownPeer)⟩
    else (commitExclusion E s d request.group stored state removed (some request.requestId)
      now).andThen fun s' stateId => ⟨s', .ok (.ok (some stateId))⟩
  | .moderatePoll pollAuthor pollId =>
    moderatePoll E s d request.group pollAuthor pollId (moderationResume request state)

/-! ### Responding -/

/-- Acceptance, the accepted state and the reason code of a response. -/
structure AdminResponse where
  accepted : Bool
  stateId : Option (Octets 16)
  reason : UInt8
  deriving DecidableEq

def AdminResponse.unauthorized : AdminResponse := ⟨false, none, 2⟩

/-- The result that is sent to the admin, at the generation of the owner's record. -/
def AdminResponse.payload (request : GroupAdminRequest) (record : GroupAuthorityRecord)
    (response : AdminResponse) : Except NodeError GroupControlPayload := do
  let state ← decodeStored record
  .ok (.adminResult ⟨request.group, request.requestId, response.accepted, state.generation,
    response.stateId, response.reason⟩)

/-- What the owner answers to a performed request. -/
def responseOf (current : GroupAuthorityRecord) :
    Except NodeError (Option (Octets 16)) → AdminResponse
  | .ok stateId => ⟨true, stateId.or (some current.stateId), 0⟩
  | .error .invalidGroupAuthority => .unauthorized
  | .error _ => ⟨false, none, 3⟩

def GroupAuthorityRecord.consuming (record : GroupAuthorityRecord) (requestId : Octets 16) :
    GroupAuthorityRecord :=
  if requestId ∈ record.consumedRequests then record
  else { record with consumedRequests := capRequests (record.consumedRequests ++ [requestId]) }

/-- Queue the response, consume the request and delete the control in one commit; when the peer
cannot be reached the control stays. -/
def finishAdminRequest (control : DeferredControl) (before : GroupAuthorityRecord)
    (response : AdminResponse) (now : UInt64) : Except NodeError (Store × Verdict) := do
  let after := before.consuming request.requestId
  let payload ← response.payload request after
  match ← prepareGroupControl E s peer payload now with
  | none => .ok (s, .deferred)
  | some opened => do
    let s' ← commit E s (((s.openSessions opened).setAuthority request.group
      (some after)).deleteControl control)
    .ok (s', .consumed)

/-- The outcome of a consumed request, read off the current state. -/
def observedAdminRequestOutcome (state : SignedState) : Except NodeError AdminResponse := do
  let accepted ← match request.action with
    | .rename name => .ok (decide (state.generation > request.baseGeneration ∧ state.name = name))
    | .invite member => .ok (lists state member.peer)
    | .remove peer => .ok (!lists state peer)
    | .moderatePoll pollAuthor pollId => do
      let polls ← groupPolls E s request.group
      .ok (polls.any fun p => p.author = pollAuthor && p.id = pollId && p.closed)
  .ok ⟨accepted,
    if accepted then (s.authorities request.group).map GroupAuthorityRecord.stateId else none,
    if accepted then 0 else 4⟩

/-! ### The handlers -/

/-- What a request is answered with, and the record that the answer is for.  A request that was
consumed before is answered from the current state, one that is not authorized is refused, and any
other is performed. -/
def answerAdminRequest (control : DeferredControl) (stored : GroupAuthorityRecord)
    (state : SignedState) (now : UInt64) : NodeEffect (GroupAuthorityRecord × AdminResponse) :=
  if request.requestId ∈ stored.consumedRequests then
    .inspect s ((observedAdminRequestOutcome E s request state).map (stored, ·))
  else if adminAuthorized E s peer control.peerDevice request state = false then
    ⟨s, .ok (stored, .unauthorized)⟩
  else
    (performAdminAction E s d request stored state now).andThen fun s' result =>
      match s'.authorities request.group with
      | none => ⟨s', .error .corruptState⟩
      | some current => ⟨s', .ok (current, responseOf current result)⟩

def applyGroupAdminRequest (control : DeferredControl) (now : UInt64) : NodeEffect Verdict :=
  match s.authorities request.group with
  | none => ⟨s, .ok .discarded⟩
  | some stored =>
    match decodeStored stored with
    | .error e => ⟨s, .error e⟩
    | .ok state =>
      (answerAdminRequest E s d peer request control stored state now).andThen fun s' answer =>
        .ofExcept s' (finishAdminRequest E s' peer request control answer.1 answer.2 now)

/-- The owner's answer is shown to the admin; only the accepted owner is believed. -/
def applyGroupAdminResult (result : GroupAdminResult) (control : DeferredControl) :
    Except NodeError (Store × Verdict) := do
  let info ← groupAuthority E s result.group
  if peer ≠ info.owner then .ok (s, .discarded)
  else do
    let s' ← commit E s (s.deleteControl control)
    .ok (s', .consumed)

def maxGroupInvitationLifetimeSecs : ℕ := 7 * 86400

def maxGroupInvitationExpiriesPerTick : ℕ := 16

/-! ### Invitations -/

variable (control : DeferredControl)

def DeferredControl.expired (now : UInt64) : Bool :=
  min (control.receivedAt.toNat + maxGroupInvitationLifetimeSecs) (2 ^ 64 - 1) ≤ now.toNat

/-- The control announces a group that this node does not have. -/
def announcesUnknownGroup (payload : GroupControlPayload) : Bool :=
  payload.announcedGroup.any fun group => (s.groups group).isNone

/-- The scope of an origin announce names this device, and the sending device is the peer's. -/
def scopedToSelf (scope : OriginScope) : Bool :=
  scope.recipientAccount = E.me && scope.recipientDevice = E.deviceId &&
    verifiedGroupSenderAccount E s control.peerDevice = some control.peer

/-- An unsigned announce that its creator may invite with. -/
def invitesUnsigned (peer : Octets 32) (a : GroupAnnounce) : Bool :=
  a.creator = peer && a.group ≠ .zero 32 && !a.name.bytes.isEmpty &&
    a.name.bytes.length ≤ maxGroupNameLen && a.members.any (fun m => m.peer = E.me) &&
    a.members.any (fun m => m.peer = peer) && validRoster E a.members

/-- `authority_invitation_summary`: a verified state that lists both sides. -/
def invitesSigned (peer : Octets 32) (a : GroupAuthorityAnnounce) : Bool :=
  (announcedState E peer a).any fun state => lists state E.me

/-- `group_invitation_info_for_control`: a proposal that waits for the user's decision. -/
def isInvitation (payload : GroupControlPayload) : Bool :=
  !s.blocked control.peer && announcesUnknownGroup s payload &&
    match payload with
    | .announce a => invitesUnsigned E control.peer a
    | .originAnnounce a scope => scopedToSelf E s control scope && invitesUnsigned E control.peer a
    | .authorityAnnounce a => invitesSigned E control.peer a
    | .originAuthorityAnnounce a scope =>
      scopedToSelf E s control scope && invitesSigned E control.peer a
    | _ => false

/-! ### One control -/

def OriginScope.material (scope : OriginScope) : GroupOriginMaterial :=
  ⟨scope.originKey, scope.originGeneration⟩

def dispatchControl (d : Draws) (control : DeferredControl) (payload : GroupControlPayload)
    (now : UInt64) (accept : Bool) : NodeEffect Verdict :=
  let sender : GroupSender := ⟨control.peer, control.peerDevice⟩
  match payload with
  | .announce a => .ofExcept s (applyGroupAnnounce E s d sender a none control accept)
  | .leave group => .ofExcept s (applyGroupLeave E s d control.peer group control)
  | .remove group => .ofExcept s (applyGroupRemoveNotice E s control.peer group control)
  | .authorityAnnounce a => .ofExcept s (applyAuthorityAnnounce E s d sender a none control accept)
  | .adminRequest request => applyGroupAdminRequest E s d control.peer request control now
  | .adminResult result => .ofExcept s (applyGroupAdminResult E s control.peer result control)
  | .authorityRemove group stateId statePayload =>
    .ofExcept s (applyAuthorityRemove E s control.peer group stateId statePayload control)
  | .originAnnounce a scope =>
    if scopedToSelf E s control scope then
      .ofExcept s (applyGroupAnnounce E s d sender a (some scope.material) control accept)
    else ⟨s, .ok .discarded⟩
  | .originAuthorityAnnounce a scope =>
    if scopedToSelf E s control scope then
      .ofExcept s (applyAuthorityAnnounce E s d sender a (some scope.material) control accept)
    else ⟨s, .ok .discarded⟩

def applyGroupControl (d : Draws) (control : DeferredControl) (now : UInt64) (accept : Bool) :
    NodeEffect Verdict :=
  match GroupControlPayload.decode E.control control.body with
  | .error _ => ⟨s, .ok .discarded⟩
  | .ok payload =>
    if s.blocked control.peer then ⟨s, .ok .discarded⟩
    else if announcesUnknownGroup s payload && control.expired now then ⟨s, .ok .discarded⟩
    else if isInvitation E s control payload && !accept then ⟨s, .ok .deferred⟩
    else dispatchControl E s d control payload now accept

/-! ### The queue -/

def expiredInvitations (now : UInt64) : List DeferredControl :=
  (s.controls.filter fun control =>
    match GroupControlPayload.decode E.control control.body with
    | .ok payload => announcesUnknownGroup s payload && control.expired now
    | .error _ => false).take maxGroupInvitationExpiriesPerTick

def sweepGroupInvitations (now : UInt64) : Except NodeError (Store × Unit) :=
  match expiredInvitations E s now with
  | [] => .ok (s, ())
  | expired => do
    let s' ← commit E s (expired.foldl Store.deleteControl s)
    .ok (s', ())

end Komms.Group
