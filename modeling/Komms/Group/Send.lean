import Komms.Group.Chains

/-!
# Sending to a group

`group_send_content_with_id_effects` and the calls around it in `kult-node/src/groups.rs`: a message
leaves only when every device of the roster is authenticated, it spends one step of the sending
chain, and when it carries a new authority state it rewrites the group record, deletes the chains of
removed members and rotates the sending chain in the same commit.  Controls go over pairwise
sessions.

`resolve_polls` of `kult-node/src/polls.rs`: the polls of a group are what a fold over its
authenticated messages makes of them.  A poll is closed by its author, or by the owner of the
authority state of the generation that the closing event names.
-/

namespace Komms.Group

open GroupAuthority

def maxPollVoters : ℕ := 64

def pollVersion : UInt8 := 1

def opModeratedClose : UInt8 := 4

/-- One attested vote inside signed bytes. -/
def PollVoteHead.bytes (head : PollVoteHead) : Bytes :=
  head.voter.toBytes ++ head.eventId.toBytes ++ head.optionId.toBytes ++
    leBytes 8 head.revision.toNat

/-- Canonical bytes covered by the owner's moderation signature. -/
def pollModerationSigningBytes (group pollAuthor : Octets 32) (pollId : Octets 16)
    (authorityGeneration : UInt64) (heads : List PollVoteHead) : Except ProtocolError Bytes := do
  rejectIf (authorityGeneration = 0 ∨ heads.length > maxPollVoters ∨
    ¬ heads.Pairwise (fun a b => a.voter < b.voter) ∨
    heads.any (fun head => head.revision = 0) = true) .malformed
  .ok ([pollVersion, opModeratedClose, 0, 0] ++ group.toBytes ++ pollAuthor.toBytes ++
    pollId.toBytes ++ leBytes 8 authorityGeneration.toNat ++ leBytes 1 heads.length ++ [0, 0, 0] ++
    heads.flatMap PollVoteHead.bytes)

/-! ### Working state -/

/-- The event that closed a poll, the votes it attests and, for a moderated one, the moderator. -/
structure PollClosing where
  eventId : Octets 16
  heads : List PollVoteHead
  moderator : Option (Octets 32)
  deriving DecidableEq

structure WorkingPoll where
  author : Octets 32
  id : Octets 16
  generation : UInt64
  question : Utf8
  eligibleVoters : List (Octets 32)
  options : List PollOption
  /-- At most one vote for each voter. -/
  votes : List PollVoteHead
  closing : Option PollClosing
  deriving DecidableEq

/-- The authority state that counts for one generation: event id, owner, signing device, version. -/
structure AuthorityOwner where
  eventId : Octets 16
  owner : Octets 32
  signerDevice : Octets 32
  version : UInt8
  deriving DecidableEq

/-- The authority states of the history, by generation; the smallest event id wins. -/
def authorityOwners (S : Suite) (P : Postcard) (group : Octets 32) (records : List GroupMessage) :
    UInt64 → Option AuthorityOwner :=
  records.foldl step fun _ => none
where
  step (owners : UInt64 → Option AuthorityOwner) (record : GroupMessage) :
      UInt64 → Option AuthorityOwner :=
    match record.recipientAuthenticated, record.body with
    | true, .groupAuthority id payload =>
      match decodeGroupAuthority payload with
      | .state state =>
        if state.group = group ∧ state.signer = record.sender ∧
            verifyAuthorityState S P state none = .ok () then
          if (owners state.generation).all (fun winner => id < winner.eventId) then
            Function.update owners state.generation
              (some ⟨id, state.owner, state.signerDevice, state.version⟩)
          else owners
        else owners
      | _ => owners
    | _, _ => owners

/-- The polls that were created, each by one of its own voters, without their votes. -/
def createdPolls (records : List GroupMessage) : List WorkingPoll :=
  records.foldl step []
where
  step (polls : List WorkingPoll) (record : GroupMessage) : List WorkingPoll :=
    match record.recipientAuthenticated, record.body with
    | true, .poll id (.create generation question options voters) =>
      if record.sender ∉ voters ∨ polls.any (fun p => p.author = record.sender && p.id = id) then
        polls
      else polls ++ [⟨record.sender, id, generation, question, voters, options, [], none⟩]
    | _, _ => polls

def updatePoll (polls : List WorkingPoll) (author : Octets 32) (id : Octets 16)
    (f : WorkingPoll → WorkingPoll) : List WorkingPoll :=
  polls.map fun p => if p.author = author ∧ p.id = id then f p else p

namespace WorkingPoll

variable (p : WorkingPoll)

def hasOption (optionId : Octets 16) : Bool := p.options.any fun option => option.id = optionId

/-- Take a vote when it is newer than the voter's accepted one. -/
def vote (candidate : PollVoteHead) : WorkingPoll :=
  if candidate.voter ∉ p.eligibleVoters ∨ p.hasOption candidate.optionId = false then p
  else
    match p.votes.find? fun v => v.voter = candidate.voter with
    | none => { p with votes := p.votes ++ [candidate] }
    | some current =>
      if current.revision < candidate.revision ∨
          (current.revision = candidate.revision ∧ current.eventId < candidate.eventId) then
        { p with votes := p.votes.map fun v => if v.voter = candidate.voter then candidate else v }
      else p

/-- Close the poll; among closing events the smallest id wins. -/
def close (closing : PollClosing) : WorkingPoll :=
  if closing.heads.any fun head =>
      head.voter ∉ p.eligibleVoters || !p.hasOption head.optionId then p
  else if p.closing.all fun current => closing.eventId < current.eventId then
    { p with closing := some closing }
  else p

end WorkingPoll

/-- The key under which a moderated close has to verify. -/
def AuthorityOwner.verificationKey (o : AuthorityOwner) (sender : Octets 32) : Option (Octets 32) :=
  if o.version = groupAuthorityVersion ∧ o.signerDevice ≠ .zero 32 then some o.signerDevice
  else if o.version = legacyGroupAuthorityVersion then some sender
  else none

/-- A moderated close was signed for the owner of the generation it names. -/
def moderationAuthorized (S : Suite) (owners : UInt64 → Option AuthorityOwner) (group : Octets 32)
    (sender closeGroup pollAuthor : Octets 32) (pollId : Octets 16) (generation : UInt64)
    (heads : List PollVoteHead) (signature : Octets 64) : Bool :=
  match owners generation with
  | none => false
  | some winner =>
    closeGroup = group && winner.owner = sender &&
      match winner.verificationKey sender,
        pollModerationSigningBytes closeGroup pollAuthor pollId generation heads with
      | some key, .ok signing =>
        verifyPeerDomain S key .groupPollModeration signing signature = .ok ()
      | _, _ => false

/-- The second pass: votes and closing events. -/
def applyPollEvent (S : Suite) (owners : UInt64 → Option AuthorityOwner) (group : Octets 32)
    (polls : List WorkingPoll) (record : GroupMessage) : List WorkingPoll :=
  match record.recipientAuthenticated, record.body with
  | true, .poll id (.vote pollAuthor pollId optionId revision) =>
    updatePoll polls pollAuthor pollId (·.vote ⟨record.sender, id, optionId, revision⟩)
  | true, .poll id (.close pollAuthor pollId heads) =>
    if record.sender = pollAuthor then
      updatePoll polls pollAuthor pollId (·.close ⟨id, heads, none⟩)
    else polls
  | true, .poll id (.moderatedClose closeGroup pollAuthor pollId generation heads signature) =>
    if moderationAuthorized S owners group record.sender closeGroup pollAuthor pollId generation
        heads signature then
      updatePoll polls pollAuthor pollId (·.close ⟨id, heads, some record.sender⟩)
    else polls
  | _, _ => polls

/-! ### Presentation -/

structure PollOptionInfo where
  id : Octets 16
  text : Utf8
  votes : ℕ
  selectedByMe : Bool
  deriving DecidableEq

structure PollInfo where
  group : Octets 32
  author : Octets 32
  id : Octets 16
  generation : UInt64
  question : Utf8
  eligible : Bool
  canClose : Bool
  eligibleVoters : List (Octets 32)
  options : List PollOptionInfo
  votes : List PollVoteHead
  closed : Bool
  closeEventId : Option (Octets 16)
  moderatedBy : Option (Octets 32)
  deriving DecidableEq

def WorkingPoll.info (group localPeer : Octets 32) (p : WorkingPoll) : PollInfo :=
  let votes := ((p.closing.map PollClosing.heads).getD p.votes).insertionSort
    fun a b => a.voter ≤ b.voter
  { group
    author := p.author
    id := p.id
    generation := p.generation
    question := p.question
    eligible := decide (localPeer ∈ p.eligibleVoters)
    canClose := p.author = localPeer && p.closing.isNone
    eligibleVoters := p.eligibleVoters
    options := p.options.map fun option =>
      ⟨option.id, option.text, votes.countP fun v => v.optionId = option.id,
        votes.any fun v => v.voter = localPeer && v.optionId = option.id⟩
    votes
    closed := p.closing.isSome
    closeEventId := p.closing.map PollClosing.eventId
    moderatedBy := p.closing.bind PollClosing.moderator }

def resolvePolls (S : Suite) (P : Postcard) (group localPeer : Octets 32)
    (records : List GroupMessage) : List PollInfo :=
  (records.foldl (applyPollEvent S (authorityOwners S P group records) group)
    (createdPolls records)).map (WorkingPoll.info group localPeer)

/-- All valid polls for one group, in the order of their creation events. -/
def groupPolls (E : Env) (s : Store) (group : Octets 32) : Except NodeError (List PollInfo) := do
  let _ ← required .unknownGroup (s.groups group)
  .ok (resolvePolls E.suite E.postcard group E.me (s.groupMessages group))

def findPoll (polls : List PollInfo) (author : Octets 32) (id : Octets 16) : Option PollInfo :=
  polls.find? fun p => p.author = author ∧ p.id = id

/-- Maximum devices of one account that a pairwise commit may address. -/
def maxPairwiseCommitDevices : ℕ := 8

def maxPadBucket : ℕ := 65536

/-! ### Security level -/

inductive GroupSecurityLevel where
  | upgradeRequired
  | upgrading
  | recipientAuthenticated
  deriving DecidableEq

/-- The member's device has installed our current epoch. -/
def outgoingReady (state : OriginState) (r : Route) : Bool :=
  state.origins.any fun o =>
    o.recipientAccount = r.account && o.recipientDevice = r.device && o.acknowledged

variable (E : Env) (s : Store) (peer group : Octets 32)

/-- We have installed an ordered epoch of the member's device. -/
def incomingReady (r : Route) : Bool :=
  match (s.chains group r.account).map decodeDeviceGroupChains with
  | some (.ok chains) => chains.any fun e =>
      e.device = r.device && e.recipientDevice = E.deviceId && e.originKey.isSome &&
        e.originGeneration ≠ 0 && e.originAnnounceDigest ≠ .zero 32
  | _ => false

/-- The level of `group_security_info_for`: every route ready, some not, or a legacy chain. -/
def groupSecurityLevel (rec : GroupRecord) : Except NodeError GroupSecurityLevel := do
  match ← checkSenderState rec.senderChain with
  | .legacy _ => do
    let _ ← groupRouteDevices E s rec.members
    .ok .upgradeRequired
  | .origin state => do
    let routes ← groupRouteDevices E s rec.members
    .ok (if routes.all fun r => r.authorized && routeSupportsGroupOrigins s r.device &&
        outgoingReady state r && incomingReady E s rec.id r then .recipientAuthenticated
      else .upgrading)

def requireRecipientAuthenticatedGroup : Except NodeError Unit := do
  let row ← required .unknownGroup (s.groups group)
  let level ← groupSecurityLevel E s row
  rejectIf (level ≠ .recipientAuthenticated) .groupSecurityUpgradeRequired

/-- The current epoch was made for exactly the current routes, acknowledged or not. -/
def requireFreshGroupOriginMaterial : Except NodeError Unit := do
  let row ← required .unknownGroup (s.groups group)
  match ← checkSenderState row.senderChain with
  | .legacy _ => .error .groupSecurityUpgradeRequired
  | .origin state => do
    let expected ← groupRouteDevices E s row.members
    rejectIf (expected.any (fun r => !r.authorized || !routeSupportsGroupOrigins s r.device) = true)
      .groupSecurityUpgradeRequired
    rejectIf (expected.map (fun r => (r.account, r.device)) ≠
      state.origins.map fun o => (o.recipientAccount, o.recipientDevice))
      .groupSecurityUpgradeRequired

/-! ### Fan-out -/

def groupAccountRouteDevices : Except NodeError (List (Octets 32)) := do
  let devices := (s.contactDevicesFor peer).map ContactDevice.device
  let routes := sortDedup (fun device => device) (if devices = [] then [peer] else devices)
  rejectIf (routes.length > maxPairwiseCommitDevices) .corruptState
  .ok routes

/-- The routes of `prepare_group_pending_fanout`.  The checks of the fan-out's constructor hold of
validated origins. -/
def prepareGroupPendingFanout (sender : SenderState) (recipients : List (Octets 32)) :
    Except NodeError (List (Octets 32 × Octets 32)) := do
  rejectIf (¬ recipients.Nodup) .corruptState
  match sender with
  | .legacy _ => do
    let routes ← recipients.mapM fun account => do
      let devices ← groupAccountRouteDevices s account
      .ok (devices.map fun device => (account, device))
    .ok routes.flatten
  | .origin state => do
    rejectIf (state.origins.any (fun o =>
      o.recipientAccount ∉ recipients || o.chain.keyId ≠ state.chain.keyId) = true) .corruptState
    rejectIf (recipients.any (fun account =>
      !state.origins.any fun o => o.recipientAccount = account) = true)
      .groupSecurityUpgradeRequired
    .ok (state.origins.map fun o => (o.recipientAccount, o.recipientDevice))

/-! ### Messages -/

/-- `PreparedAuthorityGroupState`: the group record's new fields and the new authority record. -/
structure PreparedAuthority where
  secret : Octets 32
  name : Utf8
  creator : Octets 32
  generation : UInt64
  members : List GroupMember
  record : GroupAuthorityRecord

/-- The record under a new authority state, before its chain is rotated. -/
def GroupRecord.under (rec : GroupRecord) (a : PreparedAuthority) : GroupRecord :=
  { rec with
    prevSecret := some rec.secret
    secret := a.secret
    name := a.name
    creator := a.creator
    generation := a.generation
    members := a.members }

/-- A spent chain rotates before it encrypts anything else. -/
def rotateSpent (d : Draws) (k : ℕ) (rec : GroupRecord) : Except NodeError GroupRecord :=
  if rec.sentSinceRotation ≥ groupRotateMsgs then rotateGroup E s d k rec else .ok rec

/-- The record after one message was sealed on its chain. -/
def sealOnGroup (d : Draws) (k : ℕ) (rec : GroupRecord) : Except NodeError GroupRecord := do
  let unspent ← rotateSpent E s d k rec
  let sender ← checkSenderState unspent.senderChain
  let senderChain ← checkSenderState (sender.advance E)
  -- Below the rotation bound, so the counter does not wrap.
  .ok { unspent with senderChain, sentSinceRotation := unspent.sentSinceRotation + 1 }

def recipientsOf (rec : GroupRecord) : List (Octets 32) :=
  (rec.members.filter fun m => m.peer ≠ E.me).map GroupMember.peer

def SenderState.isOrigin : SenderState → Bool
  | .legacy _ => false
  | .origin _ => true

def removedPeers (old new : List GroupMember) (account : Octets 32) : Bool :=
  old.any (fun m => m.peer = account) && !new.any fun m => m.peer = account

/-- A message needs every route acknowledged, or at least an epoch made for the current routes. -/
def requireSendable (allowUnacknowledgedOrigin : Bool) : Except NodeError Unit :=
  if allowUnacknowledgedOrigin then requireFreshGroupOriginMaterial E s group
  else requireRecipientAuthenticatedGroup E s group

/-- A message with recipients needs routes to them. -/
def requireFanout (sender : SenderState) (recipients : List (Octets 32)) : Except NodeError Unit :=
  if recipients = [] then .ok ()
  else do
    let _ ← prepareGroupPendingFanout s sender recipients
    .ok ()

/-- `group_send_content_with_id_effects`; `k` numbers the chains this call draws. -/
def groupSendContent (d : Draws) (k : ℕ) (group : Octets 32) (id : Octets 16) (content : Content)
    (authority : Option PreparedAuthority) (allowUnacknowledgedOrigin : Bool) :
    Except NodeError Store := do
  let before ← required .unknownGroup (s.groups group)
  requireSendable E s group allowUnacknowledgedOrigin
  let sealed ← sealOnGroup E s d k before
  requireFanout s sealed.senderChain (recipientsOf E before)
  let message : GroupMessage := ⟨id, group, E.me, sealed.senderChain.isOrigin, content⟩
  match authority with
  | none => commit E s ((s.setGroup group (some sealed)).addMessage message)
  | some a => do
    rejectIf (a.record.group ≠ group ∨ a.record.stateId ≠ id ∨ a.members = [])
      .invalidGroupAuthority
    let after ← rotateGroup E s d (k + 1) (sealed.under a)
    commit E s ((((s.setGroup group (some after)).addMessage message).dropChains group
      (removedPeers before.members a.members)).setAuthority group (some a.record))

/-! ### Controls -/

/-- Devices that a control opened a session to: their capabilities are unknown again. -/
def Store.openSessions (opened : List (Octets 32)) : Store :=
  { s with
    sessions := fun device => s.sessions device || decide (device ∈ opened)
    capabilities := fun device => if device ∈ opened then none else s.capabilities device }

/-- The stored routes to a peer, or its own key with the bundle of the contact.  Rows have different
devices, so sorting and deduplicating them changes nothing here. -/
def controlRoutes (contact : Contact) : List (Octets 32 × Bytes) :=
  match s.contactDevicesFor peer with
  | [] => [(peer, contact.bundle)]
  | endpoints => endpoints.map fun endpoint => (endpoint.device, endpoint.bundle)

/-- `prepare_group_control`: the devices a session has to be opened to, or `none` when no route
works now. -/
def prepareGroupControl (payload : GroupControlPayload) (now : UInt64) :
    Except NodeError (Option (List (Octets 32))) :=
  match s.contacts peer with
  | none => .ok none
  | some contact => do
    let routes := controlRoutes s peer contact
    rejectIf (routes.length > maxPairwiseCommitDevices) .corruptState
    rejectIf ((E.encodeControl payload).length + 1 > maxPadBucket) (.protocol .tooLarge)
    let opened := routes.filter fun r =>
      !s.sessions r.1 && !r.2.isEmpty && E.opensSession r.1 r.2 now
    .ok (if routes.any fun r => s.sessions r.1 || decide (r ∈ opened) then
      some (opened.map Prod.fst)
      else none)

/-- Encrypt and queue one control payload; unreachable peers are skipped. -/
def queueGroupControl (payload : GroupControlPayload) (now : UInt64) : Except NodeError Store := do
  match ← prepareGroupControl E s peer payload now with
  | none => .ok s
  | some opened => commit E s (s.openSessions opened)

end Komms.Group
