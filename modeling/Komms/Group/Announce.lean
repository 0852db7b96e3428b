import Komms.Group.Authority

/-!
# Announces, departures and removals

The handlers of `kult-node/src/groups.rs` and `authority.rs` for controls that change a group: the
creator's unsigned announce, a member's departure, a removal notice, and their signed counterparts.
Each ends in at most one commit.
-/

namespace Komms.Group

open GroupAuthority

/-! ### Helpers -/

variable (E : Env)

/-- Every roster entry is bounded, unique, and carries the identity it names. -/
def validRoster (members : List GroupMember) : Bool :=
  !members.isEmpty && members.length ≤ maxGroupAuthorityMembers &&
    (members.map GroupMember.peer).Nodup &&
    members.all fun m => !m.identity.isEmpty && m.identity.length ≤ maxGroupMemberIdentityLen &&
      (E.postcard.identity m.identity).any fun identity => identity.ed = m.peer

/-- Contacts for the members this node has never met. -/
def prepareRosterStubs (E : Env) (s : Store) :
    List GroupMember → Except NodeError (List (Octets 32 × Contact))
  | [] => .ok []
  | m :: rest =>
    if m.peer = E.me ∨ m.identity = [] ∨ (s.contacts m.peer).isSome then
      prepareRosterStubs E s rest
    else do
      let identity ← required .corruptState (E.postcard.identity m.identity)
      rejectIf (identity.ed ≠ m.peer) .corruptState
      let stubs ← prepareRosterStubs E s rest
      .ok ((m.peer, ⟨m.identity, []⟩) :: stubs)

variable (s : Store)

/-- Delete a group with its chains and its authority record. -/
def Store.removeGroup (group : Octets 32) : Store :=
  ((s.setGroup group none).dropChains group fun _ => true).setAuthority group none

def commitGroupRemoval (rec : GroupRecord) (control : DeferredControl) :
    Except NodeError (Store × Verdict) := do
  let s' ← commit E s ((s.removeGroup rec.id).deleteControl control)
  .ok (s', .consumed)

/-- An announce with origin material leaves its row for the acknowledgement, unless it was accepted
as an invitation. -/
def keepsControl (origin : Option GroupOriginMaterial) (accept : Bool) : Bool :=
  origin.isSome && !accept

def Store.settleControl (control : DeferredControl) (keep : Bool) : Store :=
  if keep then s else s.deleteControl control

/-- The verdict on an applied announce. -/
def announced (origin : Option GroupOriginMaterial) (accept : Bool) : Verdict :=
  ⟨true, origin.isNone || accept⟩

variable (d : Draws)

def joinRecord (group : Octets 32) (name : Utf8) (creator : Octets 32) (members : List GroupMember)
    (secret : Octets 32) (generation : UInt64) : GroupRecord where
  id := group
  name := name
  creator := creator
  members := members
  secret := secret
  prevSecret := none
  generation := generation
  senderChain := .legacy (d.chain 0)
  sentSinceRotation := 0
  pending := pendingFor E.me (d.chain 0) members

/-! ### The unsigned announce -/

/-- The record after the creator's newer roster, before its chain is rotated. -/
def GroupRecord.announcedBy (rec : GroupRecord) (a : GroupAnnounce) : GroupRecord :=
  { rec with
    members := a.members
    name := a.name
    generation := a.generation
    prevSecret := if rec.secret ≠ a.secret then some rec.secret else rec.prevSecret
    secret := a.secret }

/-- What the state half of an announce asks for. -/
inductive AnnounceStep where
  | stop (verdict : Verdict)
  | removed (rec : GroupRecord)
  | proceed (rec : GroupRecord) (stubs : List (Octets 32 × Contact))

/-- The state half: an invitation, the creator's newer roster, or nothing. -/
def announceState (peer : Octets 32) (a : GroupAnnounce) (accept : Bool) :
    Except NodeError AnnounceStep :=
  match s.groups a.group with
  | none =>
    if a.creator ≠ peer ∨ ¬ a.members.any (fun m => m.peer = E.me) ∨
        ¬ a.members.any (fun m => m.peer = peer) ∨ ¬ validRoster E a.members then
      .ok (.stop .deferred)
    else if accept = false then .ok (.stop .deferred)
    else do
      let stubs ← prepareRosterStubs E s a.members
      .ok (.proceed (joinRecord E d a.group a.name a.creator a.members a.secret a.generation) stubs)
  | some rec =>
    if peer = rec.creator ∧ a.generation > rec.generation then
      if ¬ a.members.any (fun m => m.peer = E.me) then .ok (.removed rec)
      else if ¬ validRoster E a.members then .ok (.stop .discarded)
      else do
        let stubs ← prepareRosterStubs E s a.members
        -- No prior recipient key survives a roster change.
        let after ← rotateGroup E s d 0 (rec.announcedBy a)
        .ok (.proceed after stubs)
    else .ok (.proceed rec [])

/-- A first origin announce moves a group with a legacy chain to origin epochs, when every device
can follow. -/
def initializeOrigins (origin : Option GroupOriginMaterial) (rec : GroupRecord) :
    Except NodeError GroupRecord := do
  if origin.isSome then
    match ← checkSenderState rec.senderChain with
    | .legacy _ => do
      if ← canInitializeGroupOrigins E s rec.members then rotateGroupOrigin E s d 1 rec else .ok rec
    | .origin _ => .ok rec
  else .ok rec

variable (sender : GroupSender)

/-- The sender-key half: honored from any current member. -/
def installAnnounced (a : GroupAnnounce) (origin : Option GroupOriginMaterial)
    (control : DeferredControl) (accept : Bool) (rec : GroupRecord)
    (stubs : List (Octets 32 × Contact)) : Except NodeError (Store × Verdict) :=
  if ¬ rec.members.any (fun m => m.peer = sender.account) then .ok (s, .deferred)
  else do
    let row ← prepareGroupReceiverChain E s rec.id sender a.chain origin
    let after ← initializeOrigins E s d origin rec
    let old := ((s.groups a.group).map GroupRecord.members).getD []
    let gone := removedPeers old after.members
    if origin.isSome ∧ s.groups a.group = some after ∧
        (old.all fun m => !gone m.peer || (s.chains after.id m.peer).isNone) ∧ row = none ∧
        stubs = [] then
      .ok (s, .discarded)
    else do
      let s' ← commit E s (((((s.setGroup after.id (some after)).dropChains after.id
        gone).installChain after.id sender.account row).addContacts stubs).settleControl control
          (keepsControl origin accept))
      .ok (s', announced origin accept)

def applyGroupAnnounce (a : GroupAnnounce) (origin : Option GroupOriginMaterial)
    (control : DeferredControl) (accept : Bool) : Except NodeError (Store × Verdict) := do
  match ← announceState E s d sender.account a accept with
  | .stop verdict => .ok (s, verdict)
  | .removed rec => commitGroupRemoval E s rec control
  | .proceed rec stubs => installAnnounced E s d sender a origin control accept rec stubs

/-! ### Departures and notices -/

/-- `rec.generation += 1`. -/
def bumpGeneration (generation : UInt64) : Except NodeError UInt64 :=
  if E.overflowChecks && generation.toNat + 1 == 2 ^ 64 then .error .overflow
  else .ok (generation + 1)

/-- The record without the member that left; the creator re-keys it. -/
def GroupRecord.withoutLeaver (rec : GroupRecord) (peer : Octets 32) :
    Except NodeError GroupRecord :=
  let shrunk := { rec with members := rec.members.filter fun m => m.peer ≠ peer }
  if rec.creator = E.me then do
    let generation ← bumpGeneration E rec.generation
    .ok { shrunk with generation, prevSecret := some rec.secret, secret := d.secret }
  else .ok shrunk

def applyGroupLeave (peer group : Octets 32) (control : DeferredControl) :
    Except NodeError (Store × Verdict) :=
  match s.groups group with
  | none => .ok (s, .discarded)
  | some before =>
    if ¬ before.members.any (fun m => m.peer = peer) then .ok (s, .discarded)
    else do
      let shrunk ← before.withoutLeaver E d peer
      -- Every remaining member rotates on membership shrink.
      let after ← rotateGroup E s d 0 shrunk
      let s' ← commit E s (((s.setGroup group (some after)).setChain group peer none).deleteControl
        control)
      .ok (s', .consumed)

def applyGroupRemoveNotice (peer group : Octets 32) (control : DeferredControl) :
    Except NodeError (Store × Verdict) :=
  match s.groups group with
  | none => .ok (s, .discarded)
  | some rec =>
    if rec.creator ≠ peer then .ok (s, .discarded) else commitGroupRemoval E s rec control

/-! ### The signed announce -/

/-- The announced state decodes, is about the announced group, lists the sender and verifies with
the announced secret. -/
def announcedState (peer : Octets 32) (a : GroupAuthorityAnnounce) : Option SignedState :=
  match decodeGroupAuthority a.statePayload with
  | .state state =>
    if state.group ≠ a.group ∨ lists state peer = false ∨
        verifyAuthorityState E.suite E.postcard state (some a.secret) ≠ .ok () then none
    else some state
  | _ => none

def transferChainExtends (accepted candidate : List OwnerTransfer) : Bool :=
  candidate.length ≥ accepted.length && candidate.take accepted.length = accepted

def currentState (group : Octets 32) :
    Except NodeError (Option (GroupAuthorityRecord × SignedState)) :=
  match s.authorities group with
  | none => .ok none
  | some record => do
    let state ← decodeStored record
    .ok (some (record, state))

/-- A state may follow what is accepted: it has the same original owner and, when newer, keeps the
transfer chain; before any state is accepted, the original owner is the creator. -/
def mayFollow (state : SignedState) : Option (GroupAuthorityRecord × SignedState) → Bool
  | some (_, current) => current.originalOwner = state.originalOwner &&
      !(state.generation > current.generation &&
        !transferChainExtends current.transfers state.transfers)
  | none => (s.groups state.group).all fun rec => rec.creator = state.originalOwner

/-- A state replaces the accepted one when it is newer, or of the same generation with a smaller
event id. -/
def adopts (state : SignedState) (stateId : Octets 16) :
    Option (GroupAuthorityRecord × SignedState) → Bool
  | none => true
  | some (record, current) => state.generation > current.generation ||
      (state.generation = current.generation && stateId < record.stateId)

def isCurrentWinner (stateId : Octets 16) :
    Option (GroupAuthorityRecord × SignedState) → Bool
  | none => false
  | some (record, _) => record.stateId = stateId

/-- The record under an adopted state, before its chain is rotated. -/
def GroupRecord.adopting (rec : GroupRecord) (state : SignedState) (secret : Octets 32) :
    GroupRecord :=
  { rec with
    prevSecret := if rec.secret ≠ secret then some rec.secret else none
    secret := secret
    name := state.name
    creator := state.owner
    members := stateMembers state
    generation := state.generation }

/-- Rotate into an origin epoch when the announce has origin material and every device can
follow. -/
def rotateAdopted (origin : Option GroupOriginMaterial) (rec : GroupRecord) :
    Except NodeError GroupRecord := do
  if origin.isSome then
    if ← canInitializeGroupOrigins E s rec.members then rotateGroupOrigin E s d 1 rec
    else rotateGroup E s d 1 rec
  else rotateGroup E s d 1 rec

variable (a : GroupAuthorityAnnounce)

/-- The authority record that an adopted announce leaves; consumed requests carry over. -/
def adoptedRecord (state : SignedState) (current : Option (GroupAuthorityRecord × SignedState)) :
    GroupAuthorityRecord where
  group := state.group
  stateId := a.stateId
  statePayload := a.statePayload
  consumedRequests := (current.map fun c => c.1.consumedRequests).getD []

/-- Adopt the announced state and install the sender's chain. -/
def adoptAnnounce (state : SignedState) (current : Option (GroupAuthorityRecord × SignedState))
    (origin : Option GroupOriginMaterial) (control : DeferredControl) (accept : Bool)
    (rec : GroupRecord) : Except NodeError (Store × Verdict) := do
  let stubs ← prepareRosterStubs E s (stateMembers state)
  let after ← rotateAdopted E s d origin (rec.adopting state a.secret)
  let row ← prepareGroupReceiverChain E s state.group sender a.chain origin
  let s' ← commit E s ((((((s.setGroup state.group (some after)).dropChains state.group
    (removedPeers rec.members (stateMembers state))).installChain state.group sender.account
      row).addContacts stubs).setAuthority state.group
        (some (adoptedRecord a state current))).settleControl control (keepsControl origin accept))
  .ok (s', announced origin accept)

/-- Install the chain that came with the accepted state. -/
def refreshChain (state : SignedState) (origin : Option GroupOriginMaterial)
    (control : DeferredControl) (accept : Bool) (rec : GroupRecord) :
    Except NodeError (Store × Verdict) :=
  if ¬ rec.members.any (fun m => m.peer = sender.account) then .ok (s, .deferred)
  else do
    let row ← prepareGroupReceiverChain E s state.group sender a.chain origin
    if origin.isSome ∧ row = none then .ok (s, .discarded)
    else do
      let s' ← commit E s ((s.installChain state.group sender.account row).settleControl control
        (keepsControl origin accept))
      .ok (s', announced origin accept)

/-- What happens to an announce that wins or renews the accepted state. -/
def applyWinning (state : SignedState) (current : Option (GroupAuthorityRecord × SignedState))
    (origin : Option GroupOriginMaterial) (control : DeferredControl) (accept : Bool) :
    Except NodeError (Store × Verdict) :=
  match s.groups state.group with
  | none =>
    if adopts state a.stateId current = false then .error .corruptState
    else if accept = false then .ok (s, .deferred)
    else
      adoptAnnounce E s d sender a state current origin control accept
        (joinRecord E d state.group state.name state.owner (stateMembers state) a.secret
          state.generation)
  | some rec =>
    if adopts state a.stateId current then
      adoptAnnounce E s d sender a state current origin control accept rec
    else refreshChain E s sender a state origin control accept rec

def applyAuthorityAnnounce (origin : Option GroupOriginMaterial) (control : DeferredControl)
    (accept : Bool) : Except NodeError (Store × Verdict) :=
  match announcedState E sender.account a with
  | none => .ok (s, .discarded)
  | some state =>
    if lists state E.me = false then .ok (s, .deferred)
    else do
      let current ← currentState s state.group
      if mayFollow s state current = false then .ok (s, .discarded)
      -- A losing fork or older state must never replace a receiver chain of the accepted
      -- generation.
      else if adopts state a.stateId current = false ∧
          isCurrentWinner a.stateId current = false then
        .ok (s, .discarded)
      else applyWinning E s d sender a state current origin control accept

/-! ### The signed removal -/

/-- A signed state that leaves this node out outranks the accepted one. -/
def outranks (stateId : Octets 16) (state : SignedState) :
    Option (GroupAuthorityRecord × SignedState) → Bool
  | none => true
  | some (record, current) =>
    !(state.originalOwner ≠ current.originalOwner || (state.generation > current.generation &&
        !transferChainExtends current.transfers state.transfers) ||
      state.generation < current.generation ||
      (state.generation = current.generation && stateId ≥ record.stateId))

def applyAuthorityRemove (peer group : Octets 32) (stateId : Octets 16) (payload : Bytes)
    (control : DeferredControl) : Except NodeError (Store × Verdict) :=
  match decodeGroupAuthority payload with
  | .state state =>
    if state.group ≠ group ∨ state.signer ≠ peer ∨ lists state E.me ∨
        verifyAuthorityState E.suite E.postcard state none ≠ .ok () then
      .ok (s, .discarded)
    else do
      let current ← currentState s group
      if outranks stateId state current = false then .ok (s, .discarded)
      else
        match s.groups group with
        | none => .ok (s, .discarded)
        | some before => commitGroupRemoval E s before control
  | _ => .ok (s, .discarded)

end Komms.Group
