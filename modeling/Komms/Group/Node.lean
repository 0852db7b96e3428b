import Komms.Group.Control

/-!
# The node as a state machine

What changes the group rows of a node: a control is applied, or the user runs a local operation,
here `group_add`, `group_remove` and `group_leave` of `kult-node/src/groups.rs`.  Each leaves a
store, also when it fails.  `tick_groups` announces the rows to the members (`announceFor`,
`originAnnounceFor`).
-/

namespace Komms.Group

open GroupAuthority

/-- The creator's edit of an unsigned record: a new generation and a fresh chain. -/
def commitRoster (E : Env) (s : Store) (d : Draws) (group : Octets 32) (edited : GroupRecord)
    (gone : Octets 32 → Bool) : Except NodeError (Store × Unit) := do
  let generation ← bumpGeneration E edited.generation
  let after ← rotateGroup E s d 0 { edited with generation }
  let s' ← commit E s ((s.setGroup group (some after)).dropChains group gone)
  .ok (s', ())

def addUnsigned (E : Env) (s : Store) (d : Draws) (group peer : Octets 32) (before : GroupRecord) :
    Except NodeError (Store × Unit) := do
  rejectIf (before.creator ≠ E.me) .notGroupCreator
  if before.members.any fun m => m.peer = peer then .ok (s, ())
  else do
    rejectIf (before.members.length ≥ maxGroupAuthorityMembers) .invalidGroupAuthority
    let contact ← required .unknownPeer (s.contacts peer)
    commitRoster E s d group
      { before with members := before.members ++ [⟨peer, contact.identity⟩] } fun _ => false

def groupAdd (E : Env) (s : Store) (d d' : Draws) (group peer : Octets 32) (now : UInt64) :
    NodeEffect Unit :=
  match s.groups group with
  | none => ⟨s, .error .unknownGroup⟩
  | some before =>
    if (s.authorities group).isSome then
      if before.members.any fun m => m.peer = peer then ⟨s, .ok ()⟩
      else
        match s.contacts peer with
        | none => ⟨s, .error .unknownPeer⟩
        | some contact =>
          (groupAuthorityAddMember E s d d' group ⟨peer, contact.identity⟩ now).andThen
            fun s' _ => ⟨s', .ok ()⟩
    else .ofExcept s (addUnsigned E s d group peer before)

def queueToAll (E : Env) (payload : GroupControlPayload) (now : UInt64) :
    List (Octets 32) → Store → NodeEffect Unit
  | [], s => ⟨s, .ok ()⟩
  | peer :: rest, s =>
    (Effect.ofExcept s ((queueGroupControl E s peer payload now).map fun s' => (s', ()))).andThen
      fun s' _ => queueToAll E payload now rest s'

/-- The owner of a signed group cannot leave it. -/
def refuseOwner (E : Env) (s : Store) (group : Octets 32) : Except NodeError Unit :=
  if (s.authorities group).isSome then do
    let info ← groupAuthority E s group
    rejectIf (info.myRole = some .owner) .lastGroupOwner
  else .ok ()

/-- Leave a group: drop it locally, then tell every member. -/
def groupLeave (E : Env) (s : Store) (group : Octets 32) (now : UInt64) : NodeEffect Unit :=
  match s.groups group with
  | none => ⟨s, .error .unknownGroup⟩
  | some before =>
    (Effect.ofExcept s do
      refuseOwner E s group
      let s' ← commit E s (s.removeGroup group)
      .ok (s', ())).andThen fun s' _ => queueToAll E (.leave group) now (recipientsOf E before) s'

/-- Remove a member from an unsigned group: fresh secret, and a notice that carries no secret. -/
def removeUnsigned (E : Env) (s : Store) (d : Draws) (group peer : Octets 32) (now : UInt64) :
    NodeEffect Unit :=
  match s.groups group with
  | none => ⟨s, .error .unknownGroup⟩
  | some before =>
    if before.creator ≠ E.me then ⟨s, .error .notGroupCreator⟩
    else if ¬ before.members.any fun m => m.peer = peer then ⟨s, .error .unknownPeer⟩
    else
      (Effect.ofExcept s (commitRoster E s d group
        { before with
          members := before.members.filter fun m => m.peer ≠ peer
          prevSecret := some before.secret
          secret := d.secret } fun account => account = peer)).andThen fun s' _ =>
        .ofExcept s' ((queueGroupControl E s' peer (.remove group) now).map fun s'' => (s'', ()))

def groupRemove (E : Env) (s : Store) (d d' : Draws) (group peer : Octets 32) (now : UInt64) :
    NodeEffect Unit :=
  if peer = E.me then groupLeave E s group now
  else if (s.authorities group).isSome then
    (groupAuthorityRemoveMember E s d d' group peer now).andThen fun s' _ => ⟨s', .ok ()⟩
  else removeUnsigned E s d group peer now

/-- One call into the node, with its random draws.  An operation on a group that is not signed yet
upgrades it first, with draws of its own. -/
inductive Operation where
  | control (control : DeferredControl) (now : UInt64) (accept : Bool) (d : Draws)
  | upgrade (group : Octets 32) (d : Draws)
  | rename (group : Octets 32) (name : Utf8) (now : UInt64) (d d' : Draws)
  | setRole (group peer : Octets 32) (role : GroupRole) (d d' : Draws)
  | transfer (group newOwner : Octets 32) (d d' : Draws)
  | add (group peer : Octets 32) (now : UInt64) (d d' : Draws)
  | remove (group peer : Octets 32) (now : UInt64) (d d' : Draws)

def Operation.run (E : Env) (s : Store) : Operation → Store
  | control c now accept d => (applyGroupControl E s d c now accept).state
  | upgrade group d => (Effect.ofExcept s (groupUpgradeAuthority E s d group)).state
  | rename group name now d d' => (groupRename E s d d' group name now).state
  | setRole group peer role d d' => (groupSetRole E s d d' group peer role).state
  | transfer group newOwner d d' => (groupTransferOwner E s d d' group newOwner).state
  | add group peer now d d' => (groupAdd E s d d' group peer now).state
  | remove group peer now d d' => (groupRemove E s d d' group peer now).state

/-! ### Announcing -/

/-- The unsigned announce of a record; only the creator sends the roster. -/
def unsignedAnnounce (E : Env) (rec : GroupRecord) (chain : ChainKeys) : GroupAnnounce where
  group := rec.id
  name := rec.name
  creator := rec.creator
  members := if rec.creator = E.me then rec.members else []
  secret := rec.secret
  generation := rec.generation
  chain := chain

def signedAnnounce (rec : GroupRecord) (record : GroupAuthorityRecord) (chain : ChainKeys) :
    GroupAuthorityAnnounce where
  group := rec.id
  stateId := record.stateId
  statePayload := record.statePayload
  secret := rec.secret
  chain := chain

/-- What `tick_groups` sends for one pending entry of a legacy chain. -/
def announceFor (E : Env) (s : Store) (rec : GroupRecord) (entry : PendingAnnounce) :
    GroupControlPayload :=
  match s.authorities rec.id with
  | some record => .authorityAnnounce (signedAnnounce rec record entry.chain)
  | none => .announce (unsignedAnnounce E rec entry.chain)

/-- What `tick_groups` sends for one device of an origin epoch. -/
def originAnnounceFor (E : Env) (s : Store) (rec : GroupRecord) (originGeneration : UInt64)
    (entry : OutgoingOrigin) : GroupControlPayload :=
  let scope : OriginScope :=
    ⟨originGeneration, entry.recipientAccount, entry.recipientDevice, entry.originKey⟩
  match s.authorities rec.id with
  | some record => .originAuthorityAnnounce (signedAnnounce rec record entry.chain) scope
  | none => .originAnnounce (unsignedAnnounce E rec entry.chain) scope

/-- The announces that `tick_groups` builds from a record over time; on each tick it sends those
that are due. -/
def builtAnnounces (E : Env) (s : Store) (rec : GroupRecord) : List GroupControlPayload :=
  match rec.senderChain with
  | .legacy _ => rec.pending.map (announceFor E s rec)
  | .origin state => state.origins.map (originAnnounceFor E s rec state.originGeneration)

def GroupControlPayload.signed? : GroupControlPayload → Option GroupAuthorityAnnounce
  | .authorityAnnounce a => some a
  | .originAuthorityAnnounce a _ => some a
  | _ => none

end Komms.Group
