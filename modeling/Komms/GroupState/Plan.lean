import Komms.Group.Store
import Komms.Lib.Change

/-!
# Group-state commits

`validate_group_state` of `kult-store/src/commit.rs` with the writer it guards, `group_state`, and
the part of `commit_plan` around them.  A plan lists changes of group records, receiver chains,
contacts, authority records and deferred controls, each with the value it expects.

Rows are typed and stand under the key they were written with.  A commit is atomic: the plan is
validated, then written row by row, and the first refused write rolls all of it back.
-/

namespace Komms.GroupState

open Komms.Group (GroupAuthorityRecord GroupMember PendingAnnounce maxGroupAdminRequests)
open GroupAuthority (maxGroupAuthorityMembers maxGroupMemberIdentityLen maxGroupNameLen)

def maxGroupStateMutations : ℕ := 256

def maxProfileGroups : ℕ := 8192 - 4096 - 2

inductive StoreError where
  | invalidTransition
  | maintenanceBounds
  | groupLimit
  | recordBounds
  deriving DecidableEq, Repr

/-! ### Rows -/

/-- A group record as it is stored, with the sender chain as opaque bytes. -/
structure GroupRecord where
  id : Octets 32
  name : Utf8
  creator : Octets 32
  members : List GroupMember
  secret : Octets 32
  prevSecret : Option (Octets 32)
  generation : UInt64
  senderChain : Bytes
  sentSinceRotation : UInt32
  pending : List PendingAnnounce
  deriving DecidableEq

structure ContactRecord where
  peer : Octets 32
  identity : Bytes
  name : Utf8
  bundle : Bytes
  hints : List Bytes
  verified : Bool
  deriving DecidableEq

inductive DeferredControlKind where
  | attachmentBulk
  | groupControl
  deriving DecidableEq, Repr

structure DeferredControlRecord where
  contentId : Octets 16
  peer : Octets 32
  peerDevice : Octets 32
  kind : DeferredControlKind
  body : Bytes
  receivedAt : UInt64
  deriving DecidableEq

/-- The tables a group-state commit touches. -/
structure Store where
  groups : HashMap (Octets 32) GroupRecord
  chains : HashMap (Octets 32 × Octets 32) Bytes
  contacts : HashMap (Octets 32) ContactRecord
  authorities : HashMap (Octets 32) GroupAuthorityRecord
  controls : HashMap (Octets 16) DeferredControlRecord
  presentationMarker : Option (Octets 16)

namespace GroupRecord

def listed (group : GroupRecord) (peer : Octets 32) : Prop :=
  ∃ member ∈ group.members, member.peer = peer

instance (group : GroupRecord) (peer : Octets 32) : Decidable (group.listed peer) :=
  inferInstanceAs (Decidable (∃ member ∈ group.members, member.peer = peer))

/-- `valid_group_record` -/
def Valid (group : GroupRecord) : Prop :=
  group.id ≠ .zero 32 ∧ group.name.bytes ≠ [] ∧ group.name.bytes.length ≤ maxGroupNameLen ∧
    group.members ≠ [] ∧ group.members.length ≤ maxGroupAuthorityMembers ∧
    (group.members.map GroupMember.peer).Nodup ∧
    (∀ member ∈ group.members,
      member.identity ≠ [] ∧ member.identity.length ≤ maxGroupMemberIdentityLen) ∧
    group.secret ≠ .zero 32 ∧ group.senderChain ≠ [] ∧
    group.pending.length ≤ maxGroupAuthorityMembers ∧
    (group.pending.map PendingAnnounce.peer).Nodup ∧
    ∀ pending ∈ group.pending, group.listed pending.peer

instance (group : GroupRecord) : Decidable group.Valid := by
  unfold Valid
  infer_instance

end GroupRecord

/-- `valid_group_authority_record` -/
def validAuthority (authority : GroupAuthorityRecord) : Bool :=
  authority.group ≠ .zero 32 ∧ authority.stateId ≠ .zero 16 ∧ authority.statePayload ≠ [] ∧
    authority.consumedRequests.length ≤ maxGroupAdminRequests ∧ authority.consumedRequests.Nodup

/-! ### Plans -/

/-- Creation, exact replacement or exact removal of a row. -/
structure RowTransition (α : Type) where
  before : Option α
  after : Option α

abbrev GroupStateTransition := RowTransition GroupRecord

abbrev GroupAuthorityStateTransition := RowTransition GroupAuthorityRecord

structure GroupChainStateTransition where
  group : Octets 32
  peer : Octets 32
  before : Option Bytes
  after : Option Bytes

structure ContactTransition where
  before : Option ContactRecord
  after : ContactRecord

structure GroupStatePlan where
  groups : List GroupStateTransition
  chains : List GroupChainStateTransition
  contacts : List ContactTransition
  authorities : List GroupAuthorityStateTransition
  deleteControls : List DeferredControlRecord
  presentationChanged : Bool

/-- The key a transition must have: the two rows exist, differ and carry the same key. -/
def RowTransition.key? {α κ : Type} [DecidableEq α] [DecidableEq κ] (key : α → κ)
    (t : RowTransition α) : Except StoreError κ :=
  match t.before, t.after with
  | none, none => .error .invalidTransition
  | none, some after => .ok (key after)
  | some before, none => .ok (key before)
  | some before, some after => do
    rejectIf (before = after ∨ key before ≠ key after) .invalidTransition
    return key before

/-- The key of a transition that was found to have one. -/
def RowTransition.key {α : Type} (key : α → Octets 32) (t : RowTransition α) : Octets 32 :=
  ((t.before.or t.after).map key).getD (.zero 32)

/-! ### Validation -/

section Validation

variable (s : Store) (plan : GroupStatePlan)

def checkGroups : Except StoreError Unit :=
  forEachDistinct (RowTransition.key? GroupRecord.id) .invalidTransition
    (fun id t => s.groups.lookup id ≠ t.before ∨ ∃ group ∈ t.after, ¬ group.Valid) [] plan.groups

/-- The number of groups after the commit stays within the profile's limit. -/
def checkGroupLimit : Except StoreError Unit := do
  let additions := plan.groups.countP fun t => t.before.isNone && t.after.isSome
  let removals := plan.groups.countP fun t => t.before.isSome && t.after.isNone
  rejectIf (HashMap.len s.groups + additions < removals) .invalidTransition
  rejectIf (HashMap.len s.groups + additions - removals > maxProfileGroups) .groupLimit

def checkChains : Except StoreError Unit :=
  forEachDistinct (fun t => .ok (t.group, t.peer)) .invalidTransition
    (fun key t => t.before = none ∧ t.after = none ∨ t.before = t.after ∨ t.before = some [] ∨
      t.after = some [] ∨ s.chains.lookup key ≠ t.before) [] plan.chains

def checkContacts : Except StoreError Unit :=
  forEachDistinct (fun t => .ok t.after.peer) .invalidTransition
    (fun peer t => t.before = some t.after ∨ (∃ before ∈ t.before, before.peer ≠ t.after.peer) ∨
      t.after.identity = [] ∨ t.after.identity.length > maxGroupMemberIdentityLen ∨
      s.contacts.lookup peer ≠ t.before) [] plan.contacts

def checkAuthorities : Except StoreError Unit :=
  forEachDistinct (RowTransition.key? GroupAuthorityRecord.group) .invalidTransition
    (fun group t => s.authorities.lookup group ≠ t.before ∨
      ∃ authority ∈ t.after, validAuthority authority = false) [] plan.authorities

def checkControls : Except StoreError Unit := do
  rejectIf (¬ (plan.deleteControls.map DeferredControlRecord.contentId).Nodup) .invalidTransition
  forEach (fun control => rejectIf (s.controls.lookup control.contentId ≠ some control)
    .invalidTransition) plan.deleteControls

/-- The accounts with a receiver chain in a group, `group_chains`. -/
def Store.chainPeers (group : Octets 32) : List (Octets 32) :=
  (s.chains.entries.filter fun row => row.1.1 = group).map fun row => row.1.2

def removesChain (group peer : Octets 32) : Prop :=
  ∃ t ∈ plan.chains, t.group = group ∧ t.peer = peer ∧ t.after = none

instance (group peer : Octets 32) : Decidable (removesChain plan group peer) :=
  inferInstanceAs (Decidable (∃ t ∈ plan.chains, t.group = group ∧ t.peer = peer ∧ t.after = none))

/-- The chains that stay must be of members; a deleted group takes all its chains and its authority
with it. -/
def checkFinalGroup (t : GroupStateTransition) : Except StoreError Unit :=
  let id := t.key GroupRecord.id
  match t.after with
  | some final =>
    forEach (fun peer => rejectIf (¬ removesChain plan id peer ∧ ¬ final.listed peer)
      .invalidTransition) (s.chainPeers id)
  | none => do
    let deleted := ((plan.chains.filter fun c => c.group = id ∧ c.after = none).map
      GroupChainStateTransition.peer).dedup
    rejectIf (deleted.length ≠ (s.chainPeers id).length ∨
      (∃ peer ∈ s.chainPeers id, peer ∉ deleted) ∨
      ∃ c ∈ plan.chains, c.group = id ∧ c.after ≠ none) .invalidTransition
    let deleteAuthority := plan.authorities.find? fun a =>
      (∃ before ∈ a.before, before.group = id) ∧ a.after = none
    rejectIf ((s.authorities.lookup id).isSome ≠ deleteAuthority.isSome) .invalidTransition

/-- The group a chain will belong to. -/
def finalGroup (group : Octets 32) : Option GroupRecord :=
  (plan.groups.findSome? fun t => t.after.filter fun g => g.id = group).or (s.groups.lookup group)

def checkFinalChain (t : GroupChainStateTransition) : Except StoreError Unit :=
  match t.after with
  | none => .ok ()
  | some _ => do
    let group ← required .invalidTransition (finalGroup s plan t.group)
    rejectIf (¬ group.listed t.peer) .invalidTransition

def checkFinalAuthority (t : GroupAuthorityStateTransition) : Except StoreError Unit :=
  match t.after with
  | none => .ok ()
  | some authority =>
    rejectIf (¬ ((∃ g ∈ plan.groups, ∃ after ∈ g.after, after.id = authority.group) ∨
      (∀ g ∈ plan.groups, ∀ before ∈ g.before, before.id ≠ authority.group) ∧
        (s.groups.lookup authority.group).isSome = true)) .invalidTransition

def validateGroupState : Except StoreError Unit := do
  let count := plan.groups.length + plan.chains.length + plan.contacts.length +
    plan.authorities.length + plan.deleteControls.length
  rejectIf (count = 0 ∨ count > maxGroupStateMutations) .maintenanceBounds
  checkGroups s plan
  checkGroupLimit s plan
  checkChains s plan
  checkContacts s plan
  checkAuthorities s plan
  checkControls s plan
  forEach (checkFinalGroup s plan) plan.groups
  forEach (checkFinalChain s plan) plan.chains
  forEach (checkFinalAuthority s plan) plan.authorities

end Validation

/-! ### Writing -/

/-- The serialized form of each kind of row. -/
structure Codec where
  group : GroupRecord → Bytes
  contact : ContactRecord → Bytes
  authority : GroupAuthorityRecord → Bytes

def maxRecordBytes : ℕ := 16 * 1024 * 1024

/-- The length of a record with its key and index, `encode_record`. -/
def recordLen (key index payload : ℕ) : ℕ := 1 + 2 + key + 1 + index + payload

/-- Encoded lengths of the keys: a kind byte and one or two identifiers. -/
def idKeyLen : ℕ := 33
def memberKeyLen : ℕ := 65

/-- The group index of a chain row: a length and the encoded group key. -/
def chainIndexLen : ℕ := 2 + idKeyLen

section Writing

variable {κ α : Type} [DecidableEq κ]

def putEquality (len : α → ℕ) (table : HashMap κ α) (key : κ) (row : α) :
    Except StoreError (HashMap κ α) := do
  rejectIf (len row > maxRecordBytes) .recordBounds
  return table.insert key row

/-- A row must be there to be deleted. -/
def deleteEquality (table : HashMap κ α) (key : κ) : Except StoreError (HashMap κ α) := do
  rejectIf (table.lookup key = none) .invalidTransition
  return table.erase key

/-- Put the row after a change, or delete the one before it. -/
def writeRow (len : α → ℕ) (table : HashMap κ α) (c : Change κ α) :
    Except StoreError (HashMap κ α) :=
  match c.after with
  | some row => putEquality len table c.key row
  | none => deleteEquality table c.key

end Writing

variable (C : Codec)

def groupLen (group : GroupRecord) : ℕ := recordLen idKeyLen 0 (C.group group).length
def contactLen (contact : ContactRecord) : ℕ := recordLen idKeyLen 0 (C.contact contact).length
def authorityLen (authority : GroupAuthorityRecord) : ℕ :=
  recordLen idKeyLen 0 (C.authority authority).length
def chainLen (chain : Bytes) : ℕ := recordLen memberKeyLen chainIndexLen chain.length

/-- `put_group`, which refuses a new group in a full profile, or the deletion of a group. -/
def writeGroup (table : HashMap (Octets 32) GroupRecord) (c : Change (Octets 32) GroupRecord) :
    Except StoreError (HashMap (Octets 32) GroupRecord) := do
  rejectIf (c.after ≠ none ∧ table.lookup c.key = none ∧ maxProfileGroups ≤ HashMap.len table)
    .groupLimit
  writeRow (groupLen C) table c

variable (plan : GroupStatePlan)

def GroupStatePlan.groupChanges : List (Change (Octets 32) GroupRecord) :=
  plan.groups.map fun t => ⟨t.key GroupRecord.id, t.before, t.after⟩

def GroupStatePlan.chainChanges : List (Change (Octets 32 × Octets 32) Bytes) :=
  plan.chains.map fun t => ⟨(t.group, t.peer), t.before, t.after⟩

def GroupStatePlan.contactChanges : List (Change (Octets 32) ContactRecord) :=
  plan.contacts.map fun t => ⟨t.after.peer, t.before, some t.after⟩

def GroupStatePlan.authorityChanges : List (Change (Octets 32) GroupAuthorityRecord) :=
  plan.authorities.map fun t => ⟨t.key GroupAuthorityRecord.group, t.before, t.after⟩

def GroupStatePlan.controlChanges : List (Change (Octets 16) DeferredControlRecord) :=
  plan.deleteControls.map fun control => ⟨control.contentId, some control, none⟩

/-- The writer: contacts, groups, chains, authorities, controls, and the presentation marker. -/
def writeGroupState (transactionId : Octets 16) (s : Store) : Except StoreError Store := do
  let contacts ← plan.contactChanges.foldlM (writeRow (contactLen C)) s.contacts
  let groups ← plan.groupChanges.foldlM (writeGroup C) s.groups
  let chains ← plan.chainChanges.foldlM (writeRow chainLen) s.chains
  let authorities ← plan.authorityChanges.foldlM (writeRow (authorityLen C)) s.authorities
  let controls ← plan.controlChanges.foldlM (writeRow fun _ => 0) s.controls
  return {
    groups, chains, contacts, authorities, controls
    presentationMarker := if plan.presentationChanged then some transactionId else
      s.presentationMarker }

/-- `commit_plan` on a group-state plan.  A failure leaves the store as it was. -/
def commitPlan (transactionId : Octets 16) (s : Store) : Store × Except StoreError Unit :=
  match (validateGroupState s plan).bind fun _ => writeGroupState C plan transactionId s with
  | .ok s' => (s', .ok ())
  | .error e => (s, .error e)

end Komms.GroupState
