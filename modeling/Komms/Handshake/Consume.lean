import Komms.Handshake.Plan

/-!
# Consuming a handshake

`consume_handshake` of `kult-node/src/lib.rs` as a whole, with the check of the sender's manifest
against the manifests on record, and the pass over the pending inbox that calls it.
-/

namespace Komms.Handshake

open DeviceAuthority (Manifest Relation)

def maxDeviceAuthorityConflicts : ℕ := 16

variable {Session : Type} [DecidableEq Session] (E : Env Session)

/-! ### The manifest on record -/

/-- What a relation to an accepted manifest is refused with. -/
def relationError : Relation → Option NodeError
  | .same | .descendant | .recoverySupersedes => none
  | .stale => some .invalidDeviceManifest
  | .oldEpoch => some .oldDeviceAuthorityEpoch
  | .fork => some .deviceAuthorityFork
  | .recoveryConflict => some .deviceRecoveryConflict

/-- How a manifest relates to the one stored with a device. -/
def relationTo (manifest : Manifest) (row : ContactDeviceRecord) :
    Except NodeError (Manifest × Relation) := do
  let accepted ← (Manifest.decode E.group.suite E.group.postcard.manifest row.authority).mapError
    fun _ => .corruptState
  let relation ← (accepted.relation E.group.suite manifest).mapError .crypto
  .ok (accepted, relation)

def validateContactDeviceManifest (s : Store Session) (manifest : Manifest) :
    Except NodeError Unit := do
  (manifest.verify E.group.suite).mapError .crypto
  forEach (fun row => do
    let (_, relation) ← relationTo E manifest row
    match relationError relation with
    | none => .ok ()
    | some e => .error e)
    (s.contactDevices.filter fun row =>
      manifest.account?.map IdentityPublic.ed = some row.account && row.authority ≠ [])

/-- `record_contact_authority_conflict`: retain the conflict and clear the verification mark. -/
def recordContactAuthorityConflict (s : Store Session) (conflict : ContactAuthorityConflict) :
    Except StoreError (Store Session) := do
  rejectIf (conflict.account = .zero 32 ∨ conflict.acceptedState = .zero 32 ∨
    conflict.conflictingState = .zero 32 ∨ conflict.acceptedState = conflict.conflictingState)
    .localMetadataBounds
  let contact ← required .invalidTransition (s.contacts conflict.account)
  let duplicate := s.conflicts.any fun prior => prior.account = conflict.account &&
    prior.kind = conflict.kind && prior.acceptedState = conflict.acceptedState &&
    prior.conflictingState = conflict.conflictingState
  let kept := if s.conflicts.length = maxDeviceAuthorityConflicts then s.conflicts.tail
    else s.conflicts
  .ok { s with
    conflicts := if duplicate then s.conflicts else kept ++ [conflict]
    contacts := Function.update s.contacts conflict.account
      (some { contact with verified := false }) }

/-- The first accepted state that the manifest conflicts with. -/
def conflictingState (manifest : Manifest) (conflict : Relation) :
    List ContactDeviceRecord → Except NodeError (Octets 32)
  | [] => .error .corruptState
  | row :: rows => do
    let (accepted, relation) ← relationTo E manifest row
    if relation = conflict then .ok (accepted.stateId E.group.suite)
    else conflictingState manifest conflict rows

variable (node : Node Session)

/-- Keep a conflict visible, and refuse. -/
def reportConflict (manifest : Manifest) (observedAt : UInt64) (kind : DeviceAuthorityConflictKind)
    (conflict : Relation) (e : NodeError) : Effect (Node Session) NodeError Unit :=
  let account := (manifest.account?.map IdentityPublic.ed).getD (.zero 32)
  (Effect.ofExcept node do
    let acceptedState ← conflictingState E manifest conflict
      ((node.store.contactDevicesFor account).filter fun row => row.authority ≠ [])
    let store ← (recordContactAuthorityConflict node.store
      { account
        kind
        acceptedState
        conflictingState := manifest.stateId E.group.suite
        recoveryEpoch := manifest.recoveryEpoch
        observedAt }).mapError .store
    .ok ({ node with store }, ())).andThen fun node _ => ⟨node, .error e⟩

def validateContactDeviceManifestVisible (manifest : Manifest) (observedAt : UInt64) :
    Effect (Node Session) NodeError Unit :=
  match validateContactDeviceManifest E node.store manifest with
  | .ok () => ⟨node, .ok ()⟩
  | .error .deviceAuthorityFork =>
    reportConflict E node manifest observedAt .fork .fork .deviceAuthorityFork
  | .error .deviceRecoveryConflict =>
    reportConflict E node manifest observedAt .recovery .recoveryConflict .deviceRecoveryConflict
  | .error e => ⟨node, .error e⟩

/-! ### Consuming -/

inductive Consumed where
  | done
  | doneAtomic
  | rejectedAtomic
  | later
  deriving DecidableEq, Repr

def commitTerminalInput (r : Received) : Effect (Node Session) NodeError Consumed :=
  .ofExcept node do
    let store ← (commitMaintenance E node.store (E.contentId r.envelope)
      (pendingDelete E r)).mapError .store
    .ok ({ node with store }, .rejectedAtomic)

def stopped (r : Received) : Stop → Effect (Node Session) NodeError Consumed
  | .later => ⟨node, .ok .later⟩
  | .terminal => commitTerminalInput E node r

/-- Stage a first-contact request; a full table drops it. -/
def stageRequest (f : Flight Session) (r : Received) : Effect (Node Session) NodeError Consumed :=
  match prepareRequest E node f r with
  | .error stop => stopped E node r stop
  | .ok plan =>
    match commitAdmissionStage E node.store plan with
    | .ok store =>
      ⟨{ node with
        store
        vault := if f.vaultChanged then f.candidateVault node.vault else node.vault
        budgets := { node.budgets with notifications := node.budgets.notifications - 1 } },
        .ok .doneAtomic⟩
    | .error .admissionQuota => commitTerminalInput E node r
    | .error e => ⟨node, .error (.store e)⟩

def receiveHandshake (d : Draws) (node : Node Session) (f : Flight Session) (r : Received) :
    Effect (Node Session) NodeError Consumed :=
  match prepareReceive E d node f r with
  | .error (.stop stop) => stopped E node r stop
  | .error (.fail e) => ⟨node, .error e⟩
  | .ok plan =>
    match commitHandshakeReceive E node.store plan with
    | .ok store =>
      ⟨{ node with
        store
        vault := if f.vaultChanged then f.candidateVault node.vault else node.vault },
        .ok .doneAtomic⟩
    | .error e => ⟨node, .error (.store e)⟩

/-- The manifest of a flight that brings one. -/
def checkManifest (f : Flight Session) (r : Received) : Effect (Node Session) NodeError Unit :=
  match f.opened.deviceBundle with
  | some bundle => validateContactDeviceManifestVisible E node bundle.manifest r.now
  | none => ⟨node, .ok ()⟩

/-- What follows when the flight is read. -/
def takeFlight (d : Draws) (node : Node Session) (f : Flight Session) (r : Received) :
    Effect (Node Session) NodeError Consumed :=
  (checkManifest E node f r).andThen fun node _ =>
    if f.contact.isNone then stageRequest E node f r else receiveHandshake E d node f r

def consumeHandshake (d : Draws) (node : Node Session) (r : Received) :
    Effect (Node Session) NodeError Consumed :=
  let read := readFlight E node r.envelope r.transport r.late r.now d.ratchetKey
  match read.result with
  | .error stop => stopped E read.state r stop
  | .ok f => takeFlight E d read.state f r

/-! ### The receive loop -/

/-- One pass of `tick` over handshakes: an error ends the pass. -/
def receivePass : List (Draws × Received) → Node Session → Effect (Node Session) NodeError Unit :=
  Effect.forEach fun work node =>
    (consumeHandshake E work.1 node work.2).andThen fun node _ => ⟨node, .ok ()⟩

end Komms.Handshake
