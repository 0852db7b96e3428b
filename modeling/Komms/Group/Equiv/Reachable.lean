import Komms.DeviceAuthority.Equiv.History
import Komms.Group.Equiv.Preservation

/-!
# Agreement over whole runs

From a store in agreement, through any controls and local operations in any order that do not
rewrite a signed group without its authority, every store reached is in agreement, and every signed
announce that `tick_groups` builds from it verifies at its receiver (`agreement_of_reachable`).

In such a run the roster of a signed group has its owner's signature (`roster_signed_of_reachable`).
`leave_breaks_agreement` runs the departure of a member from a signed group.
-/

namespace Komms.Group

open GroupAuthority List Option

variable {E : Env} {s s' s₀ : Store}

/-! ### Runs -/

/-- The call does not rewrite a signed group without its authority. -/
def Operation.Safe (E : Env) (s : Store) : Operation → Prop
  | control c _ _ _ => KeepsSigned E s c
  | _ => True

theorem agreement_run (h : Agreement E s) {op : Operation} (hsafe : op.Safe E s) :
    Agreement E (op.run E s) := by
  cases op with
  | control c now accept d => exact agreement_applyGroupControl h hsafe
  | upgrade group d =>
    exact Effect.ofExcept_state h fun _ _ => agreement_groupUpgradeAuthority h
  | rename group name now d d' => exact agreement_groupRename h
  | setRole group peer role d d' => exact agreement_groupSetRole h
  | transfer group newOwner d d' => exact agreement_groupTransferOwner h
  | add group peer now d d' => exact agreement_groupAdd h
  | remove group peer now d d' => exact agreement_groupRemove h

/-- The stores that safe calls lead to. -/
inductive Reachable (E : Env) (s₀ : Store) : Store → Prop where
  | start : Reachable E s₀ s₀
  | step {s : Store} (op : Operation) : Reachable E s₀ s → op.Safe E s →
      Reachable E s₀ (op.run E s)

theorem agreement_of_steps (h₀ : Agreement E s₀) (hrun : Reachable E s₀ s) : Agreement E s := by
  induction hrun with
  | start => exact h₀
  | step op _ hsafe ih => exact agreement_run ih hsafe

/-! ### What the node announces -/

/-- The announce verifies at its receiver: the state is about the group and signed, and the secret
that comes with it is the one the state names. -/
def VerifiesAtReceiver (E : Env) (a : GroupAuthorityAnnounce) : Prop :=
  ∃ state, decodeGroupAuthority a.statePayload = .state state ∧ state.group = a.group ∧
    verifyAuthorityState E.suite E.postcard state (some a.secret) = .ok ()

theorem verifiesAtReceiver_of_agreement (h : Agreement E s) {group : Octets 32} {rec : GroupRecord}
    (hrec : s.groups group = some rec) {payload : GroupControlPayload}
    (hbuild : payload ∈ builtAnnounces E s rec) {a : GroupAuthorityAnnounce}
    (hsig : payload.signed? = some a) : VerifiesAtReceiver E a := by
  obtain rfl := h.keyed group rec hrec
  have hann : ∃ record chain, s.authorities rec.id = some record ∧
      a = signedAnnounce rec record chain := by
    unfold builtAnnounces at hbuild
    split at hbuild
    all_goals
      obtain ⟨_, -, rfl⟩ := mem_map.mp hbuild
      simp only [announceFor, originAnnounceFor] at hsig
      split at hsig
      · next record hrecord => exact ⟨record, _, hrecord, (some.inj hsig).symm⟩
      · cases hsig
  obtain ⟨record, chain, hrecord, rfl⟩ := hann
  obtain ⟨rec', hrec', hkey, state, hsto, -, -, -, -, hver⟩ := h.agree rec.id record hrecord
  obtain rfl : rec' = rec := some.inj (hrec'.symm.trans hrec)
  obtain ⟨hdec, hgrp⟩ := decodeStored_eq_ok_iff.mp hsto
  exact ⟨state, hdec, hgrp.trans hkey, hver⟩

/-- **Signed authority and group record agree**: in every store that a run of safe calls reaches,
each authority record has a group record with the same secret, generation, owner and roster, and
each signed announce built from them verifies at its receiver. -/
theorem agreement_of_reachable (h₀ : Agreement E s₀) (hrun : Reachable E s₀ s) :
    Agreement E s ∧ ∀ group rec, s.groups group = some rec → ∀ payload ∈ builtAnnounces E s rec,
      ∀ a, payload.signed? = some a → VerifiesAtReceiver E a := by
  have h := agreement_of_steps h₀ hrun
  exact ⟨h, fun _ _ hrec _ hbuild _ => verifiesAtReceiver_of_agreement h hrec hbuild⟩

/-- **A roster has the owner's signature.**  In every store that a run of safe calls reaches, the
roster of a signed group is that of the stored state, which was signed for its owner, or for the
previous owner where it hands the group over, on bytes that say this state and no other. -/
theorem roster_signed_of_reachable {log : Octets 32 → SignatureDomain → Bytes → Prop}
    (hS : E.suite.Unforgeable log) (h₀ : Agreement E s₀) (hrun : Reachable E s₀ s)
    {group : Octets 32} {record : GroupAuthorityRecord} (hrec : s.authorities group = some record) :
    ∃ rec state bytes, s.groups group = some rec ∧ decodeStored record = .ok state ∧
      rec.members = stateMembers state ∧ SignerRule state ∧
      OnBehalf E.suite log state.signer .groupAuthorityState bytes ∧
      groupAuthorityStateSigningBytes state = .ok bytes ∧
      ∀ other, groupAuthorityStateSigningBytes other = .ok bytes →
        other.unsigned = state.unsigned := by
  obtain ⟨rec, hgrp, -, state, hsto, -, -, -, hmem, hver⟩ :=
    (agreement_of_steps h₀ hrun).agree group record hrec
  have hval := validateState_valid (decodeGroupAuthority_valid (decodeStored_eq_ok_iff.mp hsto).1)
  simp only [verifyAuthorityState, bind_eq_ok_iff, mapError_eq_ok_iff] at hver
  obtain ⟨bytes, hsig, ⟨⟩, hst, -⟩ := hver
  exact ⟨rec, state, bytes, hgrp, hsto, hmem, hval.signer, onBehalf_of_verifyStateSignature hS hst,
    hsig, fun _ => signingBytes_unique hsig⟩

/-! ### A node -/

namespace Sample

open DeviceAuthority (Manifest)
open DeviceAuthority.Sample (keys id16)
open GroupAuthority.Sample (peer identity)

/-- A hash that keeps the first bytes, in a suite that accepts every signature. -/
def suite : Suite :=
  .ofSigned (fun _ _ => true) fun bytes => (Octets.ofBytes? 32 (bytes.take 32)).getD (peer 1)

theorem valid_name : validUtf8 [0x61] = true := by decide

/-- Account `b` and its manifest are encoded by that byte; its one device is `b + 100`. -/
def postcard : Postcard where
  identity := fun bytes => bytes.head?.map identity
  manifest := fun bytes => do
    let b ← bytes.head?
    let manifest ← (Manifest.initial suite keys ⟨b, b⟩ ⟨b + 100, b + 100⟩
      ⟨[0x61], valid_name⟩ 10 id16 id16).toOption
    some (manifest, bytes.tail)

def manifestBytes (b : UInt8) : Bytes := DeviceAuthority.authorityMagic ++ [b]

/-- The node of account `me`; the body of a control is the position of its payload. -/
def env (me : UInt8) (payloads : List GroupControlPayload) : Env where
  suite := suite
  postcard := postcard
  control := fun body => body.head?.bind fun b => payloads[b.toNat]?
  encodeControl := fun _ => []
  me := peer me
  deviceId := peer (me + 100)
  manifest := manifestBytes me
  sign := fun _ _ => .zero 64
  nextChainKey := fun key => key
  opensSession := fun _ _ _ => false
  admits := fun _ _ => true
  overflowChecks := false

def draws : Draws where
  secret := peer 6
  id := fun k => .replicate 16 (UInt8.ofNat (k + 40))
  closeId := fun k => .replicate 16 (UInt8.ofNat (k + 80))
  keyId := fun k => .replicate 16 (UInt8.ofNat (k + 120))
  chainKey := fun k => peer (UInt8.ofNat (k + 120))
  originKey := fun _ _ _ => peer 4
  originKey_ne := fun _ _ _ => by decide

def emptyStore : Store where
  groups := fun _ => none
  authorities := fun _ => none
  chains := fun _ _ => none
  contacts := fun _ => none
  contactDevices := []
  sessions := fun _ => false
  capabilities := fun _ => none
  blocked := fun _ => false
  messages := []
  controls := []

theorem valid_stateName : validUtf8 [0x67] = true := by decide

/-- Owner 1, admin 2 and member 3, signed with the account key. -/
def state : SignedState where
  version := legacyGroupAuthorityVersion
  group := peer 9
  generation := 7
  ownerEpoch := 0
  originalOwner := peer 1
  owner := peer 1
  signer := peer 1
  signerDevice := .zero 32
  signerAuthority := []
  priorStateId := .replicate 16 5
  name := ⟨[0x67], valid_stateName⟩
  members := [⟨peer 1, [1], .owner⟩, ⟨peer 2, [2], .admin⟩, ⟨peer 3, [3], .member⟩]
  secretHash := peer 5
  transfers := []
  signature := .zero 64

def statePayload : Bytes :=
  [state.version, opState, 0, 0] ++ state.fieldBytes ++ (Octets.zero 64).toBytes

def announce (stateId : UInt8) : GroupAuthorityAnnounce where
  group := peer 9
  stateId := .replicate 16 stateId
  statePayload := statePayload
  secret := peer 5
  chain := ⟨.replicate 16 20, peer 20, 0⟩

/-- A control from the device of account `b` with the payload at a position. -/
def controlFrom (b position : UInt8) : DeferredControl where
  contentId := .replicate 16 position
  peer := peer b
  peerDevice := peer (b + 100)
  receivedAt := 0
  body := [position]

/-- Admin 2 invites the node with the signed state, then member 3 leaves. -/
def payloads : List GroupControlPayload := [.authorityAnnounce (announce 8), .leave (peer 9)]

/-- The user accepts the invitation. -/
def join : Operation := .control (controlFrom 2 0) 0 true draws

def leave : Operation := .control (controlFrom 3 1) 0 false draws

theorem safe_of_control_eq (h : E.control = (env 1 payloads).control) : join.Safe E emptyStore := by
  intro payload hpay
  rw [h] at hpay
  obtain rfl : GroupControlPayload.authorityAnnounce (announce 8) = payload :=
    Except.ok.inj ((by decide +kernel : GroupControlPayload.decode (env 1 payloads).control
      (controlFrom 2 0).body = .ok (.authorityAnnounce (announce 8))).symm.trans hpay)
  trivial

theorem join_safe : join.Safe (env 1 payloads) emptyStore := safe_of_control_eq rfl

theorem agreement_after_join :
    ∃ record, (join.run (env 1 payloads) emptyStore).authorities (peer 9) = some record ∧
      ∃ rec, (join.run (env 1 payloads) emptyStore).groups (peer 9) = some rec ∧
        RowsAgree (env 1 payloads) (peer 9) rec record := by
  have hrun : Reachable (env 1 payloads) emptyStore (join.run (env 1 payloads) emptyStore) :=
    .step join .start join_safe
  have hini : Agreement (env 1 payloads) emptyStore := ⟨nofun, nofun⟩
  have hagr := (agreement_of_reachable hini hrun).1
  have hsome : ((join.run (env 1 payloads) emptyStore).authorities (peer 9)).isSome = true := by
    decide +kernel
  obtain ⟨record, hrec⟩ := isSome_iff_exists.mp hsome
  exact ⟨record, hrec, hagr.agree (peer 9) record hrec⟩

/-- The members have signed for their keys, and the owner the state. -/
def signings : List (Octets 32 × SignatureDomain × Bytes) :=
  (peer 1, .groupAuthorityState, [state.version, opState, 0, 0] ++ state.fieldBytes) ::
    [1, 2, 3].map fun b => (peer b, .crossSign, (peer b).toBytes)

def signedEnv : Env := { env 1 payloads with suite := .ofLog signings suite.sha256 }

theorem roster_signed_after_join : ∃ record rec state bytes,
    (join.run signedEnv emptyStore).authorities (peer 9) = some record ∧
    (join.run signedEnv emptyStore).groups (peer 9) = some rec ∧
    rec.members = stateMembers state ∧ groupAuthorityStateSigningBytes state = .ok bytes := by
  have hsafe : join.Safe signedEnv emptyStore := safe_of_control_eq rfl
  have hini : Agreement signedEnv emptyStore := ⟨nofun, nofun⟩
  have hsome : ((join.run signedEnv emptyStore).authorities (peer 9)).isSome = true := by
    decide +kernel
  obtain ⟨record, hrec⟩ := isSome_iff_exists.mp hsome
  obtain ⟨rec, state, bytes, hgrp, -, hmem, -, -, hsig, -⟩ := roster_signed_of_reachable
    (Suite.ofLog_unforgeable signings _) hini (.step join .start hsafe) hrec
  exact ⟨record, rec, state, bytes, hrec, hgrp, hmem, hsig⟩

/-- The store after the invitation and the departure. -/
def left : Store := leave.run (env 1 payloads) (join.run (env 1 payloads) emptyStore)

/-- The record that the owner re-keyed for the remaining members. -/
def rekeyed : GroupRecord where
  id := peer 9
  name := state.name
  creator := peer 1
  members := [⟨peer 1, [1]⟩, ⟨peer 2, [2]⟩]
  secret := draws.secret
  prevSecret := some (peer 5)
  generation := 8
  senderChain := .legacy (draws.chain 0)
  sentSinceRotation := 0
  pending := [⟨peer 2, draws.chain 0, none, 0⟩]

/-- The authority record, still at the state before the departure. -/
def stale : GroupAuthorityRecord := ⟨peer 9, .replicate 16 8, statePayload, []⟩

theorem decode_statePayload : decodeGroupAuthority statePayload = .state state := by decide +kernel

/-- After a departure the secret, the generation and the roster of the group record differ from the
signed state, and what the owner announces to the members does not verify. -/
theorem leave_breaks_agreement :
    left.groups (peer 9) = some rekeyed ∧ left.authorities (peer 9) = some stale ∧
      ¬ Agreement (env 1 payloads) left ∧
      ∃ payload ∈ builtAnnounces (env 1 payloads) left rekeyed, ∃ a, payload.signed? = some a ∧
        ¬ VerifiesAtReceiver (env 1 payloads) a := by
  have hrow : left.groups (peer 9) = some rekeyed := by decide +kernel
  have hauth : left.authorities (peer 9) = some stale := by decide +kernel
  have hbuild : builtAnnounces (env 1 payloads) left rekeyed =
      [.authorityAnnounce (signedAnnounce rekeyed stale (draws.chain 0))] := by decide +kernel
  refine ⟨hrow, hauth, fun hagr => ?_, ⟨_, hbuild ▸ mem_singleton_self _, _, rfl, ?_⟩⟩
  · obtain ⟨rec, hrec, -, state', hsto, -, hgen, -⟩ :=
      hagr.agree (peer 9) stale hauth
    obtain rfl : rekeyed = rec := some.inj (hrow.symm.trans hrec)
    obtain rfl : state = state' := DecodedGroupAuthority.state.inj
      (decode_statePayload.symm.trans (decodeStored_eq_ok_iff.mp hsto).1)
    exact absurd hgen (by decide)
  · -- the announce carries the old state with the new secret
    rintro ⟨state', hdec, -, hver⟩
    obtain rfl : state = state' :=
      DecodedGroupAuthority.state.inj (decode_statePayload.symm.trans hdec)
    exact absurd hver (by decide +kernel)

end Sample

end Komms.Group
