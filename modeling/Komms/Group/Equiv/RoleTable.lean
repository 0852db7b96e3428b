import Komms.Group.Equiv.Convergence

/-!
# The role table and admin requests

An admin may rename the group, add an ordinary member and remove an ordinary member (`AdminMay`).
The owner's side of a request checks the sender and the signature, and of a removal only that it
does not name the owner: a request keeps to the role table exactly when it does not remove an admin
(`role_table_iff`).
-/

namespace Komms.Group

open GroupAuthority List

section RoleTable

variable {E : Env} {s s' t : Store} {d : Draws} {peer : Octets 32} {request : GroupAdminRequest}
  {control : DeferredControl} {stored : GroupAuthorityRecord} {state : SignedState} {now : UInt64}

/-! ### Committed states -/

/-- The signed successor of an edited state. -/
structure Succeeds (edited signed : SignedState) : Prop where
  generation : checkedSucc edited.generation = some signed.generation
  group : signed.group = edited.group
  owner : signed.owner = edited.owner
  originalOwner : signed.originalOwner = edited.originalOwner
  transfers : signed.transfers = edited.transfers
  name : signed.name = edited.name
  members : signed.members = edited.members

variable {edited signed : SignedState} {record : GroupAuthorityRecord}

theorem commitNext_eq_ok {request? : Option (Octets 16)} {id : Octets 16}
    (h : commitNext E s d stored edited request? = .ok (t, id)) :
    ∃ record signed, Accepts t edited.group record signed ∧ Succeeds edited signed := by
  obtain ⟨_, hnext, hcom⟩ := bind_eq_ok_iff.mp h
  simp only [prepareNextState, bind_eq_ok_iff, required_eq_ok_iff, Except.ok.injEq] at hnext
  obtain ⟨_, hgen, rfl⟩ := hnext
  obtain ⟨signed, hsig, hcommit⟩ := commitAuthorityState_eq_ok hcom
  obtain ⟨payload, consumed, hdec, hauth⟩ := hcommit.authority
  have hsucc : Succeeds edited signed := by
    obtain ⟨_, rfl⟩ := hsig
    exact ⟨hgen, rfl, rfl, rfl, rfl, rfl, rfl⟩
  refine ⟨⟨signed.group, id, payload, consumed⟩, signed, ⟨?_, ?_⟩, hsucc⟩
  · rw [hauth, ← hsucc.group, Function.update_self]
  · exact decodeStored_eq_ok_iff.mpr ⟨hdec, rfl⟩

/-- The state that is accepted after a performed action: the old one, its successor when a poll was
moderated, or the successor of an edited one. -/
theorem Performed.accepts (hsto : Accepts s request.group stored state)
    (hgrp : state.group = request.group) (h : Performed E s d request stored state t) :
    ∃ record next, Accepts t request.group record next ∧ (next = state ∨ Succeeds state next ∨
      ∃ edited t' id, AdminEdit request state edited ∧
        commitNext E s d stored edited (some request.requestId) = .ok (t', id) ∧
        Succeeds edited next) := by
  induction h with
  | kept => exact ⟨stored, state, hsto, .inl rfl⟩
  | committed hedit hcom =>
    obtain ⟨record, signed, hsig, hsucc⟩ := commitNext_eq_ok hcom
    rw [hedit.group_eq, hgrp] at hsig
    exact ⟨record, signed, hsig, .inr (.inr ⟨_, _, _, hedit, hcom, hsucc⟩)⟩
  | advanced _ _ hcom =>
    obtain ⟨record, signed, hsig, hsucc⟩ := commitNext_eq_ok hcom
    rw [hgrp] at hsig
    exact ⟨record, signed, hsig, .inr (.inl hsucc)⟩
  | closed _ _ _ hclose ih =>
    obtain ⟨record, next, hnext, hcas⟩ := ih
    have hsame := (commitGroupPollModeratedClose_eq_ok hclose).authorities
    exact ⟨record, next, hnext.congr hsame, hcas⟩

theorem decodeStored_congr {record' : GroupAuthorityRecord}
    (h : record.accepted = record'.accepted) : decodeStored record = decodeStored record' := by
  simp only [GroupAuthorityRecord.accepted, Prod.mk.injEq] at h
  rw [decodeStored, decodeStored, h.1, h.2.2]

theorem Accepts.of_view {group : Octets 32} (h : Accepts s group record state)
    (hview : SameView group s s') :
    ∃ record', Accepts s' group record' state := by
  have hacc := hview.accepted
  rw [h.1, Option.map_some, Option.map_eq_some_iff] at hacc
  obtain ⟨record', hrec', hacc⟩ := hacc
  exact ⟨record', hrec', (decodeStored_congr hacc).trans h.2⟩

/-! ### The role table -/

/-- What the role table lets an admin change: the name, one more ordinary member, or one ordinary
member fewer. -/
structure AdminMay (old new : SignedState) : Prop where
  owner : new.owner = old.owner
  originalOwner : new.originalOwner = old.originalOwner
  transfers : new.transfers = old.transfers
  change : new.members = old.members ∨
    (new.name = old.name ∧ ∃ m : Member, m.role = .member ∧ lists old m.peer = false ∧
      new.members.Perm (old.members ++ [m])) ∨
    (new.name = old.name ∧ ∃ m ∈ old.members, m.role = .member ∧
      new.members = old.members.filter fun m' => m'.peer ≠ m.peer)

/-- If the call replaced the accepted state, its sender was an admin, the request was signed by an
authorized device of the sender, and the new state is one an admin may ask for. -/
def KeepsRoleTable (E : Env) (s s' : Store) (peer device : Octets 32) (request : GroupAdminRequest)
    (state : SignedState) : Prop :=
  ∀ record next, Accepts s' request.group record next → next ≠ state →
    hasRole state peer .admin = true ∧ contactDeviceAuthorizes E s peer device = true ∧
      requestVerifies E device request = true ∧ AdminMay state next

/-- The request asks to remove an admin, its sender may make requests, and the state without that
admin can be committed. -/
structure RemovesAdmin (E : Env) (s : Store) (d : Draws) (peer : Octets 32)
    (request : GroupAdminRequest) (control : DeferredControl) (stored : GroupAuthorityRecord)
    (state : SignedState) : Prop where
  actionable : Actionable E s peer request control stored state
  removal : ∃ removed, request.action = .remove removed ∧ hasRole state removed .admin = true ∧
    ∃ t id, commitNext E s d stored (excluded state removed) (some request.requestId) = .ok (t, id)

theorem exists_of_hasRole {role : GroupRole} (h : hasRole state peer role = true) :
    ∃ m ∈ state.members, m.peer = peer ∧ m.role = role := by
  simpa [hasRole] using h

/-- Every edit but the removal of an admin is in the role table. -/
theorem adminMay_of_edit (hval : state.Valid) (hedit : AdminEdit request state edited)
    (hrem : ∀ removed, request.action = .remove removed → edited = excluded state removed →
      hasRole state removed .admin = false) (hsucc : Succeeds edited signed) :
    AdminMay state signed := by
  cases hedit with
  | rename name _ =>
    exact ⟨hsucc.owner, hsucc.originalOwner, hsucc.transfers, .inl hsucc.members⟩
  | invite member _ hls =>
    refine ⟨hsucc.owner, hsucc.originalOwner, hsucc.transfers,
      .inr (.inl ⟨hsucc.name, ⟨member.peer, member.identity, .member⟩, rfl, hls, ?_⟩)⟩
    rw [hsucc.members]
    exact perm_insertionSort _ _
  | remove removed hact hown hls =>
    obtain ⟨m, hm, rfl⟩ : ∃ m ∈ state.members, m.peer = removed := by simpa [lists] using hls
    refine ⟨hsucc.owner, hsucc.originalOwner, hsucc.transfers,
      .inr (.inr ⟨hsucc.name, m, hm, ?_, hsucc.members⟩)⟩
    -- The removed row is neither the owner's nor an admin's.
    have hadm : m.role ≠ .admin := by
      have hnone := hrem m.peer hact rfl
      simp only [hasRole, any_eq_false, Bool.and_eq_true, decide_eq_true_eq, not_and] at hnone
      exact hnone m hm rfl
    cases hrole : m.role with
    | owner => exact absurd (hval.owner_rows m hm hrole) hown
    | admin => exact absurd hrole hadm
    | member => rfl

theorem not_adminMay_of_removal {removed : Octets 32} (hval : state.Valid)
    (hadm : hasRole state removed .admin = true)
    (hsucc : Succeeds (excluded state removed) signed) : ¬ AdminMay state signed := by
  obtain ⟨admin, hadmin_mem, rfl, hrole⟩ := exists_of_hasRole hadm
  have hgone : admin ∉ signed.members := by
    rw [hsucc.members]
    simp [excluded]
  have hmem : signed.members = state.members.filter fun m => m.peer ≠ admin.peer :=
    hsucc.members
  intro hmay
  obtain hsame | ⟨-, m, -, -, hperm⟩ | ⟨-, m, hm, hmember, hfil⟩ := hmay.change
  · exact hgone (hsame ▸ hadmin_mem)
  · exact hgone (hperm.mem_iff.mpr (mem_append_left _ hadmin_mem))
  · -- The only row that is gone is the admin's, which is not an ordinary member's.
    by_cases hpeer : m.peer = admin.peer
    · obtain rfl := hval.row_unique hm hadmin_mem hpeer
      rw [hrole] at hmember
      cases hmember
    · have hkept : m ∈ signed.members := by
        rw [hmem]
        exact mem_filter.mpr ⟨hm, by simpa using hpeer⟩
      rw [hfil] at hkept
      simp at hkept

/-- **Admin requests and the role table**: a request to the owner keeps to the role table exactly
when it does not remove an admin. -/
theorem role_table_iff (hstored : s.authorities request.group = some stored)
    (hkeyed : stored.group = request.group) (hstate : decodeStored stored = .ok state) :
    KeepsRoleTable E s (applyGroupAdminRequest E s d peer request control now).state peer
        control.peerDevice request state ↔
      ¬ RemovesAdmin E s d peer request control stored state := by
  obtain ⟨hdec, hgrp⟩ := decodeStored_eq_ok_iff.mp hstate
  have hval : state.Valid := validateState_valid (decodeGroupAuthority_valid hdec)
  have hacc : Accepts s request.group stored state := ⟨hstored, hstate⟩
  have hgrp' : state.group = request.group := hgrp.trans hkeyed
  constructor
  · rintro hkeep ⟨hact, removed, hrem, hadm, t, id, hcom⟩
    obtain ⟨admin, hadmin_mem, rfl, hrole⟩ := exists_of_hasRole hadm
    have hown : admin.peer ≠ state.owner := fun heq => by
      -- The owner's row is the one with the owner's role.
      have hone := hval.one_owner
      obtain ⟨m, hm, hm'⟩ := mem_map.mp (hone ▸ mem_singleton_self state.owner)
      obtain ⟨hm, hm_role⟩ := mem_filter.mp hm
      obtain rfl := hval.row_unique hadmin_mem hm (heq.trans hm'.symm)
      simp [hrole] at hm_role
    have hls : lists state admin.peer = true := by
      simp only [lists, any_eq_true, decide_eq_true_eq]
      exact ⟨admin, hadmin_mem, rfl⟩
    have hview := (performAdminAction_remove hrem hown hls hcom now).view.trans
      (applyGroupAdminRequest_of_authorized hstored hstate hact)
    obtain ⟨record, signed, hsig, hsucc⟩ := commitNext_eq_ok hcom
    have hsig' : Accepts t request.group record signed := by
      rwa [show (excluded state admin.peer).group = request.group from hgrp'] at hsig
    obtain ⟨record', hrec'⟩ := hsig'.of_view hview
    have hne : signed ≠ state := fun heq => by
      have hmem := hsucc.members
      rw [heq] at hmem
      have : admin ∈ (excluded state admin.peer).members := hmem ▸ hadmin_mem
      simp [excluded] at this
    exact not_adminMay_of_removal hval hadm hsucc (hkeep record' signed hrec' hne).2.2.2
  · intro hremove record next hnext hne
    by_cases hact : Actionable E s peer request control stored state
    · obtain ⟨t, hper, hrows⟩ := performAdminAction_performed (d := d) hstored hstate now
      have hview' := hrows.view.trans (applyGroupAdminRequest_of_authorized hstored hstate hact)
      have hauth := hact.2
      simp only [adminAuthorized, Bool.and_eq_true] at hauth
      obtain ⟨⟨⟨⟨-, -⟩, hadm⟩, hdev⟩, hver⟩ := hauth
      refine ⟨hadm, hdev, hver, ?_⟩
      obtain ⟨_, _, hper, hcas⟩ := hper.accepts hacc hgrp'
      obtain ⟨_, hview'⟩ := hper.of_view hview'
      obtain rfl := (hnext.unique hview').2
      obtain rfl | hsucc | ⟨edited, t', id, hedit, hcom, hsucc⟩ := hcas
      · exact absurd rfl hne
      · exact ⟨hsucc.owner, hsucc.originalOwner, hsucc.transfers, .inl hsucc.members⟩
      · refine adminMay_of_edit hval hedit (fun removed hrem hedited => ?_) hsucc
        by_contra hadm
        exact hremove ⟨hact, removed, hrem, by simpa using hadm, t', id, hedited ▸ hcom⟩
    · obtain ⟨_, hrec'⟩ :=
        hacc.of_view (applyGroupAdminRequest_of_idle hstored hstate hact)
      exact absurd (hnext.unique hrec').2 hne

end RoleTable

namespace Sample

open GroupAuthority.Sample (peer)

/-- Owner 1 and the admins 2 and 3. -/
def admins : SignedState :=
  { state with members := [⟨peer 1, [1], .owner⟩, ⟨peer 2, [2], .admin⟩, ⟨peer 3, [3], .admin⟩] }

def adminsRecord : GroupAuthorityRecord where
  group := peer 9
  stateId := .replicate 16 8
  statePayload :=
    [admins.version, opState, 0, 0] ++ admins.fieldBytes ++ (Octets.zero 64).toBytes
  consumedRequests := []

/-- What account `b` was given of the owner's sending epoch, and has acknowledged. -/
def outgoing (b : UInt8) : OutgoingOrigin where
  recipientAccount := peer b
  recipientDevice := peer (b + 100)
  chain := draws.chain 0
  originKey := peer 4
  wireId := some (.replicate 16 1)
  lastSent := 0
  acknowledged := true

/-- How the owner reads account `b`. -/
def incoming (b : UInt8) : DeviceChain where
  device := peer (b + 100)
  chain := ⟨.replicate 16 b, peer b, 0⟩
  originKey := some (peer 4)
  recipientDevice := peer 101
  originGeneration := 1
  originAnnounceDigest := peer 1

def adminsRow : GroupRecord where
  id := peer 9
  name := admins.name
  creator := peer 1
  members := stateMembers admins
  secret := peer 5
  prevSecret := none
  generation := 7
  senderChain := .origin ⟨1, draws.chain 0, [outgoing 2, outgoing 3]⟩
  sentSinceRotation := 0
  pending := []

def device (b : UInt8) : ContactDevice :=
  ⟨peer b, peer (b + 100), manifestBytes b, [], 0, none⟩

/-- The owner's store, with every device of the roster authenticated. -/
def ownerStore (messages : List GroupMessage) : Store where
  groups := fun group => if group = peer 9 then some adminsRow else none
  authorities := fun group => if group = peer 9 then some adminsRecord else none
  chains := fun _ account =>
    if account = peer 2 then some [incoming 2]
    else if account = peer 3 then some [incoming 3] else none
  contacts := fun account =>
    if account = peer 2 then some ⟨[2], []⟩
    else if account = peer 3 then some ⟨[3], []⟩ else none
  contactDevices := [device 2, device 3]
  sessions := fun _ => true
  capabilities := fun _ => some [groupOriginCapability, groupAuthorityCapability]
  blocked := fun _ => false
  messages := messages
  controls := []

/-- A request of admin 2 at the current generation. -/
def request (action : GroupAdminAction) : GroupAdminRequest where
  requestId := .replicate 16 60
  group := peer 9
  baseGeneration := 7
  action := action
  signature := (Octets.zero 64).toBytes

def requested (action : GroupAdminAction) : Store :=
  (applyGroupAdminRequest (env 1 []) (ownerStore []) draws (peer 2) (request action)
    (controlFrom 2 0) 0).state

def acceptedField {β : Type} (f : SignedState → β) (s : Store) (group : Octets 32) : Option β :=
  (s.authorities group).bind fun record => (decodeStored record).toOption.map f

theorem accepts_of_acceptedField {β : Type} {f : SignedState → β} {s : Store} {group : Octets 32}
    {b : β} (h : acceptedField f s group = some b) :
    ∃ record next, Accepts s group record next ∧ f next = b := by
  simp only [acceptedField, Option.bind_eq_some_iff, Option.map_eq_some_iff] at h
  obtain ⟨record, hrec, next, hnext, hfields⟩ := h
  refine ⟨record, next, ⟨hrec, ?_⟩, hfields⟩
  cases hdec : decodeStored record with
  | error e => simp [hdec, Except.toOption] at hnext
  | ok decoded => simpa [hdec, Except.toOption] using hnext

def newName : Utf8 := ⟨[0x68], by decide⟩

/-- Admin 2 renames the group. -/
theorem rename_keeps_role_table :
    acceptedField SignedState.name (requested (.rename newName)) (peer 9) = some newName ∧
    KeepsRoleTable (env 1 []) (ownerStore []) (requested (.rename newName)) (peer 2)
      (controlFrom 2 0).peerDevice (request (.rename newName)) admins := by
  have hsto : (ownerStore []).authorities (request (.rename newName)).group =
      some adminsRecord := by decide +kernel
  refine ⟨by decide +kernel,
    (role_table_iff hsto (by decide) (by decide +kernel)).mpr fun h => ?_⟩
  obtain ⟨_, hact, -⟩ := h.removal
  cases hact

/-- Admin 2 asks to remove admin 3, and the owner does it. -/
theorem remove_admin_breaks_role_table : hasRole admins (peer 3) .admin = true ∧
      acceptedField SignedState.members (requested (.remove (peer 3))) (peer 9) =
        some [⟨peer 1, [1], .owner⟩, ⟨peer 2, [2], .admin⟩] ∧
      ¬ KeepsRoleTable (env 1 []) (ownerStore []) (requested (.remove (peer 3))) (peer 2)
        (controlFrom 2 0).peerDevice (request (.remove (peer 3))) admins := by
  have hroster : acceptedField SignedState.members (requested (.remove (peer 3))) (peer 9) =
      some [⟨peer 1, [1], .owner⟩, ⟨peer 2, [2], .admin⟩] := by decide +kernel
  refine ⟨by decide, hroster, fun hkeep => ?_⟩
  obtain ⟨record, next, hnext, hmem⟩ := accepts_of_acceptedField hroster
  have hne : next ≠ admins := fun heq => absurd (heq ▸ hmem) (by decide)
  obtain ⟨-, -, -, hmay⟩ := hkeep record next hnext hne
  obtain hsame | ⟨-, m, -, -, hperm⟩ | ⟨-, m, hm, hmember, -⟩ := hmay.change
  · exact absurd (hmem.symm.trans hsame) (by decide)
  · have hlen := hperm.length_eq
    rw [hmem, length_append, length_singleton] at hlen
    exact absurd hlen (by decide)
  · -- There is no ordinary member to remove.
    have hnone : ∀ m ∈ admins.members, m.role ≠ .member := by decide
    exact hnone m hm hmember

end Sample

end Komms.Group
