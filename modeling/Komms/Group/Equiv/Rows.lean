import Komms.Group.Control
import Komms.GroupAuthority.Equiv.Codec

/-!
# Which rows a call writes

Frame lemmas for the updates of the store, and what the functions that prepare a commit keep of the
group record: rotating and sealing change the sending chain alone.
-/

namespace Komms.Group

open GroupAuthority Except

/-! ### Updates of the store -/

section Frame

variable (s : Store) (group account : Octets 32)

@[simp] theorem setGroup_rows (row : Option GroupRecord) :
    (s.setGroup group row).groups = Function.update s.groups group row ∧
      (s.setGroup group row).authorities = s.authorities := ⟨rfl, rfl⟩

@[simp] theorem setAuthority_rows (row : Option GroupAuthorityRecord) :
    (s.setAuthority group row).groups = s.groups ∧
      (s.setAuthority group row).authorities = Function.update s.authorities group row := ⟨rfl, rfl⟩

@[simp] theorem dropChains_rows (gone : Octets 32 → Bool) :
    (s.dropChains group gone).groups = s.groups ∧
      (s.dropChains group gone).authorities = s.authorities := ⟨rfl, rfl⟩

@[simp] theorem installChain_rows (row : Option (List DeviceChain)) :
    (s.installChain group account row).groups = s.groups ∧
      (s.installChain group account row).authorities = s.authorities := by
  cases row <;> exact ⟨rfl, rfl⟩

@[simp] theorem addContacts_rows (stubs : List (Octets 32 × Contact)) :
    (s.addContacts stubs).groups = s.groups ∧ (s.addContacts stubs).authorities = s.authorities :=
  ⟨rfl, rfl⟩

@[simp] theorem settleControl_rows (control : DeferredControl) (keep : Bool) :
    (s.settleControl control keep).groups = s.groups ∧
      (s.settleControl control keep).authorities = s.authorities ∧
      (s.settleControl control keep).chains = s.chains := by
  cases keep <;> exact ⟨rfl, rfl, rfl⟩

end Frame

/-! ### Stored states -/

variable {state : SignedState} {origin : Option GroupOriginMaterial} {group peer : Octets 32}
  {id : Octets 16} {content : Content} {allow : Bool} {s' : Store} {now : UInt64}

theorem decodeStored_eq_ok_iff {record : GroupAuthorityRecord} : decodeStored record = .ok state ↔
      decodeGroupAuthority record.statePayload = .state state ∧ state.group = record.group := by
  unfold decodeStored
  split
  · next decoded hdec =>
    rw [hdec]
    split_ifs with hgrp
    · simp only [ok.injEq, DecodedGroupAuthority.state.injEq]
      exact ⟨fun h => ⟨h, h ▸ hgrp⟩, And.left⟩
    · simp only [DecodedGroupAuthority.state.injEq, false_iff, not_and]
      exact fun h => h ▸ hgrp
  · next hother => simp only [reduceCtorEq, false_iff, not_and]; exact fun h => absurd h (hother _)

/-! ### Rotation and sealing -/

/-- What a group record says apart from the sending chain. -/
structure GroupTerms where
  id : Octets 32
  name : Utf8
  creator : Octets 32
  members : List GroupMember
  secret : Octets 32
  prevSecret : Option (Octets 32)
  generation : UInt64

def GroupRecord.terms (rec : GroupRecord) : GroupTerms :=
  ⟨rec.id, rec.name, rec.creator, rec.members, rec.secret, rec.prevSecret, rec.generation⟩

variable {E : Env} {s : Store} {d : Draws} {k : ℕ} {rec after : GroupRecord}

theorem rotateGroupOrigin_terms (h : rotateGroupOrigin E s d k rec = .ok after) :
    after.terms = rec.terms := by
  simp only [rotateGroupOrigin, bind_eq_ok_iff, ok.injEq] at h
  obtain ⟨_, -, _, -, _, -, _, -, rfl⟩ := h
  rfl

theorem rotateGroup_terms (h : rotateGroup E s d k rec = .ok after) : after.terms = rec.terms := by
  simp only [rotateGroup, bind_eq_ok_iff] at h
  obtain ⟨sender, -, h⟩ := h
  cases sender with
  | legacy chain =>
    cases h
    rfl
  | origin state => exact rotateGroupOrigin_terms h

theorem sealOnGroup_terms (h : sealOnGroup E s d k rec = .ok after) : after.terms = rec.terms := by
  simp only [sealOnGroup, bind_eq_ok_iff, ok.injEq] at h
  obtain ⟨unspent, huns, _, -, _, -, rfl⟩ := h
  show unspent.terms = rec.terms
  unfold rotateSpent at huns
  split_ifs at huns
  · exact rotateGroup_terms huns
  · rw [ok.inj huns]

theorem rotateAdopted_terms (h : rotateAdopted E s d origin rec = .ok after) :
    after.terms = rec.terms := by
  unfold rotateAdopted at h
  split_ifs at h
  · obtain ⟨_, -, h⟩ := bind_eq_ok_iff.mp h
    split_ifs at h
    · exact rotateGroupOrigin_terms h
    · exact rotateGroup_terms h
  · exact rotateGroup_terms h

theorem initializeOrigins_terms (h : initializeOrigins E s d origin rec = .ok after) :
    after.terms = rec.terms := by
  unfold initializeOrigins at h
  split_ifs at h
  · obtain ⟨sender, -, h⟩ := bind_eq_ok_iff.mp h
    cases sender with
    | legacy chain =>
      simp only [bind_eq_ok_iff] at h
      obtain ⟨_, -, h⟩ := h
      split_ifs at h
      · exact rotateGroupOrigin_terms h
      · rw [ok.inj h]
    | origin state => rw [ok.inj h]
  · rw [ok.inj h]

theorem withoutLeaver_eq_ok {shrunk : GroupRecord} (h : rec.withoutLeaver E d peer = .ok shrunk) :
    shrunk.id = rec.id ∧ shrunk.members = (rec.members.filter fun m => m.peer ≠ peer) ∧
      shrunk.senderChain = rec.senderChain := by
  simp only [GroupRecord.withoutLeaver] at h
  split_ifs at h
  · obtain ⟨_, -, h⟩ := bind_eq_ok_iff.mp h
    cases h
    exact ⟨rfl, rfl, rfl⟩
  · cases h
    exact ⟨rfl, rfl, rfl⟩

/-! ### Messages -/

theorem groupSendContent_none_eq_ok
    (h : groupSendContent E s d k group id content none allow = .ok s') :
    ∃ (before after : GroupRecord) (message : GroupMessage), s.groups group = some before ∧
      after.terms = before.terms ∧ message.id = id ∧ message.group = group ∧
      message.body = content ∧ s' = (s.setGroup group (some after)).addMessage message := by
  simp only [groupSendContent, bind_eq_ok_iff, required_eq_ok_iff] at h
  obtain ⟨before, hbef, _, -, sealed, hseal, _, -, h⟩ := h
  exact ⟨before, sealed, _, hbef, sealOnGroup_terms hseal, rfl, rfl, rfl, (commit_eq_ok_iff.mp h).2⟩

theorem groupSendContent_some_eq_ok {a : PreparedAuthority}
    (h : groupSendContent E s d k group id content (some a) allow = .ok s') :
    ∃ (before sealed after : GroupRecord) (message : GroupMessage),
      s.groups group = some before ∧ sealed.terms = before.terms ∧
      after.terms = (sealed.under a).terms ∧ message.body = content ∧ message.group = group ∧
      s' = (((s.setGroup group (some after)).addMessage message).dropChains group
        (removedPeers before.members a.members)).setAuthority group (some a.record) := by
  simp only [groupSendContent, bind_eq_ok_iff, required_eq_ok_iff] at h
  obtain ⟨before, hbef, _, -, sealed, hseal, _, -, _, -, after, haft, h⟩ := h
  exact ⟨before, sealed, after, _, hbef, sealOnGroup_terms hseal, rotateGroup_terms haft,
    rfl, rfl, (commit_eq_ok_iff.mp h).2⟩

/-! ### Controls -/

/-- The stores differ in sessions, capabilities and deferred controls at most. -/
structure SameRows (s s' : Store) : Prop where
  groups : s'.groups = s.groups
  authorities : s'.authorities = s.authorities
  messages : s'.messages = s.messages
  contacts : s'.contacts = s.contacts
  contactDevices : s'.contactDevices = s.contactDevices

theorem SameRows.refl (s : Store) : SameRows s s := ⟨rfl, rfl, rfl, rfl, rfl⟩

theorem queueGroupControl_rows {payload : GroupControlPayload}
    (h : queueGroupControl E s peer payload now = .ok s') : SameRows s s' := by
  simp only [queueGroupControl, bind_eq_ok_iff] at h
  obtain ⟨prepared, -, h⟩ := h
  cases prepared with
  | none =>
    cases h
    exact .refl _
  | some opened =>
    obtain ⟨-, rfl⟩ := commit_eq_ok_iff.mp h
    exact ⟨rfl, rfl, rfl, rfl, rfl⟩

theorem notifyRemoved_rows {removed : Octets 32} {stateId : Octets 16}
    (h : notifyRemoved E s group removed stateId now = .ok s') : SameRows s s' := by
  simp only [notifyRemoved, bind_eq_ok_iff] at h
  obtain ⟨_, -, hqueue⟩ := h
  exact queueGroupControl_rows hqueue

@[simp] theorem consuming_keeps (record : GroupAuthorityRecord) (id : Octets 16) :
    (record.consuming id).group = record.group ∧ (record.consuming id).stateId = record.stateId ∧
      (record.consuming id).statePayload = record.statePayload := by
  unfold GroupAuthorityRecord.consuming
  split_ifs <;> exact ⟨rfl, rfl, rfl⟩

theorem finishAdminRequest_eq_ok {request : GroupAdminRequest} {control : DeferredControl}
    {before : GroupAuthorityRecord} {response : AdminResponse} {verdict : Verdict}
    (h : finishAdminRequest E s peer request control before response now = .ok (s', verdict)) :
    s' = s ∨ ∃ t, SameRows s t ∧
      s' = t.setAuthority request.group (some (before.consuming request.requestId)) := by
  simp only [finishAdminRequest, bind_eq_ok_iff] at h
  obtain ⟨_, -, prepared, -, h⟩ := h
  cases prepared with
  | none => exact .inl (Prod.mk.inj (ok.inj h)).1.symm
  | some opened =>
    obtain rfl := eq_of_commit_eq_ok h
    exact .inr ⟨(s.openSessions opened).deleteControl control, ⟨rfl, rfl, rfl, rfl, rfl⟩, rfl⟩

/-! ### Authority states -/

def SignedBySelf (E : Env) (state signed : SignedState) : Prop :=
  ∃ signature, signed = { SignedState.bySelf E state with signature }

/-- The rows after the signed state `signed` was committed under the id `id`. -/
structure CommittedState (E : Env) (s s' : Store) (signed : SignedState) (secret : Octets 32)
    (id : Octets 16) : Prop where
  verified : verifyAuthorityState E.suite E.postcard signed (some secret) = .ok ()
  authority : ∃ payload consumed, decodeGroupAuthority payload = .state signed ∧
    s'.authorities = Function.update s.authorities signed.group
      (some ⟨signed.group, id, payload, consumed⟩)
  group : ∃ before after : GroupRecord, s.groups signed.group = some before ∧
    s'.groups = Function.update s.groups signed.group (some after) ∧
    after.id = before.id ∧ after.secret = secret ∧ after.creator = signed.owner ∧
    after.generation = signed.generation ∧ after.members = stateMembers signed
  messages : ∃ message : GroupMessage, (∃ payload, message.body = .groupAuthority id payload) ∧
    s'.messages = s.messages ++ [message]

theorem commitAuthorityState_eq_ok {secret : Octets 32} {request : Option (Octets 16)}
    (h : commitAuthorityState E s d k state secret request = .ok (s', id)) :
    ∃ signed, SignedBySelf E state signed ∧ CommittedState E s s' signed secret id := by
  simp only [commitAuthorityState, bind_eq_ok_iff, mapError_eq_ok_iff, rejectIf_eq_ok_iff, ne_eq,
    not_not, ok.injEq, Prod.mk.injEq] at h
  obtain ⟨⟨⟩, -, id, -, _, -, ⟨⟩, hver, payload, hpay, ⟨⟩, -, _, hsend, rfl, rfl⟩ := h
  obtain ⟨before, _, after, message, hbef, hseal, haft, hbody, -, rfl⟩ :=
    groupSendContent_some_eq_ok hsend
  have hid : after.id = before.id := by
    have haft' := congrArg GroupTerms.id haft
    have hseal' := congrArg GroupTerms.id hseal
    exact haft'.trans hseal'
  refine ⟨_, ⟨_, rfl⟩, hver, ⟨payload, _, decodeGroupAuthority_encode hpay, rfl⟩,
    ⟨before, after, hbef, rfl, hid, congrArg GroupTerms.secret haft,
      congrArg GroupTerms.creator haft, congrArg GroupTerms.generation haft,
      congrArg GroupTerms.members haft⟩, message, ⟨payload, hbody⟩, rfl⟩

end Komms.Group
