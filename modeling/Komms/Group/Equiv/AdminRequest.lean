import Komms.GroupAuthority.Equiv.Ownership
import Komms.Group.Equiv.Rows

/-!
# What an admin request does

The store that `applyGroupAdminRequest` leaves, whether it returns or fails, up to the consumed
requests, the sessions and the control queue (`SameView`): a request that is consumed or not
authorized leaves the store, and any other leaves what its action committed (`Performed`).
-/

namespace Komms.Group

open GroupAuthority List Effect

variable {E : Env} {s s' t : Store} {d : Draws} {peer : Octets 32} {request : GroupAdminRequest}
  {control : DeferredControl} {stored : GroupAuthorityRecord} {state : SignedState} {now : UInt64}

/-! ### The rows that count -/

/-- The record without its consumed requests. -/
def GroupAuthorityRecord.accepted (record : GroupAuthorityRecord) :
    Octets 32 × Octets 16 × Bytes :=
  (record.group, record.stateId, record.statePayload)

@[simp] theorem consuming_accepted (record : GroupAuthorityRecord) (id : Octets 16) :
    (record.consuming id).accepted = record.accepted := by
  simp [GroupAuthorityRecord.accepted]

/-- Two stores with the same accepted state of a group, messages and contacts. -/
structure SameView (group : Octets 32) (s s' : Store) : Prop where
  accepted : (s'.authorities group).map GroupAuthorityRecord.accepted =
    (s.authorities group).map GroupAuthorityRecord.accepted
  messages : s'.messages = s.messages
  contacts : s'.contacts = s.contacts
  contactDevices : s'.contactDevices = s.contactDevices

theorem SameView.refl (group : Octets 32) (s : Store) : SameView group s s := ⟨rfl, rfl, rfl, rfl⟩

variable {group pollAuthor removed : Octets 32} {edited : SignedState} {id pollId : Octets 16}

theorem SameView.trans {s₁ s₂ s₃ : Store} (h : SameView group s₁ s₂) (h' : SameView group s₂ s₃) :
    SameView group s₁ s₃ where
  accepted := h'.accepted.trans h.accepted
  messages := h'.messages.trans h.messages
  contacts := h'.contacts.trans h.contacts
  contactDevices := h'.contactDevices.trans h.contactDevices

theorem SameRows.view (h : SameRows s s') : SameView group s s' :=
  ⟨by rw [h.authorities], h.messages, h.contacts, h.contactDevices⟩

theorem sameView_finishAdminRequest {before : GroupAuthorityRecord} {response : AdminResponse}
    {verdict : Verdict} (hbef : s.authorities request.group = some before)
    (hok : finishAdminRequest E s peer request control before response now = .ok (s', verdict)) :
    SameView request.group s s' := by
  rcases finishAdminRequest_eq_ok hok with rfl | ⟨t, hrows, rfl⟩
  · exact .refl _ _
  · refine ⟨?_, hrows.messages, hrows.contacts, hrows.contactDevices⟩
    rw [(setAuthority_rows _ _ _).2, Function.update_self, hbef, Option.map_some, Option.map_some,
      consuming_accepted]

/-! ### Performing -/

/-- The edits of the stored state that a request may ask for. -/
inductive AdminEdit (request : GroupAdminRequest) (state : SignedState) : SignedState → Prop where
  | rename (name : Utf8) : request.action = .rename name →
      AdminEdit request state { state with name }
  | invite (member : GroupMember) : request.action = .invite member →
      lists state member.peer = false → AdminEdit request state (invited state member)
  | remove (removed : Octets 32) : request.action = .remove removed → removed ≠ state.owner →
      lists state removed = true → AdminEdit request state (excluded state removed)

/-- The stores that performing a request may leave. -/
inductive Performed (E : Env) (s : Store) (d : Draws) (request : GroupAdminRequest)
    (stored : GroupAuthorityRecord) (state : SignedState) : Store → Prop where
  | kept : Performed E s d request stored state s
  | committed {edited : SignedState} {t : Store} {id : Octets 16} :
      AdminEdit request state edited →
      commitNext E s d stored edited (some request.requestId) = .ok (t, id) →
      Performed E s d request stored state t
  | advanced {pollAuthor : Octets 32} {pollId id : Octets 16} {t : Store} :
      request.action = .moderatePoll pollAuthor pollId →
      moderationResume request state = false →
      commitNext E s d stored state none = .ok (t, id) →
      Performed E s d request stored state t
  | closed {pollAuthor : Octets 32} {pollId id : Octets 16} {t t' : Store} :
      request.action = .moderatePoll pollAuthor pollId →
      Performed E s d request stored state t → (moderationResume request state = true → t = s) →
      commitGroupPollModeratedClose E t d 2 request.group pollAuthor pollId = .ok (t', id) →
      Performed E s d request stored state t'

theorem performed_commitForRequest (hedit : AdminEdit request state edited) :
    Performed E s d request stored state
      (commitForRequest E s d stored edited request.requestId).state := by
  unfold commitForRequest
  split
  · exact .kept
  next next hnext =>
  split
  · next s' id hok => exact .committed hedit (bind_eq_ok_iff.mpr ⟨next, hnext, hok⟩)
  · exact .kept

/-- What closing a poll for a request commits. -/
theorem performed_moderatePoll (hact : request.action = .moderatePoll pollAuthor pollId)
    (hsto : s.authorities request.group = some stored)
    (hst : decodeStored stored = .ok state) :
    Performed E s d request stored state
      (moderatePoll E s d request.group pollAuthor pollId
        (moderationResume request state)).state := by
  unfold moderatePoll
  split
  · exact .kept
  split
  · exact .kept
  split_ifs with hclosing hres
  · exact .kept
  -- On a resumed request the authority has been advanced before.
  · refine andThen_state .kept fun _ _ => ?_
    unfold closeModerated
    split
    · next t' id hclose => exact .closed hact .kept (fun _ => rfl) hclose
    · exact .kept
  · have hfr : moderationResume request state = false := by simpa using hres
    -- It is advanced first, also when the poll is then not closed.
    have hadv : Performed E s d request stored state
        ((Effect.ofExcept s (advanceAuthority E s d request.group)).andThen
          fun s' _ => ⟨s', .ok ()⟩).state := by
      have hcom := ofExcept_state (x := advanceAuthority E s d request.group)
        Performed.kept fun t id hok => by
          simp only [advanceAuthority, storedState, hsto, required, hst, ok_bind,
            bind_eq_ok_iff] at hok
          obtain ⟨_, -, hok⟩ := hok
          exact .advanced hact hfr hok
      exact andThen_state hcom fun _ _ => hcom
    refine andThen_state hadv fun _ _ => ?_
    unfold closeModerated
    split
    · next t' id hclose => exact .closed hact hadv (fun h => absurd h hres) hclose
    · exact hadv

/-- A removal commits the roster without the entry; the notice to it changes no row that counts. -/
theorem sameRows_commitExclusion {request? : Option (Octets 16)}
    (hcom : commitNext E s d stored (excluded state removed) request? = .ok (t, id))
    (group : Octets 32) (now : UInt64) :
    SameRows t (commitExclusion E s d group stored state removed request? now).state := by
  unfold commitExclusion
  rw [hcom, ofExcept_ok]
  refine andThen_state (.refl _) fun _ _ => ofExcept_state (.refl _) ?_
  intro s' _ hok
  simp only [bind_eq_ok_iff, Except.ok.injEq, Prod.mk.injEq] at hok
  obtain ⟨_, hnot, rfl, -⟩ := hok
  exact notifyRemoved_rows hnot

theorem performAdminAction_remove (hact : request.action = .remove removed)
    (hown : removed ≠ state.owner) (hls : lists state removed = true)
    (hcom : commitNext E s d stored (excluded state removed) (some request.requestId) =
      .ok (t, id)) (now : UInt64) :
    SameRows t (performAdminAction E s d request stored state now).state := by
  have hsame := sameRows_commitExclusion hcom request.group now
  simp only [performAdminAction, hact, moderationResume, hown, hls, Bool.false_eq_true,
    or_self, Bool.true_eq_false, if_false]
  exact andThen_state hsame fun _ _ => hsame

/-- **What an action commits.** -/
theorem performAdminAction_performed (hsto : s.authorities request.group = some stored)
    (hst : decodeStored stored = .ok state) (now : UInt64) :
    ∃ t, Performed E s d request stored state t ∧
      SameRows t (performAdminAction E s d request stored state now).state := by
  have hkept : ∃ t, Performed E s d request stored state t ∧ SameRows t s := ⟨s, .kept, .refl _⟩
  unfold performAdminAction
  split
  · next name hact =>
    split_ifs
    · exact hkept
    · exact ⟨_, performed_commitForRequest (.rename name hact), .refl _⟩
  · next member hact =>
    split_ifs with hres hls
    · exact hkept
    · exact hkept
    · exact ⟨_, performed_commitForRequest (.invite member hact (by simpa using hls)), .refl _⟩
  · next removed hact =>
    split_ifs with hown hls
    · exact hkept
    · exact hkept
    simp only [not_or] at hown
    have hedit : AdminEdit request state (excluded state removed) :=
      .remove removed hact hown.2 (by simpa using hls)
    -- The removal also withdraws what it sealed for the member; that leaves the rows as they are.
    cases hcom : commitNext E s d stored (excluded state removed) (some request.requestId) with
    | error e =>
      refine ⟨s, .kept, ?_⟩
      have hsame : SameRows s (commitExclusion E s d request.group stored state removed
          (some request.requestId) now).state := by
        unfold commitExclusion
        rw [hcom, ofExcept_error]
        exact .refl _
      exact andThen_state hsame fun _ _ => hsame
    | ok result =>
      have hsame := sameRows_commitExclusion hcom request.group now
      exact ⟨result.1, .committed hedit hcom, andThen_state hsame fun _ _ => hsame⟩
  · next pollAuthor pollId hact =>
    exact ⟨_, performed_moderatePoll hact hsto hst, .refl _⟩

/-- What closing a poll as moderator leaves behind: one message with a fresh id, and every authority
record as it was. -/
structure ClosedPoll (E : Env) (s s' : Store) (group pollAuthor : Octets 32)
    (pollId id : Octets 16) : Prop where
  was_open : ∃ polls poll, groupPolls E s group = .ok polls ∧
    findPoll polls pollAuthor pollId = some poll ∧ poll.closed = false
  fresh : ∀ record ∈ s.messages, record.group = group → record.id ≠ id
  messages : ∃ message generation heads signature, message.id = id ∧ message.group = group ∧
    message.body = .poll id (.moderatedClose group pollAuthor pollId generation heads signature) ∧
    s'.messages = s.messages ++ [message]
  authorities : s'.authorities = s.authorities

theorem commitGroupPollModeratedClose_eq_ok {k : ℕ}
    (h : commitGroupPollModeratedClose E s d k group pollAuthor pollId = .ok (s', id)) :
    ClosedPoll E s s' group pollAuthor pollId id := by
  simp only [commitGroupPollModeratedClose, bind_eq_ok_iff, required_eq_ok_iff, rejectIf_eq_ok_iff,
    Except.ok.injEq, Prod.mk.injEq] at h
  obtain ⟨polls, hpolls, poll, hpoll, _, hopen, _, -, _, hid, _, -, _, hsend, rfl, rfl⟩ := h
  obtain ⟨_, _, message, -, -, hmsg, hgrp, hbody, rfl⟩ := groupSendContent_none_eq_ok hsend
  have hfr := find?_some hid
  simp only [Store.groupMessages, any_filter, Bool.not_eq_true', any_eq_false,
    Bool.and_eq_true, decide_eq_true_eq, not_and] at hfr
  exact ⟨⟨polls, poll, hpolls, hpoll, by simpa using hopen⟩, hfr,
    ⟨message, _, _, _, hmsg, hgrp, hbody, rfl⟩, rfl⟩

theorem AdminEdit.group_eq (h : AdminEdit request state edited) : edited.group = state.group := by
  cases h <;> rfl

/-! ### The handler -/

/-- The request was not consumed before and its sender may make it. -/
def Actionable (E : Env) (s : Store) (peer : Octets 32) (request : GroupAdminRequest)
    (control : DeferredControl) (stored : GroupAuthorityRecord) (state : SignedState) : Prop :=
  request.requestId ∉ stored.consumedRequests ∧
    adminAuthorized E s peer control.peerDevice request state = true

/-- An answer is for the record of the store it leaves. -/
theorem answerAdminRequest_record (hstored : s.authorities request.group = some stored)
    {answer : GroupAuthorityRecord × AdminResponse}
    (h : (answerAdminRequest E s d peer request control stored state now).result = .ok answer) :
    (answerAdminRequest E s d peer request control stored state now).state.authorities
      request.group = some answer.1 := by
  unfold answerAdminRequest at h ⊢
  split_ifs at h ⊢
  · obtain ⟨_, -, rfl⟩ := map_eq_ok_iff.mp h
    exact hstored
  · cases h
    exact hstored
  · obtain ⟨result, hresult, h⟩ := andThen_result_eq_ok_iff.mp h
    rw [andThen, hresult]
    dsimp only
    cases hrecord : (performAdminAction E s d request stored state now).state.authorities
      request.group with
    | none => simp [hrecord] at h
    | some current =>
      simp only [hrecord, Except.ok.injEq] at h ⊢
      rw [← h]

/-- Only a request that may be made is performed. -/
theorem answerAdminRequest_idle (hidle : ¬ Actionable E s peer request control stored state) :
    (answerAdminRequest E s d peer request control stored state now).state = s := by
  unfold answerAdminRequest
  split_ifs with hconsumed hunauthorized
  · rfl
  · rfl
  · exact absurd ⟨hconsumed, by simpa using hunauthorized⟩ hidle

theorem answerAdminRequest_performed (h : Actionable E s peer request control stored state) :
    (answerAdminRequest E s d peer request control stored state now).state =
      (performAdminAction E s d request stored state now).state := by
  rw [answerAdminRequest, if_neg h.1, if_neg (by simp [h.2])]
  refine andThen_state (I := (· = _)) rfl fun _ _ => ?_
  split <;> rfl

/-- Sending the answer changes no row that counts. -/
theorem sameView_applyGroupAdminRequest (hstored : s.authorities request.group = some stored)
    (hstate : decodeStored stored = .ok state) :
    SameView request.group (answerAdminRequest E s d peer request control stored state now).state
      (applyGroupAdminRequest E s d peer request control now).state := by
  simp only [applyGroupAdminRequest, hstored, hstate]
  refine andThen_state (.refl _ _) fun answer hanswer => ofExcept_state (.refl _ _) fun _ _ => ?_
  exact sameView_finishAdminRequest (answerAdminRequest_record hstored hanswer)

theorem applyGroupAdminRequest_of_idle (hstored : s.authorities request.group = some stored)
    (hstate : decodeStored stored = .ok state)
    (hidle : ¬ Actionable E s peer request control stored state) :
    SameView request.group s (applyGroupAdminRequest E s d peer request control now).state := by
  have hview := @sameView_applyGroupAdminRequest E s d peer request control _ _ now hstored hstate
  rwa [answerAdminRequest_idle hidle] at hview

theorem applyGroupAdminRequest_of_authorized (hstored : s.authorities request.group = some stored)
    (hstate : decodeStored stored = .ok state)
    (hactionable : Actionable E s peer request control stored state) :
    SameView request.group (performAdminAction E s d request stored state now).state
      (applyGroupAdminRequest E s d peer request control now).state := by
  have hview := @sameView_applyGroupAdminRequest E s d peer request control _ _ now hstored hstate
  rwa [answerAdminRequest_performed hactionable] at hview

end Komms.Group
