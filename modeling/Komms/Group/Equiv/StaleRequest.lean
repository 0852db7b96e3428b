import Komms.Group.Equiv.RoleTable

/-!
# Stale and repeated admin requests

A request names the generation it was made for.  One that is behind is refused, except that a poll
moderation one generation behind is taken for an interrupted one that advanced the generation
itself.  Nothing records that it did: a stale request leaves the accepted state and every poll alone
exactly when it is not such a moderation of an open poll (`stale_noOp_iff`).

The first answer to a request can always be read.  A request that is consumed already is answered
from the current state, and with a reason that the decoder does not know when that state does not
show the request as carried out (`CarriedOut`, `adminResult_readable_iff`).
-/

namespace Komms.Group

open GroupAuthority List

section Stale

variable {E : Env} {s s' : Store} {d : Draws} {peer : Octets 32} {request : GroupAdminRequest}
  {control : DeferredControl} {stored : GroupAuthorityRecord} {state : SignedState} {now : UInt64}

/-- An event that closes a poll. -/
def Content.closesPoll : Content → Bool
  | .poll _ (.close ..) => true
  | .poll _ (.moderatedClose ..) => true
  | _ => false

/-- The accepted state is unchanged, but for the consumed requests, and no poll was closed. -/
structure NoOp (group : Octets 32) (s s' : Store) : Prop where
  authority : (s'.authorities group).map GroupAuthorityRecord.accepted =
    (s.authorities group).map GroupAuthorityRecord.accepted
  polls : ∀ message ∈ s'.messages, message.body.closesPoll = true → message ∈ s.messages

variable {group pollAuthor : Octets 32} {pollId : Octets 16}

theorem NoOp.of_view (h : SameView group s s') : NoOp group s s' :=
  ⟨h.accepted, fun _ hmsg _ => h.messages ▸ hmsg⟩

/-- The request moderates an open poll one generation late, its sender may make requests, and the
closing event can be committed. -/
structure ResumesClose (E : Env) (s : Store) (d : Draws) (peer : Octets 32)
    (request : GroupAdminRequest) (control : DeferredControl) (stored : GroupAuthorityRecord)
    (state : SignedState) : Prop where
  actionable : Actionable E s peer request control stored state
  behind : checkedSucc request.baseGeneration = some state.generation
  closes : ∃ pollAuthor pollId, request.action = .moderatePoll pollAuthor pollId ∧
    (∃ polls poll, groupPolls E s request.group = .ok polls ∧
      findPoll polls pollAuthor pollId = some poll ∧ poll.closed = false) ∧
    ∃ t id, commitGroupPollModeratedClose E s d 2 request.group pollAuthor pollId = .ok (t, id)

theorem moderationResume_of_stale (hstale : request.baseGeneration ≠ state.generation)
    (hact : Actionable E s peer request control stored state) :
    moderationResume request state = true := by
  have hauth := hact.2
  simp only [adminAuthorized, Bool.and_eq_true, Bool.or_eq_true, decide_eq_true_eq] at hauth
  exact hauth.1.1.1.2.resolve_left hstale

theorem moderationResume_eq_true_iff : moderationResume request state = true ↔
    (∃ pollAuthor pollId, request.action = .moderatePoll pollAuthor pollId) ∧
      checkedSucc request.baseGeneration = some state.generation := by
  unfold moderationResume
  split
  · next pollAuthor pollId hact => simp [hact]
  · next hother =>
    simp only [Bool.false_eq_true, false_iff, not_and]
    rintro ⟨pollAuthor, pollId, hact⟩
    exact absurd hact (hother pollAuthor pollId)

/-- **Stale admin requests**: a request for another generation changes neither the accepted state
nor a poll, exactly when it does not close a poll one generation late. -/
theorem stale_noOp_iff (hstored : s.authorities request.group = some stored)
    (hstate : decodeStored stored = .ok state)
    (hstale : request.baseGeneration ≠ state.generation) :
    NoOp request.group s (applyGroupAdminRequest E s d peer request control now).state ↔
      ¬ ResumesClose E s d peer request control stored state := by
  constructor
  · rintro hnoop ⟨hact, -, _, _, hmod, ⟨polls, poll, hpolls, hpoll, hopen⟩, t,
      id, hclose⟩
    have hview : SameView request.group (performAdminAction E s d request stored state now).state
        (applyGroupAdminRequest E s d peer request control now).state :=
      applyGroupAdminRequest_of_authorized hstored hstate hact
    rw [performAdminAction, hmod] at hview
    -- A late moderation of an open poll closes it.
    simp only [moderationResume_of_stale hstale hact, moderatePoll, hpolls, hpoll, hopen,
      Bool.false_eq_true, if_false, if_true, Effect.andThen, closeModerated, hclose] at hview
    have hclosed := commitGroupPollModeratedClose_eq_ok hclose
    obtain ⟨message, _, _, _, hid, hgrp, hbody, hmsgs⟩ := hclosed.messages
    have hmem : message ∈ s.messages := by
      refine hnoop.polls message ?_ (by rw [hbody]; rfl)
      rw [hview.messages, hmsgs]
      exact mem_append_right _ (mem_singleton_self message)
    exact hclosed.fresh message hmem hgrp hid
  · intro hres
    by_cases hact : Actionable E s peer request control stored state
    · have hresult := moderationResume_of_stale hstale hact
      obtain ⟨⟨_, _, hmod⟩, hbeh⟩ := moderationResume_eq_true_iff.mp hresult
      obtain ⟨t, hper, hrows⟩ := performAdminAction_performed (d := d) hstored hstate now
      have hview' := hrows.view.trans (applyGroupAdminRequest_of_authorized hstored hstate hact)
      cases hper with
      | kept => exact .of_view hview'
      | committed hedit _ =>
        -- The edits are not moderations.
        cases hedit with
        | rename _ hother | invite _ hother _ | remove _ hother _ _ =>
          exact absurd (hmod.symm.trans hother) (by simp)
      | advanced _ hfr _ => simp [hresult] at hfr
      | closed hclosing _ hstart hclose =>
        obtain rfl := hstart hresult
        exact absurd ⟨hact, hbeh, _, _, hclosing,
          (commitGroupPollModeratedClose_eq_ok hclose).was_open, _, _, hclose⟩ hres
    · exact .of_view (applyGroupAdminRequest_of_idle hstored hstate hact)

/-! ### Repeated requests -/

variable {before : GroupAuthorityRecord} {response : AdminResponse}

/-- A reason that the decoder knows, which is zero for acceptance. -/
def AdminResponse.Known (response : AdminResponse) : Prop :=
  response.reason ≤ 3 ∧ response.accepted = decide (response.reason = 0)

/-- The current state shows a request as carried out: the group has the name, later than the request
was made, or lists the member, or does not list it, or the poll is closed. -/
def CarriedOut (E : Env) (s : Store) (request : GroupAdminRequest) (state : SignedState) : Prop :=
  match request.action with
  | .rename name => request.baseGeneration < state.generation ∧ state.name = name
  | .invite member => ∃ m ∈ state.members, m.peer = member.peer
  | .remove removed => ∀ m ∈ state.members, m.peer ≠ removed
  | .moderatePoll author id => ∃ polls, groupPolls E s request.group = .ok polls ∧
      ∃ poll ∈ polls, poll.author = author ∧ poll.id = id ∧ poll.closed = true

/-- A request that was consumed before is accepted when it shows as carried out, and otherwise
refused with a reason of its own. -/
theorem observedAdminRequestOutcome_eq_ok
    (h : observedAdminRequestOutcome E s request state = .ok response) :
    (response.accepted = true ↔ CarriedOut E s request state) ∧
      response.reason = if response.accepted then 0 else 4 := by
  unfold observedAdminRequestOutcome at h
  unfold CarriedOut
  cases haction : request.action with
  | rename name | invite member | remove removed =>
    simp only [haction, ok_bind, Except.ok.injEq] at h
    rw [← h]
    simp [lists]
  | moderatePoll author id =>
    simp only [haction, bind_eq_ok_iff, Except.ok.injEq] at h
    obtain ⟨polls, hpolls, _, rfl, rfl⟩ := h
    simp [hpolls, and_assoc]

/-- Only the answer to a request that was consumed before may have an unknown reason. -/
theorem known_answer_iff
    (h : (answerAdminRequest E s d peer request control stored state now).result =
      .ok (before, response)) : response.Known ↔
        (request.requestId ∈ stored.consumedRequests → CarriedOut E s request state) := by
  unfold answerAdminRequest at h
  split_ifs at h with hconsumed
  · obtain ⟨observed, hobserved, heq⟩ := map_eq_ok_iff.mp h
    obtain ⟨-, rfl⟩ := Prod.mk.inj heq
    obtain ⟨haccepted, hreason⟩ := observedAdminRequestOutcome_eq_ok hobserved
    rw [AdminResponse.Known, hreason, ← haccepted]
    cases observed.accepted <;> simp [hconsumed]
  · cases h
    exact iff_of_true ⟨by decide, by decide⟩ fun h => absurd h hconsumed
  · refine iff_of_true ?_ fun h => absurd h hconsumed
    obtain ⟨result, -, h⟩ := Effect.andThen_result_eq_ok_iff.mp h
    split at h <;> cases h
    unfold responseOf
    split <;> simp [AdminResponse.Known, AdminResponse.unauthorized]

/-- **Which answers can be read.**  Whatever a request is answered with, the result that is sent for
it decodes to itself exactly when the request was not consumed before or the current state shows it
as carried out. -/
theorem adminResult_readable_iff {parse : Bytes → Option GroupControlPayload}
    {payload : GroupControlPayload}
    (hanswer : (answerAdminRequest E s d peer request control stored state now).result =
      .ok (before, response))
    (hpayload : response.payload request (before.consuming request.requestId) = .ok payload)
    (hcodec : parse (E.encodeControl payload) = some payload) :
    GroupControlPayload.decode parse (E.encodeControl payload) = .ok payload ↔
      (request.requestId ∈ stored.consumedRequests → CarriedOut E s request state) := by
  simp only [AdminResponse.payload, bind_eq_ok_iff, Except.ok.injEq] at hpayload
  obtain ⟨_, -, rfl⟩ := hpayload
  rw [← known_answer_iff hanswer, GroupControlPayload.decode, hcodec]
  simp only [required, ok_bind, GroupControlPayload.check, ne_eq, not_not,
    check_bind_eq_ok_iff, rejectIf_eq_ok_iff, and_true, not_or, UInt8.not_lt]
  rfl

end Stale

namespace Sample

open GroupAuthority.Sample (peer)

/-- Admin 3 has created a poll, with itself as the only voter. -/
def pollCreated : GroupMessage where
  id := .replicate 16 70
  group := peer 9
  sender := peer 3
  recipientAuthenticated := true
  body := .poll (.replicate 16 70) (.create 7 newName
    [⟨.replicate 16 71, newName⟩, ⟨.replicate 16 72, newName⟩] [peer 3])

def pollStore : Store := ownerStore [pollCreated]

/-- Admin 2 asks for the poll to be closed, at generation 7. -/
def closeRequest : GroupAdminRequest := request (.moderatePoll (peer 3) (.replicate 16 70))

/-- Meanwhile the owner renames the group, which advances it to generation 8. -/
def renamed : Store := (groupRename (env 1 []) pollStore draws draws (peer 9) newName 0).state

def answered (s : Store) (request : GroupAdminRequest) : Store :=
  (applyGroupAdminRequest (env 1 []) s freshDraws (peer 2) request (controlFrom 2 0) 0).state

/-- Whether each poll of the group is closed. -/
def closedPolls (s : Store) : Option (List Bool) :=
  (groupPolls (env 1 []) s (peer 9)).toOption.map fun polls => polls.map PollInfo.closed

theorem renamed_generation : acceptedField SignedState.generation renamed (peer 9) = some 8 := by
  decide +kernel

/-- A rename that admin 2 asked for at generation 7 comes too late and changes nothing. -/
theorem stale_rename_noOp :
    NoOp (peer 9) renamed (answered renamed (request (.rename newName))) := by
  obtain ⟨_, next, hacc, hgen⟩ := accepts_of_acceptedField renamed_generation
  have hstale : (request (.rename newName)).baseGeneration ≠ next.generation := by
    rw [hgen]
    decide
  have hgrp : (request (.rename newName)).group = peer 9 := by simp only [request]
  rw [← hgrp] at hacc ⊢
  refine (stale_noOp_iff hacc.1 hacc.2 hstale).mpr fun h => ?_
  obtain ⟨_, _, hact, -⟩ := h.closes
  cases hact

/-- The rename of the owner advanced the generation, and the request to close the poll, made for the
generation before, still closes it. -/
theorem stale_moderation_closes_poll : closeRequest.baseGeneration = 7 ∧
      acceptedField SignedState.generation pollStore (peer 9) = some 7 ∧
      acceptedField SignedState.generation renamed (peer 9) = some 8 ∧
      acceptedField SignedState.name renamed (peer 9) = some newName ∧
      closedPolls renamed = some [false] ∧
      closedPolls (answered renamed closeRequest) = some [true] ∧
      ¬ NoOp (peer 9) renamed (answered renamed closeRequest) := by
  refine ⟨rfl, by decide +kernel, renamed_generation, by decide +kernel, by decide +kernel,
    by decide +kernel, fun hnoop => ?_⟩
  have hclose : (answered renamed closeRequest).messages.any (fun message =>
      message.body.closesPoll && !decide (message ∈ renamed.messages)) = true := by decide +kernel
  obtain ⟨message, hmsg, hnew⟩ := any_eq_true.mp hclose
  simp only [Bool.and_eq_true, Bool.not_eq_true', decide_eq_false_iff_not] at hnew
  exact hnew.2 (hnoop.polls message hmsg hnew.1)

/-- Admin 2 asks for the removal of the owner. -/
def removal : GroupAdminRequest := request (.remove (peer 1))

/-- The answer to the removal, from a store and a record of the owner. -/
def removalAnswer (s : Store) (stored : GroupAuthorityRecord) :
    Except NodeError (GroupAuthorityRecord × AdminResponse) :=
  (answerAdminRequest (env 1 []) s draws (peer 2) removal (controlFrom 2 0) stored admins 0).result

/-- A refusal with a reason, at generation 7. -/
def refusal (reason : UInt8) : GroupControlPayload :=
  .adminResult ⟨peer 9, removal.requestId, false, 7, none, reason⟩

/-- The first time the request is refused, in an answer that can be read. -/
theorem refused_removal_readable :
    GroupControlPayload.decode (fun _ => some (refusal 2)) ((env 1 []).encodeControl (refusal 2)) =
      .ok (refusal 2) := by
  have hanswer : removalAnswer (ownerStore []) adminsRecord =
      .ok (adminsRecord, .unauthorized) := by
    decide +kernel
  have hpayload : AdminResponse.unauthorized.payload removal
      (adminsRecord.consuming removal.requestId) = .ok (refusal 2) := by decide +kernel
  exact (adminResult_readable_iff hanswer hpayload rfl).mpr nofun

/-- Delivered once more, the refused request is answered with a reason that the decoder rejects. -/
theorem repeated_removal_unreadable :
    ∃ stored, (requested (.remove (peer 1))).authorities (peer 9) = some stored ∧
      decodeStored stored = .ok admins ∧ removal.requestId ∈ stored.consumedRequests ∧
      removalAnswer (requested (.remove (peer 1))) stored = .ok (stored, ⟨false, none, 4⟩) ∧
      AdminResponse.payload removal (stored.consuming removal.requestId) ⟨false, none, 4⟩ =
        .ok (refusal 4) ∧
      ∀ parse bytes, parse bytes = some (refusal 4) →
        GroupControlPayload.decode parse bytes = .error .malformed := by
  refine ⟨adminsRecord.consuming removal.requestId, by decide +kernel, by decide +kernel,
    by decide +kernel, by decide +kernel, by decide +kernel, fun parse bytes h => ?_⟩
  rw [GroupControlPayload.decode, h]
  rfl

end Sample

end Komms.Group
