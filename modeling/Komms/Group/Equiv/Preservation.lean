import Komms.Group.Equiv.AdminRequest
import Komms.Group.Equiv.Agreement

/-!
# Which calls keep the agreement

One lemma for each handler and each operation.  Two handlers rewrite the group record of a signed
group without its authority record, a departure (`LeavesSigned`) and the creator's newer unsigned
announce (`RewritesSigned`); every other control and every local operation keeps the two rows in
agreement, also when it fails halfway.
-/

namespace Komms.Group

open GroupAuthority Option Except Effect

variable {E : Env} {s s' : Store} {d d' : Draws} {control : DeferredControl} {now : UInt64}
  {verdict : Verdict}

/-! ### Unsigned handlers -/

/-- A member leaves a group whose authority is signed. -/
def LeavesSigned (s : Store) (peer group : Octets 32) : Prop :=
  (s.authorities group).isSome ∧
    ∃ rec, s.groups group = some rec ∧ rec.members.any (fun m => m.peer = peer) = true

/-- The creator announces a newer unsigned roster of a group whose authority is signed. -/
def RewritesSigned (E : Env) (s : Store) (peer : Octets 32) (a : GroupAnnounce) : Prop :=
  (s.authorities a.group).isSome ∧
    ∃ rec, s.groups a.group = some rec ∧ peer = rec.creator ∧ a.generation > rec.generation ∧
      a.members.any (fun m => m.peer = E.me) = true ∧ validRoster E a.members = true

/-- The control does not rewrite a signed group without its authority. -/
def KeepsSigned (E : Env) (s : Store) (control : DeferredControl) : Prop :=
  ∀ payload, GroupControlPayload.decode E.control control.body = .ok payload →
    match payload with
    | .leave group => ¬ LeavesSigned s control.peer group
    | .announce a => ¬ RewritesSigned E s control.peer a
    | .originAnnounce a _ => ¬ RewritesSigned E s control.peer a
    | _ => True

variable {group peer pollAuthor : Octets 32} {rec : GroupRecord} {a : GroupAnnounce} {accept : Bool}
  {sender : GroupSender} {origin : Option GroupOriginMaterial} {k : ℕ} {state edited : SignedState}
  {request : Option (Octets 16)} {id pollId : Octets 16} {stored : GroupAuthorityRecord}
  {payload : GroupControlPayload}

theorem announceState_eq_proceed {stubs : List (Octets 32 × Contact)}
    (h : announceState E s d peer a accept = .ok (.proceed rec stubs)) :
    (s.groups a.group = none ∧ rec.id = a.group) ∨
      ∃ before, s.groups a.group = some before ∧
        (rec = before ∨ (rec.id = before.id ∧ peer = before.creator ∧
          a.generation > before.generation ∧ a.members.any (fun m => m.peer = E.me) = true ∧
          validRoster E a.members = true)) := by
  unfold announceState at h
  split at h
  · next hnone =>
    split_ifs at h
    all_goals simp only [bind_eq_ok_iff, ok.injEq, AnnounceStep.proceed.injEq, reduceCtorEq] at h
    obtain ⟨_, -, rfl, -⟩ := h
    exact .inl ⟨hnone, rfl⟩
  · next before hbef =>
    refine .inr ⟨before, hbef, ?_⟩
    split_ifs at h with hnew hls hroster
    all_goals simp only [bind_eq_ok_iff, ok.injEq, AnnounceStep.proceed.injEq, reduceCtorEq] at h
    · obtain ⟨_, -, _, hrot, rfl, -⟩ := h
      have hid := congrArg GroupTerms.id (rotateGroup_terms hrot)
      exact .inr ⟨hid, hnew.1, hnew.2, hls, hroster⟩
    · exact .inl h.1.symm

variable (h : Agreement E s)

include h

theorem agreement_commitGroupRemoval
    (hok : commitGroupRemoval E s rec control = .ok (s', verdict)) : Agreement E s' := by
  obtain rfl := eq_of_commit_eq_ok hok
  exact h.of_removal rfl rfl

/-- An unsigned announce keeps the agreement unless it rewrites a signed group. -/
theorem agreement_applyGroupAnnounce (hsafe : ¬ RewritesSigned E s sender.account a)
    (hok : applyGroupAnnounce E s d sender a origin control accept = .ok (s', verdict)) :
    Agreement E s' := by
  obtain ⟨step, hstep, hok⟩ := bind_eq_ok_iff.mp hok
  cases step with
  | stop v =>
    exact holds_of_ok_eq h hok
  | removed rec => exact agreement_commitGroupRemoval h hok
  | proceed rec stubs =>
    simp only [installAnnounced] at hok
    split_ifs at hok
    · simp only [bind_eq_ok_iff] at hok
      obtain ⟨_, -, after, hinit, hok⟩ := hok
      have hter := initializeOrigins_terms hinit
      have hid : after.id = rec.id := congrArg GroupTerms.id hter
      split_ifs at hok
      · exact holds_of_ok_eq h hok
      · obtain rfl := eq_of_commit_eq_ok hok
        -- A new group, the same terms under a new chain, or newer terms of a group with no
        -- authority.
        rcases announceState_eq_proceed hstep with
          ⟨hnone, hrec⟩ | ⟨before, hbef, rfl | ⟨hrec, hnew⟩⟩
        · have huns : s.authorities a.group = none := by
            by_contra hsig
            obtain ⟨_, hrecord⟩ := ne_none_iff_exists'.mp hsig
            obtain ⟨_, hsome, -⟩ := h.agree _ _ hrecord
            rw [hnone] at hsome
            cases hsome
          rw [hid, hrec]
          exact h.of_unsigned huns (hid.trans hrec) (by simp) (by simp)
        · rw [hid, h.keyed _ _ hbef]
          exact h.of_chain hbef hter (by simp) (by simp)
        · have hkey := h.keyed _ _ hbef
          have huns : s.authorities a.group = none := by
            by_contra hsig
            exact hsafe ⟨isSome_iff_ne_none.mpr hsig, before, hbef, hnew⟩
          rw [hid, hrec, hkey]
          exact h.of_unsigned huns (hid.trans (hrec.trans hkey)) (by simp) (by simp)
    · exact holds_of_ok_eq h hok

theorem agreement_applyGroupLeave (hsafe : ¬ LeavesSigned s peer group)
    (hok : applyGroupLeave E s d peer group control = .ok (s', verdict)) : Agreement E s' := by
  unfold applyGroupLeave at hok
  split at hok
  · exact holds_of_ok_eq h hok
  next before hbef =>
  split_ifs at hok with hmem
  · simp only [bind_eq_ok_iff, commit_eq_ok_iff, ok.injEq, Prod.mk.injEq] at hok
    obtain ⟨_, hshr, after, haft, _, ⟨-, rfl⟩, rfl, -⟩ := hok
    have huns : s.authorities group = none := by
      by_contra hsig
      exact hsafe ⟨isSome_iff_ne_none.mpr hsig, before, hbef, hmem⟩
    have hid : after.id = group :=
      (congrArg GroupTerms.id (rotateGroup_terms haft)).trans
        ((withoutLeaver_eq_ok hshr).1.trans (h.keyed group before hbef))
    exact h.of_unsigned huns hid rfl rfl
  · exact holds_of_ok_eq h hok

theorem agreement_applyGroupRemoveNotice
    (hok : applyGroupRemoveNotice E s peer group control = .ok (s', verdict)) :
    Agreement E s' := by
  unfold applyGroupRemoveNotice at hok
  split at hok
  · exact holds_of_ok_eq h hok
  split_ifs at hok
  · exact holds_of_ok_eq h hok
  · exact agreement_commitGroupRemoval h hok

/-! ### Signed handlers -/

theorem agreement_applyAuthorityAnnounce {a : GroupAuthorityAnnounce}
    (hok : applyAuthorityAnnounce E s d sender a origin control accept = .ok (s', verdict)) :
    Agreement E s' := by
  rcases applyAuthorityAnnounce_cases hok with rfl | href | ⟨state, current, hadopt⟩
  · exact h
  · exact h.of_same href.groups href.authorities
  · exact h.of_adopted hadopt

theorem agreement_applyAuthorityRemove {stateId : Octets 16} {payload : Bytes}
    (hok : applyAuthorityRemove E s peer group stateId payload control = .ok (s', verdict)) :
    Agreement E s' := by
  unfold applyAuthorityRemove at hok
  split at hok
  · split_ifs at hok
    · exact holds_of_ok_eq h hok
    obtain ⟨_, -, hok⟩ := bind_eq_ok_iff.mp hok
    split_ifs at hok
    · exact holds_of_ok_eq h hok
    split at hok
    · exact holds_of_ok_eq h hok
    · exact agreement_commitGroupRemoval h hok
  · exact holds_of_ok_eq h hok

theorem agreement_applyGroupAdminResult {result : GroupAdminResult}
    (hok : applyGroupAdminResult E s peer result control = .ok (s', verdict)) :
    Agreement E s' := by
  obtain ⟨_, -, hok⟩ := bind_eq_ok_iff.mp hok
  split_ifs at hok
  · exact holds_of_ok_eq h hok
  · obtain rfl := eq_of_commit_eq_ok hok
    exact h.of_same rfl rfl

theorem agreement_commitAuthorityState {secret : Octets 32}
    (hok : commitAuthorityState E s d k state secret request = .ok (s', id)) : Agreement E s' := by
  obtain ⟨_, -, hver, ⟨_, _, hdec, hauth⟩,
    ⟨_, after, hbef, hgrps, hid, hsec, hcreate, hgen, hmem⟩, -⟩ :=
    commitAuthorityState_eq_ok hok
  refine h.of_update hgrps hauth ?_ ?_
  · rintro r ⟨⟩
    exact hid.trans (h.keyed _ _ hbef)
  · rintro r ⟨⟩
    exact ⟨after, rfl, rowsAgree_of_verified rfl rfl hdec hver hsec hgen hcreate hmem⟩

theorem agreement_commitNext
    (hok : commitNext E s d stored edited request = .ok (s', id)) : Agreement E s' := by
  obtain ⟨_, -, hok⟩ := bind_eq_ok_iff.mp hok
  exact agreement_commitAuthorityState h hok

theorem agreement_commitExclusion {removed : Octets 32} :
    Agreement E (commitExclusion E s d group stored state removed request now).state := by
  refine andThen_keeps (ofExcept_state h fun _ _ => agreement_commitNext h) fun t _ ht => ?_
  refine ofExcept_state ht fun s' _ hok => ?_
  simp only [bind_eq_ok_iff, ok.injEq, Prod.mk.injEq] at hok
  obtain ⟨_, hnot, rfl, -⟩ := hok
  have hrows := notifyRemoved_rows hnot
  exact ht.of_same hrows.groups hrows.authorities

theorem Performed.agreement {request : GroupAdminRequest} {t : Store}
    (hper : Performed E s d request stored state t) : Agreement E t := by
  induction hper with
  | kept => exact h
  | committed _ hcom | advanced _ _ hcom => exact agreement_commitNext h hcom
  | closed _ _ _ hclose ih =>
    simp only [commitGroupPollModeratedClose, bind_eq_ok_iff, ok.injEq, Prod.mk.injEq] at hclose
    obtain ⟨_, -, _, -, _, -, _, -, _, -, _, -, _, hsend, rfl, -⟩ := hclose
    obtain ⟨_, _, _, hbef, hter, -, -, -, rfl⟩ := groupSendContent_none_eq_ok hsend
    exact ih.of_chain hbef hter rfl rfl

theorem agreement_finishAdminRequest {request : GroupAdminRequest}
    {before : GroupAuthorityRecord} {response : AdminResponse}
    (hbef : s.authorities request.group = some before)
    (hok : finishAdminRequest E s peer request control before response now = .ok (s', verdict)) :
    Agreement E s' := by
  rcases finishAdminRequest_eq_ok hok with rfl | ⟨t, hrows, rfl⟩
  · exact h
  · have hauth := congrArg (Function.update · request.group
      (some (before.consuming request.requestId))) hrows.authorities
    obtain ⟨hgrp, -, hpay⟩ := consuming_keeps before request.requestId
    refine h.of_update (hrows.groups.trans (Function.update_eq_self request.group _).symm) hauth
      ?_ ?_
    · exact fun r => h.keyed request.group r
    · rintro r ⟨⟩
      obtain ⟨rec, hrec, hagr⟩ := h.agree request.group before hbef
      exact ⟨rec, hrec, hagr.congr rfl hgrp hpay⟩

theorem agreement_applyGroupAdminRequest {request : GroupAdminRequest} :
    Agreement E (applyGroupAdminRequest E s d peer request control now).state := by
  unfold applyGroupAdminRequest
  split
  · exact h
  next stored hsto =>
  split
  · exact h
  next state hst =>
  have hanswer : Agreement E
      (answerAdminRequest E s d peer request control stored state now).state := by
    by_cases hactionable : Actionable E s peer request control stored state
    · obtain ⟨_, hperformed, hrows⟩ := performAdminAction_performed (d := d) hsto hst now
      rw [answerAdminRequest_performed hactionable]
      exact (hperformed.agreement h).of_same hrows.groups hrows.authorities
    · rwa [answerAdminRequest_idle hactionable]
  refine andThen_state hanswer fun answer hresult => ofExcept_state hanswer fun _ _ => ?_
  exact agreement_finishAdminRequest hanswer (answerAdminRequest_record hsto hresult)

/-! ### Controls -/

/-- **A control keeps the agreement** unless it rewrites a signed group. -/
theorem agreement_applyGroupControl (hsafe : KeepsSigned E s control) :
    Agreement E (applyGroupControl E s d control now accept).state := by
  unfold applyGroupControl
  split
  · exact h
  next payload hpay =>
  have hpay' := hsafe payload hpay
  split_ifs
  · exact h
  · exact h
  · exact h
  -- One case for each payload.
  unfold dispatchControl
  cases payload with
  | announce a =>
    exact ofExcept_state h fun _ _ => agreement_applyGroupAnnounce h hpay'
  | leave group =>
    exact ofExcept_state h fun _ _ => agreement_applyGroupLeave h hpay'
  | remove group =>
    exact ofExcept_state h fun _ _ => agreement_applyGroupRemoveNotice h
  | authorityAnnounce a =>
    exact ofExcept_state h fun _ _ => agreement_applyAuthorityAnnounce h
  | adminRequest request => exact agreement_applyGroupAdminRequest h
  | adminResult result =>
    exact ofExcept_state h fun _ _ => agreement_applyGroupAdminResult h
  | authorityRemove group stateId statePayload =>
    exact ofExcept_state h fun _ _ => agreement_applyAuthorityRemove h
  | originAnnounce a scope =>
    simp only
    split_ifs
    · exact ofExcept_state h fun _ _ => agreement_applyGroupAnnounce h hpay'
    · exact h
  | originAuthorityAnnounce a scope =>
    simp only
    split_ifs
    · exact ofExcept_state h fun _ _ => agreement_applyAuthorityAnnounce h
    · exact h

/-! ### Local operations -/

theorem agreement_groupUpgradeAuthority
    (hok : groupUpgradeAuthority E s d group = .ok (s', id)) : Agreement E s' := by
  unfold groupUpgradeAuthority at hok
  split at hok
  · exact holds_of_ok_eq h hok
  · simp only [bind_eq_ok_iff] at hok
    obtain ⟨_, -, _, -, _, -, _, -, hok⟩ := hok
    exact agreement_commitAuthorityState h hok

theorem agreement_ensureSignedAuthority :
    Agreement E (ensureSignedAuthority E s d group).state := by
  unfold ensureSignedAuthority
  split
  · exact h
  · refine andThen_keeps ?_ fun _ _ ht => ht
    exact ofExcept_state h fun _ _ => agreement_groupUpgradeAuthority h

/-- A local operation on a signed group, after the upgrade that makes it signed. -/
theorem agreement_afterUpgrade {α : Type} {f : Store → Unit → NodeEffect α}
    (hf : ∀ t, Agreement E t → Agreement E (f t ()).state) :
    Agreement E ((ensureSignedAuthority E s d group).andThen f).state :=
  andThen_keeps (agreement_ensureSignedAuthority h) fun t _ => hf t

theorem agreement_queueAdminRequest {action : GroupAdminAction}
    (hok : queueAdminRequest E s d state action now = .ok (s', id)) : Agreement E s' := by
  simp only [queueAdminRequest, bind_eq_ok_iff, ok.injEq, Prod.mk.injEq] at hok
  obtain ⟨_, -, _, -, _, hqueue, rfl, -⟩ := hok
  have hrows := queueGroupControl_rows hqueue
  exact h.of_same hrows.groups hrows.authorities

theorem agreement_groupRename {name : Utf8} :
    Agreement E (groupRename E s d d' group name now).state := by
  unfold groupRename
  split_ifs
  · exact h
  refine agreement_afterUpgrade h fun t ht => ofExcept_state ht fun s' _ hok => ?_
  obtain ⟨⟨_, _⟩, -, hok⟩ := bind_eq_ok_iff.mp hok
  simp only at hok
  split_ifs at hok
  · exact agreement_queueAdminRequest ht hok
  · exact agreement_commitNext ht hok

theorem agreement_groupSetRole {role : GroupRole} :
    Agreement E (groupSetRole E s d d' group peer role).state := by
  unfold groupSetRole
  split_ifs
  · exact h
  refine agreement_afterUpgrade h fun t ht => ofExcept_state ht fun s' _ hok => ?_
  simp only [setRoleSigned, bind_eq_ok_iff] at hok
  obtain ⟨⟨_, _⟩, -, _, -, _, -, _, -, hok⟩ := hok
  split_ifs at hok
  · exact holds_of_ok_eq ht hok
  · exact agreement_commitNext ht hok

theorem agreement_groupTransferOwner {newOwner : Octets 32} :
    Agreement E (groupTransferOwner E s d d' group newOwner).state := by
  refine agreement_afterUpgrade h fun t ht => ofExcept_state ht fun s' _ hok => ?_
  simp only [transferOwnerSigned, bind_eq_ok_iff] at hok
  obtain ⟨_, -, _, -, _, -, _, -, _, -, _, -, hok⟩ := hok
  exact agreement_commitAuthorityState ht hok

theorem agreement_groupAuthorityAddMember {member : GroupMember} :
    Agreement E (groupAuthorityAddMember E s d d' group member now).state := by
  refine agreement_afterUpgrade h fun t ht => ofExcept_state ht fun s' _ hok => ?_
  obtain ⟨⟨_, _⟩, -, hok⟩ := bind_eq_ok_iff.mp hok
  simp only at hok
  split_ifs at hok
  · exact agreement_queueAdminRequest ht hok
  · exact holds_of_ok_eq ht hok
  · exact agreement_commitNext ht hok

theorem agreement_groupAuthorityRemoveMember :
    Agreement E (groupAuthorityRemoveMember E s d d' group peer now).state := by
  refine agreement_afterUpgrade h fun t ht => ?_
  unfold removeMemberSigned
  split
  · exact ht
  split
  · exact ht
  split_ifs
  · exact ht
  · exact ofExcept_state ht fun _ _ => agreement_queueAdminRequest ht
  · exact ht
  · exact agreement_commitExclusion ht

theorem agreement_commitRoster (huns : s.authorities group = none)
    (edited : GroupRecord) (hid : edited.id = group) (gone : Octets 32 → Bool) (s' : Store)
    (u : Unit) (hok : commitRoster E s d group edited gone = .ok (s', u)) : Agreement E s' := by
  simp only [commitRoster, bind_eq_ok_iff, commit_eq_ok_iff, ok.injEq, Prod.mk.injEq] at hok
  obtain ⟨_, -, after, haft, _, ⟨-, rfl⟩, rfl, -⟩ := hok
  have hid' : after.id = edited.id := congrArg GroupTerms.id (rotateGroup_terms haft)
  exact h.of_unsigned huns (hid'.trans hid) rfl rfl

theorem agreement_queueGroupControl : Agreement E (Effect.ofExcept s
      ((queueGroupControl E s peer payload now).map fun s' => (s', ()))).state := by
  refine ofExcept_state h fun s' _ hok => ?_
  cases hqueue : queueGroupControl E s peer payload now with
  | error e => simp [hqueue, Except.map] at hok
  | ok t =>
    have hrows := queueGroupControl_rows hqueue
    simp only [hqueue, Except.map, ok.injEq, Prod.mk.injEq] at hok
    exact hok.1 ▸ h.of_same hrows.groups hrows.authorities

theorem agreement_queueToAll {peers : List (Octets 32)} :
    Agreement E (queueToAll E payload now peers s).state := by
  induction peers generalizing s with
  | nil => exact h
  | cons peer rest ih =>
    exact andThen_keeps (agreement_queueGroupControl h) fun _ _ => ih

theorem agreement_groupLeave : Agreement E (groupLeave E s group now).state := by
  unfold groupLeave
  split
  · exact h
  next before hbef =>
  refine andThen_keeps (ofExcept_state h fun s' _ hok => ?_)
    fun _ _ ht => agreement_queueToAll ht
  simp only [bind_eq_ok_iff, commit_eq_ok_iff, ok.injEq, Prod.mk.injEq] at hok
  obtain ⟨_, -, _, ⟨-, rfl⟩, rfl, -⟩ := hok
  exact h.of_removal rfl rfl

theorem agreement_groupAdd : Agreement E (groupAdd E s d d' group peer now).state := by
  unfold groupAdd
  split
  · exact h
  next before hbef =>
  split_ifs with hsig
  · exact h
  · split
    · exact h
    · exact andThen_keeps (agreement_groupAuthorityAddMember h) fun _ _ ht => ht
  · refine ofExcept_state h fun s' _ hok => ?_
    obtain ⟨-, hok⟩ := check_bind_eq_ok_iff.mp hok
    split_ifs at hok
    · exact holds_of_ok_eq h hok
    · simp only [bind_eq_ok_iff] at hok
      obtain ⟨_, -, _, -, hok⟩ := hok
      refine agreement_commitRoster h (not_isSome_iff_eq_none.mp hsig) _ ?_ _ s' _ hok
      exact h.keyed group before hbef

theorem agreement_groupRemove : Agreement E (groupRemove E s d d' group peer now).state := by
  unfold groupRemove
  split_ifs with hself hsig
  · exact agreement_groupLeave h
  · exact andThen_keeps (agreement_groupAuthorityRemoveMember h) fun _ _ ht => ht
  · unfold removeUnsigned
    split
    · exact h
    next before hbef =>
    split_ifs
    · exact h
    · have hcom := ofExcept_state h <|
        agreement_commitRoster (d := d) h (not_isSome_iff_eq_none.mp hsig)
          { before with
            members := before.members.filter fun m => m.peer ≠ peer
            prevSecret := some before.secret
            secret := d.secret }
          (h.keyed group before hbef) fun account => account = peer
      exact andThen_keeps hcom fun _ _ => agreement_queueGroupControl
    · exact h

end Komms.Group
