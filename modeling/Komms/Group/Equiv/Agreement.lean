import Komms.Group.Equiv.Rows
import Komms.Group.Node

/-!
# The group record and the signed authority agree

A signed group has two rows: the group record that sends and receives, and the authority record with
the accepted state.  `Agreement` says that they tell the same: secret, generation, owner and roster.

Every successful call of `applyAuthorityAnnounce` leaves the store alone, installs the sender's
chain beside the accepted state, or adopts the announced state (`applyAuthorityAnnounce_cases`).
Two handlers write the group record of a signed group without the authority record: a member's
departure, and the creator's unsigned announce.  Every other control and every local operation keeps
the agreement (`agreement_of_reachable`).
-/

namespace Komms.Group

open GroupAuthority Except Function

variable {E : Env} {s s' : Store} {d : Draws} {sender : GroupSender} {a : GroupAuthorityAnnounce}
  {origin : Option GroupOriginMaterial} {control : DeferredControl} {accept : Bool}
  {verdict : Verdict} {state : SignedState}

/-- An announced state decodes from the payload, is about the announced group and verifies. -/
theorem announcedState_eq_some {peer : Octets 32} (h : announcedState E peer a = some state) :
    decodeGroupAuthority a.statePayload = .state state ∧ state.group = a.group ∧
      lists state peer = true ∧
      verifyAuthorityState E.suite E.postcard state (some a.secret) = .ok () := by
  unfold announcedState at h
  split at h
  · next st hdec =>
    split_ifs at h with hbad
    cases h
    simp only [not_or, ne_eq, not_not, Bool.not_eq_false] at hbad
    exact ⟨hdec, hbad⟩
  · cases h

variable {group : Octets 32} {rec : GroupRecord}
  {current : Option (GroupAuthorityRecord × SignedState)}

theorem currentState_eq_some {record : GroupAuthorityRecord} {current : SignedState}
    (h : currentState s group = .ok (some (record, current))) :
    s.authorities group = some record ∧ decodeStored record = .ok current := by
  unfold currentState at h
  split at h
  · cases h
  · next r hr =>
    simp only [bind_eq_ok_iff, ok.injEq, Option.some.injEq, Prod.mk.injEq] at h
    obtain ⟨_, hst, rfl, rfl⟩ := h
    exact ⟨hr, hst⟩

/-- What an announce that gets past the checks has shown. -/
structure Admitted (E : Env) (s : Store) (sender : GroupSender) (a : GroupAuthorityAnnounce)
    (state : SignedState) (current : Option (GroupAuthorityRecord × SignedState)) : Prop where
  announced : announcedState E sender.account a = some state
  listed : lists state E.me = true
  current_eq : currentState s state.group = .ok current
  follows : mayFollow s state current = true

/-- The rows after the sender's chain was installed beside the accepted state. -/
structure Refreshed (E : Env) (s s' : Store) (sender : GroupSender) (a : GroupAuthorityAnnounce) :
    Prop where
  exists_winner : ∃ state record current,
    Admitted E s sender a state (some (record, current)) ∧ record.stateId = a.stateId ∧
      adopts state a.stateId (some (record, current)) = false
  groups : s'.groups = s.groups
  authorities : s'.authorities = s.authorities

/-- The record an announce starts from: the stored one, or that of a node that joins. -/
def StartsFrom (E : Env) (s : Store) (d : Draws) (a : GroupAuthorityAnnounce) (state : SignedState)
    (rec : GroupRecord) : Prop :=
  s.groups state.group = some rec ∨ (s.groups state.group = none ∧
    rec = joinRecord E d state.group state.name state.owner (stateMembers state) a.secret
      state.generation)

structure Adopted (E : Env) (s s' : Store) (d : Draws) (sender : GroupSender)
    (a : GroupAuthorityAnnounce) (state : SignedState)
    (current : Option (GroupAuthorityRecord × SignedState)) : Prop where
  admitted : Admitted E s sender a state current
  wins : adopts state a.stateId current = true
  groups : ∃ rec after, StartsFrom E s d a state rec ∧
    after.terms = (rec.adopting state a.secret).terms ∧
    s'.groups = Function.update s.groups state.group (some after)
  authorities : s'.authorities =
    Function.update s.authorities state.group (some (adoptedRecord a state current))

theorem adoptAnnounce_eq_ok
    (h : adoptAnnounce E s d sender a state current origin control accept rec = .ok (s', verdict)) :
    (∃ after, after.terms = (rec.adopting state a.secret).terms ∧
      s'.groups = Function.update s.groups state.group (some after)) ∧
    s'.authorities =
      Function.update s.authorities state.group (some (adoptedRecord a state current)) := by
  simp only [adoptAnnounce, bind_eq_ok_iff, commit_eq_ok_iff, ok.injEq, Prod.mk.injEq] at h
  obtain ⟨_, -, after, haft, _, -, _, ⟨-, rfl⟩, rfl, -⟩ := h
  refine ⟨⟨after, rotateAdopted_terms haft, ?_⟩, ?_⟩ <;> simp

theorem refreshChain_eq_ok
    (h : refreshChain E s sender a state origin control accept rec = .ok (s', verdict)) :
    s'.groups = s.groups ∧ s'.authorities = s.authorities := by
  unfold refreshChain at h
  split_ifs at h
  · obtain ⟨_, -, h⟩ := bind_eq_ok_iff.mp h
    split_ifs at h
    · obtain ⟨rfl, -⟩ := Prod.mk.inj (ok.inj h)
      exact ⟨rfl, rfl⟩
    · obtain rfl := eq_of_commit_eq_ok h
      simp
  · obtain ⟨rfl, -⟩ := Prod.mk.inj (ok.inj h)
    exact ⟨rfl, rfl⟩

/-- **What a signed announce does**: nothing, install a chain, or adopt its state. -/
theorem applyAuthorityAnnounce_cases
    (h : applyAuthorityAnnounce E s d sender a origin control accept = .ok (s', verdict)) :
    s' = s ∨ Refreshed E s s' sender a ∨
      ∃ state current, Adopted E s s' d sender a state current := by
  unfold applyAuthorityAnnounce at h
  split at h
  · exact .inl (Prod.mk.inj (ok.inj h)).1.symm
  next state hst =>
  split_ifs at h with hls
  · exact .inl (Prod.mk.inj (ok.inj h)).1.symm
  obtain ⟨current, hcur, h⟩ := bind_eq_ok_iff.mp h
  split_ifs at h with hfollows hlose
  · exact .inl (Prod.mk.inj (ok.inj h)).1.symm
  · exact .inl (Prod.mk.inj (ok.inj h)).1.symm
  -- The announce wins or is the winner.
  have hadm : Admitted E s sender a state current :=
    ⟨hst, by simpa using hls, hcur, by simpa using hfollows⟩
  unfold applyWinning at h
  split at h
  · next hnone =>
    split_ifs at h with hadopts
    · exact .inl (Prod.mk.inj (ok.inj h)).1.symm
    · obtain ⟨⟨after, hter, hgrps⟩, hauth⟩ := adoptAnnounce_eq_ok h
      exact .inr (.inr ⟨state, current, hadm, by simpa using hadopts,
        ⟨_, after, .inr ⟨hnone, rfl⟩, hter, hgrps⟩, hauth⟩)
  · next rec hrec =>
    split_ifs at h with hadopts
    · obtain ⟨⟨after, hter, hgrps⟩, hauth⟩ := adoptAnnounce_eq_ok h
      exact .inr (.inr ⟨state, current, hadm, hadopts, ⟨rec, after, .inl hrec, hter, hgrps⟩, hauth⟩)
    · obtain ⟨hgrps, hauth⟩ := refreshChain_eq_ok h
      -- It is refreshed only where it is the current winner.
      have hwin : isCurrentWinner a.stateId current = true := by simp_all
      cases current with
      | none => cases hwin
      | some pair =>
        exact .inr (.inl ⟨⟨state, pair.1, pair.2, hadm, by simpa [isCurrentWinner] using hwin,
          by simpa using hadopts⟩, hgrps, hauth⟩)

/-- An admitted announce of a group that the node has joined: adopted when it wins, a chain to
install when it names the accepted event, and nothing otherwise. -/
theorem applyAuthorityAnnounce_of_admitted (h : Admitted E s sender a state current)
    (hrec : s.groups state.group = some rec) :
    applyAuthorityAnnounce E s d sender a origin control accept =
      if adopts state a.stateId current then
        adoptAnnounce E s d sender a state current origin control accept rec
      else if isCurrentWinner a.stateId current then
        refreshChain E s sender a state origin control accept rec
      else .ok (s, .discarded) := by
  simp only [applyAuthorityAnnounce, h.announced, h.listed, Bool.true_eq_false, if_false,
    h.current_eq, ok_bind, h.follows, applyWinning, hrec]
  cases hadopts : adopts state a.stateId current <;>
    cases hwin : isCurrentWinner a.stateId current <;> simp

/-! ### Agreement -/

/-- The two rows of one signed group agree. -/
def RowsAgree (E : Env) (group : Octets 32) (rec : GroupRecord) (record : GroupAuthorityRecord) :
    Prop :=
  record.group = group ∧ ∃ state, decodeStored record = .ok state ∧
    hashSecret E.suite rec.secret = state.secretHash ∧ rec.generation = state.generation ∧
    rec.creator = state.owner ∧ rec.members = stateMembers state ∧
    verifyAuthorityState E.suite E.postcard state (some rec.secret) = .ok ()

/-- Every authority record has a group record that agrees with it; group records are stored under
their own id. -/
structure Agreement (E : Env) (s : Store) : Prop where
  keyed : ∀ group rec, s.groups group = some rec → rec.id = group
  agree : ∀ group record, s.authorities group = some record →
    ∃ rec, s.groups group = some rec ∧ RowsAgree E group rec record

variable {secret : Octets 32} {record : GroupAuthorityRecord}

theorem rowsAgree_of_verified (hrec : record.group = group) (hgrp : state.group = group)
    (hdec : decodeGroupAuthority record.statePayload = .state state)
    (hver : verifyAuthorityState E.suite E.postcard state (some secret) = .ok ())
    (hsec : rec.secret = secret) (hgen : rec.generation = state.generation)
    (hcreate : rec.creator = state.owner) (hmem : rec.members = stateMembers state) :
    RowsAgree E group rec record := by
  subst hsec
  have hsto : decodeStored record = .ok state :=
    decodeStored_eq_ok_iff.mpr ⟨hdec, hgrp.trans hrec.symm⟩
  have hsteps := hver
  simp only [verifyAuthorityState, bind_eq_ok_iff, rejectIf_eq_ok_iff] at hsteps
  obtain ⟨_, -, _, -, _, -, _, -, hhash⟩ := hsteps
  exact ⟨hrec, state, hsto, by simpa using hhash, hgen, hcreate, hmem, hver⟩

/-- Rows that differ in the sending chain and the consumed requests alone agree alike. -/
theorem RowsAgree.congr {rec' : GroupRecord} {record' : GroupAuthorityRecord}
    (h : RowsAgree E group rec record) (hter : rec'.terms = rec.terms)
    (hgrp : record'.group = record.group)
    (hpay : record'.statePayload = record.statePayload) : RowsAgree E group rec' record' := by
  obtain ⟨hkey, state, hsto, hrest⟩ := h
  have hsto' : decodeStored record' = .ok state := by
    rw [← hsto, decodeStored, decodeStored, hpay, hgrp]
  have hsec : rec'.secret = rec.secret := congrArg GroupTerms.secret hter
  have hgen : rec'.generation = rec.generation := congrArg GroupTerms.generation hter
  have hcreate : rec'.creator = rec.creator := congrArg GroupTerms.creator hter
  have hmem : rec'.members = rec.members := congrArg GroupTerms.members hter
  refine ⟨hgrp.trans hkey, state, hsto', ?_⟩
  rw [hsec, hgen, hcreate, hmem]
  exact hrest

/-! ### How commits change the two rows -/

namespace Agreement

theorem of_same (h : Agreement E s) (hgrps : s'.groups = s.groups)
    (hauth : s'.authorities = s.authorities) : Agreement E s' :=
  ⟨hgrps ▸ h.keyed, fun group record hr => by
    rw [hgrps]
    exact h.agree group record (hauth ▸ hr)⟩

variable {after : GroupRecord}

section

variable (h : Agreement E s)

include h

theorem of_update {rec : Option GroupRecord} {record : Option GroupAuthorityRecord}
    (hgrps : s'.groups = Function.update s.groups group rec)
    (hauth : s'.authorities = Function.update s.authorities group record)
    (hkey : ∀ r ∈ rec, r.id = group) (hagr : ∀ r ∈ record, ∃ x ∈ rec, RowsAgree E group x r) :
    Agreement E s' := by
  constructor
  · intro g r hr
    rw [hgrps] at hr
    by_cases hg : g = group
    · subst hg
      rw [update_self] at hr
      exact hkey r hr
    · rw [update_of_ne hg] at hr
      exact h.keyed g r hr
  · intro g r hr
    rw [hauth] at hr
    rw [hgrps]
    by_cases hg : g = group
    · subst hg
      rw [update_self] at hr ⊢
      exact hagr r hr
    · rw [update_of_ne hg] at hr ⊢
      exact h.agree g r hr

theorem of_chain {before : GroupRecord} (hbef : s.groups group = some before)
    (hter : after.terms = before.terms)
    (hgrps : s'.groups = Function.update s.groups group (some after))
    (hauth : s'.authorities = s.authorities) : Agreement E s' := by
  refine h.of_update hgrps (hauth.trans (update_eq_self group s.authorities).symm) ?_ ?_
  · rintro r ⟨⟩
    exact (congrArg GroupTerms.id hter).trans (h.keyed group before hbef)
  · intro record hrecord
    obtain ⟨rec, hrec, hagr⟩ := h.agree group record hrecord
    obtain rfl : before = rec := Option.some.inj (hbef.symm.trans hrec)
    exact ⟨after, rfl, hagr.congr hter rfl rfl⟩

theorem of_unsigned (hnone : s.authorities group = none) (hid : after.id = group)
    (hgrps : s'.groups = Function.update s.groups group (some after))
    (hauth : s'.authorities = s.authorities) : Agreement E s' := by
  refine h.of_update hgrps (hauth.trans (update_eq_self group s.authorities).symm) ?_ ?_
  · rintro r ⟨⟩
    exact hid
  · intro record hrec
    rw [hnone] at hrec
    cases hrec

theorem of_removal (hgrps : s'.groups = Function.update s.groups group none)
    (hauth : s'.authorities = Function.update s.authorities group none) : Agreement E s' :=
  h.of_update hgrps hauth (by simp) (by simp)

theorem of_adopted {sender : GroupSender} {a : GroupAuthorityAnnounce} {state : SignedState}
    {current : Option (GroupAuthorityRecord × SignedState)}
    (hadopt : Adopted E s s' d sender a state current) : Agreement E s' := by
  obtain ⟨hadm, -, ⟨rec, after, hstart, hter, hgrps⟩, hauth⟩ := hadopt
  obtain ⟨hdec, -, -, hver⟩ := announcedState_eq_some hadm.announced
  refine h.of_update hgrps hauth ?_ ?_
  · rintro r ⟨⟩
    have hid : after.id = rec.id := congrArg GroupTerms.id hter
    rcases hstart with hrec | ⟨-, rfl⟩
    · exact hid.trans (h.keyed _ _ hrec)
    · exact hid
  · rintro r ⟨⟩
    exact ⟨after, rfl, rowsAgree_of_verified rfl rfl hdec hver
      (congrArg GroupTerms.secret hter) (congrArg GroupTerms.generation hter)
      (congrArg GroupTerms.creator hter) (congrArg GroupTerms.members hter)⟩

end

end Agreement

end Komms.Group
