import Komms.Group.Equiv.Reachable

/-!
# The event id beside a signed state

Of two states of one generation the one with the smaller event id wins, and the id travels beside
the state: no signature covers it.  An announce of exactly the accepted state therefore moves a
replica when it claims a smaller id (`unmoved_iff_not_retags`), and otherwise leaves it where it is.
-/

namespace Komms.Group

open GroupAuthority

section TieBreak

variable {E : Env} {s : Store} {d : Draws} {sender : GroupSender} {a : GroupAuthorityAnnounce}
  {origin : Option GroupOriginMaterial} {control : DeferredControl} {accept : Bool}
  {record : GroupAuthorityRecord} {state : SignedState} {rec : GroupRecord}

/-- The accepted event id, the group secret, the generation and the node's own sending chain are
unchanged. -/
def Unmoved (s s' : Store) (group : Octets 32) : Prop :=
  (s'.authorities group).map GroupAuthorityRecord.stateId =
      (s.authorities group).map GroupAuthorityRecord.stateId ∧
    (s'.groups group).map (fun rec => (rec.secret, rec.generation, rec.senderChain)) =
      (s.groups group).map fun rec => (rec.secret, rec.generation, rec.senderChain)

theorem Unmoved.of_same {s' : Store} {group : Octets 32} (hgrps : s'.groups = s.groups)
    (hauth : s'.authorities = s.authorities) : Unmoved s s' group := by
  unfold Unmoved
  rw [hgrps, hauth]
  exact ⟨rfl, rfl⟩

/-- The announce repeats the accepted state under a smaller event id, the node accepts the state as
a state of this group, and the adoption can be prepared and committed. -/
structure Retags (E : Env) (s : Store) (d : Draws) (sender : GroupSender)
    (a : GroupAuthorityAnnounce) (origin : Option GroupOriginMaterial) (control : DeferredControl)
    (accept : Bool) (record : GroupAuthorityRecord) (state : SignedState) (rec : GroupRecord) :
    Prop where
  smaller : a.stateId < record.stateId
  announced : announcedState E sender.account a = some state
  listed : lists state E.me = true
  commits : ∃ s' verdict, adoptAnnounce E s d sender a state (some (record, state)) origin control
    accept rec = .ok (s', verdict)

theorem mayFollow_self : mayFollow s state (some (record, state)) = true := by
  simp [mayFollow, UInt64.lt_irrefl]

theorem adopts_self_iff :
    adopts state a.stateId (some (record, state)) = true ↔ a.stateId < record.stateId := by
  simp [adopts, UInt64.lt_irrefl]

/-- An announce of the accepted payload that adopts its state repeats the accepted one under a
smaller id. -/
theorem Adopted.accepted_eq {s' : Store} {state' : SignedState}
    {current : Option (GroupAuthorityRecord × SignedState)}
    (h : Adopted E s s' d sender a state' current) (hrec : s.authorities a.group = some record)
    (hsto : decodeStored record = .ok state) (hpay : a.statePayload = record.statePayload) :
    state' = state ∧ current = some (record, state) := by
  obtain ⟨hdec, hgrp, -, -⟩ := announcedState_eq_some h.admitted.announced
  have hsame : state' = state := by
    have hdec' := (decodeStored_eq_ok_iff.mp hsto).1
    rw [← hpay, hdec] at hdec'
    exact DecodedGroupAuthority.state.inj hdec'
  have hcur := h.admitted.current_eq
  rw [currentState, hgrp, hrec] at hcur
  simp only [hsto, ok_bind, Except.ok.injEq] at hcur
  exact ⟨hsame, hcur.symm⟩

/-- **Who moves a replica**: an announce whose payload is byte for byte the accepted one leaves the
accepted id, the secret, the generation and the sending chain alone exactly when it does not retag
the state with a smaller id. -/
theorem unmoved_iff_not_retags (hrecord : s.authorities a.group = some record)
    (hstored : decodeStored record = .ok state) (hrec : s.groups a.group = some rec)
    (hpayload : a.statePayload = record.statePayload) :
    Unmoved s (Effect.ofExcept s
        (applyAuthorityAnnounce E s d sender a origin control accept)).state a.group ↔
      ¬ Retags E s d sender a origin control accept record state rec := by
  constructor
  · -- A retagged state is adopted, so the accepted id becomes the smaller one.
    rintro hunm ⟨hsmall, hann, hls, s', verdict, hcom⟩
    have hgrp := (announcedState_eq_some hann).2.1
    have hok : applyAuthorityAnnounce E s d sender a origin control accept = .ok (s', verdict) := by
      have hcur : currentState s state.group = .ok (some (record, state)) := by
        rw [currentState, hgrp, hrecord]
        simp only [hstored, ok_bind]
      rw [applyAuthorityAnnounce_of_admitted ⟨hann, hls, hcur, mayFollow_self⟩ (hgrp ▸ hrec),
        if_pos (adopts_self_iff.mpr hsmall), hcom]
    have hid : a.stateId = record.stateId := by
      have hkept := hunm.1
      rw [hok, Effect.ofExcept_ok, (adoptAnnounce_eq_ok hcom).2, hrecord, hgrp] at hkept
      simpa [adoptedRecord] using hkept
    exact absurd hsmall (hid ▸ lt_irrefl _)
  · intro hret
    cases hok : applyAuthorityAnnounce E s d sender a origin control accept with
    | error e => exact .of_same rfl rfl
    | ok result =>
      obtain ⟨s', verdict⟩ := result
      rw [Effect.ofExcept_ok]
      obtain rfl | href | ⟨state', current, hadopt⟩ := applyAuthorityAnnounce_cases hok
      · exact .of_same rfl rfl
      · exact .of_same href.groups href.authorities
      · obtain ⟨rfl, rfl⟩ := hadopt.accepted_eq hrecord hstored hpayload
        have hgrp := (announcedState_eq_some hadopt.admitted.announced).2.1
        rw [applyAuthorityAnnounce_of_admitted hadopt.admitted (hgrp ▸ hrec),
          if_pos hadopt.wins] at hok
        exact absurd ⟨adopts_self_iff.mp hadopt.wins, hadopt.admitted.announced,
          hadopt.admitted.listed, s', verdict, hok⟩ hret

end TieBreak

namespace Sample

open GroupAuthority.Sample (peer)

/-- The owner has joined with the state under event id 8. -/
def joined : Store := join.run (env 1 payloads) emptyStore

def joinedRow : GroupRecord where
  id := peer 9
  name := state.name
  creator := peer 1
  members := stateMembers state
  secret := peer 5
  prevSecret := none
  generation := 7
  senderChain := .legacy (draws.chain 1)
  sentSinceRotation := 0
  pending := pendingFor (peer 1) (draws.chain 1) (stateMembers state)

theorem joined_rows :
    joined.authorities (peer 9) = some stale ∧ joined.groups (peer 9) = some joinedRow := by
  decide +kernel

theorem decodeStored_stale : decodeStored stale = .ok state :=
  decodeStored_eq_ok_iff.mpr ⟨decode_statePayload, rfl⟩

def freshDraws : Draws := { draws with keyId := fun k => .replicate 16 (UInt8.ofNat (k + 200)) }

/-- Member 3 announces the accepted state to the owner under the given event id. -/
def retag (stateId : UInt8) : Except NodeError (Store × Verdict) :=
  applyAuthorityAnnounce (env 1 payloads) joined freshDraws ⟨peer 3, peer 103⟩
    (announce stateId) none (controlFrom 3 0) false

theorem announce_payload_eq (stateId : UInt8) :
    (announce stateId).statePayload = stale.statePayload := by
  simp only [announce, stale]

/-- A larger id moves nothing. -/
theorem retag_larger_unmoved :
    Unmoved joined (Effect.ofExcept joined (retag 9)).state (peer 9) := by
  have hgrp : (announce 9).group = peer 9 := by simp only [announce]
  have hrecord : joined.authorities (announce 9).group = some stale := hgrp ▸ joined_rows.1
  have hrec : joined.groups (announce 9).group = some joinedRow := hgrp ▸ joined_rows.2
  refine (unmoved_iff_not_retags hrecord decodeStored_stale hrec (announce_payload_eq 9)).mpr
    fun h => ?_
  exact absurd h.smaller (by decide +kernel)

/-- The ordinary member 3 repeats the accepted payload under event id 7: the owner takes over the id
and throws its sending chain away. -/
theorem retag_smaller_moves :
    hasRole state (peer 3) .member = true ∧ (announce 7).statePayload = stale.statePayload ∧
      ((Effect.ofExcept joined (retag 7)).state.authorities (peer 9)).map
        GroupAuthorityRecord.stateId = some (.replicate 16 7) ∧
      ((Effect.ofExcept joined (retag 7)).state.groups (peer 9)).map GroupRecord.senderChain =
        some (.legacy (freshDraws.chain 1)) ∧
      ¬ Unmoved joined (Effect.ofExcept joined (retag 7)).state (peer 9) := by
  have hid : ((Effect.ofExcept joined (retag 7)).state.authorities (peer 9)).map
      GroupAuthorityRecord.stateId = some (.replicate 16 7) := by decide +kernel
  refine ⟨by decide, announce_payload_eq 7, hid, by decide +kernel, fun hunm => ?_⟩
  have hkept := hunm.1
  rw [hid, joined_rows.1] at hkept
  exact absurd hkept (by decide)

end Sample

end Komms.Group
