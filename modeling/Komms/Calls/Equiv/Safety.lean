import Komms.Calls.Equiv.Evolution

/-!
# The call state machine

What holds of the calls after every sequence of operations (`callsOk_run`), derived from what one
operation may do (`progress_perform`); and that a control leaves a connecting or active call alone
unless its initiator or its responder sent it (`lookup_applyCallControl`).
-/

namespace Komms.Calls

open HashMap AList

section

variable {Stream Media : Type} {around : Surroundings Stream Media} {calls calls' : CallTable Media}
  {call call' : ActiveCall Media} {id : Octets 16} {now : ℕ} {drawn : Option (Octets 16)}

/-! ### Invariants -/

structure CallsOk (calls : CallTable Media) : Prop where
  rows : ∀ id call, calls.lookup id = some call → WellFormed call
  single : ∀ id id' call call', calls.lookup id = some call → calls.lookup id' = some call' →
    call.info.phase ≠ .ended → call'.info.phase ≠ .ended → id = id'
  bounded : len calls ≤ maxTransientCalls

theorem CallsOk.empty : CallsOk (∅ : CallTable Media) :=
  ⟨fun _ _ h => (nomatch h), fun _ _ _ _ h => (nomatch h), Nat.zero_le _⟩

theorem ended_of_not_hasLiveCall (h : hasLiveCall calls = false)
    (hcall : calls.lookup id = some call) : call.info.phase = .ended := by
  have hentry : ⟨id, call⟩ ∈ calls.entries := mem_lookup_iff.mp hcall
  simpa using List.any_eq_false.mp h _ hentry

theorem CallsOk.evolves (h : CallsOk calls) (hevolve : Evolves calls calls') : CallsOk calls' := by
  refine ⟨fun id call' hcall' => ?_, fun id id' c₁ c₂ h₁ h₂ hlive₁ hlive₂ => ?_,
    hevolve.len_le.trans h.bounded⟩
  · obtain ⟨call, hcall, hfollows⟩ := hevolve.rows id call' hcall'
    exact hfollows.wellFormed (h.rows id call hcall)
  · obtain ⟨b₁, hb₁, hfollows₁⟩ := hevolve.rows id c₁ h₁
    obtain ⟨b₂, hb₂, hfollows₂⟩ := hevolve.rows id' c₂ h₂
    exact h.single id id' b₁ b₂ hb₁ hb₂ (fun he => hlive₁ (hfollows₁.final he))
      fun he => hlive₂ (hfollows₂.final he)

theorem CallsOk.insert (h : CallsOk calls)
    (hend : ∀ id call, calls.lookup id = some call → call.info.phase = .ended)
    (hroom : len calls < maxTransientCalls) (hcall : WellFormed call) :
    CallsOk (calls.insert id call) := by
  have hother : ∀ other found, (calls.insert id call).lookup other = some found → other ≠ id →
      calls.lookup other = some found := fun other found hfnd hne => by
    rwa [lookup_insert_ne hne] at hfnd
  have honly : ∀ other found, (calls.insert id call).lookup other = some found →
      found.info.phase ≠ .ended → other = id := fun other found hfnd hlive => by
    by_contra hne
    exact hlive (hend other found (hother other found hfnd hne))
  refine ⟨fun other found hfnd => ?_, fun id₁ id₂ c₁ c₂ h₁ h₂ hlive₁ hlive₂ => ?_, ?_⟩
  · by_cases hid : other = id
    · subst hid
      rw [lookup_insert] at hfnd
      cases hfnd
      exact hcall
    · exact h.rows other found (hother other found hfnd hid)
  · rw [honly id₁ c₁ h₁ hlive₁, honly id₂ c₂ h₂ hlive₂]
  · rw [len_insert]
    split_ifs <;> omega

theorem CallsOk.progress (h : CallsOk calls) (hprogress : Progress drawn calls calls') :
    CallsOk calls' := by
  cases hprogress with
  | evolved hevolve => exact h.evolves hevolve
  | created hevolve hnone hroom hcall _ =>
    refine (h.evolves hevolve).insert (fun id call' hcall' => ?_) hroom hcall
    obtain ⟨_, hlk, hfollows⟩ := hevolve.rows id call' hcall'
    exact hfollows.final (ended_of_not_hasLiveCall hnone hlk)

theorem callsOk_run (h : CallsOk calls) (steps : List (Step Stream Media)) :
    CallsOk (run calls steps) := by
  induction steps generalizing calls with
  | nil => exact h
  | cons step steps ih => exact ih (h.progress (progress_perform step))

/-- A row that is still there has moved along, unless the operation drew its id for a new call. -/
theorem Progress.follows (h : Progress drawn calls calls') (hdraw : drawn ≠ some id)
    (hcall : calls.lookup id = some call) (hcall' : calls'.lookup id = some call') :
    Follows call call' := by
  have hold : ∀ before : CallTable Media, Evolves calls before → before.lookup id = some call' →
      Follows call call' := fun before hevolve hbef => by
    obtain ⟨_, hfnd, hfollows⟩ := hevolve.rows id call' hbef
    rw [hcall] at hfnd
    cases hfnd
    exact hfollows
  cases h with
  | evolved hevolve => exact hold _ hevolve hcall'
  | @created before newId _ hevolve _ _ _ hid =>
    have hne : id ≠ newId := by
      rintro rfl
      obtain hid | hid := hid
      · exact hdraw hid
      · rw [hcall] at hid
        cases hid
    rw [lookup_insert_ne hne] at hcall'
    exact hold _ hevolve hcall'

/-! ### Controls of other devices -/

theorem lookup_endCall_of_ne {other : Octets 16} (hne : id ≠ other) (reason : CallEndReason) :
    (endCall other reason now calls).state.lookup id = calls.lookup id := by
  unfold endCall
  split
  · rfl
  · split_ifs
    · rfl
    · exact lookup_insert_ne hne

section

variable {peer peerDevice initiator responder : Octets 32} {expiresAt : ℕ} {other : Octets 16}

theorem lookup_applyNegative_of_ne {isDecline : Bool} (hne : id ≠ other) :
    (applyNegative isDecline peer peerDevice other initiator responder expiresAt now
      calls).state.lookup id = calls.lookup id := by
  unfold applyNegative
  split_ifs
  · rfl
  · split
    · rfl
    · dsimp only
      split_ifs <;> simp [lookup_endCall_of_ne hne, lookup_insert_ne hne]

section

variable (hcall : calls.lookup id = some call)

include hcall

theorem ne_of_lookup {found : ActiveCall Media} (hfnd : calls.lookup other = some found)
    (h : found ≠ call) : id ≠ other := by
  rintro rfl
  rw [hcall] at hfnd
  exact h (Option.some.inj hfnd).symm

theorem lookup_applyAnswer (hphase : call.info.phase ≠ .ringing) :
    (applyAnswer peer peerDevice other initiator responder expiresAt now calls).state.lookup id =
      some call := by
  unfold applyAnswer
  split_ifs
  · exact hcall
  · split
    · exact hcall
    · next found hfnd =>
      split_ifs with hmat hrin
      · have hne := ne_of_lookup hcall hfnd fun h => hphase (h ▸ hrin.1)
        rw [lookup_insert_ne hne, hcall]
      all_goals exact hcall

theorem lookup_applyNegative {isDecline : Bool} (hphase : call.info.phase ≠ .ringing) :
    (applyNegative isDecline peer peerDevice other initiator responder expiresAt now
      calls).state.lookup id = some call := by
  by_cases hne : id = other
  · subst hne
    unfold applyNegative
    rw [hcall]
    dsimp only
    rw [if_pos hphase]
    split_ifs <;> exact hcall
  · rw [lookup_applyNegative_of_ne hne, hcall]

variable (hinitiator : peerDevice ≠ call.info.initiatorDevice)
include hinitiator

theorem lookup_applyCancel :
    (applyCancel peer peerDevice other initiator expiresAt now calls).state.lookup id =
      some call := by
  unfold applyCancel
  split_ifs with hdev
  · exact hcall
  · rw [not_ne_iff] at hdev
    split
    · exact hcall
    · next found hfnd =>
      split_ifs with hmat hend
      any_goals exact hcall
      · have hne := ne_of_lookup hcall hfnd fun h =>
          hinitiator (h ▸ hdev.symm.trans hmat.2.2.1.symm)
        rw [lookup_endCall_of_ne hne, hcall]

variable (hresponder : call.info.responderDevice ≠ some peerDevice)
include hresponder

theorem lookup_applyHangup {reason : CallHangupReason} :
    (applyHangup around peer peerDevice other initiator responder expiresAt reason now
      calls).state.lookup id = some call := by
  unfold applyHangup
  split
  · exact hcall
  · next found hfnd =>
    split_ifs with hval hend
    · exact hcall
    · have hne : id ≠ other := by
        refine ne_of_lookup hcall hfnd ?_
        rintro rfl
        unfold validHangup at hval
        split at hval
        · exact hresponder (hval.2.2.1.trans (congrArg some hval.2.1))
        · exact hinitiator (hval.2.1.symm.trans hval.1.2.2.1.symm)
      rw [lookup_endCall_of_ne hne, hcall]
    · exact hcall

/-- **A control from another device leaves a connecting or active call as it is.** -/
theorem lookup_applyCallControl {control : CallControl}
    (hphase : call.info.phase = .connecting ∨ call.info.phase = .active) :
    (applyCallControl around peer peerDevice control now calls).state.lookup id = some call := by
  have hrin : call.info.phase ≠ .ringing := by
    rcases hphase with h | h <;> rw [h] <;> decide
  have hend : call.info.phase ≠ .ended := by
    rcases hphase with h | h <;> rw [h] <;> decide
  unfold applyCallControl
  split
  · exact hcall
  · split_ifs
    · exact hcall
    · cases control with
      | offer =>
        dsimp only [applyOffer]
        split_ifs with hshape hknow hbusy
        any_goals exact hcall
        · exact absurd (ended_of_not_hasLiveCall (by simpa using hbusy) hcall) hend
      | answer => exact lookup_applyAnswer hcall hrin
      | decline | busy => exact lookup_applyNegative hcall hrin
      | cancel => exact lookup_applyCancel hcall hinitiator
      | hangup => exact lookup_applyHangup hcall hinitiator hresponder

end

end

end

/-- **The call state machine is safe.**  After any operations and controls: at most one call is
live, few are retained, every row is well formed, and a further step keeps responders and ended
calls, and lets no third device end a call that is connecting or active. -/
theorem call_state_machine {Stream Media : Type} (steps : List (Step Stream Media)) :
    let calls := run (∅ : CallTable Media) steps
    (∀ id id' call call', calls.lookup id = some call → calls.lookup id' = some call' →
      call.info.phase ≠ .ended → call'.info.phase ≠ .ended → id = id') ∧
    len calls ≤ maxTransientCalls ∧
    (∀ id call, calls.lookup id = some call → WellFormed call) ∧
    (∀ (step : Step Stream Media) (id : Octets 16) (call call' : ActiveCall Media),
      step.operation.drawn ≠ some id → calls.lookup id = some call →
      (step.perform calls).state.lookup id = some call' →
        (∀ device, call.info.responderDevice = some device →
          call'.info.responderDevice = some device) ∧
        (call.info.phase = .ended → call'.info.phase = .ended)) ∧
    ∀ (around : Surroundings Stream Media) (peer peerDevice : Octets 32) (control : CallControl)
      (now : ℕ) (id : Octets 16) (call : ActiveCall Media), calls.lookup id = some call →
      call.info.phase = .connecting ∨ call.info.phase = .active →
      peerDevice ≠ call.info.initiatorDevice → call.info.responderDevice ≠ some peerDevice →
        (applyCallControl around peer peerDevice control now calls).state.lookup id =
          some call := by
  intro calls
  have hok : CallsOk calls := callsOk_run .empty steps
  refine ⟨hok.single, hok.bounded, hok.rows, fun step id call call' hdraw hcall hcall' => ?_,
    fun around peer peerDevice control now id call hcall hphase hinitiator hresponder =>
      lookup_applyCallControl hcall hinitiator hresponder hphase⟩
  -- The invariant gives the bounds, the step what follows a row.
  have hfollows := (progress_perform step).follows hdraw hcall hcall'
  exact ⟨hfollows.responder (hok.rows id call hcall), hfollows.final⟩

end Komms.Calls
