import Komms.Calls.Equiv.Safety

/-!
# How an offered call is refused

A ringing call ends as declined or busy once as many devices of the called account have refused it
as it was offered to.  `apply_call_control` counts every device that the account has by then,
offered or not, so an offered device may still be ringing (`refused_by_all_iff`).
-/

namespace Komms.Calls

open AList List

variable {Stream Media : Type}

/-- A decline, or a busy answer, as it arrives from an authenticated device. -/
structure Refusal (Stream Media : Type) where
  around : Surroundings Stream Media
  isDecline : Bool
  peer : Octets 32
  peerDevice : Octets 32
  callId : Octets 16
  initiator : Octets 32
  responder : Octets 32
  expiresAt : ℕ
  now : ℕ

namespace Refusal

def deliver (calls : CallTable Media) (r : Refusal Stream Media) : CallTable Media :=
  let control := if r.isDecline then CallControl.decline else .busy
  (applyCallControl r.around r.peer r.peerDevice
    (control r.callId r.initiator r.responder r.expiresAt) r.now calls).state

/-- The device that a refusal is from, if it refuses this call. -/
def device? (info : CallInfo) (r : Refusal Stream Media) : Option (Octets 32) :=
  match accountForDevice r.around r.peerDevice with
  | .error _ => none
  | .ok account =>
    if account = r.peer ∧ r.responder = r.peerDevice ∧ r.callId = info.id ∧ info.peer = r.peer ∧
        info.initiatorDevice = r.initiator ∧ info.expiresAt = r.expiresAt then some r.peerDevice
    else none

def devices (info : CallInfo) (rs : List (Refusal Stream Media)) : Finset (Octets 32) :=
  (rs.filterMap (device? info)).toFinset

end Refusal

open Refusal

section

variable {calls : CallTable Media} {call : ActiveCall Media}

/-- The call rings, with the devices that refused it on record, while they are fewer than those it
was offered to. -/
def Tally (info : CallInfo) (offered : List (Octets 32)) (refused : Finset (Octets 32))
    (calls : CallTable Media) : Prop :=
  ∃ call, calls.lookup info.id = some call ∧
    if refused.card < offered.length then
      call.info = info ∧ call.offeredDevices = offered ∧ call.negativeResponses = refused
    else call.info.phase = .ended

variable {info : CallInfo} {offered : List (Octets 32)} {refused : Finset (Octets 32)}

theorem Tally.deliver (hdir : info.direction = .outgoing) (hring : info.phase = .ringing)
    (h : Tally info offered refused calls) (r : Refusal Stream Media) :
    Tally info offered ((r.device? info).elim refused (insert · refused)) (r.deliver calls) := by
  obtain ⟨call, hcall, htally⟩ := h
  obtain ⟨around, isDecline, _, peerDevice, other, _, _, _, _⟩ := r
  unfold Refusal.deliver device? applyCallControl Tally
  have hgrow := Finset.card_le_card (Finset.subset_insert peerDevice refused)
  cases accountForDevice around peerDevice with
  | error e => exact ⟨call, hcall, htally⟩
  | ok account =>
    -- A refusal of another call leaves this one alone; one of this call counts until it has ended.
    by_cases hid : info.id = other
    · subst hid
      by_cases hless : refused.card < offered.length
      · rw [if_pos hless] at htally
        obtain ⟨rfl, rfl, rfl⟩ := htally
        cases isDecline <;>
          simp [applyNegative, hcall, endCall, ActiveCall.matching, hdir, hring] <;>
          split_ifs <;> simp_all [ActiveCall.ended] <;> omega
      · rw [if_neg hless] at htally
        cases isDecline <;> simp [applyNegative, hcall, htally] <;> split_ifs <;> simp_all <;> omega
    · have hother : ¬ other = info.id := fun h => hid h.symm
      simp only [hother, false_and, and_false, if_false]
      refine ⟨call, ?_, htally⟩
      cases isDecline <;> split_ifs <;> simp [hcall, lookup_applyNegative_of_ne hid]

theorem devices_concat (info : CallInfo) (rs : List (Refusal Stream Media))
    (r : Refusal Stream Media) : devices info (rs ++ [r]) =
      (r.device? info).elim (devices info rs) (insert · (devices info rs)) := by
  unfold devices
  cases hd : r.device? info <;> simp [hd]

/-! ### Offered calls -/

/-- A call as an offer leaves it. -/
structure Offered (call : ActiveCall Media) : Prop where
  outgoing : call.info.direction = .outgoing
  ringing : call.info.phase = .ringing
  unrefused : call.negativeResponses = ∅
  ne_nil : call.offeredDevices ≠ []
  nodup : call.offeredDevices.Nodup

variable {around : Surroundings Stream Media} {peer : Octets 32}

variable {callId : Nonzero 16} {masterSecret : Nonzero 32} {now : ℕ} {calls' : CallTable Media}

theorem offered_of_prepareOffer
    (h : prepareOffer around calls peer callId masterSecret now = .ok (calls', ()))
    (hcall : calls'.lookup callId.value = some call) :
    call.info.id = callId.value ∧ Offered call := by
  obtain ⟨_, hdev, h⟩ := bind_eq_ok_iff.mp h
  obtain ⟨-, h⟩ := rejectIf_bind_eq_ok_iff.mp h
  obtain ⟨hqueue, h⟩ := check_bind_eq_ok_iff.mp h
  cases h
  rw [lookup_insert] at hcall
  cases hcall
  refine ⟨rfl, rfl, rfl, rfl, (rejectIf_bind_eq_ok_iff.mp hqueue).1, ?_⟩
  obtain ⟨_, -, hdev⟩ := bind_eq_ok_iff.mp hdev
  dsimp only at hdev
  split at hdev
  all_goals
    obtain ⟨_, -, hdev⟩ := bind_eq_ok_iff.mp hdev
    cases hdev
    exact (pairwise_sortDedup _).imp ne_of_lt

/-- **Runs of refusals.** -/
theorem tally_foldl (h : Offered call) (hcall : calls.lookup call.info.id = some call)
    (rs : List (Refusal Stream Media)) :
    Tally call.info call.offeredDevices (devices call.info rs) (rs.foldl deliver calls) := by
  induction rs using List.reverseRecOn with
  | nil =>
    have hroom : (devices call.info ([] : List (Refusal Stream Media))).card <
        call.offeredDevices.length := length_pos_iff.mpr h.ne_nil
    exact ⟨call, hcall, (if_pos hroom).mpr ⟨rfl, rfl, h.unrefused⟩⟩
  | append_singleton rs r ih =>
    rw [foldl_append, devices_concat]
    exact ih.deliver h.outgoing h.ringing r

def Rings (id : Octets 16) (calls : CallTable Media) : Prop :=
  ∃ call, calls.lookup id = some call ∧ call.info.phase = .ringing

theorem Tally.rings_iff (h : Tally info offered refused calls) (hring : info.phase = .ringing) :
    Rings info.id calls ↔ refused.card < offered.length := by
  obtain ⟨call, hcall, htally⟩ := h
  constructor
  · rintro ⟨_, hfnd, hph⟩
    rw [hcall] at hfnd
    cases hfnd
    by_contra hfull
    rw [if_neg hfull, hph] at htally
    cases htally
  · intro hless
    rw [if_pos hless] at htally
    exact ⟨call, hcall, htally.1 ▸ hring⟩

/-- **The refusal that ends a call comes after those of all devices it was offered to exactly when**
only such devices have refused it by then. -/
theorem refused_by_all_iff
    (hoff : prepareOffer around calls peer callId masterSecret now = .ok (calls', ()))
    (hcall : calls'.lookup callId.value = some call) (rs : List (Refusal Stream Media))
    (r : Refusal Stream Media) :
    (Rings callId.value (rs.foldl deliver calls') →
      ¬ Rings callId.value ((rs ++ [r]).foldl deliver calls') →
        ∀ device ∈ call.offeredDevices, device ∈ devices call.info (rs ++ [r])) ↔
    ((devices call.info rs).card < call.offeredDevices.length →
      call.offeredDevices.length ≤ (devices call.info (rs ++ [r])).card →
        ∀ device ∈ devices call.info (rs ++ [r]), device ∈ call.offeredDevices) := by
  obtain ⟨hid, h⟩ := offered_of_prepareOffer hoff hcall
  rw [← hid] at hcall ⊢
  rw [(tally_foldl h hcall rs).rings_iff h.ringing,
    (tally_foldl h hcall (rs ++ [r])).rings_iff h.ringing, not_lt]
  refine forall₂_congr fun hless hfull => ?_
  have hadds : (devices call.info (rs ++ [r])).card ≤ (devices call.info rs).card + 1 := by
    rw [devices_concat]
    cases r.device? call.info with
    | none => exact Nat.le_succ _
    | some d => exact Finset.card_insert_le d _
  -- By then both sets have the same size, so each inclusion gives the other.
  have hcard := toFinset_card_of_nodup h.nodup
  simp only [← mem_toFinset, ← Finset.subset_iff]
  constructor
  all_goals
    intro hsub
    exact (Finset.eq_of_subset_of_card_le hsub (by omega)).ge

end

namespace Sample

def device (n : UInt8) : Octets 32 := .replicate 32 n

def callId : Nonzero 16 := ⟨.replicate 16 7, by decide⟩

def secret : Nonzero 32 := ⟨device 1, by decide⟩

/-- An account `1` with some devices, called from device `9`. -/
def around (devices : List (Octets 32)) : Surroundings Unit Unit where
  localAccount := device 8
  localDevice := device 9
  hasContact _ := .ok true
  contactDevices := .ok (devices.map (⟨device 1, ·, false⟩))
  carrier _ := .ok .realtime
  hasSession _ := true
  supportsCalls _ := true
  requestRendezvousRefresh _ := .ok ()
  commitEnvelopes _ _ := .ok ()
  incomingStreams := []
  openCallStream _ := .ok none
  newMedia _ _ _ _ := .ok ()
  pump _ media := (media, .ok false)
  maintainQueue := .ok ()
  order := .stored _

def call : ActiveCall Unit :=
  .offered ⟨callId.value, device 1, .outgoing, .ringing, device 9, none, 60, none⟩ secret.value
    [device 2] 0

def offered : CallTable Unit := (∅ : CallTable Unit).insert callId.value call

/-- Device `3` was linked after the offer. -/
def later : Refusal Unit Unit :=
  ⟨around [device 2, device 3], true, device 1, device 3, callId.value, device 9, device 3, 60, 1⟩

theorem prepareOffer_eq :
    prepareOffer (around [device 2]) ∅ (device 1) callId secret 0 = .ok (offered, ()) := rfl

theorem refused_by_all_iff_offered :
    (Rings callId.value offered → ¬ Rings callId.value (later.deliver offered) →
      ∀ d ∈ call.offeredDevices, d ∈ devices call.info [later]) ↔
    (0 < 1 → 1 ≤ (devices call.info [later]).card →
      ∀ d ∈ devices call.info [later], d ∈ call.offeredDevices) :=
  refused_by_all_iff prepareOffer_eq (lookup_insert _) [] later

/-- A device that was not offered the call ends it. -/
theorem ended_by_other_device : Rings callId.value offered ∧
    ¬ Rings callId.value (later.deliver offered) ∧ device 2 ∉ devices call.info [later] := by
  refine ⟨⟨call, lookup_insert _, rfl⟩, ?_, by decide⟩
  rintro ⟨_, hrow, hph⟩
  have hend : (later.deliver offered).lookup callId.value =
      some ({ call with negativeResponses := {device 3}, sawDecline := true }.ended .declined 1) :=
    rfl
  rw [hend] at hrow
  cases hrow
  cases hph

end Sample

end Komms.Calls
