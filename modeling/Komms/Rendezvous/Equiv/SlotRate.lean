import Komms.Rendezvous.Equiv.Store

/-!
# The rate limit of a slot

The bucket of a slot counts the operations admitted in its window, and an admission is refused when
the count has reached the limit.  But a sweep removes the bucket of a slot together with its expired
record: the count of the running window is lost (`slotCount_handle_iff`).  While no sweep does that,
the limit holds in every window.
-/

namespace Komms.Rendezvous

open Protocol HashMap RendezvousService List Option

/-! ### Counting -/

/-- The operations that the bucket of a slot counts in a window. -/
def slotCount (s : MutableState) (slot : Octets 32) (window : ℕ) : ℕ :=
  (bucketOf s.slotRates slot).operationsIn window

section

variable (service : RendezvousService) (slot : Octets 32)

/-- An operation on the slot is admitted. -/
def admitsFor : MutableState × Call → Bool
  | (s, call) => match call.request with
    | none => false
    | some request => request.slot = slot && (service.enter s call request).2

/-- The operations on a slot that are admitted in a window. -/
def admittedIn (window : ℕ) (trace : List (MutableState × Call)) : ℕ :=
  trace.countP fun step => admitsFor service slot step && step.2.now / rateWindowSecs = window

/-- A sweep picks the slot while its bucket counts operations of the current window. -/
def drops (order : Order Entry) (s : MutableState) (now : ℕ) : Bool :=
  slot ∈ expiredSlots order s now && 0 < slotCount s slot (now / rateWindowSecs)

/-- The second part of an admitted request sweeps again, if its epoch is acceptable. -/
def sweepsAgain (now : ℕ) : Request → Bool
  | .register request => RegisterEpoch request now
  | .lookup request => LookupEpoch request now

/-- One of the sweeps of a call loses the count of the slot. -/
def loses : MutableState × Call → Bool
  | (s, call) => match call.request with
    | none => false
    | some request =>
      (call.active < service.config.maxConcurrentRequests &&
        drops slot call.firstOrder s call.now) ||
        ((service.enter s call request).2 && sweepsAgain call.now request &&
          drops slot call.secondOrder (service.enter s call request).1 call.now)

end

section

variable {service : RendezvousService} {s : MutableState} {order : Order Entry}
  {now bytes window : ℕ} {client : Octets 16} {slot : Octets 32} {call : Call} {request : Request}
  {calls : List Call}

/-! ### The count of a slot -/

@[simp] theorem operationsIn_empty : RateBucket.empty.operationsIn window = 0 := ite_self 0

theorem slotCount_of_slotRates {s' : MutableState} (h : s'.slotRates = s.slotRates) :
    slotCount s' slot window = slotCount s slot window := by
  rw [slotCount, h, slotCount]

theorem slotCount_sweepExpired : slotCount (sweepExpired order s now) slot window =
    if slot ∈ expiredSlots order s now then 0 else slotCount s slot window := by
  unfold slotCount bucketOf
  rw [sweepExpired, lookup_eraseAll]
  split_ifs
  · exact operationsIn_empty
  · rfl

/-- Only the count of the current window outlives an admission. -/
theorem slotCount_refresh : slotCount (refresh order s now) slot window =
    if window = now / rateWindowSecs then slotCount (sweepExpired order s now) slot window
    else 0 := by
  unfold slotCount bucketOf refresh
  rw [lookup_retain]
  cases (sweepExpired order s now).slotRates.lookup slot with
  | none => simp
  | some bucket =>
    by_cases hcur : bucket.window = now / rateWindowSecs
    · rw [filter_some_pos (by simpa using hcur), getD_some,
        RateBucket.operationsIn, hcur]
      split_ifs with h h' h'
      · rfl
      · exact absurd h.symm h'
      · exact absurd h'.symm h
      · rfl
    · rw [filter_some_neg (by simpa using hcur), getD_none, operationsIn_empty]
      split_ifs with h
      · rw [getD_some, RateBucket.operationsIn, if_neg fun h' => hcur (h'.trans h)]
      · rfl

/-- A charge counts in the window of its clock and in no other. -/
theorem operationsIn_charge (bucket : RateBucket) :
    (bucket.charge now 1 bytes).operationsIn window =
      if window = now / rateWindowSecs then saturating32 (bucket.operationsIn window + 1)
      else 0 := by
  unfold RateBucket.charge RateBucket.operationsIn
  by_cases hcur : bucket.window = now / rateWindowSecs
  · simp only [hcur, ne_eq, not_true, if_false, eq_comm]
    split_ifs <;> rfl
  · simp only [hcur, ne_eq, not_false_iff, if_true, eq_comm]
    split_ifs with h h'
    · exact absurd (h'.symm.trans h) hcur
    · rfl
    · rfl

theorem slotCount_chargeAll {other : Octets 32} :
    slotCount (chargeAll s client other bytes now) slot window = if other = slot then
        if window = now / rateWindowSecs then saturating32 (slotCount s slot window + 1) else 0
      else slotCount s slot window := by
  unfold slotCount chargeAll
  by_cases hslot : other = slot
  · subst hslot
    rw [if_pos rfl, ← operationsIn_charge, bucketOf, AList.lookup_insert, getD_some]
  · rw [if_neg hslot, bucketOf, AList.lookup_insert_ne (Ne.symm hslot), ← bucketOf]

/-! ### One call -/

theorem Admissible.slotCount_lt
    (h : Admissible service (refresh order s now) client slot bytes now) :
    slotCount (sweepExpired order s now) slot (now / rateWindowSecs) <
      service.config.maxSlotOperationsPerMinute.toNat := by
  have hwit := h.within
  simp only [exceeds, not_or, Nat.not_le] at hwit
  have hslot : slotCount (refresh order s now) slot (now / rateWindowSecs) <
      service.config.maxSlotOperationsPerMinute.toNat := hwit.2.2.1
  rwa [slotCount_refresh, if_pos rfl] at hslot

/-- What is counted after an admission: what its sweep leaves, and the operation itself. -/
theorem slotCount_enter (hact : call.active < service.config.maxConcurrentRequests) :
    slotCount (service.enter s call request).1 slot (call.now / rateWindowSecs) =
      slotCount (sweepExpired call.firstOrder s call.now) slot (call.now / rateWindowSecs) +
        if request.slot = slot ∧ (service.enter s call request).2 = true then 1 else 0 := by
  unfold enter
  rw [if_pos hact]
  obtain ⟨hadm, heq⟩ | heq := @admitRequest_eq service s call.firstOrder call.now
    (call.body.length + request.responseLen) call.client request.slot
  · rw [heq, slotCount_chargeAll, slotCount_refresh, if_pos rfl]
    by_cases hslot : request.slot = slot
    · subst hslot
      have hlt := hadm.slotCount_lt
      have hlim := service.config.maxSlotOperationsPerMinute.toNat_lt
      simp only [if_true, and_self]
      unfold saturating32
      omega
    · simp [hslot]
  · rw [heq, slotCount_refresh, if_pos rfl]
    simp

theorem slotRates_register {r : RendezvousRegisterRequest} (hnow : now < 2 ^ 64) :
    (service.register order s r now).slotRates =
      if RegisterEpoch r now then (sweepExpired order s now).slotRates else s.slotRates := by
  rw [register_eq hnow]
  split_ifs <;> rfl

theorem slotCount_serve : slotCount (service.serve s call request).1 slot window =
    if (service.enter s call request).2 = true ∧ sweepsAgain call.now request = true ∧
        slot ∈ expiredSlots call.secondOrder (service.enter s call request).1 call.now then 0
    else slotCount (service.enter s call request).1 slot window := by
  cases hadm : (service.enter s call request).2 with
  | false =>
    rw [serve_of_refused hadm]
    simp
  | true =>
    cases request with
    | register r =>
      rw [serve_register hadm]
      have hrat := @slotRates_register service (service.enter s call (.register r)).1
        call.secondOrder call.now r call.now_lt
      by_cases hepoch : RegisterEpoch r call.now
      · rw [if_pos hepoch] at hrat
        rw [slotCount_of_slotRates hrat, slotCount_sweepExpired]
        simp [sweepsAgain, hepoch]
      · rw [if_neg hepoch] at hrat
        rw [slotCount_of_slotRates hrat]
        simp [sweepsAgain, hepoch]
    | lookup r =>
      rw [serve_lookup hadm, lookup_eq call.now_lt]
      by_cases hepoch : LookupEpoch r call.now
      · simp [sweepsAgain, hepoch, slotCount_sweepExpired]
      · simp [sweepsAgain, hepoch]

theorem slotCount_handle_of_ne (hwin : window ≠ call.now / rateWindowSecs) :
    slotCount (service.handle s call).1 slot window ≤ slotCount s slot window := by
  cases hreq : call.request with
  | none =>
    rw [state_handle, hreq]
  | some request =>
    have hentry : slotCount (service.enter s call request).1 slot window ≤
        slotCount s slot window := by
      obtain heq | ⟨-, heq⟩ | heq := @enter_eq service s call request <;> rw [heq]
      · rw [slotCount_chargeAll, slotCount_refresh, if_neg hwin]
        split_ifs <;> exact Nat.zero_le _
      · rw [slotCount_refresh, if_neg hwin]
        exact Nat.zero_le _
    have hst : (service.handle s call).1 = (service.serve s call request).1 := by
      rw [state_handle, hreq]
    rw [hst, slotCount_serve]
    split_ifs
    · exact Nat.zero_le _
    · exact hentry

/-- **When a call keeps the count of a slot**: exactly when none of its sweeps loses it. -/
theorem slotCount_handle_iff :
    slotCount (service.handle s call).1 slot (call.now / rateWindowSecs) =
        slotCount s slot (call.now / rateWindowSecs) +
          (if admitsFor service slot (s, call) = true then 1 else 0) ↔
      loses service slot (s, call) = false := by
  cases hreq : call.request with
  | none => simp [state_handle, admitsFor, loses, hreq]
  | some request =>
    have hst : (service.handle s call).1 = (service.serve s call request).1 := by
      rw [state_handle, hreq]
    rw [hst, slotCount_serve]
    simp only [admitsFor, loses, drops, hreq, Bool.and_eq_true, decide_eq_true_eq,
      Bool.or_eq_false_iff, Bool.and_eq_false_iff, decide_eq_false_iff_not]
    by_cases hact : call.active < service.config.maxConcurrentRequests
    · have hcnt := @slotCount_enter service s slot call request hact
      rw [slotCount_sweepExpired] at hcnt
      grind
    · rw [enter, if_neg hact]
      simp [hact]

/-- An operation that is admitted without a loss finds fewer than the limit counted. -/
theorem slotCount_lt_of_admitsFor (hadm : admitsFor service slot (s, call) = true)
    (hkeep : loses service slot (s, call) = false) :
    slotCount s slot (call.now / rateWindowSecs) <
      service.config.maxSlotOperationsPerMinute.toNat := by
  cases hreq : call.request with
  | none => simp [admitsFor, hreq] at hadm
  | some request =>
    simp only [admitsFor, hreq, Bool.and_eq_true, decide_eq_true_eq] at hadm
    obtain ⟨rfl, hadmitted⟩ := hadm
    simp only [loses, drops, hreq, Bool.or_eq_false_iff, Bool.and_eq_false_iff,
      decide_eq_false_iff_not] at hkeep
    unfold enter at hadmitted
    split_ifs at hadmitted with hact
    obtain ⟨hadmission, -⟩ | heq := @admitRequest_eq service s call.firstOrder call.now
      (call.body.length + request.responseLen) call.client request.slot
    · have hlt := hadmission.slotCount_lt
      rw [slotCount_sweepExpired] at hlt
      grind
    · rw [heq] at hadmitted
      exact Bool.noConfusion hadmitted

/-! ### Runs -/

/-- What a run has admitted on a slot in a window: within the limit, and what the bucket counts
until the window is over. -/
structure Tracks (service : RendezvousService) (slot : Octets 32) (window : ℕ) (calls : List Call)
    (now : ℕ) : Prop where
  within : admittedIn service slot window (service.trace .empty calls) ≤
    service.config.maxSlotOperationsPerMinute.toNat
  counted : now / rateWindowSecs ≤ window →
    admittedIn service slot window (service.trace .empty calls) =
      slotCount (service.run .empty calls) slot window
  ahead : now / rateWindowSecs < window →
    admittedIn service slot window (service.trace .empty calls) = 0

theorem admittedIn_snoc (trace : List (MutableState × Call)) (step : MutableState × Call) :
    admittedIn service slot window (trace ++ [step]) = admittedIn service slot window trace +
      if admitsFor service slot step = true ∧ step.2.now / rateWindowSecs = window then 1
      else 0 := by
  simp [admittedIn, countP_append, countP_singleton]

/-- One call keeps the count of the window, unless it loses it. -/
theorem Tracks.snoc {t : ℕ} (h : Tracks service slot window calls call.now) (hle : call.now ≤ t)
    (hkeep : loses service slot (service.run .empty calls, call) = false) :
    Tracks service slot window (calls ++ [call]) t := by
  have hmono : call.now / rateWindowSecs ≤ t / rateWindowSecs := Nat.div_le_div_right hle
  -- A past window is closed, the present one counts the call, a future one is empty.
  obtain hpast | rfl | hahead := Nat.lt_trichotomy window (call.now / rateWindowSecs)
  · have hsame : admittedIn service slot window (service.trace .empty (calls ++ [call])) =
        admittedIn service slot window (service.trace .empty calls) := by
      rw [trace_snoc, admittedIn_snoc, if_neg fun h => Nat.ne_of_gt hpast h.2, Nat.add_zero]
    exact ⟨hsame ▸ h.within, fun hw => by omega, fun hw => by omega⟩
  · have hstep := slotCount_handle_iff.mpr hkeep
    have hbef := h.counted (Nat.le_refl _)
    refine ⟨?_, fun _ => ?_, fun hw => by omega⟩
    · rw [trace_snoc, admittedIn_snoc]
      split_ifs with hadm
      · rw [hbef]
        exact slotCount_lt_of_admitsFor hadm.1 hkeep
      · exact h.within
    · rw [trace_snoc, admittedIn_snoc, run_snoc, hstep, hbef]
      simp
  · have hzero := h.ahead hahead
    have hempty : slotCount (service.run .empty calls) slot window = 0 := by
      rw [← h.counted (Nat.le_of_lt hahead), hzero]
    have hnone : admittedIn service slot window (service.trace .empty (calls ++ [call])) = 0 := by
      rw [trace_snoc, admittedIn_snoc, hzero, if_neg fun h => Nat.ne_of_lt hahead h.2]
    have haft : slotCount (service.run .empty (calls ++ [call])) slot window = 0 := by
      rw [run_snoc]
      exact Nat.eq_zero_of_le_zero (hempty ▸ slotCount_handle_of_ne (Nat.ne_of_gt hahead))
    exact ⟨hnone ▸ Nat.zero_le _, fun _ => hnone.trans haft.symm, fun _ => hnone⟩

theorem tracks_run {t : ℕ} (hclock : calls.Pairwise fun a b => a.now ≤ b.now)
    (ht : ∀ c ∈ calls, c.now ≤ t)
    (hkeep : ∀ step ∈ service.trace .empty calls, loses service slot step = false) :
    Tracks service slot window calls t := by
  induction calls using List.reverseRecOn generalizing t with
  | nil => exact ⟨Nat.zero_le _, fun _ => operationsIn_empty.symm, fun _ => rfl⟩
  | append_singleton calls call ih =>
    rw [pairwise_append] at hclock
    rw [trace_snoc] at hkeep
    have hbef := ih hclock.1 (fun c hc => hclock.2.2 c hc call (.head _))
      fun step hstep => hkeep step (mem_append_left _ hstep)
    exact hbef.snoc (ht call (by simp)) (hkeep _ (by simp))

/-- **The limit of a slot holds in every window as long as no sweep loses its count**, for calls
whose clock does not go back; and a call keeps the count exactly when its sweeps do not lose it. -/
theorem slot_rate_limit (service : RendezvousService) (slot : Octets 32) (calls : List Call)
    (hclock : calls.Pairwise fun a b => a.now ≤ b.now) :
    ((∀ step ∈ service.trace .empty calls, loses service slot step = false) →
      ∀ window, admittedIn service slot window (service.trace .empty calls) ≤
        service.config.maxSlotOperationsPerMinute.toNat) ∧
    ∀ call : Call, let s := service.run .empty calls
      slotCount (service.handle s call).1 slot (call.now / rateWindowSecs) =
          slotCount s slot (call.now / rateWindowSecs) +
            (if admitsFor service slot (s, call) = true then 1 else 0) ↔
        loses service slot (s, call) = false := by
  refine ⟨fun hkeep window => ?_, fun call => slotCount_handle_iff⟩
  obtain ⟨t, ht⟩ : ∃ t, ∀ c ∈ calls, c.now ≤ t :=
    ⟨2 ^ 64, fun c _ => Nat.le_of_lt c.now_lt⟩
  exact (tracks_run hclock ht hkeep).within

end

/-! ### A count that is lost -/

namespace Sample

/-- In the first second the limit holds; the call of the next second loses the count. -/
theorem two_operations_admitted :
    admittedIn service slot 600 (service.trace .empty [registerCall, lookupCall]) ≤ 2 ∧
      ¬ slotCount (service.handle (service.run .empty [registerCall, lookupCall]) laterCall).1 slot
          600 = 3 := by
  have hclock : [registerCall, lookupCall].Pairwise fun a b => a.now ≤ b.now := by decide
  have hlim := slot_rate_limit service slot [registerCall, lookupCall] hclock
  refine ⟨hlim.1 (by decide +kernel) 600, fun hthreshold => ?_⟩
  have hkept := (hlim.2 laterCall).mp (hthreshold.trans (by decide +kernel))
  exact absurd hkept (by decide +kernel)

/-- **A third operation in the window.**  The record of the first one has expired when the third
arrives: its sweep removes the bucket that had reached the limit. -/
theorem three_operations_admitted : service.config.maxSlotOperationsPerMinute = 2 ∧
      registerCall.now / rateWindowSecs = laterCall.now / rateWindowSecs ∧
      admittedIn service slot 600 (service.trace .empty [registerCall, lookupCall, laterCall]) =
        3 := by
  decide +kernel

end Sample

end Komms.Rendezvous
