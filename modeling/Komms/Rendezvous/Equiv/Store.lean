import Komms.Protocol.Equiv.Rendezvous
import Komms.Rendezvous.Service

/-!
# The latest unexpired registration

One statement for each part of a request: an admission sweeps and charges
(`admitRequest_eq`), the second part writes at most one record (`register_eq`, `lookup_eq`).

A map that is swept lazily and in bounded steps holds, at every clock, the latest effective
registration of each slot that is not expired (`live_run`).  The maps stay within their bounds and
the accounted memory (`bounded_run`), and the answer to a lookup has one shape.
-/

namespace Komms.Rendezvous

open Protocol HashMap RendezvousService Option

section

variable {service : RendezvousService} {s : MutableState} {order : Order Entry} {now bytes : ℕ}
  {client : Octets 16} {slot : Octets 32} {call : Call} {request : Request}

/-! ### Admissions -/

/-- An admission has room for its buckets and is within every limit. -/
structure Admissible (service : RendezvousService) (s : MutableState) (client : Octets 16)
    (slot : Octets 32) (bytes now : ℕ) : Prop where
  client_room : client ∈ s.clientRates ∨ len s.clientRates < service.config.maxClientBuckets
  slot_room : slot ∈ s.slotRates ∨ len s.slotRates < service.config.maxSlotBuckets
  within : ¬ service.exceeds s client slot (saturating64 bytes) now

/-- **What an admission does.**  It drops what is out of date, and charges an operation that is
within the limits. -/
theorem admitRequest_eq : Admissible service (refresh order s now) client slot bytes now ∧
      service.admitRequest order s client slot bytes now =
        (chargeAll (refresh order s now) client slot (saturating64 bytes) now, true) ∨
    service.admitRequest order s client slot bytes now = (refresh order s now, false) := by
  unfold admitRequest
  dsimp only
  split_ifs with hcl hslot hexc
  any_goals exact .inr rfl
  · rw [not_and_or, not_not, ge_iff_le, Nat.not_le] at hcl hslot
    exact .inl ⟨⟨hcl, hslot, hexc⟩, rfl⟩

/-- An operation that does not enter leaves the state; one that does is admitted or refused. -/
theorem enter_eq : service.enter s call request = (s, false) ∨
    (Admissible service (refresh call.firstOrder s call.now) call.client request.slot
        (call.body.length + request.responseLen) call.now ∧
      service.enter s call request = (chargeAll (refresh call.firstOrder s call.now) call.client
        request.slot (saturating64 (call.body.length + request.responseLen)) call.now, true)) ∨
    service.enter s call request = (refresh call.firstOrder s call.now, false) := by
  unfold enter
  split_ifs
  · exact .inr admitRequest_eq
  · exact .inl rfl

/-! ### Registrations and lookups -/

/-- The epoch of a registration is the current or the next one. -/
def RegisterEpoch (request : RendezvousRegisterRequest) (now : ℕ) : Prop :=
  request.epoch.toNat = rendezvousEpoch now ∨ request.epoch.toNat = rendezvousEpoch now + 1

/-- The epoch of a lookup is within one of the current one. -/
def LookupEpoch (request : RendezvousLookupRequest) (now : ℕ) : Prop :=
  rendezvousEpoch now - 1 ≤ request.epoch.toNat ∧ request.epoch.toNat ≤ rendezvousEpoch now + 1

/-- A slot can be written: it is present, or a row is free. -/
def HasRoom (service : RendezvousService) (s : MutableState) (slot : Octets 32) : Prop :=
  slot ∈ s.records ∨ len s.records < service.config.maxRecords

instance (request : RendezvousRegisterRequest) (now : ℕ) : Decidable (RegisterEpoch request now) :=
  inferInstanceAs (Decidable (_ ∨ _))

instance (request : RendezvousLookupRequest) (now : ℕ) : Decidable (LookupEpoch request now) :=
  inferInstanceAs (Decidable (_ ∧ _))

instance (service : RendezvousService) (s : MutableState) (slot : Octets 32) :
    Decidable (HasRoom service s slot) :=
  inferInstanceAs (Decidable (_ ∨ _))

theorem saturating64_epoch (hnow : now < 2 ^ 64) :
    saturating64 (rendezvousEpoch now + 1) = rendezvousEpoch now + 1 := by
  unfold saturating64 rendezvousEpoch rendezvousEpochSecs
  omega

theorem accounted_le (service : RendezvousService) :
    service.config.maxRecords * accountedBytesPerRecord +
      service.config.maxSlotBuckets * accountedBytesPerSlotBucket +
        service.config.maxClientBuckets * accountedBytesPerClientBucket ≤
      service.config.maxMemoryBytes := by
  have hval := service.valid
  simp only [Config.valid, Bool.and_eq_true, any_eq_true] at hval
  obtain ⟨-, _, hacc, hle⟩ := hval
  simp only [Config.accounted, checked64, bind_eq_bind, bind_eq_some_iff,
    ite_none_right_eq_some, some.injEq] at hacc
  obtain ⟨_, ⟨-, rfl⟩, _, ⟨-, rfl⟩, _, ⟨-, rfl⟩, _, ⟨-, rfl⟩, -, rfl⟩ := hacc
  exact of_decide_eq_true hle

/-- A registration is turned away for want of rows only: they are within the memory. -/
theorem full_iff : (slot ∉ s.records ∧ (len s.records ≥ service.config.maxRecords ∨
      saturating64 (saturating64 (len s.records + 1) * accountedBytesPerRecord) >
        service.config.maxMemoryBytes)) ↔ ¬ HasRoom service s slot := by
  rw [HasRoom, not_or, Nat.not_lt, and_congr_right_iff]
  refine fun _ => ⟨fun hfull => ?_, .inl⟩
  by_contra hroom
  have hmem := accounted_le service
  have hrow : (len s.records + 1) * accountedBytesPerRecord ≤
      service.config.maxRecords * accountedBytesPerRecord :=
    Nat.mul_le_mul_right _ (Nat.lt_of_not_le hroom)
  have hsat : saturating64 (len s.records + 1) * accountedBytesPerRecord ≤
      (len s.records + 1) * accountedBytesPerRecord := Nat.mul_le_mul_right _ (Nat.min_le_left _ _)
  have hle : saturating64 (saturating64 (len s.records + 1) * accountedBytesPerRecord) ≤
      saturating64 (len s.records + 1) * accountedBytesPerRecord := Nat.min_le_left _ _
  omega

/-- **What a registration does**: nothing, or a sweep, or a sweep and one record. -/
theorem register_eq {request : RendezvousRegisterRequest} (hnow : now < 2 ^ 64) :
    service.register order s request now = if RegisterEpoch request now then
        if HasRoom service (sweepExpired order s now) request.slot then
          { sweepExpired order s now with
            records := (sweepExpired order s now).records.insert request.slot
              (storedRecord request now) }
        else sweepExpired order s now
      else s := by
  have hepoch : (request.epoch.toNat ≠ rendezvousEpoch now ∧
      request.epoch.toNat ≠ saturating64 (rendezvousEpoch now + 1)) ↔
        ¬ RegisterEpoch request now := by
    rw [saturating64_epoch hnow, RegisterEpoch, not_or]
  unfold register
  simp only [hepoch, full_iff, ite_not]

/-- **What a lookup finds**: the live record of the slot, if it is for the epoch. -/
theorem lookup_eq {request : RendezvousLookupRequest} (hnow : now < 2 ^ 64) :
    lookup order s request now = if LookupEpoch request now then
        (sweepExpired order s now, (((sweepExpired order s now).records.lookup request.slot).filter
          fun record => record.epoch = request.epoch && now < record.expiresAt).map
            StoredRecord.sealedRecord)
      else (s, none) := by
  have hepoch : (request.epoch.toNat < rendezvousEpoch now - 1 ∨
      request.epoch.toNat > saturating64 (rendezvousEpoch now + 1)) ↔
        ¬ LookupEpoch request now := by
    rw [saturating64_epoch hnow, LookupEpoch, not_and_or, Nat.not_le, Nat.not_le]
  unfold lookup
  simp only [hepoch, ite_not]

/-! ### Calls -/

theorem serve_of_refused (h : (service.enter s call request).2 = false) :
    service.serve s call request = ((service.enter s call request).1, none) :=
  if_pos h

theorem serve_register {r : RendezvousRegisterRequest}
    (h : (service.enter s call (.register r)).2 = true) :
    service.serve s call (.register r) =
      (service.register call.secondOrder (service.enter s call (.register r)).1 r call.now,
        none) := by
  have hadm : ¬ (service.enter s call (.register r)).2 = false := by rw [h]; decide
  exact if_neg hadm

theorem serve_lookup {r : RendezvousLookupRequest}
    (h : (service.enter s call (.lookup r)).2 = true) :
    service.serve s call (.lookup r) =
      lookup call.secondOrder (service.enter s call (.lookup r)).1 r call.now := by
  have hadm : ¬ (service.enter s call (.lookup r)).2 = false := by rw [h]; decide
  exact if_neg hadm

theorem state_handle : (service.handle s call).1 =
    match call.request with
    | none => s
    | some request => (service.serve s call request).1 := by
  unfold handle
  cases call.request with
  | none => rfl
  | some request => cases request <;> rfl

theorem run_snoc (calls : List Call) (call : Call) :
    service.run s (calls ++ [call]) = (service.handle (service.run s calls) call).1 := by
  simp [run]

theorem trace_snoc (calls : List Call) (call : Call) : service.trace s (calls ++ [call]) =
    service.trace s calls ++ [(service.run s calls, call)] := by
  induction calls generalizing s with
  | nil => rfl
  | cons first calls ih =>
    rw [List.cons_append, trace, ih, trace]
    rfl

end

/-! ### A small service -/

namespace Sample

def config : Config := { Config.default with maxSlotOperationsPerMinute := 2 }

def service : RendezvousService := ⟨config, by decide⟩

def slot : Octets 32 := .replicate 32 1

/-- A record for the tenth hour that lives for one second. -/
def registration : RendezvousRegisterRequest := ⟨slot, 10, 1, .replicate _ 9⟩

/-- The record before it, with other sealed bytes. -/
def earlier : RendezvousRegisterRequest := ⟨slot, 10, 7200, .replicate _ 8⟩

def query : RendezvousLookupRequest := ⟨slot, 10⟩

def callAt (path : String) (body : Bytes) (now : ℕ) (now_lt : now < 2 ^ 64) : Call :=
  ⟨path, rendezvousMediaType, body, .zero 16, now, now_lt, 0, .stored _, .stored _, .zero⟩

def registerAt (request : RendezvousRegisterRequest) (now : ℕ) (now_lt : now < 2 ^ 64) : Call :=
  callAt rendezvousRegisterPath (request.encode.toOption.getD []) now now_lt

/-- At the first second of the tenth hour. -/
def registerCall : Call := registerAt registration 36000 (by decide)

/-- In the minute before. -/
def earlierCall : Call := registerAt earlier 35999 (by decide)

def lookupCall : Call := callAt rendezvousLookupPath query.encode 36000 (by decide)

def laterCall : Call := callAt rendezvousLookupPath query.encode 36001 (by decide)

theorem request_registerAt {request : RendezvousRegisterRequest} {bytes : Bytes} {now : ℕ}
    {now_lt : now < 2 ^ 64} (hencode : request.encode = .ok bytes) :
    (registerAt request now now_lt).request = some (.register request) := by
  have hbody : (registerAt request now now_lt).body = bytes := by
    rw [registerAt, callAt, hencode]
    rfl
  rw [Call.request, hbody, RendezvousRegisterRequest.decode_of_encode hencode]
  rfl

end Sample

section

variable {service : RendezvousService} {s : MutableState} {order : Order Entry} {now bytes : ℕ}
  {client : Octets 16} {slot : Octets 32} {call : Call} {request : Request} {calls : List Call}

/-! ### Bounds -/

/-- Every map is within its bound. -/
structure Bounded (service : RendezvousService) (s : MutableState) : Prop where
  records : len s.records ≤ service.config.maxRecords
  slots : len s.slotRates ≤ service.config.maxSlotBuckets
  clients : len s.clientRates ≤ service.config.maxClientBuckets

namespace Bounded

theorem empty : Bounded service .empty := ⟨Nat.zero_le _, Nat.zero_le _, Nat.zero_le _⟩

variable (h : Bounded service s)

include h

theorem sweepExpired : Bounded service (sweepExpired order s now) :=
  ⟨(len_eraseAll_le _ _).trans h.records, (len_eraseAll_le _ _).trans h.slots, h.clients⟩

theorem refresh : Bounded service (refresh order s now) :=
  ⟨h.sweepExpired.records, (len_retain_le _ _).trans h.sweepExpired.slots,
    (len_retain_le _ _).trans h.clients⟩

theorem chargeAll (hadm : Admissible service s client slot bytes now) {charged : ℕ} :
    Bounded service (chargeAll s client slot charged now) :=
  ⟨h.records, len_insert_le hadm.slot_room h.slots, len_insert_le hadm.client_room h.clients⟩

theorem enter : Bounded service (service.enter s call request).1 := by
  obtain heq | ⟨hadm, heq⟩ | heq := @enter_eq service s call request <;> rw [heq]
  · exact h
  · exact h.refresh.chargeAll hadm
  · exact h.refresh

theorem register {request : RendezvousRegisterRequest} (hnow : now < 2 ^ 64) :
    Bounded service (service.register order s request now) := by
  rw [register_eq hnow]
  split_ifs with hepoch hroom
  · exact ⟨len_insert_le hroom h.sweepExpired.records, h.sweepExpired.slots, h.clients⟩
  · exact h.sweepExpired
  · exact h

theorem lookup {request : RendezvousLookupRequest} (hnow : now < 2 ^ 64) :
    Bounded service (lookup order s request now).1 := by
  rw [lookup_eq hnow]
  split_ifs
  · exact h.sweepExpired
  · exact h

theorem serve : Bounded service (service.serve s call request).1 := by
  cases hadm : (service.enter s call request).2 with
  | false =>
    rw [serve_of_refused hadm]
    exact h.enter
  | true =>
    cases request with
    | register r =>
      rw [serve_register hadm]
      exact h.enter.register call.now_lt
    | lookup r =>
      rw [serve_lookup hadm]
      exact h.enter.lookup call.now_lt

theorem accountedMutableBytes_le : accountedMutableBytes s ≤ service.config.maxMemoryBytes := by
  have hmem := accounted_le service
  have hrec : len s.records * accountedBytesPerRecord ≤ _ := Nat.mul_le_mul_right _ h.records
  have hslot : len s.slotRates * accountedBytesPerSlotBucket ≤ _ := Nat.mul_le_mul_right _ h.slots
  have hclient : len s.clientRates * accountedBytesPerClientBucket ≤ _ :=
    Nat.mul_le_mul_right _ h.clients
  unfold accountedMutableBytes saturating64
  omega

end Bounded

theorem bounded_step (h : Bounded service s) (call : Call) :
    Bounded service (service.handle s call).1 := by
  rw [state_handle]
  cases call.request with
  | none => exact h
  | some request => exact h.serve

/-- **Every run keeps the maps within their bounds.** -/
theorem bounded_run (h : Bounded service s) (calls : List Call) :
    Bounded service (service.run s calls) := by
  induction calls generalizing s with
  | nil => exact h
  | cons call calls ih => exact ih (bounded_step h call)

/-! ### Live records -/

def live (s : MutableState) (now : ℕ) (slot : Octets 32) : Option StoredRecord :=
  (s.records.lookup slot).filter fun record => now < record.expiresAt

theorem live_sweepExpired : live (sweepExpired order s now) now slot = live s now slot := by
  unfold live
  rw [sweepExpired, lookup_eraseAll]
  split_ifs with hswept
  · -- A sweep picks slots whose record is expired.
    obtain ⟨⟨_, record⟩, hentry, rfl⟩ := List.mem_map.mp hswept
    obtain ⟨harr, hexp⟩ := List.mem_filter.mp (List.mem_of_mem_take hentry)
    rw [AList.mem_lookup_iff.mpr ((order.perm _).subset harr), filter_none, filter_some_neg]
    simpa using hexp
  · rfl

theorem live_enter : live (service.enter s call request).1 call.now slot =
    live s call.now slot := by
  -- The records after an admission are those before it, or those that a sweep leaves.
  obtain heq | ⟨-, heq⟩ | heq := @enter_eq service s call request <;> rw [heq]
  all_goals exact live_sweepExpired

theorem filter_live_of_le {now' : ℕ} (hle : now ≤ now') (record : Option StoredRecord) :
    (record.filter fun r => now < r.expiresAt).filter (fun r => now' < r.expiresAt) =
      record.filter fun r => now' < r.expiresAt := by
  rw [filter_filter]
  congr 1
  funext r
  by_cases h : now' < r.expiresAt
  · simp [h, lt_of_le_of_lt hle h]
  · simp [h]

/-! ### Effective registrations -/

/-- A registration that took effect: what was asked for, and when. -/
structure Registration where
  request : RendezvousRegisterRequest
  time : ℕ

namespace Registration

/-- The lifetime that was asked for, up to the longest that is granted, from the time on. -/
def expiry (registration : Registration) : ℕ :=
  min (registration.time + min registration.request.ttlSeconds.toNat rendezvousMaxTtlSecs.toNat)
    (2 ^ 64 - 1)

/-- The row that the service keeps of it. -/
def stored (registration : Registration) : StoredRecord :=
  storedRecord registration.request registration.time

theorem expiresAt_stored (registration : Registration) :
    registration.stored.expiresAt = registration.expiry := by
  have hmin : (min registration.request.ttlSeconds rendezvousMaxTtlSecs).toNat =
      min registration.request.ttlSeconds.toNat rendezvousMaxTtlSecs.toNat :=
    UInt32.toNat_min _ _
  rw [stored, storedRecord, expiry, hmin, saturating64]

end Registration

/-- The effective registration of a slot that a call makes: it is admitted, for the current or the
next epoch, and its slot is present or a row is free. -/
def effectiveFor (service : RendezvousService) (slot : Octets 32) :
    MutableState × Call → Option Registration
  | (s, call) => match call.request with
    | some (.register request) =>
      let entered := service.enter s call (.register request)
      if request.slot = slot ∧ entered.2 = true ∧ RegisterEpoch request call.now ∧
          HasRoom service (sweepExpired call.secondOrder entered.1 call.now) slot then
        some ⟨request, call.now⟩
      else none
    | _ => none

/-- The most recent effective registration of a slot. -/
def latest (service : RendezvousService) (slot : Octets 32) (trace : List (MutableState × Call)) :
    Option Registration :=
  (trace.filterMap (effectiveFor service slot)).getLast?

theorem live_register {request : RendezvousRegisterRequest} (hnow : now < 2 ^ 64) :
    live (service.register order s request now) now slot =
      if request.slot = slot ∧ RegisterEpoch request now ∧
          HasRoom service (sweepExpired order s now) slot then
        (some (storedRecord request now)).filter fun record => now < record.expiresAt
      else live s now slot := by
  rw [register_eq hnow]
  by_cases heff : request.slot = slot ∧ RegisterEpoch request now ∧
      HasRoom service (sweepExpired order s now) slot
  · obtain ⟨rfl, hepoch, hroom⟩ := heff
    rw [if_pos hepoch, if_pos hroom, if_pos ⟨rfl, hepoch, hroom⟩, live, AList.lookup_insert]
  · rw [if_neg heff]
    split_ifs with hepoch hroom
    · have hslot : slot ≠ request.slot := by
        rintro rfl
        exact heff ⟨rfl, hepoch, hroom⟩
      rw [live, AList.lookup_insert_ne hslot, ← live, live_sweepExpired]
    · exact live_sweepExpired
    · rfl

/-- **One call**: an effective registration becomes the record of its slot, and nothing else that is
live changes. -/
theorem live_handle : live (service.handle s call).1 call.now slot =
    (((effectiveFor service slot (s, call)).map Registration.stored).or
      (s.records.lookup slot)).filter fun record => call.now < record.expiresAt := by
  rw [state_handle]
  dsimp only [effectiveFor]
  cases call.request with
  | none => rfl
  | some request =>
    dsimp only
    cases hadm : (service.enter s call request).2 with
    -- A refused request changes no record.
    | false =>
      rw [serve_of_refused hadm, live_enter]
      cases request with
      | lookup r => rfl
      | register r =>
        dsimp only
        rw [hadm, if_neg fun h => Bool.noConfusion h.2.1]
        rfl
    | true =>
      cases request with
      | lookup r =>
        rw [serve_lookup hadm, lookup_eq call.now_lt]
        split_ifs
        · exact live_sweepExpired.trans live_enter
        · exact live_enter
      | register r =>
        rw [serve_register hadm, live_register call.now_lt, live_enter]
        simp only [hadm, true_and]
        split_ifs <;> rfl

/-! ### Runs -/

theorem latest_snoc (slot : Octets 32) (trace : List (MutableState × Call))
    (step : MutableState × Call) :
    latest service slot (trace ++ [step]) =
      (effectiveFor service slot step).or (latest service slot trace) := by
  unfold latest
  cases h : effectiveFor service slot step <;> simp [h]

/-- **The lazily swept map refines the map of latest registrations.**  As long as the clock does not
go back, what is live in the one is live in the other. -/
theorem live_run (hclock : calls.Pairwise fun a b => a.now ≤ b.now)
    (hnow : ∀ c ∈ calls, c.now ≤ now) : live (service.run .empty calls) now slot =
      ((latest service slot (service.trace .empty calls)).map Registration.stored).filter
        fun r => now < r.expiresAt := by
  -- Induction on the run from its end, at the clock of the last call.
  induction calls using List.reverseRecOn generalizing now with
  | nil => rfl
  | append_singleton calls call ih =>
    rw [List.pairwise_append] at hclock
    have hbefore := ih hclock.1 fun c hc => hclock.2.2 c hc call (.head _)
    have hle : call.now ≤ now := hnow call (by simp)
    have hat : live (service.run .empty (calls ++ [call])) call.now slot =
        ((latest service slot (service.trace .empty (calls ++ [call]))).map
          Registration.stored).filter fun r => call.now < r.expiresAt := by
      rw [run_snoc, live_handle, trace_snoc, latest_snoc]
      cases effectiveFor service slot (service.run .empty calls, call) with
      | none => exact hbefore
      | some registration => rfl
    calc live (service.run .empty (calls ++ [call])) now slot
        = (live (service.run .empty (calls ++ [call])) call.now slot).filter
            fun r => now < r.expiresAt := (filter_live_of_le hle _).symm
      _ = ((latest service slot (service.trace .empty (calls ++ [call]))).map
            Registration.stored).filter fun r => now < r.expiresAt := by
          rw [hat, filter_live_of_le hle]

/-! ### Lookups -/

/-- **What an admitted lookup finds**: the live record of the slot, if it is for the epoch. -/
theorem found_eq {request : RendezvousLookupRequest}
    (hadm : (service.enter s call (.lookup request)).2 = true)
    (hepoch : LookupEpoch request call.now) :
    (service.serve s call (.lookup request)).2 =
      ((live s call.now request.slot).filter fun record => record.epoch = request.epoch).map
        StoredRecord.sealedRecord := by
  have hlive : live s call.now request.slot = live (sweepExpired call.secondOrder
      (service.enter s call (.lookup request)).1 call.now) call.now request.slot := by
    rw [live_sweepExpired, live_enter]
  rw [serve_lookup hadm, lookup_eq call.now_lt, if_pos hepoch, hlive, live, filter_filter]
  simp only [Bool.and_comm]

/-- **The store is bounded and answers with the latest registration.**  For calls whose clock does
not go back, a lookup finds the sealed bytes of the most recent effective request for its slot, if
that request has its epoch and has not expired; the shape of the answer does not depend on what is
found. -/
theorem rendezvous_store (service : RendezvousService) (calls : List Call)
    (hclock : calls.Pairwise fun a b => a.now ≤ b.now) :
    let s := service.run .empty calls
    len s.records ≤ service.config.maxRecords ∧
    accountedMutableBytes s ≤ service.config.maxMemoryBytes ∧
    ∀ (call : Call) (request : RendezvousLookupRequest), call.request = some (.lookup request) →
      let found := (service.serve s call (.lookup request)).2
      let response := (service.handle s call).2
      response.status = 200 ∧ response.body.length = rendezvousLookupResponseLen ∧
      response.body = (found.getD (call.random rendezvousLookupResponseLen)).toBytes ∧
      ((∀ c ∈ calls, c.now ≤ call.now) → (service.enter s call (.lookup request)).2 = true →
        LookupEpoch request call.now → ∀ sealedRecord, found = some sealedRecord ↔
          ∃ registration,
            latest service request.slot (service.trace .empty calls) = some registration ∧
            registration.request.epoch = request.epoch ∧ call.now < registration.expiry ∧
            registration.request.sealedRecord = sealedRecord) := by
  intro s
  have hbounded : Bounded service s := bounded_run .empty calls
  refine ⟨hbounded.records, hbounded.accountedMutableBytes_le, fun call request hrequest => ?_⟩
  rw [handle, hrequest]
  refine ⟨rfl, Octets.length_toBytes _, rfl, fun hnow hadmitted hepoch sealedRecord => ?_⟩
  -- The live record of the slot is that of the latest effective request.
  rw [found_eq hadmitted hepoch, live_run hclock hnow]
  simp only [map_eq_some_iff, filter_eq_some_iff, decide_eq_true_eq]
  constructor
  · rintro ⟨_, ⟨⟨⟨registration, hlatest, rfl⟩, hlive⟩, hsame⟩, hsealed⟩
    exact ⟨registration, hlatest, hsame, registration.expiresAt_stored ▸ hlive, hsealed⟩
  · rintro ⟨registration, hlatest, hsame, hlive, hsealed⟩
    rw [← registration.expiresAt_stored] at hlive
    exact ⟨registration.stored, ⟨⟨⟨registration, hlatest, rfl⟩, hlive⟩, hsame⟩, hsealed⟩

end

namespace Sample

/-- A lookup in the second of the later registration answers with its record, not with the one
before. -/
theorem lookup_answers_registration :
    (service.handle (service.run .empty [earlierCall, registerCall]) lookupCall).2.body =
      registration.sealedRecord.toBytes := by
  have hrequest : registerCall.request = some (.register registration) := request_registerAt rfl
  have heffective : effectiveFor service slot
      ((service.handle .empty earlierCall).1, registerCall) = some ⟨registration, 36000⟩ := by
    dsimp only [effectiveFor]
    rw [hrequest]
    exact if_pos (by decide +kernel)
  have hlatest : latest service slot (service.trace .empty [earlierCall, registerCall]) =
      some ⟨registration, 36000⟩ := by
    simp only [latest, trace, List.filterMap_cons, List.filterMap_nil, heffective]
    split <;> rfl
  obtain ⟨-, -, hlookup⟩ := rendezvous_store service [earlierCall, registerCall] (by decide)
  obtain ⟨-, -, hbody, hfound⟩ := hlookup lookupCall query rfl
  have hhit := (hfound (by decide) (by decide +kernel) (by decide +kernel)
    registration.sealedRecord).mpr ⟨_, hlatest, rfl, by decide +kernel, rfl⟩
  rw [hbody, hhit]
  rfl

end Sample

end Komms.Rendezvous
