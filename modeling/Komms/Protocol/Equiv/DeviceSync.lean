import Komms.Protocol.DeviceSync

/-!
# Linked devices converge

Every device that has seen the same events keeps the same winner for each key, in whatever order,
number and batches they arrived (`device_sync_converges`): the winners summarize the events that
verify, also when each batch is resolved together with what was kept before.
-/

namespace Komms.Protocol

open List Option Octets

/-! ### The digest names one event -/

theorem DeviceSyncNamespace.code_injective : Function.Injective DeviceSyncNamespace.code := by
  intro a b h
  cases a <;> cases b <;> first | rfl | exact absurd h (by decide)

namespace DeviceSyncEvent

/-- The sizes that `validate_bounds` enforces. -/
structure Bounded (event : DeviceSyncEvent) : Prop where
  key_le : event.key.length ≤ maxDeviceSyncKeyBytes
  value_le : ∀ value ∈ event.value, value.length ≤ maxDeviceSyncValueBytes

theorem bounded_of_validateBounds {event : DeviceSyncEvent} (h : event.validateBounds = .ok ()) :
    event.Bounded := by
  simp only [validateBounds, rejectIf_eq_ok_iff, not_or, Nat.not_lt] at h
  obtain ⟨-, -, -, -, -, -, hkey, hv⟩ := h
  refine ⟨hkey, fun value hmem => ?_⟩
  simpa [mem_def.mp hmem] using hv

theorem valueBytes_append_inj {v w : Option Bytes} {a b : Bytes}
    (hv : ∀ value ∈ v, value.length ≤ maxDeviceSyncValueBytes)
    (hw : ∀ value ∈ w, value.length ≤ maxDeviceSyncValueBytes)
    (h : valueBytes v ++ a = valueBytes w ++ b) : v = w ∧ a = b := by
  refine presence_inj rfl (fun _ => rfl) (fun x hx y hy hxy => ?_) h
  rw [append_assoc, append_assoc] at hxy
  exact lengthPrefixed_inj (Nat.lt_of_le_of_lt (hv x hx) (by decide))
    (Nat.lt_of_le_of_lt (hw y hy) (by decide)) hxy

theorem idBytes_injective {e f : DeviceSyncEvent} (he : e.Bounded) (hf : f.Bounded)
    (h : e.idBytes = f.idBytes) : e = f := by
  simp only [idBytes, canonical, append_assoc, cons_append, append_inj_iff, u64_append_inj_iff,
    List.cons.injEq] at h
  obtain ⟨hacc, haut, hcount, hlam, hgen, hcode, h⟩ := h
  obtain ⟨hkey, h⟩ := lengthPrefixed_inj (Nat.lt_of_le_of_lt he.key_le (by decide))
    (Nat.lt_of_le_of_lt hf.key_le (by decide)) h
  obtain ⟨hv, hsig⟩ := valueBytes_append_inj he.value_le hf.value_le h
  exact (mk.injEq ..).mpr ⟨hacc, haut, hcount, hlam, hgen, DeviceSyncNamespace.code_injective hcode,
    hkey, hv, ext hsig⟩

/-! ### Events that verify -/

/-- No row of the authority is of the author. -/
def unknownDevice (authority : DeviceSyncAuthority) (event : DeviceSyncEvent) : Bool :=
  (authority.syncDevice event.authorDevice).isNone

/-- The author was revoked and the event is above its cutoff. -/
def aboveCutoff (authority : DeviceSyncAuthority) (event : DeviceSyncEvent) : Bool :=
  (authority.syncDevice event.authorDevice).any fun row =>
    row.2.any fun cutoff => event.counter > cutoff

/-- The event names a generation the authority has not reached. -/
def futureGeneration (authority : DeviceSyncAuthority) (event : DeviceSyncEvent) : Bool :=
  event.manifestGeneration > authority.syncGeneration

/-- Unknown author, revoked author above the cutoff, or future generation. -/
def excluded (authority : DeviceSyncAuthority) (event : DeviceSyncEvent) : Bool :=
  event.unknownDevice authority || event.aboveCutoff authority || event.futureGeneration authority

variable {S : Suite} {authority : DeviceSyncAuthority} {event : DeviceSyncEvent}

theorem bounded_of_verify (h : event.verify S authority = .ok ()) : event.Bounded :=
  bounded_of_validateBounds (check_bind_eq_ok_iff.mp h).1

theorem excluded_eq_false_of_verify (h : event.verify S authority = .ok ()) :
    event.excluded authority = false := by
  obtain ⟨-, h⟩ := check_bind_eq_ok_iff.mp h
  obtain ⟨hauth, h⟩ := check_bind_eq_ok_iff.mp h
  obtain ⟨⟨_, _⟩, hrow, h⟩ := bind_eq_ok_iff.mp h
  obtain ⟨hcut, -⟩ := check_bind_eq_ok_iff.mp h
  rw [required_eq_ok_iff] at hrow
  rw [rejectIf_eq_ok_iff, not_or] at hauth
  rw [rejectIf_eq_ok_iff, Bool.not_eq_true] at hcut
  simp only [excluded, unknownDevice, aboveCutoff, futureGeneration, hrow, isNone_some,
    any_some, hcut, Bool.false_or, decide_eq_false_iff_not]
  exact hauth.2

end DeviceSyncEvent

/-! ### Winners -/

section

variable (S : Suite) (authority : DeviceSyncAuthority)

def accepted (events : List DeviceSyncEvent) : Set DeviceSyncEvent :=
  {event | event ∈ events ∧ event.verify S authority = .ok ()}

/-- No two of the events have one id and different bytes. -/
def CollisionFree (events : List DeviceSyncEvent) : Prop :=
  ∀ e ∈ events, ∀ f ∈ events, e.eventId S = f.eventId S → e.idBytes = f.idBytes

/-- The winners of one key and order, over the events that verify. -/
abbrev SummarizesEvents (s : Set DeviceSyncEvent) (resolved : Resolved) : Prop :=
  LastWriter.Summarizes DeviceSyncEvent.logicalKey (DeviceSyncEvent.order S) s resolved

/-- Devices that resolve batch after batch, each time what they kept before together with the new
events, in any order and with any repetitions. -/
inductive Delivered : List DeviceSyncEvent → Resolved → Prop
  | start : Delivered [] fun _ => none
  | batch {seen events fed : List DeviceSyncEvent} {resolved : Resolved} :
    Delivered seen resolved →
    (∀ event, event ∈ fed ↔ (∃ key, resolved key = some event) ∨ event ∈ events) →
    Delivered (seen ++ events) (resolveDeviceSyncEvents S authority fed)

variable {S authority}

theorem resolveDeviceSyncEvents_summarizes (events : List DeviceSyncEvent) :
    SummarizesEvents S (accepted S authority events)
      (resolveDeviceSyncEvents S authority events) := by
  have hmem : accepted S authority events =
      {event | event ∈ events.filter fun event => event.verify S authority = .ok ()} := by
    ext event
    simp [accepted]
  have hres : resolveDeviceSyncEvents S authority events =
      LastWriter.resolve DeviceSyncEvent.logicalKey (DeviceSyncEvent.order S)
        (events.filter fun event => event.verify S authority = .ok ()) := by
    rw [resolveDeviceSyncEvents, LastWriter.resolve, foldl_filter]
    congr 1
    funext resolved event
    unfold resolveOne
    split <;> simp_all
  rw [hmem, hres]
  exact LastWriter.resolve_summarizes _

theorem order_injOn {events : List DeviceSyncEvent} (hfree : CollisionFree S events) :
    (accepted S authority events).InjOn (DeviceSyncEvent.order S) := by
  rintro e ⟨he, hev⟩ f ⟨hf, hfv⟩ h
  have hid : e.eventId S = f.eventId S := congrArg (fun o => (ofLex (ofLex (ofLex o).2).2).2) h
  exact DeviceSyncEvent.idBytes_injective (DeviceSyncEvent.bounded_of_verify hev)
    (DeviceSyncEvent.bounded_of_verify hfv) (hfree e he f hf hid)

/-- After any number of batches the winners summarize all events seen. -/
theorem Delivered.summarizes {seen : List DeviceSyncEvent} {resolved : Resolved}
    (h : Delivered S authority seen resolved) :
    SummarizesEvents S (accepted S authority seen) resolved := by
  induction h with
  | start => exact resolveDeviceSyncEvents_summarizes []
  | @batch seen events fed resolved _ hfed ih =>
    have hmem : accepted S authority fed =
        LastWriter.held resolved ∪ accepted S authority events := by
      ext event
      simp only [accepted, Set.mem_ofPred_eq, hfed, Set.mem_union, LastWriter.held]
      constructor
      · rintro ⟨hkept | hnew, hver⟩
        · exact .inl hkept
        · exact .inr ⟨hnew, hver⟩
      · rintro (⟨key, hkept⟩ | ⟨hnew, hver⟩)
        · exact ⟨.inl ⟨key, hkept⟩, (ih.mem hkept).1.2⟩
        · exact ⟨.inr hnew, hver⟩
    have happ : accepted S authority (seen ++ events) =
        accepted S authority seen ∪ accepted S authority events := by
      ext event
      simp [accepted, or_and_right]
    rw [happ]
    exact ih.feedback (hmem ▸ resolveDeviceSyncEvents_summarizes fed)

theorem accepted_congr {events events' : List DeviceSyncEvent}
    (h : ∀ event, event.excluded authority = false → (event ∈ events' ↔ event ∈ events)) :
    accepted S authority events' = accepted S authority events := by
  ext event
  exact and_congr_left fun hver => h event (DeviceSyncEvent.excluded_eq_false_of_verify hver)

/-- The order by its fields. -/
theorem order_le_iff {e f : DeviceSyncEvent} : e.order S ≤ f.order S ↔
    e.lamport < f.lamport ∨ e.lamport = f.lamport ∧
      (e.authorDevice < f.authorDevice ∨ e.authorDevice = f.authorDevice ∧
        (e.counter < f.counter ∨ e.counter = f.counter ∧ e.eventId S ≤ f.eventId S)) := by
  simp only [DeviceSyncEvent.order, Prod.Lex.toLex_le_toLex, UInt64.lt_iff_toNat_lt,
    ← UInt64.toNat_inj]

/-- **Linked devices converge.**  Over events without a digest collision: whatever order,
repetitions and batches the same events come in, the winners are the same; the winner of a key is
the greatest of its events that verify, by time, author, counter and id; and an event of an unknown
device, of a revoked device above its cutoff or of a future generation neither wins nor changes who
does. -/
theorem device_sync_converges (S : Suite) (authority : DeviceSyncAuthority)
    (events : List DeviceSyncEvent) (hfree : CollisionFree S events) :
    (∀ events', (∀ event, event ∈ events' ↔ event ∈ events) →
      resolveDeviceSyncEvents S authority events' = resolveDeviceSyncEvents S authority events ∧
        ∀ resolved, Delivered S authority events' resolved →
          resolved = resolveDeviceSyncEvents S authority events) ∧
    (∀ key event, resolveDeviceSyncEvents S authority events key = some event ↔
      (event ∈ events ∧ event.verify S authority = .ok ()) ∧ event.logicalKey = key ∧
        ∀ other ∈ events, other.verify S authority = .ok () → other.logicalKey = key →
          other.lamport < event.lamport ∨ other.lamport = event.lamport ∧
            (other.authorDevice < event.authorDevice ∨ other.authorDevice = event.authorDevice ∧
              (other.counter < event.counter ∨ other.counter = event.counter ∧
                other.eventId S ≤ event.eventId S))) ∧
    (∀ key event, resolveDeviceSyncEvents S authority events key = some event →
      event.unknownDevice authority = false ∧ event.aboveCutoff authority = false ∧
        event.futureGeneration authority = false) ∧
    ∀ events', (∀ event, event.excluded authority = false → (event ∈ events' ↔ event ∈ events)) →
      ∀ resolved, Delivered S authority events' resolved →
        resolved = resolveDeviceSyncEvents S authority events := by
  have hinj : (accepted S authority events).InjOn (DeviceSyncEvent.order S) := order_injOn hfree
  have hwin := @resolveDeviceSyncEvents_summarizes S authority events
  -- What a node holds summarizes the accepted events, and a summary is unique.
  have hone : ∀ events' resolved,
      (∀ event, event.excluded authority = false → (event ∈ events' ↔ event ∈ events)) →
      SummarizesEvents S (accepted S authority events') resolved →
      resolved = resolveDeviceSyncEvents S authority events :=
    fun events' resolved hsame h => (accepted_congr hsame ▸ h).unique hwin hinj
  refine ⟨fun events' hsame => ⟨?_, fun resolved hdel => ?_⟩, fun key event => ?_,
    fun key event hkey => ?_, fun events' hsame resolved hdel => ?_⟩
  · exact hone events' _ (fun event _ => hsame event) (resolveDeviceSyncEvents_summarizes events')
  · exact hone events' _ (fun event _ => hsame event) hdel.summarizes
  · rw [hwin.eq_some_iff hinj]
    simp only [accepted, Set.mem_ofPred_eq, and_imp, order_le_iff]
  · have hexc := DeviceSyncEvent.excluded_eq_false_of_verify (hwin.mem hkey).1.2
    simpa [DeviceSyncEvent.excluded, Bool.or_eq_false_iff, and_assoc] using hexc
  · exact hone events' _ hsame hdel.summarizes

end

namespace Sample

/-- Every signature verifies; the digest repeats one byte. -/
def suite : Suite :=
  .ofSigned (fun _ _ => true) fun bytes => .replicate 32 (bytes.foldl (fun acc b => 5 * acc + b) 0)

def identity (b : UInt8) : IdentityPublic := ⟨.replicate 32 b, .replicate 32 b, .zero 64⟩

theorem valid_name : validUtf8 [0x61] = true := by decide

def row (b : UInt8) (cutoff : Option UInt64) : DeviceAuthority.Entry where
  certificate := ⟨identity 1, identity b, .replicate 16 1, 10, .zero 64⟩
  name := ⟨[0x61], valid_name⟩
  lastSeen := 10
  revokedAt := cutoff.map fun _ => 20
  revokedAfterCounter := cutoff

/-- Account 1 with device 2, and device 3 that was revoked after its fifth event. -/
def authority : DeviceSyncAuthority := .ofDevices (identity 1) 2 [row 2 none, row 3 (some 5)]

def event (key author : UInt8) (counter lamport generation : UInt64) (value : Option Bytes) :
    DeviceSyncEvent where
  account := .replicate 32 1
  authorDevice := .replicate 32 author
  counter
  lamport
  manifestGeneration := generation
  syncNamespace := .contacts
  key := [key]
  value
  signature := .zero 64

/-- Three events that count for nothing: above the cutoff, of an unknown device, and of a future
generation. -/
def foreign : List DeviceSyncEvent :=
  [event 7 3 6 9 1 none, event 7 4 7 9 1 none, event 7 2 8 9 3 none]

/-- Pairs of events of one key.  The second wins by its time, by its author, by its counter or by
its id, and has less in what is compared after that. -/
def pairs : List (DeviceSyncEvent × DeviceSyncEvent) :=
  [(event 6 3 4 4 1 none, event 6 2 3 5 1 none),
    (event 7 2 9 4 1 (some [0x61]), event 7 3 2 4 1 none),
    (event 8 2 5 4 1 none, event 8 2 9 4 1 none),
    (event 9 2 1 4 1 (some [1]), event 9 2 1 4 1 (some [2]))]

def seen : List DeviceSyncEvent := foreign ++ pairs.map Prod.fst ++ pairs.map Prod.snd

theorem second_of_pair_wins : CollisionFree suite seen ∧
    (∀ pair ∈ pairs,
      resolveDeviceSyncEvents suite authority seen pair.1.logicalKey = some pair.2) ∧
    ∀ resolved, Delivered suite authority seen.reverse resolved →
      resolved = resolveDeviceSyncEvents suite authority seen := by
  have hfree : CollisionFree suite seen := by
    unfold CollisionFree
    decide +kernel
  refine ⟨hfree, by decide +kernel, fun resolved hdelivered => ?_⟩
  have hsame : ∀ event, event ∈ seen.reverse ↔ event ∈ seen := fun event => mem_reverse
  exact ((device_sync_converges suite authority seen hfree).1 seen.reverse hsame).2 resolved
    hdelivered

end Sample

end Komms.Protocol
