import Mathlib.Data.List.Chain
import Komms.DeviceAuthority.Manifest

/-!
# What the manifest validators accept

One specification for each validator of `DeviceAuthority.Manifest`, in terms of the rows and not of
the loop that reads them: `ValidState` of a state, `Entry.Succeeds` of a row and its successor, and
`Linked`, everything an accepted transition says about its parent.
-/

namespace Komms.DeviceAuthority

open List

variable {S : Suite}

/-! ### States -/

variable {prior : Option (Octets 32)} {id : Octets 32} {account : IdentityPublic} {e a b : Entry}
  {devices parent candidate : List Entry} {t : Transition} {quorum : Bool}

/-- The bound that the loops keep in `prior` makes an ascending chain of what they read. -/
theorem isChain_prior_cons {ids : List (Octets 32)} : (prior.toList ++ id :: ids).IsChain (· < ·) ↔
      ¬ prior.any (· ≥ id) = true ∧ ((some id).toList ++ ids).IsChain (· < ·) := by
  cases prior with
  | none => simp
  | some p => simp [isChain_cons_cons]

/-- What `validate_state` asks of one row. -/
@[mk_iff]
structure Entry.WellFormed (S : Suite) (account : IdentityPublic) (e : Entry) : Prop where
  verified : e.certificate.verify S = .ok ()
  account_eq : e.certificate.account = account
  name_ne : e.name.bytes ≠ []
  name_le : e.name.bytes.length ≤ maxDeviceNameBytes
  issuedAt_le_lastSeen : e.certificate.issuedAt ≤ e.lastSeen
  issuedAt_le_revokedAt : ∀ t ∈ e.revokedAt, e.certificate.issuedAt ≤ t
  revoked_iff : e.revokedAt.isSome = e.revokedAfterCounter.isSome

/-- A complete valid state: rows well formed, ids strictly ascending, one to eight active. -/
structure ValidState (S : Suite) (account : IdentityPublic) (devices : List Entry) : Prop where
  wellFormed : ∀ e ∈ devices, e.WellFormed S account
  sorted : (devices.map Entry.deviceId).Pairwise (· < ·)
  one_le_active : 1 ≤ activeCount devices
  active_le : activeCount devices ≤ maxAuthorityDevices

theorem validateEntries_eq_ok_iff {active n : ℕ} :
    validateEntries S account prior active devices = .ok n ↔
      (∀ e ∈ devices, e.WellFormed S account) ∧
      (prior.toList ++ devices.map Entry.deviceId).IsChain (· < ·) ∧
      n = active + activeCount devices := by
  induction devices generalizing prior active with
  | nil =>
    have hprior : prior.toList.IsChain (· < ·) := by cases prior <;> simp
    simp [validateEntries, activeCount, hprior, eq_comm]
  | cons e rest ih =>
    have hcnt : (if e.isActive then active + 1 else active) + activeCount rest =
        active + activeCount (e :: rest) := by
      unfold activeCount
      rw [countP_cons]
      split_ifs <;> omega
    rw [validateEntries, check_bind_eq_ok_iff, rejectIf_bind_eq_ok_iff, ih,
      hcnt, forall_mem_cons, map_cons, isChain_prior_cons, Entry.wellFormed_iff]
    simp only [not_or, not_lt, ne_eq, not_not, Bool.not_eq_true, Option.any_eq_false,
      decide_eq_false_iff_not, UInt64.not_lt]
    tauto

theorem validateState_eq_ok_iff :
    validateState S account devices = .ok () ↔ ValidState S account devices := by
  rw [validateState, bind_eq_ok_iff]
  simp only [validateEntries_eq_ok_iff, rejectIf_eq_ok_iff, Option.toList_none, nil_append,
    isChain_iff_pairwise, zero_add]
  constructor
  · rintro ⟨n, ⟨hwf, hsorted, rfl⟩, _⟩
    exact ⟨hwf, hsorted, by omega, by omega⟩
  · rintro ⟨hwf, hsorted, _, _⟩
    exact ⟨_, ⟨hwf, hsorted, rfl⟩, by omega⟩

theorem ValidState.eq_of_deviceId (h : ValidState S account devices) (ha : a ∈ devices)
    (hb : b ∈ devices) (hab : a.deviceId = b.deviceId) : a = b := by
  have hnd : (devices.map Entry.deviceId).Nodup := h.sorted.imp ne_of_lt
  exact inj_on_of_nodup_map hnd ha hb hab

/-! ### Successor rows -/

/-- What a later state may say about a row of an earlier one. -/
structure Entry.Succeeds (old new : Entry) : Prop where
  certificate_eq : new.certificate = old.certificate
  lastSeen_le : old.lastSeen ≤ new.lastSeen
  revokedAt_eq : old.revokedAt.isSome = true → new.revokedAt = old.revokedAt
  revokedAfterCounter_eq : old.revokedAfterCounter.isSome = true →
    new.revokedAfterCounter = old.revokedAfterCounter

namespace Entry.Succeeds

theorem refl (e : Entry) : e.Succeeds e := ⟨rfl, UInt64.le_refl _, fun _ => rfl, fun _ => rfl⟩

theorem trans {a b c : Entry} (hab : a.Succeeds b) (hbc : b.Succeeds c) : a.Succeeds c where
  certificate_eq := hbc.certificate_eq.trans hab.certificate_eq
  lastSeen_le := UInt64.le_trans hab.lastSeen_le hbc.lastSeen_le
  revokedAt_eq := fun h => by
    have hb := hab.revokedAt_eq h
    rw [hbc.revokedAt_eq (by rw [hb]; exact h), hb]
  revokedAfterCounter_eq := fun h => by
    have hb := hab.revokedAfterCounter_eq h
    rw [hbc.revokedAfterCounter_eq (by rw [hb]; exact h), hb]

theorem deviceId_eq {old new : Entry} (h : old.Succeeds new) : new.deviceId = old.deviceId := by
  unfold Entry.deviceId
  rw [h.certificate_eq]

end Entry.Succeeds

theorem findDevice_eq_some (h : findDevice devices id = some e) : e ∈ devices ∧ e.deviceId = id :=
  ⟨mem_of_find?_eq_some h, by simpa using find?_some h⟩

/-- Every row of a state has a successor in a later one. -/
def Continues (parent candidate : List Entry) : Prop :=
  ∀ old ∈ parent, ∃ new ∈ candidate, old.Succeeds new

theorem Continues.refl (devices : List Entry) : Continues devices devices :=
  fun old hold => ⟨old, hold, .refl old⟩

theorem Continues.trans {a b c : List Entry} (hab : Continues a b) (hbc : Continues b c) :
    Continues a c := by
  intro x hx
  obtain ⟨y, hy, hxy⟩ := hab x hx
  obtain ⟨z, hz, hyz⟩ := hbc y hy
  exact ⟨z, hz, hxy.trans hyz⟩

theorem validateParentContinuity_eq_ok_iff : validateParentContinuity parent candidate = .ok () ↔
      ∀ old ∈ parent, ∃ new, findDevice candidate old.deviceId = some new ∧ old.Succeeds new := by
  unfold validateParentContinuity
  rw [forEach_eq_ok_iff]
  refine forall₂_congr fun old _ => ?_
  rw [bind_eq_ok_iff]
  refine exists_congr fun new => ?_
  rw [required_eq_ok_iff, rejectIf_eq_ok_iff]
  refine and_congr_right fun _ => ?_
  simp only [not_or, not_and, ne_eq, not_not, UInt64.not_lt]
  constructor
  · rintro ⟨hc, hr, hn, hl⟩
    exact ⟨hc, hl, hr, hn⟩
  · rintro ⟨hc, hl, hr, hn⟩
    exact ⟨hc, hr, hn, hl⟩

theorem continues_of_validateParentContinuity
    (h : validateParentContinuity parent candidate = .ok ()) : Continues parent candidate := by
  intro old hold
  obtain ⟨new, hfind, hsucc⟩ := validateParentContinuity_eq_ok_iff.mp h old hold
  exact ⟨new, (findDevice_eq_some hfind).1, hsucc⟩

/-! ### Recovery -/

/-- After a recovery one device is active, and it has no row in the parent state. -/
def RecoveredTo (parent candidate : List Entry) : Prop :=
  ∃ fresh ∈ candidate, fresh.isActive = true ∧
    (∀ e ∈ candidate, e.isActive = true → e = fresh) ∧
    ∀ old ∈ parent, old.deviceId ≠ fresh.deviceId

theorem eq_of_activeCount_eq_one (h : activeCount devices = 1) (ha : a ∈ devices)
    (hb : b ∈ devices) (hai : a.isActive = true) (hbi : b.isActive = true) :
    a = b := by
  rw [activeCount, countP_eq_length_filter, length_eq_one_iff] at h
  obtain ⟨x, hx⟩ := h
  have hax : a ∈ [x] := hx ▸ mem_filter.mpr ⟨ha, hai⟩
  have hbx : b ∈ [x] := hx ▸ mem_filter.mpr ⟨hb, hbi⟩
  rw [mem_singleton.mp hax, mem_singleton.mp hbx]

variable {parent candidate : Transition}

theorem recoveredTo_of_validateRecoveryDifference
    (hnew : validateNewCertificates parent candidate = .ok ())
    (h : validateRecoveryDifference parent candidate = .ok ()) :
    RecoveredTo parent.devices candidate.devices := by
  rw [validateNewCertificates, rejectIf_eq_ok_iff, not_not] at hnew
  rw [validateRecoveryDifference, check_bind_eq_ok_iff, check_bind_eq_ok_iff] at h
  simp only [bind_eq_ok_iff, rejectIf_eq_ok_iff, required_eq_ok_iff] at h
  obtain ⟨_, -, certificate, hhead, fresh, hfr, hactive⟩ := h
  have hone : activeCount candidate.devices = 1 := by tauto
  obtain ⟨hmem, hid⟩ := findDevice_eq_some hfr
  have hintr : certificate ∈ introducedCertificates parent.devices candidate.devices := by
    rw [hnew]
    exact mem_of_mem_head? hhead
  simp only [introducedCertificates, mem_map, mem_filter, Bool.not_eq_true', any_eq_false,
    decide_eq_true_eq] at hintr
  obtain ⟨e, ⟨-, habs⟩, hcert⟩ := hintr
  have hact : fresh.isActive = true := by simpa using hactive
  refine ⟨fresh, hmem, hact, fun x hx hxi => eq_of_activeCount_eq_one hone hx hmem hxi hact, ?_⟩
  intro old hold
  rw [hid, ← hcert]
  exact habs old hold

/-! ### Transitions -/

theorem validState_of_validateTransitionCommon (h : validateTransitionCommon S t = .ok ()) :
    ValidState S t.account t.devices := by
  simp only [validateTransitionCommon, check_bind_eq_ok_iff, validateState_eq_ok_iff] at h
  exact h.2.2.1

/-- What an accepted transition says about its parent. -/
structure Linked (S : Suite) (parent candidate : Transition) : Prop where
  account_eq : candidate.account = parent.account
  parentHash_eq : candidate.parentHash = parent.transitionHash S
  generation_eq : candidate.generation = (checkedSucc parent.generation).getD 0
  state : ValidState S candidate.account candidate.devices
  continues : Continues parent.devices candidate.devices
  ordinary : candidate.kind ≠ .recovery → candidate.recoveryEpoch = parent.recoveryEpoch
  recovery : candidate.kind = .recovery →
    candidate.recoveryEpoch = (checkedSucc parent.recoveryEpoch).getD 0 ∧
      RecoveredTo parent.devices candidate.devices

/-- The branch of `verify_transition` that a kind selects. -/
theorem verifyTransition_eq_ok (h : verifyTransition S parent candidate quorum = .ok ()) :
    (candidate.kind = .recovery ∧ verifyRecovery S parent candidate = .ok ()) ∨
      (candidate.kind ≠ .recovery ∧ candidate.kind ≠ .genesis ∧
        verifyOrdinary S parent candidate quorum = .ok ()) := by
  simp only [verifyTransition, check_bind_eq_ok_iff] at h
  cases hk : candidate.kind <;> simp_all

/-- **One accepted transition.** -/
theorem verifyTransition_linked
    (h : verifyTransition S parent candidate quorum = .ok ()) : Linked S parent candidate := by
  have hbranch := verifyTransition_eq_ok h
  simp only [verifyTransition, check_bind_eq_ok_iff, rejectIf_eq_ok_iff, not_or, ne_eq,
    not_not] at h
  obtain ⟨hcom, ⟨hacc, hhash, -, hgen⟩, hcont, hnew, -⟩ := h
  refine ⟨hacc, hhash, hgen, validState_of_validateTransitionCommon hcom,
    continues_of_validateParentContinuity hcont, ?_, ?_⟩
  · intro hk
    rcases hbranch with ⟨hrec, -⟩ | ⟨-, -, hord⟩
    · exact absurd hrec hk
    · simp only [verifyOrdinary, rejectIf_bind_eq_ok_iff, not_or, ne_eq, not_not] at hord
      exact hord.1.1
  · intro hk
    rcases hbranch with ⟨-, hrec⟩ | ⟨hne, -⟩
    · simp only [verifyRecovery, check_bind_eq_ok_iff, rejectIf_eq_ok_iff, not_or, ne_eq,
        not_not] at hrec
      exact ⟨hrec.1.1, recoveredTo_of_validateRecoveryDifference hnew hrec.2.1⟩
    · exact absurd hk hne

theorem verifyGenesis_eq_ok (h : verifyGenesis S t = .ok ()) :
    ValidState S t.account t.devices ∧ t.generation = 1 ∧ t.recoveryEpoch = 0 := by
  simp only [verifyGenesis, check_bind_eq_ok_iff, rejectIf_eq_ok_iff, not_or, ne_eq, not_not] at h
  exact ⟨validState_of_validateTransitionCommon h.1, h.2.1.2.2.1, h.2.1.2.2.2.1⟩

end Komms.DeviceAuthority
