import Komms.Handshake.Equiv.Flight

/-!
# The rows of a sender's devices

The rows that `consume_handshake` prepares are those of the sender's manifest, or of the sender
alone: one row a device, under the account of the contact, acceptable to the store unless a key is
all zeros.  Rows to delete are not among them, and the sending device is never forgotten.
-/

namespace Komms.Handshake

open DeviceAuthority Option Except Effect Function List

variable {Session : Type} {E : Env Session} {node : Node Session} {f : Flight Session}
  {s : Store Session} {now : UInt64} {key : Octets 32}

/-! ### The sender's bundle -/

/-- What a verified bundle says about its manifest and about the sender. -/
structure Certified (E : Env Session) (o : Opened) (bundle : DevicePrekeyBundle) : Prop where
  current : Current E.group.suite bundle.manifest o.accountIdentity
  sender : ∃ entry ∈ bundle.manifest.devices, entry.deviceId = o.peerDevice ∧ entry.isActive = true

theorem Read.certified (h : Read E node now key f) {bundle : DevicePrekeyBundle}
    (hbundle : f.opened.deviceBundle = some bundle) : Certified E f.opened bundle := by
  obtain ⟨hver, hidt⟩ := h.bundle bundle hbundle
  simp only [DevicePrekeyBundle.verify, Bool.and_eq_true, decide_eq_true_eq] at hver
  obtain ⟨⟨⟨⟨⟨hman, -⟩, -⟩, -⟩, hdev⟩, hact⟩ := hver
  obtain ⟨account, hcur⟩ := exists_current_of_verify hman
  have hacc : f.opened.accountIdentity = account := by
    simp [Opened.accountIdentity, hbundle, hcur.account_eq]
  refine ⟨hacc ▸ hcur, ?_⟩
  simp only [Manifest.activeCertificate, Option.bind_eq_bind, Option.bind_eq_some_iff] at hact
  obtain ⟨t, ht, entry, hfind, _⟩ := hact
  have hentry : entry.deviceId = bundle.certificate.deviceId ∧ entry.isActive = true := by
    simpa using find?_some hfind
  refine ⟨entry, ?_, ?_, hentry.2⟩
  · simpa [Manifest.devices, ht] using mem_of_find?_eq_some hfind
  · rw [hentry.1, Certificate.deviceId, hdev, hidt, Opened.peerDevice]

theorem Read.accountIdentity_verify (h : Read E node now key f) :
    f.opened.accountIdentity.verify E.group.suite = .ok () := by
  cases hbundle : f.opened.deviceBundle with
  | some bundle => exact (h.certified hbundle).current.account_verify
  | none =>
    rw [Opened.accountIdentity, hbundle]
    exact h.initiator

/-! ### Prior rows -/

variable {row : ContactDeviceRecord}

theorem mem_contactDevicesFor {account : Octets 32} : row ∈ s.contactDevicesFor account ↔
      row ∈ s.contactDevices ∧ row.account = account ∧ row.revokedAt = none := by
  simp [Store.contactDevicesFor]

theorem mem_of_priorEndpoint {existing : List ContactDeviceRecord} {peer device : Octets 32}
    {manifest : Manifest}
    (h : priorEndpoint existing peer manifest device = some row) : row ∈ existing := by
  rw [priorEndpoint, Option.or_eq_some_iff] at h
  rcases h with h | ⟨-, h⟩
  · exact mem_of_find?_eq_some h
  · split_ifs at h
    exact mem_of_find?_eq_some h

/-- An introduction that the store accepts: a capability that is not all zeros, from the first
generation on. -/
def IntroductionFits (capability : Option (Octets 32)) (generation : UInt64) : Prop :=
  capability ≠ some (.zero 32) ∧ capability.isSome = decide (generation > 0)

/-- An introduction taken over from a stored row is acceptable. -/
theorem Sound.introduction_prior (hs : Sound E s)
    {prior : Option ContactDeviceRecord} (hprior : ∀ row ∈ prior, row ∈ s.contactDevices) :
    IntroductionFits (prior.bind ContactDeviceRecord.introductionCapability)
      ((prior.map ContactDeviceRecord.introductionGeneration).getD 0) := by
  cases prior with
  | none => exact ⟨by simp, by simp⟩
  | some row => simpa [IntroductionFits] using hs.introduction row (hprior row rfl)

/-! ### The rows -/

/-- Rows that the store takes for a contact. -/
structure RowsFit (peer peerDevice : Octets 32) (rows : List ContactDeviceRecord) : Prop where
  account_eq : ∀ row ∈ rows, row.account = peer
  device_nodup : (rows.map ContactDeviceRecord.device).Nodup
  sender_mem : ∃ row ∈ rows, row.device = peerDevice
  valid : ∀ row ∈ rows, row.account ≠ .zero 32 → row.device ≠ .zero 32 →
    validateContactDevice row = .ok ()
  introduction : ∀ row ∈ rows,
    IntroductionFits row.introductionCapability row.introductionGeneration

/-- The endpoints read from a certified bundle are rows the commit accepts. -/
theorem rowsFit_manifestEndpoints (hE : Lawful E) (hs : Sound E s)
    {bundle : DevicePrekeyBundle} (hbundle : Certified E f.opened bundle) :
    RowsFit f.opened.peer f.opened.peerDevice (manifestEndpoints E
      (s.contactDevicesFor f.opened.peer) f.opened.peer f.opened.peerDevice bundle now).rows := by
  obtain ⟨sender, hsnd, hdev, -⟩ := hbundle.sender
  refine ⟨?_, ?_, ?_, ?_, ?_⟩
  · intro row hrow
    obtain ⟨entry, -, rfl⟩ := mem_map.mp hrow
    rfl
  · rw [manifestEndpoints, List.map_map]
    exact hbundle.current.state.sorted.imp ne_of_lt
  · exact ⟨_, mem_map_of_mem hsnd, hdev⟩
  · intro row hrow hacc hrdev
    obtain ⟨entry, hentry, rfl⟩ := mem_map.mp hrow
    obtain ⟨bytes, hstate⟩ := hbundle.current.stateId_eq
    have hrev := (hbundle.current.state.wellFormed entry hentry).revoked_iff
    -- Generation and state id of a verified manifest are not zero.
    have hgen := hbundle.current.generation_ne
    have hne := hE.sha256_ne bytes
    rw [← hstate] at hne
    simp only [validateContactDevice, rejectIf_eq_ok_iff, not_or]
    refine ⟨hacc, hrdev, ?_, ?_, ?_⟩
    · simp [manifestEndpoint]
    · simp [manifestEndpoint, hgen, hne]
    · simpa [manifestEndpoint] using hrev
  · intro row hrow
    obtain ⟨_, -, rfl⟩ := mem_map.mp hrow
    exact hs.introduction_prior fun prior hprior =>
      (mem_contactDevicesFor.mp (mem_of_priorEndpoint hprior)).1

theorem rowsFit_bareEndpoint (hs : Sound E s)
    (hbundle : f.opened.deviceBundle = none) {prior : Option ContactDeviceRecord}
    (hprior : ∀ row ∈ prior, row ∈ s.contactDevices) :
    RowsFit f.opened.peer f.opened.peerDevice [bareEndpoint E f prior now] := by
  have hpeer : f.opened.peer = f.opened.peerDevice := by
    simp [Opened.peer, Opened.accountIdentity, hbundle, Opened.peerDevice]
  refine ⟨by simp [bareEndpoint], by simp, ⟨_, .head _, rfl⟩, ?_, ?_⟩
  · intro row hrow hacc hdev
    obtain rfl := mem_singleton.mp hrow
    simp only [validateContactDevice, rejectIf_eq_ok_iff, not_or]
    refine ⟨hacc, hdev, ?_, ?_, ?_⟩
    · simp [bareEndpoint, hpeer]
    all_goals simp [bareEndpoint]
  · intro row hrow
    obtain rfl := mem_singleton.mp hrow
    exact hs.introduction_prior hprior

/-- **The rows of a contact after a handshake.** -/
theorem rowsFit_endpoints (hE : Lawful E) (hs : Sound E s)
    (hread : Read E node now key f) (now' : UInt64) :
    RowsFit f.opened.peer f.opened.peerDevice (endpoints E s f now').rows := by
  unfold endpoints
  cases hbundle : f.opened.deviceBundle with
  | some bundle => exact rowsFit_manifestEndpoints hE hs (hread.certified hbundle)
  | none =>
    refine rowsFit_bareEndpoint hs hbundle fun row hrow => ?_
    exact (mem_contactDevicesFor.mp (mem_of_find?_eq_some hrow)).1

/-! ### Rows and devices that go -/

theorem mem_endpoints_deleted (h : row ∈ (endpoints E s f now).deleted) :
    row ∈ s.contactDevicesFor f.opened.peer ∧
      ∀ new ∈ (endpoints E s f now).rows, new.device ≠ row.device := by
  unfold endpoints at h ⊢
  cases hbundle : f.opened.deviceBundle with
  | none => simp [hbundle] at h
  | some bundle =>
    simp only [hbundle, manifestEndpoints, mem_append, mem_filter, List.all_eq_true] at h ⊢
    rcases h with ⟨⟨hrow, hnew⟩, -⟩ | ⟨⟨hrow, hnew⟩, -⟩
    all_goals exact ⟨hrow, fun new hnew' => by simpa using hnew new hnew'⟩

theorem ne_of_mem_cleanup {device : Octets 32} (hread : Read E node now key f) {now' : UInt64}
    (h : device ∈ (endpoints E s f now').cleanup) : device ≠ f.opened.peerDevice := by
  have hdel := fun row => @mem_endpoints_deleted _ E f s now' row
  unfold endpoints at h hdel
  cases hbundle : f.opened.deviceBundle with
  | none => simp [hbundle] at h
  | some bundle =>
    simp only [hbundle] at h hdel
    obtain ⟨sender, hsnd, hdev, -⟩ := (hread.certified hbundle).sender
    rcases mem_append.mp h with h | h
    · obtain ⟨row, hrow, rfl⟩ := mem_map.mp h
      have hne := (mem_filter.mp hrow).2
      simp only [Bool.and_eq_true, decide_eq_true_eq] at hne
      exact hne.2
    · obtain ⟨row, hrow, rfl⟩ := mem_map.mp h
      have hne := (hdel row hrow).2 _ (mem_map_of_mem hsnd)
      exact fun heq => hne (hdev.trans heq.symm)

/-! ### Writes -/

variable {s' : Store Session} {device : Octets 32} {session : Session}

theorem putContactDevices_eq_ok {rows : List ContactDeviceRecord}
    (h : rows.foldlM putContactDevice s = .ok s') :
    ∃ contactDevices, s' = { s with contactDevices } := by
  refine foldlM_invariant (I := fun s' => ∃ contactDevices, s' = { s with contactDevices })
    (fun _ _ _ h₁ hs => ?_) h ⟨_, rfl⟩
  obtain ⟨_, rfl⟩ := hs
  simp only [putContactDevice, check_bind_eq_ok_iff, Except.ok.injEq] at h₁
  exact ⟨_, h₁.2.2.symm⟩

theorem putDeliveries_eq_ok {rows : List DeviceDelivery}
    (h : rows.foldlM putMessageDeviceDelivery s = .ok s') :
    ∃ deliveries, s' = { s with deliveries } := by
  refine foldlM_invariant (I := fun s' => ∃ deliveries, s' = { s with deliveries })
    (fun _ _ _ h₁ hs => ?_) h ⟨_, rfl⟩
  obtain ⟨_, rfl⟩ := hs
  simp only [putMessageDeviceDelivery, check_bind_eq_ok_iff, Except.ok.injEq] at h₁
  exact ⟨_, h₁.2.symm⟩

/-- The session row is written with the wake lanes of its device, and no other device's. -/
theorem putSession_eq_ok (h : putSession E s device session = .ok s') :
    ∃ wake wakeRevocations, (∀ other, other ≠ device → wake other = s.wake other) ∧
      s' = { s with sessions := Function.update s.sessions device (some session), wake,
                    wakeRevocations } := by
  simp only [putSession, synchronizeWakeSession, bind_eq_ok_iff] at h
  obtain ⟨_, h₁, h⟩ := h
  cases h
  split at h₁
  · cases h₁
    exact ⟨_, _, fun other hne => Function.update_of_ne hne _ _, rfl⟩
  · split_ifs at h₁
    · cases h₁
      exact ⟨_, _, fun _ _ => rfl, rfl⟩
    · obtain ⟨_, -, h₁⟩ := bind_eq_ok_iff.mp h₁
      cases h₁
      exact ⟨_, _, fun other hne => Function.update_of_ne hne _ _, rfl⟩

theorem deleteSession_eq_ok (h : deleteSession s device = .ok s') :
    ∃ wake wakeRevocations, (∀ other, other ≠ device → wake other = s.wake other) ∧
      s' = { s with
        sessions := Function.update s.sessions device none, wake, wakeRevocations } := by
  obtain ⟨_, -, h⟩ := bind_eq_ok_iff.mp h
  cases h
  exact ⟨_, _, fun other hne => Function.update_of_ne hne _ _, rfl⟩

end Komms.Handshake
