import Komms.DeviceAuthority.Equiv.Validation

/-!
# The history a verified manifest records

`verify` looks at neighbours only.  Here its checks are carried along the whole list: what one
accepted transition preserves (`Linked`) is preserved from any earlier state to any later one.

* `verify_eq_ok_iff`: a verified manifest is a genesis followed by a chain of accepted transitions.
* `history_of_verify_or_reachable`: the invariants of the history (`History`).
-/

namespace Komms.DeviceAuthority

open List Option

variable {S : Suite}

/-! ### Chains of accepted transitions -/

variable {ts : List Transition}

theorem verifyLinks_eq_ok_iff : verifyLinks S ts = .ok () ↔
      ts.IsChain fun parent candidate => verifyTransition S parent candidate true = .ok () := by
  induction ts with
  | nil => simp [verifyLinks]
  | cons parent rest ih =>
    cases rest with
    | nil => simp [verifyLinks]
    | cons candidate rest =>
      rw [verifyLinks, check_bind_eq_ok_iff, ih, isChain_cons_cons]

variable {m : Manifest}

theorem verify_eq_ok_iff : m.verify S = .ok () ↔
      m.transitions.length ≤ maxTransitions ∧
        (∃ genesis ∈ m.transitions.head?, verifyGenesis S genesis = .ok ()) ∧
        m.transitions.IsChain fun parent candidate =>
          verifyTransition S parent candidate true = .ok () := by
  rw [Manifest.verify, check_bind_eq_ok_iff, bind_eq_ok_iff, rejectIf_eq_ok_iff]
  simp only [required_eq_ok_iff, check_bind_eq_ok_iff, verifyLinks_eq_ok_iff, not_or, not_lt]
  constructor
  · rintro ⟨⟨-, hlen⟩, g, hhead, hg, hchain⟩
    exact ⟨hlen, ⟨g, hhead, hg⟩, hchain⟩
  · rintro ⟨hlen, ⟨g, hhead, hg⟩, hchain⟩
    refine ⟨⟨?_, hlen⟩, g, hhead, hg, hchain⟩
    rintro hnil
    rw [hnil] at hhead
    cases hhead

/-! ### Manifests that are built -/

/-- The manifests that appends grow from a verified genesis. -/
inductive Grown (S : Suite) : Manifest → Prop
  | genesis {t} (h : verifyGenesis S t = .ok ()) : Grown S ⟨[t]⟩
  | append {m m' t} (hm : Grown S m) (h : m.append S t = .ok m') : Grown S m'

theorem verify_of_append {m m' : Manifest} {t : Transition} (h : m.append S t = .ok m') :
    m'.verify S = .ok () := by
  simp only [Manifest.append, bind_eq_ok_iff] at h
  obtain ⟨-, -, -, -, _, -, -, -, ⟨⟩, hver, heq⟩ := h
  cases heq
  exact hver

/-- A verified manifest without its last transition, when there are others, is verified too, and
`append` puts the transition back. -/
theorem append_of_verify {t : Transition} (hne : ts ≠ [])
    (h : Manifest.verify S ⟨ts ++ [t]⟩ = .ok ()) :
    Manifest.verify S ⟨ts⟩ = .ok () ∧ Manifest.append S ⟨ts⟩ t = .ok ⟨ts ++ [t]⟩ := by
  obtain ⟨hlen, ⟨g, hg, hgen⟩, hchain⟩ := verify_eq_ok_iff.mp h
  rw [isChain_append] at hchain
  rw [length_append, length_singleton] at hlen
  have hhead : g ∈ ts.head? := by rwa [head?_append_of_ne_nil _ hne] at hg
  have hbef : Manifest.verify S ⟨ts⟩ = .ok () :=
    verify_eq_ok_iff.mpr ⟨by simp only; omega, ⟨g, hhead, hgen⟩, hchain.1⟩
  have hpar : ts.getLast? = some (ts.getLast hne) := getLast?_eq_some_getLast hne
  have hlink := hchain.2.2 _ hpar t rfl
  refine ⟨hbef, ?_⟩
  have hroom : ¬ ts.length ≥ maxTransitions := by omega
  simp only [Manifest.append, hbef, ok_bind, rejectIf_bind_of_not hroom, Manifest.current?,
    hpar, required, hlink, h]

/-- **A manifest is verified exactly when it was grown by appends from a verified genesis.** -/
theorem verify_eq_ok_iff_grown : m.verify S = .ok () ↔ Grown S m := by
  constructor
  · obtain ⟨ts⟩ := m
    induction ts using List.reverseRecOn with
    | nil =>
      intro h
      obtain ⟨-, ⟨g, hg, -⟩, -⟩ := verify_eq_ok_iff.mp h
      cases hg
    | append_singleton ts t ih =>
      intro h
      by_cases hne : ts = []
      · subst hne
        obtain ⟨-, ⟨g, hg, hgen⟩, -⟩ := verify_eq_ok_iff.mp h
        cases hg
        exact .genesis hgen
      · obtain ⟨hbef, happ⟩ := append_of_verify hne h
        exact .append (ih hbef) happ
  · intro h
    cases h with
    | genesis hgen =>
      exact verify_eq_ok_iff.mpr ⟨by simp [maxTransitions], ⟨_, rfl, hgen⟩, isChain_singleton _⟩
    | append _ happ => exact verify_of_append happ

section Reachable

variable {Secret : Type} (S) (K : SecretKeys Secret)

/-- The manifests that calls of `initial`, `append` and `recover` produce. -/
inductive Reachable : Manifest → Prop
  | initial {root device name issuedAt serial transitionId m}
      (h : Manifest.initial S K root device name issuedAt serial transitionId = .ok m) : Reachable m
  | append {m m' t} (hm : Reachable m) (h : m.append S t = .ok m') : Reachable m'
  | recover {m m' root device name recoveredAt serial transitionId recoveryId} (hm : Reachable m)
      (h : m.recover S K root device name recoveredAt serial transitionId recoveryId = .ok m') :
      Reachable m'

end Reachable

variable {Secret : Type} {K : SecretKeys Secret}

/-- **Every manifest the code builds is verified.** -/
theorem verify_of_reachable (h : Reachable S K m) : m.verify S = .ok () := by
  cases h with
  | initial h =>
    simp only [Manifest.initial, bind_eq_ok_iff] at h
    obtain ⟨_, -, ⟨⟩, hver, heq⟩ := h
    cases heq
    exact hver
  | append _ h => exact verify_of_append h
  | recover _ h =>
    simp only [Manifest.recover, bind_eq_ok_iff] at h
    obtain ⟨-, -, _, -, _, -, -, -, _, -, -, -, _, -, _, -, happ⟩ := h
    exact verify_of_append happ

/-! ### Invariants of the history -/

/-- The invariants of a whole history.  `unchanged` speaks about any two rows of one device, the
later one in a later state. -/
structure History (m : Manifest) : Prop where
  generation : ∀ i (hi : i < m.transitions.length), m.transitions[i].generation.toNat = i + 1
  account : ∀ t ∈ m.transitions, ∀ u ∈ m.transitions, u.account = t.account
  retained : ∀ i j (hij : i ≤ j) (hj : j < m.transitions.length),
    ∀ old ∈ m.transitions[i].devices, ∃ new ∈ m.transitions[j].devices,
      new.deviceId = old.deviceId
  unchanged : ∀ i j (hij : i ≤ j) (hj : j < m.transitions.length),
    ∀ old ∈ m.transitions[i].devices, ∀ new ∈ m.transitions[j].devices,
      new.deviceId = old.deviceId →
        new.certificate = old.certificate ∧ old.lastSeen ≤ new.lastSeen ∧
        (old.isActive = false → new.isActive = false ∧ new.revokedAt = old.revokedAt ∧
          new.revokedAfterCounter = old.revokedAfterCounter)
  sorted : ∀ t ∈ m.transitions, (t.devices.map Entry.deviceId).Pairwise (· < ·)
  active : ∀ t ∈ m.transitions,
    1 ≤ activeCount t.devices ∧ activeCount t.devices ≤ maxAuthorityDevices
  ordinary : ∀ i (hi : i + 1 < m.transitions.length),
    m.transitions[i + 1].kind ≠ .recovery →
      m.transitions[i + 1].recoveryEpoch = m.transitions[i].recoveryEpoch
  recovery : ∀ i (hi : i + 1 < m.transitions.length),
    m.transitions[i + 1].kind = .recovery →
      m.transitions[i + 1].recoveryEpoch.toNat = m.transitions[i].recoveryEpoch.toNat + 1 ∧
        RecoveredTo m.transitions[i].devices m.transitions[i + 1].devices

theorem getElem_zero_mem_head? (h : 0 < ts.length) : ts[0] ∈ ts.head? := by
  rw [head?_eq_getElem?, getElem?_eq_getElem h]
  rfl

section Chain

variable {ts : List Transition} (hchain : ts.IsChain (Linked S))
include hchain

theorem generation_of_isChain (h0 : ∀ t ∈ ts.head?, t.generation = 1) (hlen : ts.length < 2 ^ 64)
    (i : ℕ) (hi : i < ts.length) : ts[i].generation.toNat = i + 1 := by
  induction i with
  | zero =>
    rw [h0 _ (getElem_zero_mem_head? hi)]
    rfl
  | succ i ih =>
    have hprev := ih (by omega)
    obtain ⟨g, hg⟩ := exists_checkedSucc (x := ts[i].generation) (by omega)
    have hgen := (hchain.getElem i hi).generation_eq
    rw [hg, getD_some] at hgen
    rw [hgen, checkedSucc_eq_some_iff.mp hg, hprev]

theorem continues_of_isChain {i j : ℕ} (hij : i ≤ j) (hj : j < ts.length) :
    Continues ts[i].devices ts[j].devices := by
  induction j, hij using Nat.le_induction with
  | base => exact .refl _
  | succ j _ ih => exact (ih (by omega)).trans (hchain.getElem j hj).continues

theorem account_of_isChain {i : ℕ} (hi : i < ts.length) : ts[i].account = ts[0].account := by
  induction i with
  | zero => rfl
  | succ i ih => rw [(hchain.getElem i hi).account_eq, ih (by omega)]

/-- The recovery epoch is at most the number of transitions that could have raised it. -/
theorem recoveryEpoch_le_of_isChain (h0 : ∀ t ∈ ts.head?, t.recoveryEpoch = 0) (i : ℕ)
    (hi : i < ts.length) : ts[i].recoveryEpoch.toNat ≤ i := by
  induction i with
  | zero =>
    rw [h0 _ (getElem_zero_mem_head? hi)]
    exact Nat.le_refl 0
  | succ i ih =>
    have hlink := hchain.getElem i hi
    have hprev := ih (by omega)
    by_cases hk : ts[i + 1].kind = .recovery
    · rw [(hlink.recovery hk).1]
      cases hs : checkedSucc ts[i].recoveryEpoch with
      | none => exact Nat.zero_le _
      | some e =>
        have := checkedSucc_eq_some_iff.mp hs
        rw [getD_some]
        omega
    · rw [hlink.ordinary hk]
      omega

end Chain

theorem validState_of_verify (h : m.verify S = .ok ()) {i : ℕ} (hi : i < m.transitions.length) :
    ValidState S m.transitions[i].account m.transitions[i].devices := by
  obtain ⟨-, ⟨g, hg, hgen⟩, hlin⟩ := verify_eq_ok_iff.mp h
  cases i with
  | zero =>
    rw [mem_unique (getElem_zero_mem_head? hi) hg]
    exact (verifyGenesis_eq_ok hgen).1
  | succ i => exact (verifyTransition_linked (hlin.getElem i hi)).state

theorem Entry.Succeeds.revoked {account : IdentityPublic} {old new : Entry}
    (h : old.Succeeds new) (hwf : old.WellFormed S account) (hrev : old.isActive = false) :
    new.isActive = false ∧ new.revokedAt = old.revokedAt ∧
      new.revokedAfterCounter = old.revokedAfterCounter := by
  have hsome : old.revokedAt.isSome = true := by
    simpa [Entry.isActive] using hrev
  have hat := h.revokedAt_eq hsome
  refine ⟨?_, hat, h.revokedAfterCounter_eq (hwf.revoked_iff ▸ hsome)⟩
  rw [← hrev, Entry.isActive, hat, Entry.isActive]

/-- **What a verified manifest records.** -/
theorem history_of_verify (hver : m.verify S = .ok ()) : History m := by
  obtain ⟨hlen, ⟨g, hg, hgeneration⟩, hlin⟩ := verify_eq_ok_iff.mp hver
  have hchain : m.transitions.IsChain (Linked S) := hlin.imp fun _ _ => verifyTransition_linked
  obtain ⟨-, hgen, hepoch⟩ := verifyGenesis_eq_ok hgeneration
  have hbd : m.transitions.length < 2 ^ 64 := Nat.lt_of_le_of_lt hlen (by decide)
  have hhead : ∀ t ∈ m.transitions.head?, t = g := fun t ht => mem_unique ht hg
  have hvalid_mem : ∀ t ∈ m.transitions, ValidState S t.account t.devices := fun t ht => by
    obtain ⟨i, hi, rfl⟩ := mem_iff_getElem.mp ht
    exact validState_of_verify hver hi
  -- Along the chain of linked transitions, one field of the history after the other.
  refine ⟨?_, ?_, ?_, ?_, ?_, ?_, ?_, ?_⟩
  · exact generation_of_isChain hchain (fun t ht => (hhead t ht) ▸ hgen) hbd
  · intro t ht u hu
    obtain ⟨i, hi, rfl⟩ := mem_iff_getElem.mp ht
    obtain ⟨j, hj, rfl⟩ := mem_iff_getElem.mp hu
    rw [account_of_isChain hchain hi, account_of_isChain hchain hj]
  · intro i j hij hj old hold
    obtain ⟨new, hnew, hsucc⟩ := continues_of_isChain hchain hij hj old hold
    exact ⟨new, hnew, hsucc.deviceId_eq⟩
  · intro i j hij hj old hold new hnew hid
    obtain ⟨_, hnew', hsucc⟩ := continues_of_isChain hchain hij hj old hold
    obtain rfl := (validState_of_verify hver hj).eq_of_deviceId hnew hnew'
      (hid.trans hsucc.deviceId_eq.symm)
    exact ⟨hsucc.certificate_eq, hsucc.lastSeen_le,
      hsucc.revoked ((validState_of_verify hver (by omega)).wellFormed old hold)⟩
  · exact fun t ht => (hvalid_mem t ht).sorted
  · exact fun t ht => ⟨(hvalid_mem t ht).one_le_active, (hvalid_mem t ht).active_le⟩
  · exact fun i hi => (hchain.getElem i hi).ordinary
  · intro i hi hk
    obtain ⟨hepoch', hto⟩ := (hchain.getElem i hi).recovery hk
    -- An epoch is at most the index of its transition, so it does not overflow.
    have hle := recoveryEpoch_le_of_isChain hchain (fun t ht => (hhead t ht) ▸ hepoch) i (by omega)
    obtain ⟨e, he⟩ := exists_checkedSucc (x := m.transitions[i].recoveryEpoch) (by omega)
    rw [he, getD_some] at hepoch'
    exact ⟨by rw [hepoch', checkedSucc_eq_some_iff.mp he], hto⟩

/-! ### The current state -/

/-- The current state of a manifest, under the account that it is of. -/
structure Current (S : Suite) (m : Manifest) (account : IdentityPublic) : Prop where
  account_eq : m.account? = some account
  state : ValidState S account m.devices
  generation_ne : m.generation ≠ 0
  stateId_eq : ∃ bytes, m.stateId S = S.sha256 bytes

theorem Current.account_verify {account : IdentityPublic} (h : Current S m account) :
    account.verify S = .ok () := by
  obtain ⟨e, he, -⟩ := countP_pos_iff.mp h.state.one_le_active
  have hwf := h.state.wellFormed e he
  have hver := hwf.verified
  simp only [Certificate.verify, check_bind_eq_ok_iff] at hver
  rw [← hwf.account_eq]
  exact hver.1

theorem current?_of_verify (h : m.verify S = .ok ()) :
    ∃ hlast : m.transitions.length - 1 < m.transitions.length,
      m.current? = some m.transitions[m.transitions.length - 1] := by
  obtain ⟨-, ⟨g, hg, -⟩, -⟩ := verify_eq_ok_iff.mp h
  have hpos : 0 < m.transitions.length := length_pos_of_mem (mem_of_mem_head? hg)
  refine ⟨by omega, ?_⟩
  rw [Manifest.current?, getLast?_eq_getElem?, getElem?_eq_getElem]

theorem exists_current_of_verify (h : m.verify S = .ok ()) : ∃ account, Current S m account := by
  obtain ⟨-, ⟨g, hg, -⟩, -⟩ := verify_eq_ok_iff.mp h
  obtain ⟨hlast, hcur⟩ := current?_of_verify h
  have hhis := history_of_verify h
  have hst := validState_of_verify h hlast
  rw [hhis.account g (mem_of_mem_head? hg) _ (getElem_mem hlast)] at hst
  refine ⟨g.account, ?_, ?_, ?_, ?_⟩
  · rw [Manifest.account?, mem_def.mp hg]
    rfl
  · simpa [Manifest.devices, hcur] using hst
  · intro hzero
    have hgeneration := hhis.generation _ hlast
    simp only [Manifest.generation, hcur, map_some, getD_some] at hzero
    rw [hzero] at hgeneration
    exact absurd hgeneration (by simp)
  · rw [Manifest.stateId, hcur]
    exact ⟨_, rfl⟩

/-! ### The whole history -/

/-- **Manifest history.** A manifest that `verify` accepts, or that calls of `initial`, `append` and
`recover` have built, was grown by appends from a verified genesis and keeps every invariant of its
history. -/
theorem history_of_verify_or_reachable (m : Manifest)
    (h : m.verify S = .ok () ∨ Reachable S K m) : Grown S m ∧ History m := by
  have hver : m.verify S = .ok () := h.elim id verify_of_reachable
  exact ⟨verify_eq_ok_iff_grown.mp hver, history_of_verify hver⟩

namespace Sample

/-- A suite that accepts every signature, and keys that sign everything alike. -/
def suite : Suite := .ofSigned (fun _ _ => true) fun _ => .zero 32

def keys : SecretKeys UInt8 where
  verifyingKey := .replicate 32
  agreementKey := .replicate 32
  sign := fun _ _ => .zero 64

def id16 : NonZero16 := ⟨.replicate 16 1, by decide⟩

/-- An account with one device, recovered once. -/
def recovered : Except CryptoError Manifest := do
  let m ← Manifest.initial suite keys ⟨1, 1⟩ ⟨2, 2⟩ ⟨[0x61], by decide⟩ 10 id16 id16
  m.recover suite keys ⟨1, 1⟩ ⟨3, 3⟩ ⟨[0x62], by decide⟩ 20 id16 id16 id16

theorem recovered_reachable {m : Manifest} (h : recovered = .ok m) : Reachable suite keys m := by
  obtain ⟨_, hinit, hrec⟩ := bind_eq_ok_iff.mp h
  exact .recover (.initial hinit) hrec

theorem history_of_recovered : ∃ m, Reachable suite keys m ∧ m.transitions.length = 2 ∧
    Grown suite m ∧ History m := by
  have hlen : recovered.map (fun m => m.transitions.length) = .ok 2 := by rfl
  cases hm : recovered with
  | error e =>
    rw [hm] at hlen
    cases hlen
  | ok m =>
    rw [hm] at hlen
    exact ⟨m, recovered_reachable hm, Except.ok.inj hlen,
      history_of_verify_or_reachable m (.inr (recovered_reachable hm))⟩

end Sample

end Komms.DeviceAuthority
