import Mathlib.Data.List.Nodup
import Mathlib.Data.List.Chain
import Komms.GroupAuthority.State

/-!
# What structural validation guarantees

The loops of `validateState`, read as statements about the roster and about the chain of transfers
(`Succession`); `validateState_valid` is everything a valid state satisfies.
-/

namespace Komms.GroupAuthority

open List

/-! ### The roster -/

/-- What the loop over the members establishes, from the last peer and the owners counted so far. -/
theorem validateMembers_eq_ok {owner : Octets 32} {previous : Option (Octets 32)} {count n : ℕ}
    {members : List Member} (h : validateMembers owner previous count members = .ok n) :
    (∀ m ∈ members, m.identity ≠ [] ∧ m.identity.length ≤ maxGroupMemberIdentityLen) ∧
      (previous.toList ++ members.map Member.peer).IsChain (· < ·) ∧
      (∀ m ∈ members, m.role = .owner → m.peer = owner) ∧
      n = count + members.countP fun m => m.role = .owner := by
  induction members generalizing previous count with
  | nil =>
    have hprev : previous.toList.IsChain (· < ·) := by cases previous <;> simp
    simp only [validateMembers, Except.ok.injEq] at h
    simp [hprev, h]
  | cons m rest ih =>
    simp only [validateMembers, rejectIf_bind_eq_ok_iff] at h
    obtain ⟨hid, hprev, hown, hrest⟩ := h
    obtain ⟨ihid, ihchain, ihowner, ihcount⟩ := ih hrest
    refine ⟨?_, ?_, ?_, ?_⟩
    · rw [forall_mem_cons]
      exact ⟨by rw [not_or, not_lt] at hid; exact hid, ihid⟩
    · cases previous with
      | none => exact ihchain
      | some p =>
        have hlt : p < m.peer := by simpa using hprev
        exact isChain_cons_cons.mpr ⟨hlt, ihchain⟩
    · rw [forall_mem_cons]
      exact ⟨fun hm => by_contra fun hne => hown ⟨hm, hne⟩, ihowner⟩
    · rw [ihcount, countP_cons]
      by_cases hm : m.role = .owner
      · simp [hm]
        omega
      · simp [hm]

/-! ### The chain of transfers -/

/-- The owners that a list of transfers passes through. -/
def ownersFrom (original : Octets 32) (transfers : List OwnerTransfer) : List (Octets 32) :=
  original :: transfers.map OwnerTransfer.toOwner

theorem ownersFrom_cons (original : Octets 32) (t : OwnerTransfer) (ts : List OwnerTransfer) :
    ownersFrom original (t :: ts) = original :: ownersFrom t.toOwner ts := rfl

/-- What one transfer of a state says, its number in the chain and the owners around it given. -/
structure TransferStep (s : SignedState) (index : ℕ) (previous next : Option (Octets 32))
    (t : OwnerTransfer) : Prop where
  group_eq : t.group = s.group
  epoch_eq : t.epoch.toNat = index + 1
  generation_le : t.generation ≤ s.generation
  priorStateId_ne : t.priorStateId ≠ .zero 16
  fromOwner_eq : previous = some t.fromOwner
  toOwner_eq : next = some t.toOwner
  ne : t.fromOwner ≠ t.toOwner

/-- Transfers numbered from `index` on, after one of generation `generation`, lead along
`ownersFrom original`. -/
structure Succession (s : SignedState) (index : ℕ) (generation : UInt64) (original : Octets 32)
    (transfers : List OwnerTransfer) : Prop where
  steps : ∀ i t, transfers[i]? = some t →
    TransferStep s (index + i) (ownersFrom original transfers)[i]?
      (ownersFrom original transfers)[i + 1]? t
  increasing : (generation :: transfers.map OwnerTransfer.generation).IsChain (· < ·)

variable {s : SignedState}

/-- What the loop over the transfers establishes. -/
theorem validateTransfers_eq_ok {index : ℕ} {generation : UInt64} {original final : Octets 32}
    {transfers : List OwnerTransfer}
    (h : validateTransfers s index generation original transfers = .ok final) :
    Succession s index generation original transfers ∧
      (ownersFrom original transfers).getLast? = some final := by
  induction transfers generalizing index generation original with
  | nil =>
    simp only [validateTransfers, Except.ok.injEq] at h
    exact ⟨⟨fun i t ht => by simp at ht, by simp⟩, by simp [ownersFrom, h]⟩
  | cons u rest ih =>
    simp only [validateTransfers, rejectIf_bind_eq_ok_iff, not_or, ne_eq, not_not] at h
    obtain ⟨⟨hgrp, hepoch, hgen, hle, hprior, hfrom, hne⟩, hrest⟩ := h
    obtain ⟨⟨hstep, hincrement⟩, hlast⟩ := ih hrest
    refine ⟨⟨?_, ?_⟩, ?_⟩
    · intro i t ht
      -- The first step is checked here, the others in the rest of the loop.
      cases i with
      | zero =>
        obtain rfl : u = t := by simpa using ht
        exact ⟨hgrp, hepoch, UInt64.not_lt.mp hle, hprior, by simp [ownersFrom, hfrom],
          by simp [ownersFrom], hne⟩
      | succ i =>
        rw [ownersFrom_cons, getElem?_cons_succ, getElem?_cons_succ,
          show index + (i + 1) = index + 1 + i by omega]
        exact hstep i t (by simpa using ht)
    · rw [map_cons, isChain_cons_cons]
      exact ⟨UInt64.not_le.mp hgen, hincrement⟩
    · rw [ownersFrom_cons, getLast?_cons, hlast]
      rfl

/-! ### States -/

/-- The state was signed for its owner, or for the previous owner in the very state that enacts the
last transfer. -/
def SignerRule (s : SignedState) : Prop :=
  s.signer = s.owner ∨
    ∃ t ∈ s.transfers.getLast?, t.fromOwner = s.signer ∧ t.toOwner = s.owner ∧
      t.generation = s.generation ∧ t.priorStateId = s.priorStateId

theorem validateSigner_eq_ok (h : validateSigner s = .ok ()) : SignerRule s := by
  by_cases hown : s.signer = s.owner
  · exact .inl hown
  · cases hlast : s.transfers.getLast? with
    | none =>
      rw [validateSigner, hlast] at h
      simp [hown] at h
    | some t =>
      rw [validateSigner, hlast] at h
      simp only [hown, if_false, rejectIf_eq_ok_iff, not_or, ne_eq, not_not] at h
      exact .inr ⟨t, hlast, h⟩

/-- Everything structural validation guarantees. -/
structure SignedState.Valid (s : SignedState) : Prop where
  version_eq : s.version = groupAuthorityVersion ∨ s.version = legacyGroupAuthorityVersion
  name_ne : s.name.bytes ≠ []
  name_le : s.name.bytes.length ≤ maxGroupNameLen
  members_ne : s.members ≠ []
  members_le : s.members.length ≤ maxGroupAuthorityMembers
  transfers_le : s.transfers.length ≤ maxGroupAuthorityMembers
  ownerEpoch_eq : s.ownerEpoch.toNat = s.transfers.length
  proofs : validateProofs s = .ok ()
  identities : ∀ m ∈ s.members,
    m.identity ≠ [] ∧ m.identity.length ≤ maxGroupMemberIdentityLen
  sorted : (s.members.map Member.peer).Pairwise (· < ·)
  owner_rows : ∀ m ∈ s.members, m.role = .owner → m.peer = s.owner
  owner_count : s.members.countP (fun m => m.role = .owner) = 1
  succession : Succession s 0 0 s.originalOwner s.transfers
  owner_last : (ownersFrom s.originalOwner s.transfers).getLast? = some s.owner
  signer : SignerRule s

theorem validateState_valid (h : validateState s = .ok ()) : s.Valid := by
  simp only [validateState, bind_eq_ok_iff, rejectIf_eq_ok_iff] at h
  obtain ⟨-, hfields, ⟨⟩, hproof, _, hmem, -, hcnt, _, htrs, -, hfin, hsig⟩ := h
  obtain ⟨hids, hch, hrows, _⟩ := validateMembers_eq_ok hmem
  obtain ⟨hsucc, hlast⟩ := validateTransfers_eq_ok htrs
  simp only [not_or, not_and, ne_eq, not_not, not_lt] at hfields hcnt hfin
  obtain ⟨_, -, hname, hnames, hne, hmle, htle, hepoch⟩ := hfields
  refine ⟨?_, hname, hnames, hne, hmle, htle, hepoch, hproof, hids, ?_, hrows, ?_, hsucc, ?_,
    validateSigner_eq_ok hsig⟩
  · tauto
  · exact isChain_iff_pairwise.mp hch
  · omega
  · rw [hlast, hfin]

theorem SignedState.Valid.one_owner (h : s.Valid) :
    (s.members.filter fun m => m.role = .owner).map Member.peer = [s.owner] := by
  have hlen : (s.members.filter fun m => m.role = .owner).length = 1 := by
    rw [← countP_eq_length_filter]
    exact h.owner_count
  obtain ⟨m, hm⟩ := length_eq_one_iff.mp hlen
  have hmem : m ∈ s.members.filter fun m => m.role = .owner := by
    rw [hm]
    exact mem_singleton_self m
  obtain ⟨hin, hrole⟩ := mem_filter.mp hmem
  rw [hm, map_singleton, h.owner_rows m hin (by simpa using hrole)]

theorem SignedState.Valid.row_unique (h : s.Valid) {m m' : Member} (hm : m ∈ s.members)
    (hm' : m' ∈ s.members) (hpeer : m.peer = m'.peer) : m = m' := by
  have hnd : (s.members.map Member.peer).Nodup := h.sorted.imp ne_of_lt
  exact inj_on_of_nodup_map hnd hm hm' hpeer

end Komms.GroupAuthority
