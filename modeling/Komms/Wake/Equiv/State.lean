import Komms.Wake.Service

/-!
# What the transactions of the wake gateway keep

* `purgeTable_of_live`, `length_purgeTable_lt`: a purge deletes expired rows only, and at least one
  when there is one.
* `authorize_eq_ok`, `revoke_eq_ok`: what a transaction that committed has found and written.
* `Keeps`: the rows that are live after a transaction's time are still there after it.
-/

namespace Komms.Wake

open List Except Keyed

/-! ### Purging -/

section

variable {α κ : Type} {key : α → κ} {expiresAt : α → ℕ} {now : ℕ} {row : α} {table : Keyed key}

theorem mem_expiredRows {rows : List α} (h : row ∈ expiredRows expiresAt now rows) :
    row ∈ rows ∧ expiresAt row ≤ now := by
  have hmem : row ∈ rows.filter fun row => expiresAt row ≤ now :=
    Table.mem_orderBy.mp (mem_of_mem_take h)
  rw [mem_filter] at hmem
  exact ⟨hmem.1, of_decide_eq_true hmem.2⟩

variable [DecidableEq α]

theorem mem_of_mem_purgeTable (h : row ∈ purgeTable expiresAt now table) : row ∈ table :=
  (mem_filter_iff.mp h).1

theorem purgeTable_of_live (hrow : row ∈ table) (hlive : now < expiresAt row) :
    row ∈ purgeTable expiresAt now table := by
  refine mem_filter_iff.mpr ⟨hrow, decide_eq_true fun hmem => ?_⟩
  exact absurd (mem_expiredRows hmem).2 (Nat.not_le.mpr hlive)

/-- Live rows are found alike before and after a purge at that time. -/
theorem any_purgeTable_iff {p : α → Prop} [DecidablePred p] :
    (purgeTable expiresAt now table).rows.any (fun row => p row ∧ now < expiresAt row) = true ↔
      ∃ row ∈ table, p row ∧ now < expiresAt row := by
  simp only [any_eq_true, decide_eq_true_eq]
  exact exists_congr fun row => and_congr_left fun hrow =>
    ⟨mem_of_mem_purgeTable, fun hmem => purgeTable_of_live hmem hrow.2⟩

theorem length_purgeTable_le (table : Keyed key) :
    (purgeTable expiresAt now table).rows.length ≤ table.rows.length :=
  length_filter_le _ _

theorem length_purgeTable_lt (hrow : row ∈ table) (hexp : expiresAt row ≤ now) :
    (purgeTable expiresAt now table).rows.length < table.rows.length := by
  have hne : expiredRows expiresAt now table.rows ≠ [] := by
    intro hnil
    have hmem : row ∈ Table.orderBy expiresAt (table.rows.filter fun row => expiresAt row ≤ now) :=
      Table.mem_orderBy.mpr (mem_filter.mpr ⟨hrow, decide_eq_true hexp⟩)
    rcases take_eq_nil_iff.mp hnil with hzero | hempty
    · exact absurd hzero (by decide)
    · rw [hempty] at hmem
      cases hmem
  obtain ⟨first, hfst⟩ := exists_mem_of_ne_nil _ hne
  refine length_filter_lt_length_iff_exists.mpr ⟨first, (mem_expiredRows hfst).1, ?_⟩
  simp [hfst]

end

/-! ### Transactions -/

theorem asI64_eq_ok {value result : ℕ} (h : asI64 value = .ok result) :
    value < 2 ^ 63 ∧ result = value := by
  rw [asI64, rejectIf_bind_eq_ok_iff, ok.injEq] at h
  exact ⟨Nat.not_le.mp h.1, h.2.symm⟩

namespace GatewayStateStore

variable {store store' : GatewayStateStore} {capabilityId requestNonce : Octets 16}
  {expiresAt now : ℕ}

theorem purgeExpired_eq_ok (h : store.purgeExpired now = .ok store') :
    store' = store.purged now := by
  rw [purgeExpired, bind_eq_ok_iff] at h
  obtain ⟨_, hv, h⟩ := h
  obtain ⟨-, rfl⟩ := asI64_eq_ok hv
  exact (ok.inj h).symm

theorem isRevoked_purged_iff : (store.purged now).isRevoked capabilityId now = true ↔
    ∃ row ∈ store.revocations, row.capabilityId = capabilityId ∧ now < row.expiresAt :=
  any_purgeTable_iff

theorem isDuplicate_purged_iff : (store.purged now).isDuplicate capabilityId requestNonce now =
    true ↔ ∃ row ∈ store.replays, row.key = (capabilityId, requestNonce) ∧ now < row.expiresAt :=
  any_purgeTable_iff

variable {row : Replay} {answer : Bool}

/-- A fresh authorization, over the purged tables. -/
structure Fresh (store : GatewayStateStore) (row : Replay) (now : ℕ) (store' : GatewayStateStore) :
    Prop where
  unrevoked : store.isRevoked row.capabilityId now = false
  unused : store.isDuplicate row.capabilityId row.requestNonce now = false
  room : store.replays.rows.length < store.maxReplays
  key : row.key ∉ store.replays.rows.map Replay.key
  insert : store' = { store with replays := store.replays.put row }

theorem decideAuthorization_eq_ok {answer : Authorization}
    (h : store.decideAuthorization row now = .ok (answer, store')) :
    (answer = .fresh ∧ Fresh store row now store') ∨ (answer ≠ .fresh ∧ store' = store) := by
  unfold decideAuthorization at h
  split_ifs at h with hrev hused hfull
  any_goals
    cases h
    exact .inr ⟨by decide, rfl⟩
  obtain ⟨_, hins, h⟩ := bind_eq_ok_iff.mp h
  cases h
  obtain ⟨_, -, hins⟩ := bind_eq_ok_iff.mp hins
  rw [rejectIf_bind_eq_ok_iff, ok.injEq] at hins
  exact .inl ⟨rfl, ⟨Bool.not_eq_true _ ▸ hrev, Bool.not_eq_true _ ▸ hused, Nat.not_le.mp hfull,
    hins.1, hins.2.symm⟩⟩

theorem revoke_eq_ok (h : store.revoke capabilityId expiresAt now = .ok (answer, store')) :
    (answer = true ∧ store' = (store.purged now).upsertRevocation ⟨capabilityId, expiresAt⟩) ∨
    (answer = false ∧ store' = store.purged now) := by
  rw [revoke, check_bind_eq_ok_iff, check_bind_eq_ok_iff, bind_eq_ok_iff] at h
  obtain ⟨-, -, _, hclean, h⟩ := h
  rw [purgeExpired_eq_ok hclean] at h
  unfold decideRevocation at h
  split_ifs at h with hfull
  · cases h
    exact .inr ⟨rfl, rfl⟩
  · obtain ⟨_, -, h⟩ := bind_eq_ok_iff.mp h
    cases h
    exact .inl ⟨rfl, rfl⟩

/-! ### Live rows -/

/-- The rows that are live after the time `now` are kept. -/
structure Keeps (store : GatewayStateStore) (now : ℕ) (store' : GatewayStateStore) : Prop where
  replays : ∀ row ∈ store.replays, now < row.expiresAt → row ∈ store'.replays
  revocations : ∀ row ∈ store.revocations, now < row.expiresAt →
    ∃ row' ∈ store'.revocations, row'.capabilityId = row.capabilityId ∧
    row.expiresAt ≤ row'.expiresAt

theorem Keeps.of_le {now' : ℕ} (h : store.Keeps now store') (hle : now ≤ now') :
    store.Keeps now' store' :=
  ⟨fun row hrow hlive => h.replays row hrow (Nat.lt_of_le_of_lt hle hlive),
    fun row hrow hlive => h.revocations row hrow (Nat.lt_of_le_of_lt hle hlive)⟩

theorem keeps_purged (store : GatewayStateStore) (now : ℕ) : store.Keeps now (store.purged now) :=
  ⟨fun _ hrow => purgeTable_of_live hrow,
    fun row hrow hlive => ⟨row, purgeTable_of_live hrow hlive, rfl, Nat.le_refl _⟩⟩

theorem Keeps.trans {store'' : GatewayStateStore} (h : store.Keeps now store')
    (h' : ∀ row ∈ store'.replays, row ∈ store''.replays)
    (h'' : ∀ row ∈ store'.revocations, ∃ row' ∈ store''.revocations,
      row'.capabilityId = row.capabilityId ∧ row.expiresAt ≤ row'.expiresAt) :
    store.Keeps now store'' := by
  refine ⟨fun row hrow hlive => h' row (h.replays row hrow hlive), fun row hrow hlive => ?_⟩
  obtain ⟨row', hrow', hid, hle⟩ := h.revocations row hrow hlive
  obtain ⟨row'', hrow'', hid', hle'⟩ := h'' row' hrow'
  exact ⟨row'', hrow'', hid'.trans hid, Nat.le_trans hle hle'⟩

variable (h : Fresh store row now store')
include h

theorem Fresh.mem : row ∈ store'.replays := by
  rw [h.insert]
  exact mem_put_iff.mpr (.inr rfl)

theorem Fresh.subset {old : Replay} (hold : old ∈ store.replays) : old ∈ store'.replays := by
  rw [h.insert]
  refine mem_put_iff.mpr (.inl ⟨hold, fun hkey => h.key ?_⟩)
  rw [← hkey]
  exact mem_map_of_mem hold

theorem Fresh.revocations : store'.revocations = store.revocations := by
  rw [h.insert]

omit h

theorem revoke_keeps (h : store.revoke capabilityId expiresAt now = .ok (answer, store')) :
    store.Keeps now store' := by
  rcases revoke_eq_ok h with ⟨-, rfl⟩ | ⟨-, rfl⟩
  · refine (keeps_purged store now).trans (fun _ hrow => hrow) fun old hold => ?_
    by_cases hid : old.capabilityId = capabilityId
    · refine ⟨_, mem_put_iff.mpr (.inr rfl), hid.symm, ?_⟩
      rw [get_eq_some_iff.mpr ⟨hold, hid⟩]
      exact Nat.le_max_left _ _
    · exact ⟨old, mem_put_iff.mpr (.inl ⟨hold, hid⟩), rfl, Nat.le_refl _⟩
  · exact keeps_purged store now

structure AddsNone (store store' : GatewayStateStore) : Prop where
  replays : ∀ row ∈ store'.replays, row ∈ store.replays
  length : store'.replays.rows.length ≤ store.replays.rows.length
  maxReplays : store'.maxReplays = store.maxReplays

theorem addsNone_purged (store : GatewayStateStore) (now : ℕ) : store.AddsNone (store.purged now) :=
  ⟨fun _ => mem_of_mem_purgeTable, length_purgeTable_le _, rfl⟩

theorem revoke_addsNone (h : store.revoke capabilityId expiresAt now = .ok (answer, store')) :
    store.AddsNone store' := by
  rcases revoke_eq_ok h with ⟨-, rfl⟩ | ⟨-, rfl⟩
  · exact ⟨fun _ => mem_of_mem_purgeTable, length_purgeTable_le _, rfl⟩
  · exact addsNone_purged store now

end GatewayStateStore

end Komms.Wake
