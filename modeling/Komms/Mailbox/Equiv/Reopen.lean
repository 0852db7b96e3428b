import Mathlib.Data.List.Dedup
import Komms.Mailbox.Equiv.Operations

/-!
# A relay can reopen what it wrote

`validateAll` passes on every database that keeps `Sound` (`validateAll_of_sound`), and every
database a relay writes does, so a restart never refuses it (`mailbox_reopens`).
-/

namespace Komms.Mailbox

open Table List

variable {Idx Sealed : Type} [DecidableEq Idx] {V : Vault Idx Sealed} {config : Config}
  {db : Database Idx Sealed} {now : ℕ}

/-! ### The inspection of deposits -/

/-- A listed row shows the columns of its deposit. -/
structure Lists (d : DepositRow Idx Sealed) (row : StoredRow) : Prop where
  rowId : row.rowId = d.rowId
  expiresAt : row.expiresAt = d.expiresAt
  length : row.ciphertext.length = d.encodedLen

theorem contents_of_sound (h : Sound V config db) : ∃ stored, contents V db = .ok stored ∧
    List.Forall₂ Lists (orderBy DepositRow.sequence db.deposits) stored := by
  have hrows : ∀ d ∈ orderBy DepositRow.sequence db.deposits, d ∈ db.deposits :=
    fun _ => mem_orderBy.mp
  unfold contents
  generalize orderBy DepositRow.sequence db.deposits = rows at hrows ⊢
  induction rows with
  | nil => exact ⟨[], rfl, .nil⟩
  | cons d rows ih =>
    obtain ⟨stored, hsto, hall⟩ := ih fun d hd => hrows d (.tail _ hd)
    obtain ⟨_, hd⟩ := h.deposits.valid d (hrows d (.head _))
    obtain ⟨record, hopen, rfl, hlen⟩ := stored_iff.mp hd
    refine ⟨⟨d.rowId, record.envelope, d.expiresAt⟩ :: stored, ?_, .cons ⟨rfl, rfl, hlen⟩ hall⟩
    simp only [mapEach, hopen, hsto, ok_bind]

omit [DecidableEq Idx] in
/-- What is listed agrees with the table, column by column. -/
theorem listed_columns {rows : List (DepositRow Idx Sealed)} {stored : List StoredRow}
    (h : List.Forall₂ Lists rows stored) :
    stored.map StoredRow.rowId = rows.map DepositRow.rowId ∧
      stored.map StoredRow.expiresAt = rows.map DepositRow.expiresAt ∧
        stored.map (fun row => row.ciphertext.length) = rows.map DepositRow.encodedLen := by
  induction h with
  | nil => exact ⟨rfl, rfl, rfl⟩
  | cons hrow _ ih =>
    obtain ⟨hids, hexps, hlens⟩ := ih
    simp only [map_cons, hrow.rowId, hrow.expiresAt, hrow.length, hids, hexps, hlens, and_self]

/-- A sound database passes the checks of its columns. -/
theorem validateCapacity_of_sound (h : Sound V config db) {stored : List StoredRow}
    (hall : List.Forall₂ Lists (orderBy DepositRow.sequence db.deposits) stored) :
    validateCapacity config db stored = .ok () := by
  -- The listed rows are the deposits in another order.
  obtain ⟨hids, hexps, hlens⟩ := listed_columns hall
  have hperm := perm_orderBy DepositRow.sequence db.deposits
  have hlen : stored.length = db.deposits.length := by
    rw [← hall.length_eq, hperm.length_eq]
  have htot : total (fun row => row.ciphertext.length) stored =
      total DepositRow.encodedLen db.deposits := by
    rw [total, hlens]
    exact (hperm.map _).sum_eq
  have hnd : (stored.map StoredRow.rowId).Nodup := by
    rw [hids]
    exact (hperm.map _).nodup_iff.mpr h.deposits.row_ids
  have hnon : ∀ row ∈ stored, row.rowId ≠ .zero 16 ∧ row.expiresAt ≠ 0 := by
    intro row hrow
    obtain ⟨d, hd, hid⟩ := mem_map.mp (hids ▸ mem_map_of_mem hrow)
    obtain ⟨d', hd', hexp⟩ := mem_map.mp (hexps ▸ mem_map_of_mem hrow)
    rw [← hid, ← hexp]
    exact ⟨(h.deposits.nonzero d (mem_orderBy.mp hd)).1,
      (h.deposits.nonzero d' (mem_orderBy.mp hd')).2⟩
  rw [validateCapacity, rejectIf_eq_ok_iff]
  rintro (hbad | hbad | hbad | ⟨row, hrow, hbad⟩ | hbad | hbad)
  · exact hbad hlen
  · exact hbad htot
  · rw [dedup_eq_self.mpr hnd, length_map] at hbad
    exact hbad rfl
  · exact hbad.elim (hnon row hrow).1 (hnon row hrow).2
  · exact absurd h.deposits.global_quota.1 (Nat.not_le.mpr hbad)
  · exact absurd h.deposits.global_quota.2 (Nat.not_le.mpr hbad)

/-! ### The bounds for owners -/

/-- A sound database passes the checks of its quotas. -/
theorem validateOwners_of_sound (h : Sound V config db) :
    validateOwners config db now = .ok () := by
  have hlive : (db.liveLeases now).Sublist (db.leases.filter fun l => !l.closed) :=
    monotone_filter_right _ fun l hl => (Bool.and_eq_true_iff.mp hl).1
  rw [validateOwners, rejectIf_eq_ok_iff]
  simp only [gt_iff_lt, not_or, Nat.not_lt]
  -- A live lease is an open one, so each quota is that of the open leases.
  refine ⟨?_, ?_, ?_, ?_, ?_, ?_, ?_, ?_, ?_, ?_, ?_⟩
  · exact filter_sublist.length_le.trans h.registrations.total_le
  · refine maxOf_le fun r _ => ?_
    rw [← countP_eq_length_filter]
    exact filter_sublist.countP_le.trans (h.registrations.owned_le _)
  · exact maxOf_le fun d _ => (h.deposits.token_quota _).1
  · exact maxOf_le fun d _ => (h.deposits.token_quota _).2
  · exact maxOf_le fun d _ => (h.deposits.client_quota _).1
  · exact maxOf_le fun d _ => (h.deposits.client_quota _).2
  · exact maxOf_le fun m _ => (h.linked.page_le _).1
  · exact maxOf_le fun m _ => (h.linked.page_le _).2
  · refine hlive.length_le.trans ?_
    rw [← countP_eq_length_filter]
    exact h.leases.open_le
  · refine maxOf_le fun l _ => ?_
    rw [← countP_eq_length_filter]
    refine hlive.countP_le.trans ?_
    rw [countP_filter]
    simp only [Bool.and_comm]
    exact h.leases.client_le _
  · refine maxOf_le fun d _ => ?_
    refine hlive.countP_le.trans ?_
    rw [countP_filter]
    simp only [Bool.and_comm]
    exact h.linked.token_le _

/-! ### Validation -/

theorem validateAll_of_sound (h : Sound V config db) (hnow : now < 2 ^ 63) :
    validateAll V config db now = .ok () := by
  obtain ⟨_, hcon, hall⟩ := contents_of_sound h
  have hregs : forEach (validateRegistrationRow V) db.registrations = .ok () :=
    forEach_eq_ok_iff.mpr h.registrations.valid
  have hlease : forEach (fun lease => do let _ ← openLease V lease) db.leases = .ok () := by
    refine forEach_eq_ok_iff.mpr fun l hl => ?_
    obtain ⟨_, hopen⟩ := h.leases.valid l hl
    simp only [hopen, ok_bind]
    rfl
  have hrows : forEach (validateLeaseRow V db) db.leaseRows = .ok () := by
    refine forEach_eq_ok_iff.mpr fun m hm => ?_
    refine check_bind_eq_ok_iff.mpr ⟨h.mappings.valid m hm, rejectIf_eq_ok_iff.mpr ?_⟩
    rintro ⟨hack, hmissing⟩
    obtain ⟨d, hd, hrow⟩ := h.linked.deposit_of_mapping m hm hack
    exact hmissing d hd hrow
  have hrat : forEach (openRate V) db.rateBuckets = .ok () :=
    forEach_eq_ok_iff.mpr h.rates.valid
  have hbind : bindInteger now = .ok () := bindInteger_eq_ok_iff.mpr hnow
  simp only [validateAll, hregs, hcon, validateCapacity_of_sound h hall, hbind,
    validateOwners_of_sound h, hlease, hrows, hrat, ok_bind]

theorem unixNow_lt (time : SystemTime) : unixNow time < 2 ^ 63 := by
  have hlt := time.secs_lt
  unfold unixNow
  omega

/-- **A mailbox database can always be reopened.**  After any calls at any clocks, validation passes
at any time, the relay opens, and the quotas, the links and the sealed columns are as they should
be. -/
theorem mailbox_reopens (V : Vault Idx Sealed) (config : Config) (calls : List (Call Idx))
    (validated swept : SystemTime) :
    validateAll V config (run V config .empty calls) (unixNow validated) = .ok () ∧
      Returns (openStore V config (run V config .empty calls) validated swept) ∧
        Sound V config (run V config .empty calls) := by
  have hsnd : Sound V config (run V config .empty calls) := sound_run .empty calls
  have hval := validateAll_of_sound hsnd (unixNow_lt validated)
  refine ⟨hval, ?_, hsnd⟩
  refine returns_check_bind_iff.mpr ⟨⟨(), hval⟩, ?_⟩
  exact ⟨_, sweepOn_eq_ok_iff.mpr ⟨unixNow_lt swept, rfl⟩⟩

end Komms.Mailbox
