import Komms.Mailbox.Equiv.Rows

/-!
# How leases, their rows and deposits belong together

`Linked` is what holds across the tables: a lease row has its lease, an unacknowledged one has its
deposit, and no deposit has two.  `Sound` puts it beside the invariants of each table, and the
writes of the requests keep it, one by one.
-/

namespace Komms.Mailbox

open Table List Function

variable {Idx Sealed : Type} {V : Vault Idx Sealed} {config : Config}
  {db db' : Database Idx Sealed} {draws : Draws Idx} {m : Mapping Sealed}
  {row : DepositRow Idx Sealed} {now next : ℕ}

/-! ### What the writes do to the rows -/

section Writes

variable {lease : Lease Idx Sealed} {rowIds : List (Octets 16)} {leaseId rowId : Octets 16}

theorem holds_iff : db.holds leaseId rowId = true ↔
    ∃ m ∈ db.leaseRows, m.leaseId = leaseId ∧ m.rowId = rowId ∧ m.acknowledged = false := by
  simp [Database.holds, and_assoc]

/-- With fewer deposits and fewer unacknowledged rows, a lease holds fewer deposits. -/
theorem leasedDeposits_sublist (hdep : db'.deposits.Sublist db.deposits)
    (hrows : ∀ m ∈ db'.leaseRows, m.acknowledged = false → m ∈ db.leaseRows)
    (leaseId : Octets 16) : (db'.leasedDeposits leaseId).Sublist (db.leasedDeposits leaseId) := by
  refine (hdep.filter _).trans (monotone_filter_right _ fun d hd => ?_)
  obtain ⟨m, hm, hl, hr, hack⟩ := holds_iff.mp hd
  exact holds_iff.mpr ⟨m, hrows m hm hack, hl, hr, hack⟩

theorem mem_sweep_leases {l : Lease Idx Sealed} : l ∈ (db.sweep now).leases ↔
    l ∈ db.leases ∧ db.hasExpiredRow now l = false ∧ now < l.expiresAt := by
  simp only [Database.sweep, Database.deleteLeases, mem_filter, Bool.not_eq_true',
    decide_eq_false_iff_not, not_le, and_assoc]

theorem sweep_leases_sublist : (db.sweep now).leases.Sublist db.leases :=
  filter_sublist.trans filter_sublist

theorem mem_sweep_leaseRows : m ∈ (db.sweep now).leaseRows ↔
    m ∈ db.leaseRows ∧ (∀ l ∈ db.leases, l.leaseId = m.leaseId → db.hasExpiredRow now l = false) ∧
      ∀ l ∈ db.leases, l.leaseId = m.leaseId → now < l.expiresAt := by
  simp only [Database.sweep, Database.deleteLeases, mem_filter, Bool.not_eq_true',
    any_eq_false, Bool.and_eq_true, decide_eq_true_eq, not_and, and_assoc,
    and_imp]
  refine and_congr_right fun _ => ⟨fun ⟨hrow, hexp⟩ => ?_, fun ⟨hrow, hexp⟩ => ?_⟩
  · have hkept : ∀ l ∈ db.leases, l.leaseId = m.leaseId → db.hasExpiredRow now l = false :=
      fun l hl hid => by_contra fun h => hrow l hl (by simpa using h) hid
    exact ⟨hkept, fun l hl hid => by_contra fun h =>
      hexp l hl (hkept l hl hid) (Nat.le_of_not_lt h) hid⟩
  · refine ⟨fun l hl h hid => ?_, fun l hl _ h hid => ?_⟩
    · rw [hrow l hl hid] at h
      exact Bool.false_ne_true h
    · exact absurd (hexp l hl hid) (Nat.not_lt.mpr h)

theorem sweep_leaseRows_sublist : (db.sweep now).leaseRows.Sublist db.leaseRows :=
  filter_sublist.trans filter_sublist

theorem mem_sweep_deposits {d : DepositRow Idx Sealed} :
    d ∈ (db.sweep now).deposits ↔ d ∈ db.deposits ∧ now < d.expiresAt := by
  simp [Database.sweep, Database.deleteLeases]

theorem sweep_deposits_sublist : (db.sweep now).deposits.Sublist db.deposits := filter_sublist

/-- Every stored deposit and lease is live at the clock of the last sweep. -/
structure Swept (now : ℕ) (db : Database Idx Sealed) : Prop where
  deposits : ∀ d ∈ db.deposits, now < d.expiresAt
  leases : ∀ l ∈ db.leases, now < l.expiresAt

theorem swept_sweep : Swept now (db.sweep now) where
  deposits _ hd := (mem_sweep_deposits.mp hd).2
  leases _ hl := (mem_sweep_leases.mp hl).2.2

theorem leasedDeposits_append
    (hrows : ∀ m ∈ db.leaseRows, m.acknowledged = false → ∃ d ∈ db.deposits, d.rowId = m.rowId)
    (hfree : ∀ d ∈ db.deposits, d.rowId ≠ row.rowId) (leaseId : Octets 16) :
    ({ db with deposits := db.deposits ++ [row], nextSequence := next } :
      Database Idx Sealed).leasedDeposits leaseId = db.leasedDeposits leaseId := by
  have hnot : db.holds leaseId row.rowId = false := by
    by_contra hholds
    rw [Bool.not_eq_false] at hholds
    obtain ⟨m, hm, -, hid, hack⟩ := holds_iff.mp hholds
    obtain ⟨d, hd, hrow⟩ := hrows m hm hack
    exact hfree d hd (hrow.trans hid)
  have hnone : [row].filter (fun d => db.holds leaseId d.rowId) = [] := by simp [hnot]
  have happ : ({ db with deposits := db.deposits ++ [row], nextSequence := next } :
      Database Idx Sealed).leasedDeposits leaseId =
      (db.deposits ++ [row]).filter fun d => db.holds leaseId d.rowId := rfl
  rw [happ, filter_append, hnone, append_nil]
  rfl

variable (V draws) in
/-- The database with a lease over the deposits of these row ids. -/
def Database.withLease (db : Database Idx Sealed) (lease : Lease Idx Sealed)
    (rowIds : List (Octets 16)) : Database Idx Sealed :=
  { db with
    leases := db.leases ++ [lease]
    leaseRows := db.leaseRows ++ rowIds.map fun r => mappingRow V draws lease.leaseId r false }

theorem mem_withLease_leaseRows : m ∈ (db.withLease V draws lease rowIds).leaseRows ↔
      m ∈ db.leaseRows ∨ ∃ r ∈ rowIds, mappingRow V draws lease.leaseId r false = m := by
  simp [Database.withLease]

theorem holds_withLease_iff : (db.withLease V draws lease rowIds).holds leaseId rowId = true ↔
      db.holds leaseId rowId = true ∨ lease.leaseId = leaseId ∧ rowId ∈ rowIds := by
  simp only [holds_iff, mem_withLease_leaseRows]
  constructor
  · rintro ⟨m, hm | ⟨r, hr, rfl⟩, hid, hrow, hack⟩
    · exact .inl ⟨m, hm, hid, hrow, hack⟩
    · exact .inr ⟨hid, hrow ▸ hr⟩
  · rintro (⟨m, hm, hid, hrow, hack⟩ | ⟨hid, hr⟩)
    · exact ⟨m, .inl hm, hid, hrow, hack⟩
    · exact ⟨_, .inr ⟨rowId, hr, rfl⟩, hid, rfl, rfl⟩

theorem leasedDeposits_withLease_of_ne (h : lease.leaseId ≠ leaseId) :
    (db.withLease V draws lease rowIds).leasedDeposits leaseId = db.leasedDeposits leaseId := by
  refine filter_congr fun d _ => ?_
  rw [Bool.eq_iff_iff, holds_withLease_iff]
  simp [h]

variable (V draws) in
def Database.acknowledge (db : Database Idx Sealed) (leaseId rowId : Octets 16) :
    Database Idx Sealed :=
  { db with
    deposits := db.deposits.filter fun d => d.rowId ≠ rowId
    leaseRows := db.leaseRows.map fun m =>
      if m.leaseId = leaseId ∧ m.rowId = rowId then mappingRow V draws leaseId rowId true else m }

theorem mem_acknowledge (hm : m ∈ (db.acknowledge V draws leaseId rowId).leaseRows)
    (hack : m.acknowledged = false) :
    m ∈ db.leaseRows ∧ ¬ (m.leaseId = leaseId ∧ m.rowId = rowId) := by
  obtain ⟨_, hm', rfl⟩ := mem_map.mp hm
  split_ifs at hack ⊢ with hkey
  · simp [mappingRow] at hack
  · exact ⟨hm', hkey⟩

theorem map_key_acknowledge :
    (db.acknowledge V draws leaseId rowId).leaseRows.map (fun m => (m.leaseId, m.rowId)) =
      db.leaseRows.map fun m => (m.leaseId, m.rowId) := by
  rw [Database.acknowledge, map_map]
  refine map_congr_left fun m _ => ?_
  simp only [comp_apply]
  split_ifs with hkey
  · exact Prod.ext hkey.1.symm hkey.2.symm
  · rfl

/-- The row of a mapping that is kept is kept or marked. -/
theorem mem_acknowledge_key (hm : m ∈ (db.acknowledge V draws leaseId rowId).leaseRows) :
    ∃ m' ∈ db.leaseRows, m'.leaseId = m.leaseId ∧
      (m'.acknowledged = true → m.acknowledged = true) := by
  obtain ⟨m', hm', rfl⟩ := mem_map.mp hm
  split_ifs with hkey
  · exact ⟨m', hm', hkey.1, fun _ => rfl⟩
  · exact ⟨m', hm', rfl, id⟩

end Writes

variable [DecidableEq Idx]

/-! ### The invariants -/

structure Linked (config : Config) (db : Database Idx Sealed) : Prop where
  lease_of_mapping : ∀ m ∈ db.leaseRows, ∃ l ∈ db.leases, l.leaseId = m.leaseId
  deposit_of_mapping : ∀ m ∈ db.leaseRows, m.acknowledged = false →
    ∃ d ∈ db.deposits, d.rowId = m.rowId
  closed_done : ∀ l ∈ db.leases, l.closed = true → ∀ m ∈ db.leaseRows, m.leaseId = l.leaseId →
    m.acknowledged = true
  exclusive : ∀ m ∈ db.leaseRows, ∀ m' ∈ db.leaseRows, m.acknowledged = false →
    m'.acknowledged = false → m.rowId = m'.rowId → m = m'
  page_le : ∀ leaseId, WithinQuota (db.leasedDeposits leaseId) pageMaxRows pageMaxBytes
  token_le : ∀ t, db.leases.countP (fun l => !l.closed && db.coversToken t l) ≤
    config.maxLiveLeasesPerToken

structure Sound (V : Vault Idx Sealed) (config : Config) (db : Database Idx Sealed) : Prop where
  registrations : RegistrationsOk V config db.registrations
  deposits : DepositsOk V config db.deposits
  leases : LeasesOk V config db.leases
  mappings : MappingsOk V db.leaseRows
  rates : RatesOk V db.rateBuckets
  linked : Linked config db
  sequences : (db.deposits.map DepositRow.sequence).Nodup
  sequence_lt : ∀ d ∈ db.deposits, d.sequence < db.nextSequence

theorem Sound.empty : Sound V config .empty where
  registrations := ⟨nodup_nil, nofun, Nat.zero_le _, fun _ => Nat.zero_le _⟩
  deposits := ⟨nodup_nil, nodup_nil, nofun, nofun, ⟨Nat.zero_le _, Nat.zero_le _⟩,
    fun _ => ⟨Nat.zero_le _, Nat.zero_le _⟩, fun _ => ⟨Nat.zero_le _, Nat.zero_le _⟩⟩
  leases := ⟨nodup_nil, nofun, Nat.zero_le _, fun _ => Nat.zero_le _, nofun⟩
  mappings := ⟨nodup_nil, nofun⟩
  rates := ⟨nodup_nil, nofun⟩
  linked := ⟨nofun, nofun, nofun, nofun, fun _ => ⟨Nat.zero_le _, Nat.zero_le _⟩,
    fun _ => Nat.zero_le _⟩
  sequences := nodup_nil
  sequence_lt := nofun

/-- Dropping deposits, open leases and unacknowledged rows keeps the bounds. -/
theorem Linked.shrink (h : Linked config db) (hdep : db'.deposits.Sublist db.deposits)
    (hleases : FewerOpen db'.leases db.leases)
    (hrows : ∀ m ∈ db'.leaseRows, m.acknowledged = false → m ∈ db.leaseRows)
    (hlease : ∀ m ∈ db'.leaseRows, ∃ l ∈ db'.leases, l.leaseId = m.leaseId)
    (hdeposit : ∀ m ∈ db'.leaseRows, m.acknowledged = false → ∃ d ∈ db'.deposits, d.rowId = m.rowId)
    (hclosed : ∀ l ∈ db'.leases, l.closed = true → ∀ m ∈ db'.leaseRows, m.leaseId = l.leaseId →
      m.acknowledged = true) : Linked config db' where
  lease_of_mapping := hlease
  deposit_of_mapping := hdeposit
  closed_done := hclosed
  exclusive m hm m' hm' hack hack' :=
    h.exclusive m (hrows m hm hack) m' (hrows m' hm' hack') hack hack'
  page_le leaseId := (h.page_le leaseId).sublist (leasedDeposits_sublist hdep hrows leaseId)
  token_le t := by
    calc db'.leases.countP (fun l => !l.closed && db'.coversToken t l)
        ≤ db'.leases.countP (fun l => !l.closed && db.coversToken t l) := by
          refine countP_mono_left fun l _ hl => ?_
          rw [Bool.and_eq_true] at hl ⊢
          refine ⟨hl.1, ?_⟩
          obtain ⟨d, hd, ht⟩ := any_eq_true.mp hl.2
          exact any_eq_true.mpr ⟨d, (leasedDeposits_sublist hdep hrows l.leaseId).subset hd, ht⟩
      _ ≤ db.leases.countP (fun l => !l.closed && db.coversToken t l) := hleases.count_le _
      _ ≤ config.maxLiveLeasesPerToken := h.token_le t

theorem Linked.open_of_mapping {l : Lease Idx Sealed} (h : Linked config db) (hl : l ∈ db.leases)
    (hm : m ∈ db.leaseRows) (hid : m.leaseId = l.leaseId) (hack : m.acknowledged = false) :
    l.closed = false := by
  by_contra hclose
  rw [h.closed_done l hl (by simpa using hclose) m hm hid] at hack
  cases hack

/-! ### Sweeping -/

theorem Linked.sweep (h : Linked config db) : Linked config (db.sweep now) := by
  refine h.shrink sweep_deposits_sublist (.of_sublist sweep_leases_sublist)
    (fun m hm _ => sweep_leaseRows_sublist.subset hm) (fun m hm => ?_) (fun m hm hack => ?_)
    (fun l hl hclosed m hm hid => ?_)
  · obtain ⟨hmem, hrow, hexp⟩ := mem_sweep_leaseRows.mp hm
    obtain ⟨l, hl, hid⟩ := h.lease_of_mapping m hmem
    exact ⟨l, mem_sweep_leases.mpr ⟨hl, hrow l hl hid, hexp l hl hid⟩, hid⟩
  · -- An expired deposit takes every lease that has a row for it.
    obtain ⟨hmem, hrow, -⟩ := mem_sweep_leaseRows.mp hm
    obtain ⟨l, hl, hid⟩ := h.lease_of_mapping m hmem
    obtain ⟨d, hd, hrowI⟩ := h.deposit_of_mapping m hmem hack
    refine ⟨d, mem_sweep_deposits.mpr ⟨hd, ?_⟩, hrowI⟩
    by_contra hexp
    have hexpiry : db.hasExpiredRow now l = true := by
      simp only [Database.hasExpiredRow, any_eq_true, Bool.and_eq_true, decide_eq_true_eq]
      exact ⟨m, hmem, hid.symm, d, hd, hrowI, Nat.le_of_not_lt hexp⟩
    rw [hrow l hl hid] at hexpiry
    exact Bool.false_ne_true hexpiry
  · exact h.closed_done l (mem_sweep_leases.mp hl).1 hclosed m (mem_sweep_leaseRows.mp hm).1 hid

theorem Sound.sweep (h : Sound V config db) : Sound V config (db.sweep now) where
  registrations := h.registrations.sublist filter_sublist
  deposits := h.deposits.sublist sweep_deposits_sublist
  leases := h.leases.fewerOpen (h.leases.keys.sublist (sweep_leases_sublist.map _))
    (fun l hl => h.leases.valid l (sweep_leases_sublist.subset hl))
    (.of_sublist sweep_leases_sublist)
  mappings := h.mappings.sublist sweep_leaseRows_sublist
  rates := h.rates.sublist filter_sublist
  linked := h.linked.sweep
  sequences := h.sequences.sublist (sweep_deposits_sublist.map _)
  sequence_lt d hd := h.sequence_lt d (sweep_deposits_sublist.subset hd)

/-! ### Deposits -/

theorem Linked.insertDeposit (h : Linked config db)
    (hfree : ∀ d ∈ db.deposits, d.rowId ≠ row.rowId) :
    Linked config { db with deposits := db.deposits ++ [row], nextSequence := next } where
  lease_of_mapping := h.lease_of_mapping
  deposit_of_mapping m hm hack := by
    obtain ⟨d, hd, hrow⟩ := h.deposit_of_mapping m hm hack
    exact ⟨d, mem_append_left _ hd, hrow⟩
  closed_done := h.closed_done
  exclusive := h.exclusive
  page_le leaseId := by
    rw [leasedDeposits_append h.deposit_of_mapping hfree]
    exact h.page_le leaseId
  token_le t := by
    simp only [Database.coversToken, leasedDeposits_append h.deposit_of_mapping hfree]
    exact h.token_le t

theorem Sound.insertDeposit {encoded : Bytes} (h : Sound V config db)
    (hsequence : row.sequence = db.nextSequence)
    (hfree : ∀ d ∈ db.deposits, row.conflicts d = false) (hsto : Stored V row encoded)
    (hnon : row.rowId ≠ .zero 16 ∧ row.expiresAt ≠ 0)
    (hroom : ¬ exceedsQuota config db row.tokenIdx row.clientIdx row.encodedLen) :
    Sound V config { db with
      deposits := db.deposits ++ [row]
      nextSequence := db.nextSequence + 1 } where
  registrations := h.registrations
  deposits := by
    simp only [exceedsQuota, not_or] at hroom
    exact h.deposits.insert hfree hsto hnon hroom.1 hroom.2.1 hroom.2.2
  leases := h.leases
  mappings := h.mappings
  rates := h.rates
  linked := by
    refine h.linked.insertDeposit fun d hd hid => ?_
    have hcon := hfree d hd
    simp [DepositRow.conflicts, hid] at hcon
  sequences := by
    refine nodup_snoc h.sequences fun d hd => ?_
    have hlt := h.sequence_lt d hd
    omega
  sequence_lt := forall_mem_append.mpr ⟨fun d hd => Nat.lt_succ_of_lt (h.sequence_lt d hd),
    forall_mem_singleton.mpr (hsequence ▸ Nat.lt_succ_self _)⟩

/-! ### New leases -/

/-- The rows that a new lease covers: available deposits of the requested tokens, within one
page. -/
structure Chosen (db : Database Idx Sealed) (tokenIndexes : List Idx)
    (chosen : List (DepositRow Idx Sealed)) : Prop where
  nodup : chosen.Nodup
  subset : ∀ d ∈ chosen, d ∈ db.deposits
  tokens : ∀ d ∈ chosen, d.tokenIdx ∈ tokenIndexes
  free : ∀ d ∈ chosen, ∀ m ∈ db.leaseRows, m.acknowledged = false → m.rowId ≠ d.rowId
  page_le : WithinQuota chosen pageMaxRows pageMaxBytes

section Grant

variable {lease : Lease Idx Sealed} {tokenIndexes : List Idx}
  {chosen : List (DepositRow Idx Sealed)}

variable (hfresh : ∀ l ∈ db.leases, l.leaseId ≠ lease.leaseId)
  (hchosen : Chosen db tokenIndexes chosen)
include hfresh hchosen

variable (draws) in
/-- The new lease holds exactly the chosen deposits. -/
theorem leasedDeposits_withLease_perm (h : Linked config db)
    (hdep : DepositsOk V config db.deposits) :
    ((db.withLease V draws lease (chosen.map DepositRow.rowId)).leasedDeposits
      lease.leaseId).Perm chosen := by
  have hnd : db.deposits.Nodup := List.Nodup.of_map _ hdep.row_ids
  refine (perm_ext_iff_of_nodup (hnd.filter _) hchosen.nodup).mpr fun d => ?_
  have hold : db.holds lease.leaseId d.rowId = true → False := fun hholds => by
    obtain ⟨m, hm, hid, -, -⟩ := holds_iff.mp hholds
    obtain ⟨l, hl, hlid⟩ := h.lease_of_mapping m hm
    exact hfresh l hl (hlid.trans hid)
  rw [mem_filter, holds_withLease_iff]
  constructor
  · rintro ⟨hd, hholds | ⟨-, hr⟩⟩
    · exact (hold hholds).elim
    · obtain ⟨d', hd', hrow⟩ := mem_map.mp hr
      rwa [← inj_on_of_nodup_map hdep.row_ids (hchosen.subset d' hd') hd hrow]
  · exact fun hd => ⟨hchosen.subset d hd, .inr ⟨rfl, mem_map_of_mem hd⟩⟩

variable (hclosed : lease.closed = true → chosen = []) (htoken : ∀ t ∈ tokenIndexes,
  db.leases.countP (fun l => !l.closed && db.coversToken t l) < config.maxLiveLeasesPerToken)
include hclosed htoken

/-- A lease granted on chosen deposits keeps mappings, leases and deposits linked. -/
theorem Linked.grant (h : Linked config db) (hdep : DepositsOk V config db.deposits) :
    Linked config (db.withLease V draws lease (chosen.map DepositRow.rowId)) where
  lease_of_mapping m hm := by
    rcases mem_withLease_leaseRows.mp hm with hm | ⟨r, -, rfl⟩
    · obtain ⟨l, hl, hid⟩ := h.lease_of_mapping m hm
      exact ⟨l, mem_append_left _ hl, hid⟩
    · exact ⟨lease, mem_append_right _ (mem_singleton_self _), rfl⟩
  deposit_of_mapping m hm hack := by
    rcases mem_withLease_leaseRows.mp hm with hm | ⟨r, hr, rfl⟩
    · exact h.deposit_of_mapping m hm hack
    · obtain ⟨d, hd, hrow⟩ := mem_map.mp hr
      exact ⟨d, hchosen.subset d hd, hrow⟩
  closed_done l hl hdone m hm hid := by
    rcases mem_append.mp hl with hold | hnew
    · rcases mem_withLease_leaseRows.mp hm with hm | ⟨r, -, rfl⟩
      · exact h.closed_done l hold hdone m hm hid
      -- A new mapping is of the new lease, whose id no other lease has.
      · exact absurd hid.symm (hfresh l hold)
    · obtain rfl := mem_singleton.mp hnew
      rcases mem_withLease_leaseRows.mp hm with hm | ⟨r, hr, -⟩
      · obtain ⟨l, hl, hlid⟩ := h.lease_of_mapping m hm
        exact absurd (hlid.trans hid) (hfresh l hl)
      · simp [hclosed hdone] at hr
  exclusive m hm m' hm' hack hack' hrow := by
    -- Chosen deposits were in no open lease, so an old and a new mapping share no row.
    rcases mem_withLease_leaseRows.mp hm with hm | ⟨r, hr, rfl⟩ <;>
      rcases mem_withLease_leaseRows.mp hm' with hm' | ⟨r', hr', rfl⟩
    · exact h.exclusive m hm m' hm' hack hack' hrow
    · obtain ⟨d, hd, hdrow⟩ := mem_map.mp hr'
      exact absurd (hrow.trans hdrow.symm) (hchosen.free d hd m hm hack)
    · obtain ⟨d, hd, hdrow⟩ := mem_map.mp hr
      exact absurd (hrow.symm.trans hdrow.symm) (hchosen.free d hd m' hm' hack')
    · exact congrArg (mappingRow V draws lease.leaseId · false) hrow
  page_le leaseId := by
    by_cases hid : lease.leaseId = leaseId
    · subst hid
      have hperm := leasedDeposits_withLease_perm draws hfresh hchosen h hdep
      refine ⟨hperm.length_eq.trans_le hchosen.page_le.1, ?_⟩
      exact (hperm.map DepositRow.encodedLen).sum_eq.trans_le hchosen.page_le.2
    · rw [leasedDeposits_withLease_of_ne hid]
      exact h.page_le leaseId
  token_le t := by
    set db' := db.withLease V draws lease (chosen.map DepositRow.rowId) with hdb'
    -- The leases before cover what they did; the new one adds at most one to its own tokens.
    have hold : db.leases.countP (fun l => !l.closed && db'.coversToken t l) =
        db.leases.countP fun l => !l.closed && db.coversToken t l := by
      refine countP_congr fun l hl => ?_
      rw [Database.coversToken, hdb', leasedDeposits_withLease_of_ne (hfresh l hl).symm]
      rfl
    have hlease : db'.leases = db.leases ++ [lease] := rfl
    rw [hlease, countP_append, hold]
    by_cases ht : t ∈ tokenIndexes
    · have hone : [lease].countP (fun l => !l.closed && db'.coversToken t l) ≤ 1 :=
        countP_le_length
      have hroom := htoken t ht
      omega
    · have hnot : db'.coversToken t lease = false := by
        refine any_eq_false.mpr fun d hd hdt => ht ?_
        have hperm := leasedDeposits_withLease_perm draws hfresh hchosen h hdep
        exact of_decide_eq_true hdt ▸ hchosen.tokens d (hperm.subset hd)
      have hzero : [lease].countP (fun l => !l.closed && db'.coversToken t l) = 0 := by simp [hnot]
      rw [hzero]
      exact h.token_le t

/-- **Granting a lease keeps the database sound.** -/
theorem Sound.grant (h : Sound V config db) (hval : Returns (openLease V lease))
    (hnone : ∀ l ∈ db.leases, l.closed = false → l.clientIdx = lease.clientIdx →
      l.filterIdx ≠ lease.filterIdx)
    (htot : db.leases.countP (fun l => !l.closed) < config.maxLiveLeases)
    (hcl : db.leases.countP (fun l => !l.closed && l.clientIdx = lease.clientIdx) <
      config.maxLiveLeasesPerClient) :
    Sound V config (db.withLease V draws lease (chosen.map DepositRow.rowId)) where
  registrations := h.registrations
  deposits := h.deposits
  leases := h.leases.insert hfresh hval hnone htot hcl
  mappings := by
    refine ⟨?_, fun m hm => ?_⟩
    · refine map_append ▸ nodup_append.mpr ⟨h.mappings.keys, ?_, ?_⟩
      · have hids : (chosen.map DepositRow.rowId).Nodup :=
          hchosen.nodup.map_on fun a ha b hb => inj_on_of_nodup_map h.deposits.row_ids
            (hchosen.subset a ha) (hchosen.subset b hb)
        rw [map_map]
        exact hids.map fun a b hab => (Prod.mk.inj hab).2
      -- No mapping before is of the new lease.
      · rintro _ hm _ hnew rfl
        obtain ⟨m, hm, hkey⟩ := mem_map.mp hm
        obtain ⟨_, hnew, hkey'⟩ := mem_map.mp hnew
        obtain ⟨r, -, rfl⟩ := mem_map.mp hnew
        obtain ⟨l, hl, hid⟩ := h.linked.lease_of_mapping m hm
        exact hfresh l hl (hid.trans (Prod.mk.inj (hkey.trans hkey'.symm)).1)
    · rcases mem_withLease_leaseRows.mp hm with hm | ⟨r, -, rfl⟩
      · exact h.mappings.valid m hm
      · exact openLeaseRow_mappingRow _ _ _
  rates := h.rates
  linked := h.linked.grant hfresh hchosen hclosed htoken h.deposits
  sequences := h.sequences
  sequence_lt := h.sequence_lt

end Grant

/-! ### Acknowledgements -/

/-- The mapping of a row to a lease is there and not acknowledged. -/
def Pending (db : Database Idx Sealed) (leaseId rowId : Octets 16) : Prop :=
  ∃ m ∈ db.leaseRows, m.leaseId = leaseId ∧ m.rowId = rowId ∧ m.acknowledged = false

section Ack

variable {leaseId rowId : Octets 16}

theorem Sound.acknowledge (h : Sound V config db) (hpen : Pending db leaseId rowId) :
    Sound V config (db.acknowledge V draws leaseId rowId) where
  registrations := h.registrations
  deposits := h.deposits.sublist filter_sublist
  leases := h.leases
  mappings := by
    refine ⟨by rw [map_key_acknowledge]; exact h.mappings.keys, fun m hm => ?_⟩
    obtain ⟨m', hm', rfl⟩ := mem_map.mp hm
    split_ifs
    · exact openLeaseRow_mappingRow _ _ _
    · exact h.mappings.valid m' hm'
  rates := h.rates
  linked := by
    refine h.linked.shrink filter_sublist (.of_sublist (.refl _))
      (fun m hm hack => (mem_acknowledge hm hack).1) (fun m hm => ?_) (fun m hm hack => ?_)
      (fun l hl hclosed m hm hid => ?_)
    · obtain ⟨m', hm', hid, -⟩ := mem_acknowledge_key hm
      obtain ⟨l, hl, hlid⟩ := h.linked.lease_of_mapping m' hm'
      exact ⟨l, hl, hlid.trans hid⟩
    · -- The deposit of another row is not the deleted one: no deposit has two unacknowledged rows.
      obtain ⟨hmem, hkey⟩ := mem_acknowledge hm hack
      obtain ⟨d, hd, hrow⟩ := h.linked.deposit_of_mapping m hmem hack
      refine ⟨d, mem_filter.mpr ⟨hd, decide_eq_true fun hdel => ?_⟩, hrow⟩
      obtain ⟨m', hm', hid', hrow', hack'⟩ := hpen
      obtain rfl := h.linked.exclusive m hmem m' hm' hack hack' (hrow ▸ hdel.trans hrow'.symm)
      exact hkey ⟨hid', hrow'⟩
    · obtain ⟨m', hm', hid', hmono⟩ := mem_acknowledge_key hm
      exact hmono (h.linked.closed_done l hl hclosed m' hm' (hid'.trans hid))
  sequences := h.sequences.sublist (filter_sublist.map _)
  sequence_lt d hd := h.sequence_lt d (filter_sublist.subset hd)

end Ack

/-! ### Closing a lease -/

/-- Closing a lease all of whose rows are acknowledged keeps the database sound. -/
theorem Sound.close {lease closed : Lease Idx Sealed} (h : Sound V config db)
    (hid : closed.leaseId = lease.leaseId) (hclosed : closed.closed = true)
    (hval : Returns (openLease V closed))
    (hdone : ∀ m ∈ db.leaseRows, m.leaseId = lease.leaseId → m.acknowledged = true) :
    Sound V config { db with leases := db.leases.map fun l =>
      if l.leaseId = lease.leaseId then closed else l } := by
  have hkeys : (db.leases.map fun l => if l.leaseId = lease.leaseId then closed else l).map
      Lease.leaseId = db.leases.map Lease.leaseId := by
    rw [map_map]
    refine map_congr_left fun l _ => ?_
    simp only [comp_apply]
    split_ifs with hkey
    · exact hid.trans hkey.symm
    · rfl
  -- An open lease of the new list is one of the old.
  have hopen : ∀ l : Lease Idx Sealed,
      (if l.leaseId = lease.leaseId then closed else l).closed = false →
        (if l.leaseId = lease.leaseId then closed else l) = l := by
    intro l hl
    split_ifs at hl ⊢
    · simp [hclosed] at hl
    · rfl
  have hfew : FewerOpen (db.leases.map fun l => if l.leaseId = lease.leaseId then closed else l)
      db.leases := by
    refine ⟨fun l hl hopened => ?_, fun q => ?_⟩
    · obtain ⟨l', hl', rfl⟩ := mem_map.mp hl
      rwa [hopen l' hopened]
    · rw [countP_map]
      refine countP_mono_left fun l _ hl => ?_
      simp only [comp_apply, Bool.and_eq_true, Bool.not_eq_true'] at hl ⊢
      rwa [hopen l hl.1] at hl
  refine { h with
    leases := h.leases.fewerOpen (hkeys ▸ h.leases.keys) (fun l hl => ?_) hfew
    linked := h.linked.shrink (.refl _) hfew (fun m hm _ => hm) (fun m hm => ?_)
      h.linked.deposit_of_mapping (fun l hl hl_closed m hm hlid => ?_) }
  · obtain ⟨l', hl', rfl⟩ := mem_map.mp hl
    split_ifs
    · exact hval
    · exact h.leases.valid l' hl'
  -- A mapping of the closed lease has the lease still.
  · obtain ⟨l, hl, hlid⟩ := h.linked.lease_of_mapping m hm
    refine ⟨_, mem_map_of_mem hl, ?_⟩
    split_ifs with hkey
    · rw [hid, ← hkey, hlid]
    · exact hlid
  · obtain ⟨l', hl', rfl⟩ := mem_map.mp hl
    split_ifs at hl_closed hlid with hkey
    · exact hdone m hm (hlid.trans hid)
    · exact h.linked.closed_done l' hl' hl_closed m hm hlid

end Komms.Mailbox
