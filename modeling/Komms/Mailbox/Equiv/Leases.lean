import Komms.Mailbox.Equiv.Operations

/-!
# Leases: exclusive, oldest first, and the same until they end

In every database a relay writes:

* no deposit has two unacknowledged lease rows;
* a new page starts with the oldest deposit of the requested tokens that no live lease holds, and
  stays within the page limits;
* a client that asks again for the same tokens is given its live lease again, with the rows it has
  not acknowledged, exactly when the request is served and no row of the lease refers to an expired
  deposit (`leases_exclusive_and_repeated`);
* an acknowledgement made again is accepted exactly when its lease is still stored and no row of it
  refers to an expired deposit (`repeated_ack_iff`).

The last condition is needed because `sweep` deletes a lease as soon as one of its deposits expires,
`live_lease_replaced`.
-/

namespace Komms.Mailbox

open Protocol (Envelope maxEnvelopeBytes)
open Table List

section

variable {Idx Sealed : Type} [DecidableEq Idx] {V : Vault Idx Sealed} {config : Config}
  {db db' : Database Idx Sealed} {draws : Draws Idx} {client : Bytes} {clientIdx : Idx} {now : ℕ}
  {tokens : List (Octets 32)} {leaseId : Octets 16} {d : DepositRow Idx Sealed}

/-! ### Rows that a page may show -/

/-- The stored envelope is for one of the tokens. -/
def OfTokens (V : Vault Idx Sealed) (tokens : List (Octets 32)) (d : DepositRow Idx Sealed) :
    Prop :=
  ∃ encoded envelope, Stored V d encoded ∧ Envelope.decode encoded = .ok envelope ∧
    envelope.token ∈ tokens

/-- An unexpired deposit of the tokens that no live lease holds. -/
structure Unleased (V : Vault Idx Sealed) (db : Database Idx Sealed) (tokens : List (Octets 32))
    (now : ℕ) (d : DepositRow Idx Sealed) : Prop where
  mem : d ∈ db.deposits
  ofTokens : OfTokens V tokens d
  unexpired : now < d.expiresAt
  free : ∀ l ∈ db.leases, l.closed = false → now < l.expiresAt → ¬ Pending db l.leaseId d.rowId

/-- With collision-free indexes, the token column tells the token. -/
theorem ofTokens_iff (hix : Function.Injective V.tokenIndex)
    (hsto : ∃ encoded, Stored V d encoded) :
    OfTokens V tokens d ↔ d.tokenIdx ∈ (uniqueTokens tokens).map V.tokenIndex := by
  obtain ⟨encoded, hsto⟩ := hsto
  obtain ⟨envelope, hdec, htoken, -⟩ := indexes_of_stored hsto
  rw [htoken, mem_map_of_injective hix, uniqueTokens, mem_sortDedup_id]
  refine ⟨fun ⟨encoded', envelope', hsto', hdec', hmem⟩ => ?_,
    fun hmem => ⟨encoded, envelope, hsto, hdec, hmem⟩⟩
  obtain rfl : encoded = encoded' := Except.ok.inj (hsto.symm.trans hsto')
  obtain rfl : envelope = envelope' := Except.ok.inj (hdec.symm.trans hdec')
  exact hmem

theorem isAvailable_iff (hix : Function.Injective V.tokenIndex) (h : Sound V config db)
    (hd : d ∈ db.deposits) :
    db.isAvailable ((uniqueTokens tokens).map V.tokenIndex) now d = true ↔
      Unleased V db tokens now d := by
  simp only [Database.isAvailable, Bool.and_eq_true, decide_eq_true_eq, Bool.not_eq_true',
    any_eq_false, ← ofTokens_iff hix (h.deposits.valid d hd)]
  constructor
  · rintro ⟨⟨htoken, hlive⟩, hfree⟩
    refine ⟨hd, htoken, hlive, fun l hl hopen hexp hpen => hfree l ?_ (holds_iff.mpr hpen)⟩
    exact mem_filter.mpr ⟨hl, by simp [hopen, hexp]⟩
  · rintro ⟨-, htoken, hlive, hfree⟩
    refine ⟨⟨htoken, hlive⟩, fun l hl hholds => ?_⟩
    obtain ⟨hmem, hl⟩ := mem_filter.mp hl
    simp only [Bool.and_eq_true, Bool.not_eq_true', decide_eq_true_eq] at hl
    exact hfree l hmem hl.1 hl.2 (holds_iff.mp hholds)

/-! ### New pages -/

theorem head_of_fillPage {rows : List (DepositRow Idx Sealed)} {page : List LeasedRow}
    (hok : fillPage V 0 (d :: rows) = .ok page) : d.rowId ∈ page.map LeasedRow.rowId := by
  obtain ⟨encoded, hopen, hrest⟩ := bind_eq_ok_iff.mp hok
  obtain ⟨envelope, hdec, -, -⟩ := indexes_of_stored hopen
  obtain ⟨hlen, -⟩ := check_bind_eq_ok_iff.mp hdec
  have hmax : maxEnvelopeBytes ≤ pageMaxBytes := by decide
  simp only [rejectIf_eq_ok_iff, not_lt, gt_iff_lt] at hlen
  rw [if_neg (by omega)] at hrest
  obtain ⟨page', -, hpage⟩ := bind_eq_ok_iff.mp hrest
  cases hpage
  exact .head _

variable {rows : List LeasedRow}

/-- The page of a new lease has the oldest available row. -/
theorem oldest_of_availableRowsOn {tokenIndexes : List Idx}
    (hok : availableRowsOn V db tokenIndexes now = .ok rows)
    (hsome : ∃ d ∈ db.deposits, db.isAvailable tokenIndexes now d = true) :
    ∃ d ∈ db.deposits, db.isAvailable tokenIndexes now d = true ∧
      (∀ d' ∈ db.deposits, db.isAvailable tokenIndexes now d' = true → d.sequence ≤ d'.sequence) ∧
        d.rowId ∈ rows.map LeasedRow.rowId := by
  have hmem : ∀ d, d ∈ orderBy DepositRow.sequence
      (db.deposits.filter (db.isAvailable tokenIndexes now)) ↔
        d ∈ db.deposits ∧ db.isAvailable tokenIndexes now d = true := fun d => by
    rw [mem_orderBy, mem_filter]
  have hsorted := pairwise_orderBy DepositRow.sequence
    (db.deposits.filter (db.isAvailable tokenIndexes now))
  unfold availableRowsOn at hok
  generalize orderBy DepositRow.sequence _ = rows at hmem hsorted hok
  cases rows with
  | nil =>
    obtain ⟨d, hd⟩ := hsome
    cases (hmem d).mpr hd
  | cons oldest rest =>
    obtain ⟨hd, hav⟩ := (hmem oldest).mp (.head _)
    refine ⟨oldest, hd, hav, fun d' hd' hav' => ?_, head_of_fillPage hok⟩
    rcases mem_cons.mp ((hmem d').mpr ⟨hd', hav'⟩) with rfl | hrest
    · exact le_rfl
    · exact (pairwise_cons.mp hsorted).1 d' hrest

/-- A page as it should be: within the limits, of unleased rows of the tokens, with the oldest
one. -/
structure NewPage (V : Vault Idx Sealed) (db : Database Idx Sealed) (tokens : List (Octets 32))
    (now : ℕ) (rows : List LeasedRow) : Prop where
  rows_le : rows.length ≤ pageMaxRows
  bytes_le : total (fun row => row.envelope.length) rows ≤ pageMaxBytes
  unleased : ∀ row ∈ rows, ∃ d, Unleased V db tokens now d ∧ Shows V d row
  oldest : (∃ d, Unleased V db tokens now d) → ∃ d, Unleased V db tokens now d ∧
    (∀ d', Unleased V db tokens now d' → d.sequence ≤ d'.sequence) ∧
      d.rowId ∈ rows.map LeasedRow.rowId

theorem exists_shows {chosen : List (DepositRow Idx Sealed)}
    (h : List.Forall₂ (Shows V) chosen rows) {row : LeasedRow} (hrow : row ∈ rows) :
    ∃ d ∈ chosen, Shows V d row := by
  induction h with
  | nil => cases hrow
  | cons hshow _ ih =>
    rcases mem_cons.mp hrow with rfl | htail
    · exact ⟨_, .head _, hshow⟩
    · obtain ⟨d, hd, hshow⟩ := ih htail
      exact ⟨d, .tail _ hd, hshow⟩

theorem newPage_of_availableRowsOn (hix : Function.Injective V.tokenIndex)
    (h : Sound V config db) (hswept : Swept now db)
    (hok : availableRowsOn V db ((uniqueTokens tokens).map V.tokenIndex) now = .ok rows) :
    NewPage V db tokens now rows := by
  obtain ⟨chosen, hchosen, hav, hrows⟩ := availableRowsOn_eq_ok h hswept hok
  refine ⟨?_, ?_, fun row hrow => ?_, fun ⟨d, hd⟩ => ?_⟩
  · exact hrows.length_eq.symm.trans_le hchosen.page_le.1
  · rw [total, map_length_of_forall₂ hrows]
    exact hchosen.page_le.2
  · obtain ⟨d, hd, hshow⟩ := exists_shows hrows hrow
    exact ⟨d, (isAvailable_iff hix h (hchosen.subset d hd)).mp (hav d hd), hshow⟩
  · obtain ⟨oldest, hmem, hfree, hmin, hin⟩ := oldest_of_availableRowsOn hok
      ⟨d, hd.mem, (isAvailable_iff hix h hd.mem).mpr hd⟩
    exact ⟨oldest, (isAvailable_iff hix h hmem).mp hfree,
      fun d' hd' => hmin d' hd'.mem ((isAvailable_iff hix h hd'.mem).mpr hd'), hin⟩

/-- **A new page.**  When a lease request returns a lease that was not there, its page is as it
should be in the swept database. -/
theorem newPage_of_leaseInner (hix : Function.Injective V.tokenIndex) (h : Sound V config db)
    {page : LeasePage} (hnew : ∀ l ∈ (db.sweep now).leases, l.leaseId ≠ page.leaseId)
    (hok : leaseInner V config draws db client tokens now = .ok (db', some page)) :
    NewPage V (db.sweep now) tokens now page.rows := by
  obtain ⟨db₁, allowed, hadm, ⟨-, hnone⟩ | ⟨-, -, hlease⟩⟩ := leaseInner_eq_ok hok
  · cases hnone
  · rw [registered, registerAll_eq, (admitClient_eq_ok hadm).2] at hlease
    obtain ⟨lease, rows, hexists, -, -, hpage⟩ | ⟨-, hnone⟩ | ⟨granted, hgrant, hpage, -⟩ :=
      leaseRegistered_eq_ok hlease
    · cases hpage
      have hmem := mem_of_head? hexists
      rw [mem_orderBy, mem_filter] at hmem
      exact absurd rfl (hnew lease hmem.1)
    · cases hnone
    · cases hpage
      -- The page is made of tables that the admission and the registration leave alone.
      have hrows : availableRowsOn V (db.sweep now) _ now = .ok _ := hgrant.rows_eq
      exact newPage_of_availableRowsOn hix h.sweep swept_sweep hrows

/-! ### Loading a lease -/

/-- The unacknowledged rows of a lease, each once and with its bytes. -/
structure ExactRows (V : Vault Idx Sealed) (db : Database Idx Sealed) (leaseId : Octets 16)
    (rows : List LeasedRow) : Prop where
  nodup : (rows.map LeasedRow.rowId).Nodup
  mem_iff : ∀ rowId, rowId ∈ rows.map LeasedRow.rowId ↔ Pending db leaseId rowId
  shows : ∀ row ∈ rows, ∃ d ∈ db.deposits, Shows V d row

theorem loadPage_returns {rows : List (Mapping Sealed × DepositRow Idx Sealed)} {bytes count : ℕ}
    (hrows : ∀ p ∈ rows, openLeaseRow V p.1 = .ok () ∧ ∃ encoded, Stored V p.2 encoded)
    (hbytes : bytes + total DepositRow.encodedLen (rows.map Prod.snd) ≤ pageMaxBytes)
    (hcnt : count + rows.length ≤ pageMaxRows) :
    ∃ page, loadPage V bytes count rows = .ok page ∧
      List.Forall₂ (Shows V) (rows.map Prod.snd) page := by
  induction rows generalizing bytes count with
  | nil => exact ⟨[], rfl, .nil⟩
  | cons p rows ih =>
    obtain ⟨m, d⟩ := p
    obtain ⟨hopen, encoded, hsto⟩ : openLeaseRow V m = .ok () ∧ ∃ encoded, Stored V d encoded :=
      hrows _ (.head _)
    obtain ⟨_, -, -, hlen⟩ := stored_iff.mp hsto
    have htot : total DepositRow.encodedLen (((m, d) :: rows).map Prod.snd) =
        d.encodedLen + total DepositRow.encodedLen (rows.map Prod.snd) := by simp [total]
    rw [length_cons] at hcnt
    obtain ⟨page, hpage, hall⟩ := @ih (bytes + encoded.length) (count + 1)
      (fun p hp => hrows p (.tail _ hp)) (by omega) (by omega)
    have hfits : ¬ (bytes + encoded.length > pageMaxBytes ∨ count ≥ pageMaxRows) := by omega
    refine ⟨⟨d.rowId, encoded⟩ :: page, ?_, .cons ⟨rfl, hsto⟩ hall⟩
    have hsize : openSized V d = .ok encoded := hsto
    simp only [loadPage, hopen, hsize, ok_bind, rejectIf_bind_of_not hfits, hpage]

omit [DecidableEq Idx] in
/-- The join has one row for each deposit that the lease holds. -/
theorem map_snd_joined : (db.joined leaseId).map Prod.snd =
    (orderBy DepositRow.sequence db.deposits).filter fun d => db.holds leaseId d.rowId := by
  unfold Database.joined
  induction orderBy DepositRow.sequence db.deposits with
  | nil => rfl
  | cons d rows ih =>
    rw [filterMap_cons, filter_cons]
    cases hfind : db.leaseRows.find? fun m =>
        m.leaseId = leaseId && m.rowId = d.rowId && !m.acknowledged with
    | none =>
      have hnot : db.holds leaseId d.rowId = false := by
        rw [find?_eq_none] at hfind
        rw [Database.holds, any_eq_false]
        exact hfind
      rw [hnot]
      exact ih
    | some m =>
      have hholds : db.holds leaseId d.rowId = true := by
        have hm := find?_some hfind
        exact any_eq_true.mpr ⟨m, mem_of_find?_eq_some hfind, hm⟩
      rw [hholds, if_pos rfl]
      exact congrArg (d :: ·) ih

omit [DecidableEq Idx] in
theorem mem_joined {p : Mapping Sealed × DepositRow Idx Sealed} (hp : p ∈ db.joined leaseId) :
    p.1 ∈ db.leaseRows ∧ p.2 ∈ db.deposits := by
  obtain ⟨d, hd, hmap⟩ := mem_filterMap.mp hp
  obtain ⟨m, hfind, rfl⟩ := Option.map_eq_some_iff.mp hmap
  exact ⟨mem_of_find?_eq_some hfind, mem_orderBy.mp hd⟩

omit [DecidableEq Idx] in
theorem map_rowId_joined : (db.joined leaseId).map (fun p => p.2.rowId) =
    ((orderBy DepositRow.sequence db.deposits).filter fun d => db.holds leaseId d.rowId).map
      DepositRow.rowId := by
  rw [← map_snd_joined, map_map]
  rfl

variable (h : Sound V config db)
include h

theorem mem_joined_rowIds {rowId : Octets 16} :
    rowId ∈ (db.joined leaseId).map (fun p => p.2.rowId) ↔ Pending db leaseId rowId := by
  rw [map_rowId_joined]
  constructor
  · intro hmem
    obtain ⟨d, hd, rfl⟩ := mem_map.mp hmem
    exact holds_iff.mp (mem_filter.mp hd).2
  · intro hpen
    obtain ⟨m, hm, hid, hrow, hack⟩ := hpen
    obtain ⟨d, hd, hdrow⟩ := h.linked.deposit_of_mapping m hm hack
    refine mem_map.mpr ⟨d, mem_filter.mpr ⟨mem_orderBy.mpr hd, ?_⟩, hdrow.trans hrow⟩
    exact holds_iff.mpr ⟨m, hm, hid, hdrow.symm, hack⟩

theorem nodup_joined_rowIds : ((db.joined leaseId).map fun p => p.2.rowId).Nodup := by
  have hnd : ((orderBy DepositRow.sequence db.deposits).map DepositRow.rowId).Nodup :=
    ((perm_orderBy _ _).map _).nodup_iff.mpr h.deposits.row_ids
  rw [map_rowId_joined]
  exact hnd.sublist (filter_sublist.map _)

theorem length_joined : (db.joined leaseId).length = db.remaining leaseId := by
  have hrows : ((db.leaseRows.filter fun m => m.leaseId = leaseId && !m.acknowledged).map
      Mapping.rowId).Nodup := by
    have hkeys := h.mappings.keys.sublist
      ((@filter_sublist _ (fun m => m.leaseId = leaseId && !m.acknowledged)
        db.leaseRows).map fun m => (m.leaseId, m.rowId))
    refine List.Nodup.map_on (fun a ha b hb hrow => ?_) (List.Nodup.of_map _ hkeys)
    refine inj_on_of_nodup_map hkeys ha hb (Prod.ext ?_ hrow)
    have haid := (mem_filter.mp ha).2
    have hbid := (mem_filter.mp hb).2
    simp only [Bool.and_eq_true, decide_eq_true_eq] at haid hbid
    exact haid.1.trans hbid.1.symm
  have hperm : ((db.joined leaseId).map fun p => p.2.rowId).Perm
      ((db.leaseRows.filter fun m => m.leaseId = leaseId && !m.acknowledged).map
        Mapping.rowId) := by
    refine (perm_ext_iff_of_nodup (nodup_joined_rowIds h) hrows).mpr fun rowId => ?_
    rw [mem_joined_rowIds h]
    simp [Pending, and_assoc, and_left_comm, and_comm]
  have hlen := hperm.length_eq
  rw [length_map, length_map] at hlen
  rw [Database.remaining, countP_eq_length_filter]
  exact hlen

/-- **A stored lease is loaded with exactly its unacknowledged rows.** -/
theorem loadLeaseRowsOn_of_sound (leaseId : Octets 16) :
    ∃ rows, loadLeaseRowsOn V db leaseId = .ok rows ∧ ExactRows V db leaseId rows := by
  -- The joined rows are the leased deposits, within the bounds of a page.
  have hlease : ((db.joined leaseId).map Prod.snd).Perm (db.leasedDeposits leaseId) := by
    rw [map_snd_joined]
    exact (perm_orderBy _ _).filter _
  have hlen : (db.joined leaseId).length = (db.leasedDeposits leaseId).length := by
    rw [← hlease.length_eq, length_map]
  have hbytes : total DepositRow.encodedLen ((db.joined leaseId).map Prod.snd) ≤ pageMaxBytes :=
    (hlease.map _).sum_eq.trans_le (h.linked.page_le leaseId).2
  obtain ⟨page, hpage, hshow⟩ := @loadPage_returns _ _ _ V (db.joined leaseId) 0 0
    (fun p hp => ⟨h.mappings.valid _ (mem_joined hp).1, h.deposits.valid _ (mem_joined hp).2⟩)
    (by omega) (by have := (h.linked.page_le leaseId).1; omega)
  have hids : page.map LeasedRow.rowId = (db.joined leaseId).map fun p => p.2.rowId := by
    rw [map_rowId_of_forall₂ hshow, map_map]
    rfl
  have hrem : page.length = db.remaining leaseId := by
    rw [← hshow.length_eq, length_map, length_joined h]
  refine ⟨page, ?_, ⟨?_, fun rowId => ?_, fun row hrow => ?_⟩⟩
  · simp only [loadLeaseRowsOn, hpage, ok_bind, rejectIf_bind_of_not (not_not.mpr hrem)]
  · rw [hids]
    exact nodup_joined_rowIds h
  · rw [hids]
    exact mem_joined_rowIds h
  · obtain ⟨d, hd, hrowS⟩ := exists_shows hshow hrow
    obtain ⟨p, hp, rfl⟩ := mem_map.mp hd
    exact ⟨p.2, (mem_joined hp).2, hrowS⟩

omit h

/-! ### Asking again -/

/-- A live lease of a client for a set of tokens that is not fully acknowledged. -/
structure LeaseOf (V : Vault Idx Sealed) (db : Database Idx Sealed) (client : Bytes)
    (tokens : List (Octets 32)) (now : ℕ) (lease : Lease Idx Sealed) : Prop where
  mem : lease ∈ db.leases
  client_eq : lease.clientIdx = V.clientIndex client
  filter_eq : lease.filterIdx = V.filterIndex ((uniqueTokens tokens).map V.tokenIndex)
  live : now < lease.expiresAt
  pending : ∃ rowId, Pending db lease.leaseId rowId

/-- The request passes the rate limits and the checks on its tokens. -/
def Served (V : Vault Idx Sealed) (config : Config) (draws : Draws Idx) (db : Database Idx Sealed)
    (client : Bytes) (tokens : List (Octets 32)) (now : ℕ) : Prop :=
  ∃ db₁, admitClient V config draws db client now = .ok (db₁, true) ∧
    LeaseChecked V config db₁ client tokens now

/-- The answer is the lease, with exactly its unacknowledged rows. -/
def Repeats (V : Vault Idx Sealed) (db : Database Idx Sealed) (lease : Lease Idx Sealed)
    (result : Except MailboxError (Database Idx Sealed × Option LeasePage)) : Prop :=
  ∃ db' page, result = .ok (db', some page) ∧ page.leaseId = lease.leaseId ∧
    ExactRows V db lease.leaseId page.rows

section

variable {lease : Lease Idx Sealed} {tokens' : List (Octets 32)}

theorem leaseInner_of_checked {db₁ : Database Idx Sealed}
    (hadm : admitClient V config draws db client now = .ok (db₁, true))
    (hchk : LeaseChecked V config db₁ client tokens now) :
    leaseInner V config draws db client tokens now =
      leaseRegistered V config draws (registered V config draws client now tokens db₁)
        (V.clientIndex client) (V.filterIndex ((uniqueTokens tokens).map V.tokenIndex))
        ((uniqueTokens tokens).map V.tokenIndex) now := by
  have hshape : ¬ (tokens = [] ∨ tokens.length > maxCheckinTokens) := by
    rintro (hempty | hlong)
    · exact hchk.nonempty hempty
    · exact absurd hchk.bounded (Nat.not_le.mpr hlong)
  have hbind : bindInteger (saturatingAdd now config.registrationTtlSecs) = .ok () :=
    bindInteger_eq_ok_iff.mpr hchk.representable
  simp only [leaseInner, hadm, ok_bind, Bool.true_eq_false, if_false, if_neg hshape,
    if_neg hchk.room, hbind]
  rfl

theorem LeaseOf.isOpen (h : Sound V config db) (hlease : LeaseOf V db client tokens now lease) :
    lease.closed = false := by
  obtain ⟨_, m, hm, hid, -, hack⟩ := hlease.pending
  exact h.linked.open_of_mapping hlease.mem hm hid hack

theorem existingLease_eq_some {filterIdx : Idx} (h : Sound V config db) (hmem : lease ∈ db.leases)
    (hopen : lease.closed = false) (hc : lease.clientIdx = clientIdx)
    (hf : lease.filterIdx = filterIdx) (hlive : now < lease.expiresAt) :
    db.existingLease clientIdx filterIdx now = some lease := by
  cases hhead : db.existingLease clientIdx filterIdx now with
  | none => exact absurd hf (none_open_of_existingLease hhead hmem hlive hopen hc)
  | some found =>
    have hfnd := mem_filter.mp (mem_orderBy.mp (mem_of_head? hhead))
    have hcol := hfnd.2
    simp only [Bool.and_eq_true, decide_eq_true_eq, Bool.not_eq_true'] at hcol
    obtain ⟨⟨⟨hc', hf'⟩, hopen'⟩, -⟩ := hcol
    rw [h.leases.filter_unique lease hmem found hfnd.1 hopen hopen' (hc.trans hc'.symm)
      (hf.trans hf'.symm)]

omit [DecidableEq Idx] in
/-- The rows of a lease that survives the sweep survive with it. -/
theorem mem_sweep_leaseRows_iff {m : Mapping Sealed} (hkeys : (db.leases.map Lease.leaseId).Nodup)
    (hlease : lease ∈ (db.sweep now).leases) (hid : m.leaseId = lease.leaseId) :
    m ∈ (db.sweep now).leaseRows ↔ m ∈ db.leaseRows := by
  obtain ⟨hmem, hrow, hexp⟩ := mem_sweep_leases.mp hlease
  rw [mem_sweep_leaseRows]
  refine ⟨fun hm => hm.1, fun hm => ⟨hm, fun l hl hlid => ?_, fun l hl hlid => ?_⟩⟩
  all_goals rwa [inj_on_of_nodup_map hkeys hl hmem (hlid.trans hid)]

/-- A served request for the tokens of a lease none of whose deposits is expired is given it. -/
theorem repeats_of_served (h : Sound V config db) (hlease : LeaseOf V db client tokens now lease)
    (hser : Served V config draws db client tokens now)
    (hrows : db.hasExpiredRow now lease = false) :
    Repeats V db lease (leaseInner V config draws db client tokens now) := by
  obtain ⟨db₁, hadm, hchk⟩ := hser
  -- The lease survives the sweep, and the request finds it.
  have hswept : lease ∈ (db.sweep now).leases :=
    mem_sweep_leases.mpr ⟨hlease.mem, hrows, hlease.live⟩
  have hexists := existingLease_eq_some h.sweep hswept (hlease.isOpen h) hlease.client_eq
    hlease.filter_eq hlease.live
  obtain ⟨record, hopen⟩ := h.sweep.leases.valid lease hswept
  obtain ⟨rows, hload, hexact⟩ := loadLeaseRowsOn_of_sound h.sweep lease.leaseId
  refine ⟨registered V config draws client now tokens db₁,
    ⟨lease.leaseId, lease.expiresAt, rows⟩, ?_,
    rfl, hexact.nodup, fun rowId => ?_, fun row hrow => ?_⟩
  · rw [leaseInner_of_checked hadm hchk, registered, registerAll_eq, (admitClient_eq_ok hadm).2,
      leaseRegistered]
    split
    · next found hfnd =>
      obtain rfl := Option.some.inj (hexists.symm.trans hfnd)
      exact bind_eq_ok_iff.mpr ⟨record, hopen, bind_eq_ok_iff.mpr ⟨rows, hload, rfl⟩⟩
    · next hnone => cases hexists.symm.trans hnone
  · rw [hexact.mem_iff]
    exact exists_congr fun m => and_congr_left fun hm =>
      mem_sweep_leaseRows_iff h.leases.keys hswept hm.1
  · obtain ⟨d, hd, hshow⟩ := hexact.shows row hrow
    exact ⟨d, (mem_sweep_deposits.mp hd).1, hshow⟩

/-- **When asking again is answered with the same lease**: the request is served, and no row of the
lease refers to an expired deposit. -/
theorem repeats_iff (h : Sound V config db) (hlease : LeaseOf V db client tokens now lease)
    (hfr : ∀ id ∈ draws.attempts, ∀ l ∈ db.leases, l.leaseId ≠ id) :
    Repeats V db lease (leaseInner V config draws db client tokens now) ↔
      Served V config draws db client tokens now ∧ db.hasExpiredRow now lease = false := by
  refine ⟨fun ⟨db', page, hok, hid, _⟩ => ?_, fun ⟨hser, hrows⟩ =>
    repeats_of_served h hlease hser hrows⟩
  obtain ⟨db₁, allowed, hadm, ⟨-, hnone⟩ | ⟨rfl, hchk, hreg⟩⟩ := leaseInner_eq_ok hok
  · cases hnone
  refine ⟨⟨db₁, hadm, hchk⟩, ?_⟩
  obtain ⟨found, rows, hexists, -, -, hpage⟩ | ⟨-, hnone⟩ | ⟨granted, hgrant, hpage, -⟩ :=
    leaseRegistered_eq_ok hreg
  · -- The lease that was found has survived the sweep, and it is this one.
    cases hpage
    rw [registered, registerAll_eq, (admitClient_eq_ok hadm).2] at hexists
    have hmem := mem_of_head? hexists
    rw [mem_orderBy, mem_filter] at hmem
    obtain ⟨hin, hrow, -⟩ := mem_sweep_leases.mp hmem.1
    rwa [inj_on_of_nodup_map h.leases.keys hin hlease.mem hid] at hrow
  · cases hnone
  · cases hpage
    exact absurd hid.symm (hfr _ hgrant.drawn lease hlease.mem)

end

/-- **Leases are exclusive and pages start with the oldest row; a lease is repeated as long as none
of its deposits expires.**  In every database a relay writes, for collision-free token indexes. -/
theorem leases_exclusive_and_repeated (V : Vault Idx Sealed) (config : Config)
    (hindex : Function.Injective V.tokenIndex) (calls : List (Call Idx)) :
    let db := run V config .empty calls
    (∀ m ∈ db.leaseRows, ∀ m' ∈ db.leaseRows, m.acknowledged = false → m'.acknowledged = false →
      m.rowId = m'.rowId → m = m') ∧
    (∀ (draws : Draws Idx) (client : Bytes) (tokens : List (Octets 32)) (now : ℕ)
      (db' : Database Idx Sealed) (page : LeasePage),
      leaseInner V config draws db client tokens now = .ok (db', some page) →
        (∀ l ∈ (db.sweep now).leases, l.leaseId ≠ page.leaseId) →
          NewPage V (db.sweep now) tokens now page.rows) ∧
    ∀ (draws : Draws Idx) (client : Bytes) (tokens again : List (Octets 32)) (now : ℕ)
      (lease : Lease Idx Sealed), LeaseOf V db client tokens now lease →
        (∀ token, token ∈ again ↔ token ∈ tokens) →
          (∀ id ∈ draws.attempts, ∀ l ∈ db.leases, l.leaseId ≠ id) →
            (Repeats V db lease (leaseInner V config draws db client again now) ↔
              Served V config draws db client again now ∧ db.hasExpiredRow now lease = false) := by
  intro db
  have hsnd : Sound V config db := sound_run .empty calls
  refine ⟨hsnd.linked.exclusive, fun draws client tokens now db' page hok hnew =>
    newPage_of_leaseInner hindex hsnd hnew hok,
    fun draws client tokens again now lease hlease hsame hfr => ?_⟩
  -- The filter of a request is that of its set of tokens.
  have hunique : uniqueTokens again = uniqueTokens tokens := sortDedup_id_congr hsame
  have hagain : LeaseOf V db client again now lease :=
    { hlease with filter_eq := hunique ▸ hlease.filter_eq }
  exact repeats_iff hsnd hagain hfr

/-! ### Acknowledging again -/

variable {rowId : Octets 16} {rows : List (Octets 16 × Bool)} {rowIds : List (Octets 16)}
  {lease : Lease Idx Sealed}

section

omit [DecidableEq Idx]

/-- The row of the lease is acknowledged. -/
def Marked (db : Database Idx Sealed) (leaseId rowId : Octets 16) : Prop :=
  ∃ m ∈ db.leaseRows, m.leaseId = leaseId ∧ m.rowId = rowId ∧ m.acknowledged = true

theorem Marked.acknowledge {other row : Octets 16} (h : Marked db other row) :
    Marked (db.acknowledge V draws leaseId rowId) other row := by
  obtain ⟨m, hm, hid, hrow, hack⟩ := h
  refine ⟨_, mem_map_of_mem hm, ?_⟩
  split_ifs with hkey
  · exact ⟨hkey.1.symm.trans hid, hkey.2.symm.trans hrow, rfl⟩
  · exact ⟨hid, hrow, hack⟩

theorem marked_of_acknowledgeRow (hok : acknowledgeRow V draws db leaseId rowId = .ok db') :
    Marked db' leaseId rowId := by
  simp only [acknowledgeRow, rejectIf_bind_eq_ok_iff, Except.ok.injEq, ne_eq, not_not] at hok
  obtain ⟨-, hcnt, rfl⟩ := hok
  obtain ⟨m, hm, hkey⟩ := countP_pos_iff.mp (hcnt ▸ Nat.one_pos)
  refine ⟨_, mem_map_of_mem hm, ?_⟩
  rw [if_pos (by simpa using hkey)]
  exact ⟨rfl, rfl, rfl⟩

/-- The loop keeps every mark, and leaves every row it is given marked. -/
theorem marked_acknowledgeRows (hok : acknowledgeRows V draws leaseId rows db = .ok db') :
    (∀ id r, Marked db id r → Marked db' id r) ∧
      ∀ row ∈ rows, (row.2 = true → Marked db leaseId row.1) → Marked db' leaseId row.1 := by
  induction rows generalizing db with
  | nil =>
    cases hok
    exact ⟨fun _ _ => id, nofun⟩
  | cons row rows ih =>
    unfold acknowledgeRows at hok
    split_ifs at hok with hack
    · obtain ⟨hmono, hrest⟩ := ih hok
      exact ⟨hmono, forall_mem_cons.mpr ⟨fun h => hmono _ _ (h hack), hrest⟩⟩
    · obtain ⟨_, hrow, hok⟩ := bind_eq_ok_iff.mp hok
      obtain ⟨hmono, hrest⟩ := ih hok
      have hmark := marked_of_acknowledgeRow hrow
      obtain rfl := acknowledgeRow_eq_ok hrow
      exact ⟨fun id r h => hmono id r h.acknowledge, forall_mem_cons.mpr
        ⟨fun _ => hmono _ _ hmark, fun r hr h => hrest r hr fun hb => (h hb).acknowledge⟩⟩

theorem Acked.marked (hack : Acked V db client leaseId rowIds now lease rows)
    (hok : acknowledgeRows V draws leaseId rows db = .ok db') :
    ∀ r ∈ rowIds, Marked db' leaseId r := by
  obtain ⟨rfl, hname⟩ := namedRows_eq_ok hack.rows_eq
  refine forall_mem_map.mpr fun row hrow => (marked_acknowledgeRows hok).2 row hrow fun hdone => ?_
  obtain ⟨m, hm, hid, hr, hack⟩ := hname row hrow
  exact ⟨m, hm, hid, hr, hack.trans hdone⟩

/-- A lease of the client under this id is an old one that ends then, with these rows marked. -/
def Done (clientIdx : Idx) (leaseId : Octets 16) (rowIds : List (Octets 16)) (expiresAt : ℕ)
    (db : Database Idx Sealed) : Prop :=
  ∀ l ∈ db.leases, l.leaseId = leaseId → l.clientIdx = clientIdx →
    l.expiresAt = expiresAt ∧ ∀ r ∈ rowIds, Marked db leaseId r

end

section

variable {expiresAt : ℕ} (hdone : Done clientIdx leaseId rowIds expiresAt db)

include hdone

omit [DecidableEq Idx] in
theorem Done.of_marks (hlease : db'.leases = db.leases)
    (hmark : ∀ r, Marked db leaseId r → Marked db' leaseId r) :
    Done clientIdx leaseId rowIds expiresAt db' := fun l hl hid hc =>
  (hdone l (hlease ▸ hl) hid hc).imp_right fun h r hr => hmark r (h r hr)

theorem Done.sweep (h : Sound V config db) :
    Done clientIdx leaseId rowIds expiresAt (db.sweep now) := by
  intro l hl hid hc
  refine (hdone l (mem_sweep_leases.mp hl).1 hid hc).imp_right fun hmark r hr => ?_
  obtain ⟨m, hm, hmid, hrest⟩ := hmark r hr
  exact ⟨m, (mem_sweep_leaseRows_iff h.leases.keys hl (hmid.trans hid.symm)).mpr hm, hmid, hrest⟩

omit [DecidableEq Idx] in
theorem Done.closeLease (hmem : lease ∈ db.leases)
    (hok : closeLease V draws lease db = .ok db') :
    Done clientIdx leaseId rowIds expiresAt db' := by
  unfold Mailbox.closeLease at hok
  split_ifs at hok
  · obtain ⟨-, hrest⟩ := check_bind_eq_ok_iff.mp hok
    cases hrest
    intro l' hl'
    obtain ⟨l, hl, rfl⟩ := mem_map.mp hl'
    split_ifs
    · exact hdone lease hmem
    · exact hdone l hl
  · cases hok
    exact hdone

/-- A call of another client adds no lease of this one, and deletes no mark but with its lease. -/
theorem Done.transaction {call : Call Idx} {response : Response} (h : Sound V config db)
    (hcall : call.request.client?.map V.clientIndex ≠ some clientIdx)
    (hok : call.transaction V config db = .ok (db', response)) :
    Done clientIdx leaseId rowIds expiresAt db' := by
  obtain ⟨-, rfl⟩ | ⟨_, db₁, _, hcl, hadm, hwrite⟩ := transaction_eq_ok hok
  · exact hdone.sweep h
  -- The sweep and the admission touch no mark.
  have hadmitted : Done clientIdx leaseId rowIds expiresAt db₁ := by
    rw [(admitClient_eq_ok hadm).2]
    exact (hdone.sweep h).of_marks rfl fun _ => id
  cases hwrite with
  | none => exact hadmitted
  | deposit => exact hadmitted.of_marks rfl fun _ => id
  | register =>
    rw [registered, registerAll_eq]
    exact hadmitted.of_marks rfl fun _ => id
  | grant =>
    intro l hl hid hc
    rw [registered, registerAll_eq] at hl ⊢
    rcases mem_append.mp hl with hold | hnew
    · refine (hadmitted l hold hid hc).imp_right fun hmark r hr => ?_
      obtain ⟨m, hm, hrest⟩ := hmark r hr
      exact ⟨m, mem_append_left _ hm, hrest⟩
    · rw [mem_singleton.mp hnew] at hc
      exact absurd (hcl ▸ congrArg some hc) hcall
  | ack _ hack hrows hclose =>
    have hlease := (acknowledgeRows_eq_ok (h.admitClient hadm) hack.pending hrows).2.1
    exact (hadmitted.of_marks hlease ((marked_acknowledgeRows hrows).1 _)).closeLease
      (hlease ▸ hack.mem) hclose

theorem Done.run {calls : List (Call Idx)} (h : Sound V config db)
    (hcalls : ∀ call ∈ calls, call.request.client?.map V.clientIndex ≠ some clientIdx) :
    Done clientIdx leaseId rowIds expiresAt (run V config db calls) := by
  induction calls generalizing db with
  | nil => exact hdone
  | cons call calls ih =>
    obtain ⟨hcall, hcalls⟩ := forall_mem_cons.mp hcalls
    exact ih (Effect.ofExcept_state hdone fun _ _ => hdone.transaction h hcall)
      (sound_step h) hcalls

end

omit [DecidableEq Idx] in
theorem namedRows_of_marked (h : MappingsOk V db.leaseRows)
    (hmark : ∀ r ∈ rowIds, Marked db leaseId r) :
    namedRows V db leaseId rowIds = .ok (some (rowIds.map (·, true))) := by
  induction rowIds with
  | nil => rfl
  | cons r rowIds ih =>
    obtain ⟨⟨m, hm, rfl, rfl, hack⟩, hrest⟩ := forall_mem_cons.mp hmark
    have hfind := get_of_mem h.keys hm
    simp only [Table.get, Prod.mk.injEq, Bool.decide_and] at hfind
    rw [namedRows, hfind]
    simp [h.valid m hm, ok_bind, ih hrest, hack]

omit [DecidableEq Idx] in
theorem acknowledgeRows_marked :
    acknowledgeRows V draws leaseId (rowIds.map (·, true)) db = .ok db := by
  induction rowIds with
  | nil => rfl
  | cons r rowIds ih => exact ih

theorem closeLease_of_mem (draws : Draws Idx) (h : Sound V config db) (hmem : lease ∈ db.leases) :
    ∃ db', closeLease V draws lease db = .ok db' ∧ db'.deposits = db.deposits := by
  have hcnt : db.leases.countP (fun l => l.leaseId = lease.leaseId) = 1 := by
    have hone := count_eq_one_of_mem h.leases.keys (mem_map_of_mem hmem)
    rwa [count, countP_map] at hone
  unfold closeLease
  split_ifs
  · rw [rejectIf_bind_of_not (not_not.mpr hcnt)]
    exact ⟨_, rfl, rfl⟩
  · exact ⟨db, rfl, rfl⟩

/-- Rows of a stored lease that are marked may be acknowledged again. -/
theorem ackInner_of_marked (h : Sound V config db)
    (hadm : admitClient V config draws db client now = .ok (db', true))
    (hshape : ¬ (leaseId = .zero 16 ∨ rowIds = [] ∨ rowIds.length > ackMaxRows))
    (hnd : rowIds.Nodup) (hmem : lease ∈ db'.leases) (hid : lease.leaseId = leaseId)
    (hholds : lease.clientIdx = V.clientIndex client) (hmark : ∀ r ∈ rowIds, Marked db' leaseId r) :
    ∃ db'', ackInner V config draws db client leaseId rowIds now = .ok (db'', true) ∧
      db''.deposits = db'.deposits := by
  have hsnd := h.admitClient hadm
  obtain ⟨record, hopen⟩ := hsnd.leases.valid lease hmem
  have hrec : record.clientIdx = lease.clientIdx := by
    simp only [openLease, bind_eq_ok_iff, rejectIf_eq_ok_iff, Except.ok.injEq, not_or,
      not_not] at hopen
    obtain ⟨_, -, -, hcols, rfl⟩ := hopen
    exact hcols.2.2.1
  obtain ⟨db'', hclose, hdep⟩ := closeLease_of_mem draws hsnd hmem
  have hfind : db'.leases.find? (fun l => l.leaseId = leaseId) = some lease :=
    hid ▸ get_of_mem hsnd.leases.keys hmem
  have hlive : ¬ (record.clientIdx ≠ V.clientIndex client ∨ lease.expiresAt ≤ now) := by
    simp [hrec, hholds, (admitClient_swept hadm).leases lease hmem]
  refine ⟨db'', ?_, hdep⟩
  simp only [ackInner, hadm, ok_bind, Bool.true_eq_false, if_false, if_neg hshape,
    if_neg (not_not.mpr hnd), hfind, ackLease, hholds, hopen, if_neg hlive, hid,
    namedRows_of_marked hsnd.mappings hmark, acknowledgeRows_marked, hclose, ne_eq, not_true]

/-- **When the repetition of an accepted acknowledgement is accepted**, before the lease expires,
with calls of other clients in between and within the rate limits: the lease is still stored, and no
row of it refers to an expired deposit.  Then no deposit is deleted but by the sweep. -/
theorem repeated_ack_iff (V : Vault Idx Sealed) (config : Config) (before between : List (Call Idx))
    (draws draws' : Draws Idx) (client : Bytes) (leaseId : Octets 16) (rowIds : List (Octets 16))
    (t₁ t₂ : ℕ) (db₁ : Database Idx Sealed) (lease : Lease Idx Sealed)
    (hack : ackInner V config draws (run V config .empty before) client leaseId rowIds t₁ =
      .ok (db₁, true)) (hmem : lease ∈ db₁.leases) (hid : lease.leaseId = leaseId)
    (hlive : t₂ < lease.expiresAt)
    (hother : ∀ call ∈ between,
      call.request.client?.map V.clientIndex ≠ some (V.clientIndex client))
    (hrate : ∃ db', admitClient V config draws' (run V config db₁ between) client t₂ =
      .ok (db', true)) :
    let db₂ := run V config db₁ between
    (∃ db', ackInner V config draws' db₂ client leaseId rowIds t₂ = .ok (db', true) ∧
      db'.deposits = (db₂.sweep t₂).deposits) ↔
    ∃ l ∈ db₂.leases, l.leaseId = leaseId ∧ l.clientIdx = V.clientIndex client ∧
      db₂.hasExpiredRow t₂ l = false := by
  intro db₂
  obtain ⟨_, _, hadm₁, ⟨-, hno⟩ | ⟨hshape, _, _, hack₁, _, hrows, hclose⟩⟩ := ackInner_eq_ok hack
  · cases hno
  -- The database is sound before and after the first acknowledgement and after the calls between.
  have hsnd₀ := (sound_run .empty before).admitClient hadm₁
  obtain ⟨hsnd₁, hsame⟩ :=
    closeLease_eq_ok (acknowledgeRows_eq_ok hsnd₀ hack₁.pending hrows).1 hclose
  have hsnd₂ : Sound V config db₂ := sound_run hsnd₁ between
  constructor
  · rintro ⟨db', hok, -⟩
    obtain ⟨_, _, hadm, ⟨-, hno⟩ | ⟨-, l, _, hack₂, -⟩⟩ := ackInner_eq_ok hok
    · cases hno
    · have hl := hack₂.mem
      rw [(admitClient_eq_ok hadm).2] at hl
      obtain ⟨hl, hrow, -⟩ := mem_sweep_leases.mp hl
      exact ⟨l, hl, hack₂.id_eq, hack₂.holder, hrow⟩
  · rintro ⟨l, hl, hlid, hcl, hrow⟩
    -- The rows are marked since the first time, and no other client unmarks them.
    have hdone₁ : Done (V.clientIndex client) leaseId rowIds lease.expiresAt db₁ := by
      intro l₁ hl₁ hid₁ _
      refine ⟨?_, fun r hr => ?_⟩
      · rw [inj_on_of_nodup_map hsnd₁.leases.keys hl₁ hmem (hid₁.trans hid.symm)]
      · rw [hsame]
        exact hack₁.marked hrows r hr
    have hdone : Done _ _ _ _ db₂ := hdone₁.run hsnd₁ hother
    have hswept : l ∈ (db₂.sweep t₂).leases :=
      mem_sweep_leases.mpr ⟨hl, hrow, (hdone l hl hlid hcl).1 ▸ hlive⟩
    have hmark := (hdone.sweep hsnd₂ l hswept hlid hcl).2
    obtain ⟨db₃, hadm⟩ := hrate
    have heq := (admitClient_eq_ok hadm).2
    obtain ⟨db', hok, hdep⟩ := ackInner_of_marked hsnd₂ hadm hshape hack₁.nodup
      (by rw [heq]; exact hswept) hlid hcl (by rw [heq]; exact hmark)
    exact ⟨db', hok, hdep.trans (by rw [heq])⟩

end

/-! ### A lease that does not last -/

namespace Sample

def client : Bytes := [1]
def sender : Bytes := [2]
def token : Octets 32 := .replicate 32 7

/-- Every id drawn is the byte `n` sixteen times. -/
def drawing (n : UInt8) : Draws Bytes := ⟨fun _ => .replicate 16 n, fun _ _ => .zero 24⟩

/-- To be deleted at second 3600. -/
def shortLived : Envelope where
  kind := .message
  token
  retentionUntil := some 3600
  body := [1]
  retention_bucket := by
    rintro _ ⟨⟩
    decide
def longLived : Envelope := .new .message token [2]

/-- The client registers the token, two envelopes arrive, and the client leases both. -/
def calls : List (Call Bytes) :=
  [⟨.lease client [token], 3500, drawing 1⟩,
    ⟨.deposit sender shortLived shortLived.encode, 3510, drawing 2⟩,
    ⟨.deposit sender longLived longLived.encode, 3510, drawing 3⟩,
    ⟨.lease client [token], 3520, drawing 4⟩]

def leased : Database Bytes PlainRow := run idealVault .default .empty calls

/-- The lease of the two rows is live at second 3600, and it is not repeated. -/
theorem lease_not_repeated : ∃ lease, LeaseOf idealVault leased client [token] 3600 lease ∧
    ¬ Repeats idealVault leased lease
      (leaseInner idealVault .default (drawing 5) leased client [token, token] 3600) := by
  obtain ⟨lease, hmem, hcl, hfil, hlive, ⟨m, hm, hid, hack⟩, hexp⟩ :
      ∃ lease ∈ leased.leases, lease.clientIdx = idealVault.clientIndex client ∧
        lease.filterIdx = idealVault.filterIndex
          ((uniqueTokens [token]).map idealVault.tokenIndex) ∧
        3600 < lease.expiresAt ∧
        (∃ m ∈ leased.leaseRows, m.leaseId = lease.leaseId ∧ m.acknowledged = false) ∧
        leased.hasExpiredRow 3600 lease = true := by decide +kernel
  have hlease : LeaseOf idealVault leased client [token] 3600 lease :=
    ⟨hmem, hcl, hfil, hlive, m.rowId, m, hm, hid, rfl, hack⟩
  have hfr : ∀ id ∈ (drawing 5).attempts, ∀ l ∈ leased.leases, l.leaseId ≠ id := by
    decide +kernel
  have hrep := (leases_exclusive_and_repeated idealVault .default tokenIndex_ideal_injective
    calls).2.2 (drawing 5) client [token] [token, token] 3600 lease hlease (by simp) hfr
  refine ⟨lease, hlease, fun h => ?_⟩
  have hnone := (hrep.mp h).2
  have hsome : (run idealVault .default .empty calls).hasExpiredRow 3600 lease = true := hexp
  rw [hsome] at hnone
  exact Bool.noConfusion hnone

/-- **A live lease is replaced.**  At second 3600 the lease has forty seconds left and two
unacknowledged rows, but one of the deposits expires: the client is given another lease, over the
other row. -/
theorem live_lease_replaced : (∃ lease ∈ leased.leases, lease.leaseId = .replicate 16 4 ∧
      lease.clientIdx = idealVault.clientIndex client ∧
      lease.filterIdx = idealVault.filterIndex ((uniqueTokens [token]).map idealVault.tokenIndex) ∧
      3600 + 40 = lease.expiresAt ∧ leased.holds lease.leaseId (.replicate 16 2) = true ∧
      leased.holds lease.leaseId (.replicate 16 3) = true) ∧
    (leaseInner idealVault .default (drawing 5) leased client [token] 3600).map Prod.snd =
      .ok (some ⟨.replicate 16 5, 3720, [⟨.replicate 16 3, longLived.encode⟩]⟩) := by
  decide +kernel

/-- The client has acknowledged the row that lives longer. -/
def acked : Database Bytes PlainRow :=
  run idealVault .default leased
    [⟨.ack client (.replicate 16 4) [.replicate 16 3], 3590, drawing 5⟩]

theorem repeated_ack_accepted :
    ∃ db', ackInner idealVault .default (drawing 6) acked client (.replicate 16 4) [.replicate 16 3]
      3599 = .ok (db', true) ∧ db'.deposits = (acked.sweep 3599).deposits := by
  obtain ⟨lease, hmem, hid, hlive, hcl, hrow⟩ : ∃ lease ∈ acked.leases,
      lease.leaseId = .replicate 16 4 ∧ 3599 < lease.expiresAt ∧
        lease.clientIdx = idealVault.clientIndex client ∧
          acked.hasExpiredRow 3599 lease = false := by
    decide +kernel
  have hrate : ∃ db', admitClient idealVault .default (drawing 6) acked client 3599 =
      .ok (db', true) :=
    ⟨_, rfl⟩
  have hiff := repeated_ack_iff idealVault .default calls [] (drawing 5) (drawing 6) client _
    [.replicate 16 3] 3590 3599 acked lease rfl hmem hid hlive nofun hrate
  exact hiff.mpr ⟨lease, hmem, hid, hcl, hrow⟩

/-- **A second later the same acknowledgement is refused**: the other deposit of the lease expires,
with forty seconds of the lease left. -/
theorem repeated_ack_refused :
    ackInner idealVault .default (drawing 5) leased client (.replicate 16 4)
      [.replicate 16 3] 3590 = .ok (acked, true) ∧
    (∃ lease ∈ acked.leases, lease.leaseId = .replicate 16 4 ∧ 3600 + 40 = lease.expiresAt) ∧
    (admitClient idealVault .default (drawing 6) acked client 3600).map Prod.snd = .ok true ∧
    (ackInner idealVault .default (drawing 6) acked client (.replicate 16 4) [.replicate 16 3]
      3600).map Prod.snd = .ok false :=
  ⟨rfl, by decide +kernel, by decide +kernel, by decide +kernel⟩

end Sample

end Komms.Mailbox
