import Komms.Mailbox.Equiv.Links

/-!
# What each request writes

A request that returns has swept and charged (`admitClient_eq_ok`), and then it has done nothing
more, or one of the writes of `Mailbox.Equiv.Links` (`transaction_eq_ok`).  Each of them keeps
`Sound`, so it holds after every sequence of calls (`sound_run`).
-/

namespace Komms.Mailbox

open Protocol (Envelope)
open Table List Except

variable {Idx Sealed : Type} [DecidableEq Idx] {V : Vault Idx Sealed} {config : Config}
  {db db' : Database Idx Sealed} {draws : Draws Idx} {client : Bytes} {clientIdx : Idx} {now : ℕ}

theorem bindInteger_eq_ok_iff {n : ℕ} {u : Unit} : bindInteger n = .ok u ↔ n < 2 ^ 63 := by
  simp [bindInteger]

/-! ### Admission -/

omit [DecidableEq Idx] in
theorem sweepOn_eq_ok_iff : sweepOn db now = .ok db' ↔ now < 2 ^ 63 ∧ db' = db.sweep now := by
  simp only [sweepOn, check_bind_eq_ok_iff, bindInteger_eq_ok_iff, ok.injEq]
  exact and_congr_right fun _ => eq_comm

variable {allowed : Bool}

/-- A subject is refused when its window is full, and charged one request otherwise. -/
theorem rateSubjectAllowedOn_eq_ok {subject : Idx} {limit : ℕ}
    (hok : rateSubjectAllowedOn V draws db subject limit now = .ok (db', allowed)) :
    ∃ windowStart requests, currentWindow V db subject now = .ok (windowStart, requests) ∧
      (limit ≤ requests ∧ db' = db ∧ allowed = false ∨ requests < limit ∧
        db' = db.charge V draws subject windowStart (saturatingSucc requests) ∧
        allowed = true) := by
  obtain ⟨⟨windowStart, requests⟩, hwin, hrest⟩ := bind_eq_ok_iff.mp hok
  refine ⟨windowStart, requests, hwin, ?_⟩
  dsimp only at hrest
  split_ifs at hrest with hfull <;> cases hrest
  · exact .inl ⟨hfull, rfl, rfl⟩
  · exact .inr ⟨Nat.lt_of_not_le hfull, rfl, rfl⟩

theorem rateSubjectAllowedOn_rates {subject : Idx} {limit : ℕ}
    (hok : rateSubjectAllowedOn V draws db subject limit now = .ok (db', allowed)) :
    db' = { db with rateBuckets := db'.rateBuckets } ∧
      (RatesOk V db.rateBuckets → RatesOk V db'.rateBuckets) := by
  obtain ⟨w, n, -, ⟨-, rfl, -⟩ | ⟨-, rfl, -⟩⟩ := rateSubjectAllowedOn_eq_ok hok
  · exact ⟨rfl, id⟩
  · exact ⟨rfl, fun h => h.charge _ _ _⟩

theorem rateAllowedOn_rates
    (hok : rateAllowedOn V config draws db clientIdx now = .ok (db', allowed)) :
    db' = { db with rateBuckets := db'.rateBuckets } ∧
      (RatesOk V db.rateBuckets → RatesOk V db'.rateBuckets) := by
  obtain ⟨⟨_, _⟩, hglobal, hrest⟩ := bind_eq_ok_iff.mp hok
  obtain ⟨heq, hrat⟩ := rateSubjectAllowedOn_rates hglobal
  dsimp only at hrest
  split_ifs at hrest
  · cases hrest
    exact ⟨heq, hrat⟩
  · obtain ⟨heq', hrat'⟩ := rateSubjectAllowedOn_rates hrest
    refine ⟨?_, fun h => hrat' (hrat h)⟩
    rw [heq', heq]

/-- An admitted or refused request has swept, and written buckets. -/
theorem admitClient_eq_ok (hok : admitClient V config draws db client now = .ok (db', allowed)) :
    now < 2 ^ 63 ∧ db' = { db.sweep now with rateBuckets := db'.rateBuckets } := by
  obtain ⟨_, hsweep, hrate⟩ := bind_eq_ok_iff.mp hok
  obtain ⟨hnow, rfl⟩ := sweepOn_eq_ok_iff.mp hsweep
  exact ⟨hnow, (rateAllowedOn_rates hrate).1⟩

theorem Sound.admitClient (h : Sound V config db)
    (hok : admitClient V config draws db client now = .ok (db', allowed)) : Sound V config db' := by
  obtain ⟨_, hsweep, hrate⟩ := bind_eq_ok_iff.mp hok
  obtain ⟨-, rfl⟩ := sweepOn_eq_ok_iff.mp hsweep
  obtain ⟨heq, hrat⟩ := rateAllowedOn_rates hrate
  rw [heq]
  exact { h.sweep with rates := hrat h.sweep.rates, linked := { h.sweep.linked with } }

/-! ### Drawn ids -/

omit [DecidableEq Idx] in
theorem attempts_ne_zero {id : Octets 16} (h : id ∈ draws.attempts) : id ≠ .zero 16 := by
  obtain ⟨bytes, -, rfl⟩ := mem_map.mp h
  unfold randomId
  split_ifs with hzero
  · decide
  · exact hzero

/-! ### Deposits -/

/-- A row that the checks of a deposit let in. -/
structure Inserted (V : Vault Idx Sealed) (config : Config) (draws : Draws Idx)
    (db : Database Idx Sealed) (clientIdx : Idx) (envelope : Envelope) (encoded : Bytes) (now : ℕ)
    (row : DepositRow Idx Sealed) : Prop where
  canonical : envelope.tryEncode = .ok encoded
  row_eq : row = depositRow V draws db.nextSequence row.rowId clientIdx envelope encoded
    row.expiresAt
  nonzero : row.rowId ≠ .zero 16
  fresh : now < row.expiresAt
  free : ∀ d ∈ db.deposits, row.conflicts d = false
  room : ¬ exceedsQuota config db row.tokenIdx row.clientIdx row.encodedLen

def Database.withDeposit (db : Database Idx Sealed) (row : DepositRow Idx Sealed) :
    Database Idx Sealed :=
  { db with deposits := db.deposits ++ [row], nextSequence := db.nextSequence + 1 }

section

variable {envelope : Envelope} {encoded : Bytes} {disposition : Disposition}

theorem Inserted.stored {row : DepositRow Idx Sealed}
    (h : Inserted V config draws db clientIdx envelope encoded now row) : Stored V row encoded := by
  -- A deposited envelope is read back from its row.
  have hopen : openDeposit V
      (depositRow V draws db.nextSequence row.rowId clientIdx envelope encoded
      row.expiresAt) = .ok ⟨recordVersion, row.rowId, V.tokenIndex envelope.token,
        envelope.contentId V.hash, clientIdx, row.expiresAt, encoded⟩ := by
    unfold openDeposit depositRow
    simp [openRow_store, rejectIf, ok_bind, Envelope.decode_of_tryEncode h.canonical,
      Except.mapError]
  have hlen : row.encodedLen = encoded.length := by
    rw [h.row_eq]
    rfl
  rw [← h.row_eq] at hopen
  exact stored_iff.mpr ⟨_, hopen, rfl, hlen.symm⟩

variable (V config draws db clientIdx envelope encoded now db' disposition) in
/-- What a deposit leaves: the rows as they were, or one more. -/
def Deposited : Prop :=
  db' = db ∧ (disposition = .accepted → ∃ d ∈ db.deposits, ∃ record,
      openDeposit V d = .ok record ∧ record.envelope = encoded) ∨
    disposition = .accepted ∧ ∃ row,
      Inserted V config draws db clientIdx envelope encoded now row ∧ db' = db.withDeposit row

/-- A deposit for a registered token finds its duplicate, is over quota, or is inserted. -/
theorem depositRegistered_eq_ok {expiresAt : ℕ}
    (hcan : envelope.tryEncode = .ok encoded) (hfr : now < expiresAt)
    (hok : depositRegistered V config draws db clientIdx envelope encoded expiresAt =
      .ok (db', disposition)) :
    Deposited V config db db' draws clientIdx now envelope encoded disposition := by
  unfold depositRegistered at hok
  dsimp only at hok
  split at hok
  · next duplicate hfind =>
    obtain ⟨stored, hopen, hdb⟩ := bind_eq_ok_iff.mp hok
    cases hdb
    refine .inl ⟨rfl, fun hacc => ?_⟩
    split_ifs at hacc with hsame
    exact ⟨duplicate, mem_of_find?_eq_some hfind, stored, hopen, hsame.2⟩
  · split_ifs at hok with hquota
    · cases hok
      exact .inl ⟨rfl, nofun⟩
    · simp only [insertDeposit, bind_eq_ok_iff, required_eq_ok_iff] at hok
      obtain ⟨-, -, -, -, rowId, hfind, hdb⟩ := hok
      cases hdb
      have hfree := find?_some hfind
      exact .inr ⟨rfl,
        depositRow V draws db.nextSequence rowId clientIdx envelope encoded expiresAt,
        ⟨hcan, rfl, attempts_ne_zero (mem_of_find?_eq_some hfind), hfr,
          by simpa using hfree, hquota⟩,
        rfl⟩

theorem depositCanonical_eq_ok (hcan : envelope.tryEncode = .ok encoded)
    (hok : depositCanonical V config draws db clientIdx envelope encoded now =
      .ok (db', disposition)) :
    Deposited V config db db' draws clientIdx now envelope encoded disposition := by
  unfold depositCanonical at hok
  dsimp only at hok
  split_ifs at hok with hexp
  · cases hok
    exact .inl ⟨rfl, nofun⟩
  · split at hok
    · cases hok
      exact .inl ⟨rfl, nofun⟩
    · obtain ⟨_, -, hrest⟩ := bind_eq_ok_iff.mp hok
      obtain ⟨-, hrest⟩ := check_bind_eq_ok_iff.mp hrest
      split_ifs at hrest
      · cases hrest
        exact .inl ⟨rfl, nofun⟩
      · exact depositRegistered_eq_ok hcan (Nat.lt_of_not_le hexp) hrest

/-- **What a deposit writes.**  After the admission nothing, or one new row. -/
theorem depositInner_eq_ok
    (hok : depositInner V config draws db client envelope encoded now = .ok (db', disposition)) :
    ∃ db₁ allowed, admitClient V config draws db client now = .ok (db₁, allowed) ∧
      Deposited V config db₁ db' draws (V.clientIndex client) now envelope encoded disposition := by
  obtain ⟨⟨db₁, allowed⟩, hadm, hrest⟩ := bind_eq_ok_iff.mp hok
  refine ⟨db₁, allowed, hadm, ?_⟩
  dsimp only at hrest
  split_ifs at hrest with hall hmal
  any_goals
    cases hrest
    exact .inl ⟨rfl, nofun⟩
  · simp only [not_or, not_not] at hmal
    exact depositCanonical_eq_ok hmal.2.2 hrest

theorem Inserted.sound {row : DepositRow Idx Sealed} (h : Sound V config db)
    (hrow : Inserted V config draws db clientIdx envelope encoded now row) :
    Sound V config (db.withDeposit row) := by
  have hseq : row.sequence = db.nextSequence := by
    rw [hrow.row_eq]
    rfl
  exact h.insertDeposit hseq hrow.free hrow.stored
    ⟨hrow.nonzero, Nat.ne_zero_of_lt hrow.fresh⟩ hrow.room

end

/-! ### Leases -/

def Shows (V : Vault Idx Sealed) (d : DepositRow Idx Sealed) (row : LeasedRow) : Prop :=
  row.rowId = d.rowId ∧ Stored V d row.envelope

/-- The rows a page is filled with: some of those offered, in order, within the byte limit. -/
theorem fillPage_eq_ok {bytes : ℕ} {rows : List (DepositRow Idx Sealed)} {page : List LeasedRow}
    (hbytes : bytes ≤ pageMaxBytes) (hok : fillPage V bytes rows = .ok page) :
    ∃ chosen : List (DepositRow Idx Sealed), chosen.Sublist rows ∧
      List.Forall₂ (Shows V) chosen page ∧
        bytes + total DepositRow.encodedLen chosen ≤ pageMaxBytes := by
  induction rows generalizing bytes page with
  | nil =>
    cases hok
    exact ⟨[], .refl _, .nil, by simpa [total] using hbytes⟩
  | cons row rows ih =>
    obtain ⟨_, hopen, hrest⟩ := bind_eq_ok_iff.mp hok
    obtain ⟨_, -, -, _⟩ := stored_iff.mp hopen
    split_ifs at hrest with hover
    · obtain ⟨chosen, hsub, hpage, htot⟩ := ih hbytes hrest
      exact ⟨chosen, hsub.cons row, hpage, htot⟩
    · obtain ⟨_, hfill, hpage⟩ := bind_eq_ok_iff.mp hrest
      cases hpage
      obtain ⟨chosen, hsub, hpage, _⟩ := ih (Nat.le_of_not_lt hover) hfill
      refine ⟨row :: chosen, hsub.cons_cons row, .cons ⟨rfl, hopen⟩ hpage, ?_⟩
      have hcons : total DepositRow.encodedLen (row :: chosen) =
          row.encodedLen + total DepositRow.encodedLen chosen := by simp [total]
      omega

section

variable {tokenIndexes : List Idx} {page : Option LeasePage}

/-- In a swept database no unacknowledged row is for an available deposit: its lease would be
live. -/
theorem free_of_isAvailable (h : Sound V config db) (hswept : Swept now db)
    {d : DepositRow Idx Sealed} (hav : db.isAvailable tokenIndexes now d = true)
    {m : Mapping Sealed} (hm : m ∈ db.leaseRows) (hack : m.acknowledged = false) :
    m.rowId ≠ d.rowId := by
  intro hrow
  obtain ⟨l, hl, hid⟩ := h.linked.lease_of_mapping m hm
  have hlive : l ∈ db.liveLeases now := by
    have hopen := h.linked.open_of_mapping hl hm hid.symm hack
    exact mem_filter.mpr ⟨hl, by simp [hopen, hswept.leases l hl]⟩
  have hholds : db.holds l.leaseId d.rowId = true := holds_iff.mpr ⟨m, hm, hid.symm, hrow, hack⟩
  simp only [Database.isAvailable, Bool.and_eq_true, Bool.not_eq_true', any_eq_false] at hav
  exact hav.2 l hlive hholds

variable {rows : List LeasedRow}

theorem availableRowsOn_eq_ok (h : Sound V config db) (hswept : Swept now db)
    (hok : availableRowsOn V db tokenIndexes now = .ok rows) :
    ∃ chosen, Chosen db tokenIndexes chosen ∧
      (∀ d ∈ chosen, db.isAvailable tokenIndexes now d = true) ∧
        List.Forall₂ (Shows V) chosen rows := by
  obtain ⟨chosen, hsub, hrows, _⟩ := fillPage_eq_ok (Nat.zero_le _) hok
  have hmem : ∀ d ∈ chosen, d ∈ db.deposits ∧ db.isAvailable tokenIndexes now d = true :=
    fun d hd => mem_filter.mp (mem_orderBy.mp (mem_of_mem_take (hsub.subset hd)))
  refine ⟨chosen, ⟨?_, fun d hd => (hmem d hd).1, fun d hd => ?_, fun d hd m hm hack => ?_, ?_, ?_⟩,
    fun d hd => (hmem d hd).2, hrows⟩
  · have hnd : db.deposits.Nodup := List.Nodup.of_map _ h.deposits.row_ids
    exact ((perm_orderBy _ _).nodup_iff.mpr (hnd.filter _)).sublist (hsub.trans (take_sublist _ _))
  · have hav := (hmem d hd).2
    simp only [Database.isAvailable, Bool.and_eq_true, decide_eq_true_eq] at hav
    exact hav.1.1
  · exact free_of_isAvailable h hswept (hmem d hd).2 hm hack
  · exact hsub.length_le.trans (length_take_le _ _)
  · omega

variable {chosen : List (DepositRow Idx Sealed)}

theorem map_rowId_of_forall₂ (h : List.Forall₂ (Shows V) chosen rows) :
    rows.map LeasedRow.rowId = chosen.map DepositRow.rowId := by
  induction h with
  | nil => rfl
  | cons hrow _ ih => rw [map_cons, map_cons, hrow.1, ih]

theorem map_length_of_forall₂ (h : List.Forall₂ (Shows V) chosen rows) :
    rows.map (fun row => row.envelope.length) = chosen.map DepositRow.encodedLen := by
  induction h with
  | nil => rfl
  | cons hrow _ ih =>
    obtain ⟨_, -, -, hlen⟩ := stored_iff.mp hrow.2
    rw [map_cons, map_cons, hlen, ih]

/-- What a new lease is: a fresh id, the available rows, and room for one more. -/
structure Granted (V : Vault Idx Sealed) (config : Config) (draws : Draws Idx)
    (db : Database Idx Sealed) (clientIdx filterIdx : Idx) (tokenIndexes : List Idx) (now : ℕ)
    (page : LeasePage) : Prop where
  none_open : db.existingLease clientIdx filterIdx now = none
  room : ¬ exceedsLeases config db clientIdx tokenIndexes now
  rows_eq : availableRowsOn V db tokenIndexes now = .ok page.rows
  drawn : page.leaseId ∈ draws.attempts
  fresh : ∀ l ∈ db.leases, l.leaseId ≠ page.leaseId

def Database.withPage (V : Vault Idx Sealed) (draws : Draws Idx) (db : Database Idx Sealed)
    (clientIdx filterIdx : Idx) (now : ℕ) (page : LeasePage) : Database Idx Sealed :=
  db.withLease V draws (leaseRow V draws page.leaseId clientIdx filterIdx now page.expiresAt
    page.rows.isEmpty) (page.rows.map LeasedRow.rowId)

/-- What a lease of registered tokens writes: nothing, or a granted page. -/
theorem leaseRegistered_eq_ok {filterIdx : Idx}
    (hok : leaseRegistered V config draws db clientIdx filterIdx tokenIndexes now =
      .ok (db', page)) :
    (∃ lease rows, db.existingLease clientIdx filterIdx now = some lease ∧
        loadLeaseRowsOn V db lease.leaseId = .ok rows ∧ db' = db ∧
          page = some ⟨lease.leaseId, lease.expiresAt, rows⟩) ∨
      (db' = db ∧ page = none) ∨
        ∃ granted, Granted V config draws db clientIdx filterIdx tokenIndexes now granted ∧
          page = some granted ∧ db' = db.withPage V draws clientIdx filterIdx now granted := by
  unfold leaseRegistered at hok
  split at hok
  · next lease hexists =>
    obtain ⟨_, -, hrest⟩ := bind_eq_ok_iff.mp hok
    obtain ⟨rows, hload, hdb⟩ := bind_eq_ok_iff.mp hrest
    cases hdb
    exact .inl ⟨lease, rows, hexists, hload, rfl, rfl⟩
  · next hnone =>
    split_ifs at hok with hfull
    · cases hok
      exact .inr (.inl ⟨rfl, rfl⟩)
    · simp only [grantLease, bind_eq_ok_iff, required_eq_ok_iff] at hok
      obtain ⟨_, hrows, -, -, leaseId, hfind, hdb⟩ := hok
      cases hdb
      have hfr : ∀ l ∈ db.leases, l.leaseId ≠ leaseId := by
        simpa using find?_some hfind
      have hdraw : leaseId ∈ draws.attempts := mem_of_find?_eq_some hfind
      refine .inr (.inr ⟨_, ⟨hnone, hfull, hrows, hdraw, hfr⟩, rfl, ?_⟩)
      simp only [Database.withPage, Database.withLease, map_map]
      rfl

/-- No open lease is found only when there is no live one. -/
theorem none_open_of_existingLease {filterIdx : Idx}
    (hnone : db.existingLease clientIdx filterIdx now = none) {l : Lease Idx Sealed}
    (hl : l ∈ db.leases) (hlive : now < l.expiresAt) (hopen : l.closed = false)
    (hc : l.clientIdx = clientIdx) : l.filterIdx ≠ filterIdx := by
  intro hf
  rw [Database.existingLease, head?_eq_none_iff] at hnone
  have hmem : l ∈ db.leases.filter fun l => l.clientIdx = clientIdx && l.filterIdx = filterIdx &&
      !l.closed && now < l.expiresAt :=
    mem_filter.mpr ⟨hl, by simp [hc, hf, hopen, hlive]⟩
  rw [← @mem_orderBy _ Lease.createdAt, hnone] at hmem
  exact not_mem_nil hmem

theorem Granted.sound {filterIdx : Idx} {granted : LeasePage} (h : Sound V config db)
    (hswept : Swept now db)
    (hgrant : Granted V config draws db clientIdx filterIdx tokenIndexes now granted) :
    Sound V config (db.withPage V draws clientIdx filterIdx now granted) := by
  obtain ⟨_, hchosen, -, hrows⟩ := availableRowsOn_eq_ok h hswept hgrant.rows_eq
  have hroom := hgrant.room
  -- In a swept database the open leases are the live ones.
  have hlive : db.liveLeases now = db.leases.filter fun l => !l.closed :=
    filter_congr fun l hl => by simp [hswept.leases l hl]
  simp only [exceedsLeases, not_or, not_exists, not_and, ge_iff_le, Nat.not_le, hlive,
    Database.liveForToken, countP_filter, ← countP_eq_length_filter] at hroom
  rw [Database.withPage, map_rowId_of_forall₂ hrows]
  refine h.grant hgrant.fresh hchosen (fun hclose => ?_) (fun t ht => ?_)
    ⟨_, openLease_leaseRow _ _ _ _ _ _⟩
    (fun l hl => none_open_of_existingLease hgrant.none_open hl (hswept.leases l hl)) hroom.1 ?_
  · have hempty : granted.rows = [] := isEmpty_iff.mp hclose
    have hnil := map_rowId_of_forall₂ hrows
    rw [hempty] at hnil
    simpa using hnil.symm
  · refine lt_of_eq_of_lt (countP_congr fun l _ => ?_) (hroom.2.2 t ht)
    rw [Bool.and_comm]
  · refine lt_of_eq_of_lt (countP_congr fun l _ => ?_) hroom.2.1
    rw [Bool.and_comm]
    exact Iff.rfl

end

section

variable {tokens : List (Octets 32)} {page : Option LeasePage}

theorem registerAll_eq (V : Vault Idx Sealed) (draws : Draws Idx) (clientIdx : Idx) (expiresAt : ℕ)
    (tokens : List (Octets 32)) (db : Database Idx Sealed) :
    db.registerAll V draws clientIdx expiresAt tokens = { db with
      registrations := (db.registerAll V draws clientIdx expiresAt tokens).registrations } := by
  induction tokens generalizing db with
  | nil => rfl
  | cons token tokens ih => exact ih (db.register V draws clientIdx expiresAt token)

/-- The checks that a lease request passes before its page is looked for. -/
structure LeaseChecked (V : Vault Idx Sealed) (config : Config) (db : Database Idx Sealed)
    (client : Bytes) (tokens : List (Octets 32)) (now : ℕ) : Prop where
  nonempty : tokens ≠ []
  bounded : tokens.length ≤ maxCheckinTokens
  room : ¬ exceedsRegistrations config db (V.clientIndex client)
    ((uniqueTokens tokens).map V.tokenIndex)
  representable : saturatingAdd now config.registrationTtlSecs < 2 ^ 63

variable (V config draws client tokens now) in
/-- The database in which the page of a checked request is looked for. -/
def registered (db : Database Idx Sealed) : Database Idx Sealed :=
  db.registerAll V draws (V.clientIndex client) (saturatingAdd now config.registrationTtlSecs)
    (uniqueTokens tokens)

/-- **What a lease request writes.**  After the admission nothing, or the registrations and then
what `leaseRegistered` does. -/
theorem leaseInner_eq_ok (hok : leaseInner V config draws db client tokens now = .ok (db', page)) :
    ∃ db₁ allowed, admitClient V config draws db client now = .ok (db₁, allowed) ∧
      (db' = db₁ ∧ page = none ∨ allowed = true ∧ LeaseChecked V config db₁ client tokens now ∧
        leaseRegistered V config draws (registered V config draws client now tokens db₁)
          (V.clientIndex client) (V.filterIndex ((uniqueTokens tokens).map V.tokenIndex))
          ((uniqueTokens tokens).map V.tokenIndex) now = .ok (db', page)) := by
  obtain ⟨⟨db₁, allowed⟩, hadm, hrest⟩ := bind_eq_ok_iff.mp hok
  refine ⟨db₁, allowed, hadm, ?_⟩
  dsimp only at hrest
  split_ifs at hrest with hall hshape hroom
  any_goals
    cases hrest
    exact .inl ⟨rfl, rfl⟩
  · obtain ⟨hbind, hrest⟩ := check_bind_eq_ok_iff.mp hrest
    simp only [not_or, not_lt, gt_iff_lt] at hshape
    refine .inr ⟨by simpa using hall, ⟨hshape.1, hshape.2, hroom, ?_⟩, hrest⟩
    exact bindInteger_eq_ok_iff.mp hbind

theorem sound_registered (h : Sound V config db)
    (hchk : LeaseChecked V config db client tokens now) :
    Sound V config (registered V config draws client now tokens db) := by
  have hregs := h.registrations.registerAll draws
    (saturatingAdd now config.registrationTtlSecs) hchk.room
  rw [registered, registerAll_eq]
  exact { h with registrations := hregs, linked := { h.linked with } }

theorem swept_registered (hswept : Swept now db) :
    Swept now (registered V config draws client now tokens db) := by
  rw [registered, registerAll_eq]
  exact ⟨hswept.deposits, hswept.leases⟩

theorem admitClient_swept (hok : admitClient V config draws db client now = .ok (db', allowed)) :
    Swept now db' := by
  rw [(admitClient_eq_ok hok).2]
  exact ⟨swept_sweep.deposits, swept_sweep.leases⟩

end

/-! ### Acknowledgements -/

section

variable {leaseId rowId : Octets 16} {rows : List (Octets 16 × Bool)} {lease : Lease Idx Sealed}
  {rowIds : List (Octets 16)}

omit [DecidableEq Idx] in
theorem namedRows_eq_ok (hok : namedRows V db leaseId rowIds = .ok (some rows)) :
    rows.map Prod.fst = rowIds ∧ ∀ row ∈ rows, ∃ m ∈ db.leaseRows,
      m.leaseId = leaseId ∧ m.rowId = row.1 ∧ m.acknowledged = row.2 := by
  induction rowIds generalizing rows with
  | nil =>
    cases hok
    exact ⟨rfl, by simp⟩
  | cons rowId rowIds ih =>
    unfold namedRows at hok
    split at hok
    · cases hok
    · next m hfind =>
      simp only [bind_eq_ok_iff, ok.injEq, Option.map_eq_some_iff] at hok
      obtain ⟨-, -, _, hname, _, rfl, rfl⟩ := hok
      obtain ⟨hids, hrows⟩ := ih hname
      have hkey : m.leaseId = leaseId ∧ m.rowId = rowId := by simpa using find?_some hfind
      refine ⟨by rw [map_cons, hids], forall_mem_cons.mpr ⟨?_, hrows⟩⟩
      exact ⟨m, mem_of_find?_eq_some hfind, hkey.1, hkey.2, rfl⟩

omit [DecidableEq Idx] in
theorem acknowledgeRow_eq_ok (hok : acknowledgeRow V draws db leaseId rowId = .ok db') :
    db' = db.acknowledge V draws leaseId rowId := by
  simp only [acknowledgeRow, bind_eq_ok_iff, ok.injEq] at hok
  obtain ⟨-, -, -, -, rfl⟩ := hok
  rfl

omit [DecidableEq Idx] in
theorem Pending.acknowledge {other : Octets 16} (h : Pending db leaseId other)
    (hne : other ≠ rowId) : Pending (db.acknowledge V draws leaseId rowId) leaseId other := by
  obtain ⟨m, hm, hid, hrow, hack⟩ := h
  refine ⟨m, mem_map.mpr ⟨m, hm, if_neg fun hkey => ?_⟩, hid, hrow, hack⟩
  exact hne (hrow.symm.trans hkey.2)

/-- The loop over the named rows deletes deposits of pending rows only. -/
theorem acknowledgeRows_eq_ok (h : Sound V config db)
    (hrows : (rows.map Prod.fst).Nodup ∧ ∀ r, (r, false) ∈ rows → Pending db leaseId r)
    (hok : acknowledgeRows V draws leaseId rows db = .ok db') :
    Sound V config db' ∧ db'.leases = db.leases ∧ db'.deposits.Sublist db.deposits ∧
      db'.nextSequence = db.nextSequence ∧ db'.rateBuckets = db.rateBuckets ∧
        ∀ d ∈ db.deposits, d ∈ db'.deposits ∨ (d.rowId, false) ∈ rows := by
  induction rows generalizing db with
  | nil =>
    cases hok
    exact ⟨h, rfl, .refl _, rfl, rfl, fun _ => .inl⟩
  | cons row rows ih =>
    obtain ⟨rowId, acknowledged⟩ := row
    rw [map_cons, nodup_cons] at hrows
    obtain ⟨hnd, hpen⟩ := hrows
    unfold acknowledgeRows at hok
    split_ifs at hok with hmar
    · obtain ⟨hsnd, hlease, hdep, hnext, hbkts, hrem⟩ :=
        ih h ⟨hnd.2, fun r hr => hpen r (.tail _ hr)⟩ hok
      exact ⟨hsnd, hlease, hdep, hnext, hbkts, fun d hd => (hrem d hd).imp_right (.tail _)⟩
    · obtain ⟨_, hrow, hrest⟩ := bind_eq_ok_iff.mp hok
      obtain rfl := acknowledgeRow_eq_ok hrow
      obtain rfl : acknowledged = false := by simpa using hmar
      -- The rows are distinct, so the others stay pending.
      have hother : ∀ r, (r, false) ∈ rows →
          Pending (db.acknowledge V draws leaseId rowId) leaseId r := fun r hr =>
        (hpen r (.tail _ hr)).acknowledge fun hne =>
          hnd.1 (hne ▸ mem_map_of_mem hr)
      obtain ⟨hsnd, hlease, hdep, hnext, hbkts, hrem⟩ :=
        ih (h.acknowledge (hpen rowId (.head _))) ⟨hnd.2, hother⟩ hrest
      refine ⟨hsnd, hlease, hdep.trans filter_sublist, hnext, hbkts, fun d hd => ?_⟩
      by_cases hid : d.rowId = rowId
      · exact .inr (hid ▸ .head _)
      · have hkept : d ∈ (db.acknowledge V draws leaseId rowId).deposits :=
          mem_filter.mpr ⟨hd, decide_eq_true hid⟩
        exact (hrem d hkept).imp_right (.tail _)

theorem closeLease_eq_ok (h : Sound V config db) (hok : closeLease V draws lease db = .ok db') :
    Sound V config db' ∧ db' = { db with leases := db'.leases } := by
  unfold closeLease at hok
  split_ifs at hok with hdone
  · obtain ⟨-, hrest⟩ := check_bind_eq_ok_iff.mp hok
    cases hrest
    refine ⟨h.close rfl rfl ⟨_, openLease_leaseRow _ _ _ _ _ _⟩ fun m hm hid => ?_, rfl⟩
    have hnone := countP_eq_zero.mp hdone.1 m hm
    simpa [hid] using hnone
  · cases hok
    exact ⟨h, rfl⟩

/-- An acknowledgement that took effect. -/
structure Acked (V : Vault Idx Sealed) (db : Database Idx Sealed) (client : Bytes)
    (leaseId : Octets 16) (rowIds : List (Octets 16)) (now : ℕ) (lease : Lease Idx Sealed)
    (rows : List (Octets 16 × Bool)) : Prop where
  nodup : rowIds.Nodup
  mem : lease ∈ db.leases
  id_eq : lease.leaseId = leaseId
  holder : lease.clientIdx = V.clientIndex client
  live : now < lease.expiresAt
  rows_eq : namedRows V db leaseId rowIds = .ok (some rows)

/-- **What an acknowledgement writes.**  After the admission nothing, or it deletes the deposits of
the rows it names. -/
theorem ackInner_eq_ok {accepted : Bool}
    (hok : ackInner V config draws db client leaseId rowIds now = .ok (db', accepted)) :
    ∃ db₁ allowed, admitClient V config draws db client now = .ok (db₁, allowed) ∧
      (db' = db₁ ∧ accepted = false ∨
        ¬ (leaseId = .zero 16 ∨ rowIds = [] ∨ rowIds.length > ackMaxRows) ∧
          ∃ lease rows, Acked V db₁ client leaseId rowIds now lease rows ∧
            ∃ db₂, acknowledgeRows V draws leaseId rows db₁ = .ok db₂ ∧
              closeLease V draws lease db₂ = .ok db') := by
  obtain ⟨⟨db₁, allowed⟩, hadm, hrest⟩ := bind_eq_ok_iff.mp hok
  refine ⟨db₁, allowed, hadm, ?_⟩
  dsimp only at hrest
  split_ifs at hrest with hall hshape hnd
  -- Every branch but the last writes nothing and answers no.
  any_goals
    cases hrest
    exact .inl ⟨rfl, rfl⟩
  · split at hrest
    · cases hrest
      exact .inl ⟨rfl, rfl⟩
    · next lease hfind =>
      have hid : lease.leaseId = leaseId := by simpa using find?_some hfind
      unfold ackLease at hrest
      split_ifs at hrest with hholds
      · cases hrest
        exact .inl ⟨rfl, rfl⟩
      · obtain ⟨_, -, hrest⟩ := bind_eq_ok_iff.mp hrest
        split_ifs at hrest with hlive
        · cases hrest
          exact .inl ⟨rfl, rfl⟩
        · obtain ⟨named, hname, hrest⟩ := bind_eq_ok_iff.mp hrest
          cases named with
          | none =>
            cases hrest
            exact .inl ⟨rfl, rfl⟩
          | some rows =>
            simp only [bind_eq_ok_iff] at hrest
            obtain ⟨db₂, hrows, _, hclose, hdb⟩ := hrest
            cases hdb
            simp only [not_or, not_not, not_le] at hlive
            rw [ne_eq, not_not] at hholds
            rw [hid] at hname hrows
            exact .inr ⟨hshape, lease, rows, ⟨hnd, mem_of_find?_eq_some hfind, hid, hholds,
              hlive.2, hname⟩, db₂, hrows, hclose⟩

omit [DecidableEq Idx] in
theorem Acked.pending (h : Acked V db client leaseId rowIds now lease rows) :
    (rows.map Prod.fst).Nodup ∧ ∀ r, (r, false) ∈ rows → Pending db leaseId r := by
  obtain ⟨hids, hrows⟩ := namedRows_eq_ok h.rows_eq
  exact ⟨hids ▸ h.nodup, fun r hr => hrows _ hr⟩

end

/-! ### Calls -/

section

variable {call : Call Idx} {response : Response}

/-- What a request of a client that commits writes after the admission: nothing, a deposit, the
registrations of a lease request, with or without a new lease, or what it acknowledges. -/
inductive Writes (V : Vault Idx Sealed) (config : Config) (call : Call Idx) (client : Bytes)
    (db : Database Idx Sealed) : Database Idx Sealed → Prop
  | none : Writes V config call client db db
  | deposit {envelope encoded row} :
    Inserted V config call.draws db (V.clientIndex client) envelope encoded call.now row →
      Writes V config call client db (db.withDeposit row)
  | register {tokens} : LeaseChecked V config db client tokens call.now →
      Writes V config call client db (registered V config call.draws client call.now tokens db)
  | grant {tokens filterIdx tokenIndexes granted} :
      LeaseChecked V config db client tokens call.now →
    Granted V config call.draws (registered V config call.draws client call.now tokens db)
      (V.clientIndex client) filterIdx tokenIndexes call.now granted →
      Writes V config call client db ((registered V config call.draws client call.now tokens
        db).withPage V call.draws (V.clientIndex client) filterIdx call.now granted)
  | ack {leaseId rowIds lease rows db₂ db'} : call.request = .ack client leaseId rowIds →
    Acked V db client leaseId rowIds call.now lease rows →
    acknowledgeRows V call.draws leaseId rows db = .ok db₂ →
    closeLease V call.draws lease db₂ = .ok db' → Writes V config call client db db'

/-- **What a call writes.**  The relay's own sweep sweeps; a request of a client is admitted or
refused, and then writes. -/
theorem transaction_eq_ok (hok : call.transaction V config db = .ok (db', response)) :
    call.request.client? = none ∧ db' = db.sweep call.now ∨
      ∃ client db₁ allowed, call.request.client? = some client ∧
        admitClient V config call.draws db client call.now = .ok (db₁, allowed) ∧
          Writes V config call client db₁ db' := by
  -- Deposit, lookup, lease, acknowledgement and the sweep of the relay.
  unfold Call.transaction at hok
  split at hok <;> rename_i hreq <;> rw [hreq] <;>
    obtain ⟨⟨_, _⟩, hres, hdb⟩ := bind_eq_ok_iff.mp hok <;> cases hdb
  · obtain ⟨_, _, hadm, ⟨rfl, -⟩ | ⟨-, _, hrow, rfl⟩⟩ := depositInner_eq_ok hres
    · exact .inr ⟨_, _, _, rfl, hadm, .none⟩
    · exact .inr ⟨_, _, _, rfl, hadm, .deposit hrow⟩
  · obtain ⟨⟨_, _⟩, hadm, hdb⟩ := bind_eq_ok_iff.mp hres
    cases hdb
    exact .inr ⟨_, _, _, rfl, hadm, .none⟩
  · obtain ⟨_, _, hadm, ⟨rfl, -⟩ | ⟨-, hchk, hlease⟩⟩ := leaseInner_eq_ok hres
    · exact .inr ⟨_, _, _, rfl, hadm, .none⟩
    · refine .inr ⟨_, _, _, rfl, hadm, ?_⟩
      obtain ⟨_, _, -, -, rfl, -⟩ | ⟨rfl, -⟩ | ⟨_, hgrant, -, rfl⟩ := leaseRegistered_eq_ok hlease
      · exact .register hchk
      · exact .register hchk
      · exact .grant hchk hgrant
  · obtain ⟨_, _, hadm, ⟨rfl, -⟩ | ⟨-, _, _, hack, _, hrows, hclose⟩⟩ := ackInner_eq_ok hres
    · exact .inr ⟨_, _, _, rfl, hadm, .none⟩
    · exact .inr ⟨_, _, _, rfl, hadm, .ack hreq hack hrows hclose⟩
  · exact .inl ⟨rfl, (sweepOn_eq_ok_iff.mp hres).2⟩

theorem sound_transaction (h : Sound V config db)
    (hok : call.transaction V config db = .ok (db', response)) : Sound V config db' := by
  obtain ⟨-, rfl⟩ | ⟨_, _, _, -, hadm, hwrite⟩ := transaction_eq_ok hok
  · exact h.sweep
  · have hsnd := h.admitClient hadm
    cases hwrite with
    | none => exact hsnd
    | deposit hrow => exact hrow.sound hsnd
    | register hchk => exact sound_registered hsnd hchk
    | grant hchk hgrant =>
      exact hgrant.sound (sound_registered hsnd hchk) (swept_registered (admitClient_swept hadm))
    | ack _ hack hrows hclose =>
      exact (closeLease_eq_ok (acknowledgeRows_eq_ok hsnd hack.pending hrows).1 hclose).1

theorem sound_step (h : Sound V config db) :
    Sound V config (call.run V config db).state :=
  Effect.ofExcept_state h fun _ _ => sound_transaction h

/-- **Every run keeps the invariants.** -/
theorem sound_run (h : Sound V config db) (calls : List (Call Idx)) :
    Sound V config (run V config db calls) := by
  induction calls generalizing db with
  | nil => exact h
  | cons call calls ih => exact ih (sound_step h)

end

end Komms.Mailbox
