import Komms.Mailbox.Operations
import Komms.Protocol.Equiv.Envelope

/-!
# What the tables of a mailbox keep

For each table, what holds of it in every database a relay writes: keys are unique, every sealed row
opens under the columns it is stored with, and the bounds of the configuration hold over all stored
rows, expired or not.  Deleting rows keeps this, and so do the inserts, under the checks the
requests make first.
-/

namespace Komms.Mailbox

open Protocol (Envelope)
open Table List

variable {Idx Sealed : Type} {V : Vault Idx Sealed} {config : Config}
  {db : Database Idx Sealed} {draws : Draws Idx}

/-! ### Sealed rows open -/

theorem openRow_store (domain : Domain) (binding : Binding Idx domain)
    (record : Record Idx domain) :
    V.openRow domain binding (V.store draws domain binding record) = .ok record :=
  V.openRow_sealRow domain _ binding record

theorem openLeaseRow_mappingRow (leaseId rowId : Octets 16) (acknowledged : Bool) :
    openLeaseRow V (mappingRow V draws leaseId rowId acknowledged) = .ok () := by
  unfold openLeaseRow mappingRow
  simp [openRow_store, rejectIf, ok_bind]

variable [DecidableEq Idx]

theorem openLease_leaseRow (leaseId : Octets 16) (clientIdx filterIdx : Idx)
    (createdAt expiresAt : ℕ) (closed : Bool) :
    openLease V (leaseRow V draws leaseId clientIdx filterIdx createdAt expiresAt closed) =
      .ok ⟨recordVersion, leaseId, clientIdx, filterIdx, createdAt, expiresAt, closed⟩ := by
  unfold openLease leaseRow
  simp [openRow_store, rejectIf, ok_bind]

variable {encoded : Bytes} {d row : DepositRow Idx Sealed}
  {rows rows' : List (DepositRow Idx Sealed)} {maxItems maxBytes : ℕ}

/-! ### Registrations -/

structure RegistrationsOk (V : Vault Idx Sealed) (config : Config)
    (rows : List (RegistrationRow Idx Sealed)) : Prop where
  keys : (rows.map RegistrationRow.tokenIdx).Nodup
  valid : ∀ r ∈ rows, validateRegistrationRow V r = .ok ()
  total_le : rows.length ≤ config.maxTokens
  owned_le : ∀ c, rows.countP (fun r => r.clientIdx = c) ≤ config.maxTokensPerClient

theorem RegistrationsOk.sublist {rows rows' : List (RegistrationRow Idx Sealed)}
    (h : RegistrationsOk V config rows) (hsub : rows'.Sublist rows) :
    RegistrationsOk V config rows' where
  keys := h.keys.sublist (hsub.map _)
  valid r hr := h.valid r (hsub.subset hr)
  total_le := hsub.length_le.trans h.total_le
  owned_le c := hsub.countP_le.trans (h.owned_le c)

theorem validateRegistrationRow_registrationRow (clientIdx : Idx) (expiresAt : ℕ)
    (token : Octets 32) :
    validateRegistrationRow V (registrationRow V draws clientIdx expiresAt token) = .ok () := by
  simp [validateRegistrationRow, validateRegistration, RegistrationRow.open, registrationRow,
    openRow_store, rejectIf, ok_bind]

section

variable (V draws) (clientIdx : Idx) (expiresAt : ℕ) (db : Database Idx Sealed) (token : Octets 32)
  (tokenIndexes : List Idx)

/-- A registration takes one more row only for a token that has none. -/
theorem length_register_add_newGlobal :
    (db.register V draws clientIdx expiresAt token).registrations.length +
        (db.register V draws clientIdx expiresAt token).newGlobal tokenIndexes ≤
      db.registrations.length + db.newGlobal (V.tokenIndex token :: tokenIndexes) := by
  -- After the registration no more tokens are new than before.
  have hrest : (db.register V draws clientIdx expiresAt token).newGlobal tokenIndexes ≤
      db.newGlobal tokenIndexes := by
    refine countP_mono_left fun t _ ht => ?_
    rw [all_eq_true] at ht ⊢
    intro r hr
    by_cases hkey : r.tokenIdx = V.tokenIndex token
    · have hnew := of_decide_eq_true (ht _ (mem_upsert_iff.mpr (.inr rfl)))
      exact decide_eq_true (hkey ▸ hnew)
    · exact ht r (mem_upsert_iff.mpr (.inl ⟨hr, hkey⟩))
  have hlen : (db.register V draws clientIdx expiresAt token).registrations.length ≤
      db.registrations.length +
        if db.registrations.all fun r => r.tokenIdx ≠ V.tokenIndex token then 1 else 0 := by
    simp only [← countP_true]
    split_ifs with hnew
    · exact countP_upsert_le_succ
    · simp only [all_eq_true, decide_eq_true_eq, ne_eq, not_forall, not_not] at hnew
      obtain ⟨r, hr, hkey⟩ := hnew
      exact countP_upsert_le_of_mem hr hkey rfl
  have hcons : db.newGlobal (V.tokenIndex token :: tokenIndexes) = db.newGlobal tokenIndexes +
      if db.registrations.all fun r => r.tokenIdx ≠ V.tokenIndex token then 1 else 0 :=
    countP_cons
  omega

theorem newlyOwned_register_le :
    (db.register V draws clientIdx expiresAt token).newlyOwned clientIdx tokenIndexes ≤
      db.newlyOwned clientIdx tokenIndexes := by
  refine countP_mono_left fun t _ ht => ?_
  by_cases hkey : t = V.tokenIndex token
  · subst hkey
    have hfind : (db.register V draws clientIdx expiresAt token).registrations.find?
        (fun r => r.tokenIdx = V.tokenIndex token) =
          some (registrationRow V draws clientIdx expiresAt token) :=
      @find?_upsert_self _ _ _ RegistrationRow.tokenIdx
        (registrationRow V draws clientIdx expiresAt token) db.registrations
    rw [hfind] at ht
    simp [registrationRow] at ht
  · have hfind : (db.register V draws clientIdx expiresAt token).registrations.find?
        (fun r => r.tokenIdx = t) = db.registrations.find? fun r => r.tokenIdx = t :=
      find?_upsert_of_ne hkey
    rwa [hfind] at ht

/-- A registration takes one more row of the client only for a token that is not the client's. -/
theorem ownedBy_register_add_newlyOwned :
    (db.register V draws clientIdx expiresAt token).ownedBy clientIdx +
        (db.register V draws clientIdx expiresAt token).newlyOwned clientIdx tokenIndexes ≤
      db.ownedBy clientIdx + db.newlyOwned clientIdx (V.tokenIndex token :: tokenIndexes) := by
  have hrest := newlyOwned_register_le V draws clientIdx expiresAt db token tokenIndexes
  have hsucc : (db.register V draws clientIdx expiresAt token).ownedBy clientIdx ≤
      db.ownedBy clientIdx + 1 := countP_upsert_le_succ
  -- The token is new, is the client's, or changes hands.
  cases hfind : db.registrations.find? fun r => r.tokenIdx = V.tokenIndex token with
  | none =>
    have hcons : db.newlyOwned clientIdx (V.tokenIndex token :: tokenIndexes) =
        db.newlyOwned clientIdx tokenIndexes + 1 := by
      simp [Database.newlyOwned, hfind]
    omega
  | some r =>
    by_cases hc : r.clientIdx = clientIdx
    · have hkey : r.tokenIdx = V.tokenIndex token := by simpa using find?_some hfind
      have hown : (db.register V draws clientIdx expiresAt token).ownedBy clientIdx ≤
          db.ownedBy clientIdx :=
        countP_upsert_le_of_mem (mem_of_find?_eq_some hfind) hkey (by simp [hc])
      have hcons : db.newlyOwned clientIdx tokenIndexes ≤
          db.newlyOwned clientIdx (V.tokenIndex token :: tokenIndexes) :=
        (sublist_cons_self _ _).countP_le
      omega
    · have hcons : db.newlyOwned clientIdx (V.tokenIndex token :: tokenIndexes) =
          db.newlyOwned clientIdx tokenIndexes + 1 := by
        simp [Database.newlyOwned, hfind, hc]
      omega

end

theorem RegistrationsOk.registerAll {clientIdx : Idx} {tokens : List (Octets 32)}
    (h : RegistrationsOk V config db.registrations) (draws : Draws Idx) (expiresAt : ℕ)
    (hroom : ¬ exceedsRegistrations config db clientIdx (tokens.map V.tokenIndex)) :
    RegistrationsOk V config (db.registerAll V draws clientIdx expiresAt tokens).registrations := by
  obtain ⟨hglobal, hown⟩ : db.registrations.length + db.newGlobal (tokens.map V.tokenIndex) ≤
      config.maxTokens ∧ db.ownedBy clientIdx + db.newlyOwned clientIdx (tokens.map V.tokenIndex) ≤
        config.maxTokensPerClient := by
    simpa [exceedsRegistrations, not_or] using hroom
  clear hroom
  induction tokens generalizing db with
  | nil => exact h
  | cons token tokens ih =>
    have hglobal' := (length_register_add_newGlobal V draws clientIdx expiresAt db token _).trans
      hglobal
    have hown' := (ownedBy_register_add_newlyOwned V draws clientIdx expiresAt db token _).trans
      hown
    refine ih ⟨nodup_upsert h.keys, fun r hr => ?_, by omega, fun c => ?_⟩ hglobal' hown'
    · rcases mem_upsert_iff.mp hr with ⟨hmem, _⟩ | rfl
      · exact h.valid r hmem
      · exact validateRegistrationRow_registrationRow clientIdx expiresAt token
    · by_cases hc : c = clientIdx
      · subst hc
        exact (Nat.le_add_right _ _).trans hown'
      · exact (countP_upsert_le_of_not (by simp [registrationRow, Ne.symm hc])).trans (h.owned_le c)

/-! ### Deposits -/

def WithinQuota (rows : List (DepositRow Idx Sealed)) (maxItems maxBytes : ℕ) : Prop :=
  rows.length ≤ maxItems ∧ total DepositRow.encodedLen rows ≤ maxBytes

/-- The row opens, and its length is the cached one. -/
def Stored (V : Vault Idx Sealed) (d : DepositRow Idx Sealed) (encoded : Bytes) : Prop :=
  openSized V d = .ok encoded

theorem stored_iff : Stored V d encoded ↔
    ∃ record, openDeposit V d = .ok record ∧ record.envelope = encoded ∧
      encoded.length = d.encodedLen := by
  simp only [Stored, openSized, bind_eq_ok_iff, rejectIf_eq_ok_iff, Except.ok.injEq, not_not, ne_eq]
  constructor
  · rintro ⟨record, hopen, -, hlen, rfl⟩
    exact ⟨record, hopen, rfl, hlen⟩
  · rintro ⟨record, hopen, rfl, hlen⟩
    exact ⟨record, hopen, (), hlen, rfl⟩

theorem indexes_of_stored (h : Stored V d encoded) :
    ∃ envelope, Envelope.decode encoded = .ok envelope ∧ d.tokenIdx = V.tokenIndex envelope.token ∧
      d.contentIdx = V.contentIndex (envelope.contentId V.hash) := by
  obtain ⟨_, hopen, rfl, -⟩ := stored_iff.mp h
  simp only [openDeposit, bind_eq_ok_iff, mapError_eq_ok_iff, rejectIf_eq_ok_iff, not_or, not_not,
    ne_eq, Except.ok.injEq] at hopen
  obtain ⟨_, -, -, -, envelope, hdec, -, ⟨htoken, hcon, hid⟩, rfl⟩ := hopen
  exact ⟨envelope, hdec, htoken.symm, by rw [hid, hcon]⟩

structure DepositsOk (V : Vault Idx Sealed) (config : Config)
    (rows : List (DepositRow Idx Sealed)) : Prop where
  row_ids : (rows.map DepositRow.rowId).Nodup
  logical_keys : (rows.map fun d => (d.tokenIdx, d.contentIdx)).Nodup
  valid : ∀ d ∈ rows, ∃ encoded, Stored V d encoded
  nonzero : ∀ d ∈ rows, d.rowId ≠ .zero 16 ∧ d.expiresAt ≠ 0
  global_quota : WithinQuota rows config.maxTotalItems config.maxTotalBytes
  token_quota : ∀ t, WithinQuota (rows.filter fun d => d.tokenIdx = t) config.maxPerToken
    config.maxBytesPerToken
  client_quota : ∀ c, WithinQuota (rows.filter fun d => d.clientIdx = c) config.maxPerClient
    config.maxBytesPerClient

omit [DecidableEq Idx] in
theorem WithinQuota.sublist (h : WithinQuota rows maxItems maxBytes) (hsub : rows'.Sublist rows) :
    WithinQuota rows' maxItems maxBytes :=
  ⟨hsub.length_le.trans h.1, ((hsub.map _).sum_le_sum fun _ _ => Nat.zero_le _).trans h.2⟩

theorem DepositsOk.sublist (h : DepositsOk V config rows) (hsub : rows'.Sublist rows) :
    DepositsOk V config rows' where
  row_ids := h.row_ids.sublist (hsub.map _)
  logical_keys := h.logical_keys.sublist (hsub.map _)
  valid d hd := h.valid d (hsub.subset hd)
  nonzero d hd := h.nonzero d (hsub.subset hd)
  global_quota := h.global_quota.sublist hsub
  token_quota t := (h.token_quota t).sublist (hsub.filter _)
  client_quota c := (h.client_quota c).sublist (hsub.filter _)

omit [DecidableEq Idx] in
theorem WithinQuota.append (hroom : ¬ overQuota rows maxItems maxBytes row.encodedLen) :
    WithinQuota (rows ++ [row]) maxItems maxBytes := by
  simp only [overQuota, not_or, not_le, not_lt, ge_iff_le, gt_iff_lt] at hroom
  refine ⟨?_, ?_⟩
  · rw [length_append, length_singleton]
    omega
  · rw [total_append]
    simpa [total] using hroom.2

theorem withinQuota_group {column : DepositRow Idx Sealed → Idx} {k : Idx}
    (h : WithinQuota (rows.filter fun d => column d = k) maxItems maxBytes)
    (hroom : ¬ overQuota (rows.filter fun d => column d = column row) maxItems maxBytes
      row.encodedLen) :
    WithinQuota ((rows ++ [row]).filter fun d => column d = k) maxItems maxBytes := by
  rw [filter_append]
  by_cases hk : column row = k
  · subst hk
    have hone : [row].filter (fun d => column d = column row) = [row] := by simp
    rw [hone]
    exact WithinQuota.append hroom
  · have hnone : [row].filter (fun d => column d = k) = [] := by simp [hk]
    rwa [hnone, append_nil]

theorem DepositsOk.insert (h : DepositsOk V config rows)
    (hfree : ∀ d ∈ rows, row.conflicts d = false) (hsto : Stored V row encoded)
    (hnon : row.rowId ≠ .zero 16 ∧ row.expiresAt ≠ 0)
    (hglobal : ¬ overQuota rows config.maxTotalItems config.maxTotalBytes row.encodedLen)
    (htoken : ¬ overQuota (rows.filter fun d => d.tokenIdx = row.tokenIdx) config.maxPerToken
      config.maxBytesPerToken row.encodedLen)
    (hcl : ¬ overQuota (rows.filter fun d => d.clientIdx = row.clientIdx) config.maxPerClient
      config.maxBytesPerClient row.encodedLen) :
    DepositsOk V config (rows ++ [row]) where
  row_ids := by
    refine nodup_snoc h.row_ids fun d hd hkey => ?_
    have hcon := hfree d hd
    simp_all [DepositRow.conflicts]
  logical_keys := by
    refine nodup_snoc h.logical_keys fun d hd hkey => ?_
    have hcon := hfree d hd
    simp_all [DepositRow.conflicts]
  valid := forall_mem_append.mpr ⟨h.valid, forall_mem_singleton.mpr ⟨encoded, hsto⟩⟩
  nonzero := forall_mem_append.mpr ⟨h.nonzero, forall_mem_singleton.mpr hnon⟩
  global_quota := WithinQuota.append hglobal
  token_quota t := withinQuota_group (h.token_quota t) htoken
  client_quota c := withinQuota_group (h.client_quota c) hcl

/-! ### Leases -/

structure LeasesOk (V : Vault Idx Sealed) (config : Config) (rows : List (Lease Idx Sealed)) :
    Prop where
  keys : (rows.map Lease.leaseId).Nodup
  valid : ∀ l ∈ rows, Returns (openLease V l)
  open_le : rows.countP (fun l => !l.closed) ≤ config.maxLiveLeases
  client_le : ∀ c, rows.countP (fun l => !l.closed && l.clientIdx = c) ≤
    config.maxLiveLeasesPerClient
  filter_unique : ∀ l ∈ rows, ∀ l' ∈ rows, l.closed = false → l'.closed = false →
    l.clientIdx = l'.clientIdx → l.filterIdx = l'.filterIdx → l = l'

/-- Fewer open leases of every kind. -/
structure FewerOpen (rows' rows : List (Lease Idx Sealed)) : Prop where
  subset : ∀ l ∈ rows', l.closed = false → l ∈ rows
  count_le : ∀ q : Lease Idx Sealed → Bool,
    rows'.countP (fun l => !l.closed && q l) ≤ rows.countP fun l => !l.closed && q l

omit [DecidableEq Idx] in
theorem FewerOpen.of_sublist {rows rows' : List (Lease Idx Sealed)} (hsub : rows'.Sublist rows) :
    FewerOpen rows' rows :=
  ⟨fun _ hl _ => hsub.subset hl, fun _ => hsub.countP_le⟩

theorem LeasesOk.fewerOpen {rows rows' : List (Lease Idx Sealed)} (h : LeasesOk V config rows)
    (hkeys : (rows'.map Lease.leaseId).Nodup) (hval : ∀ l ∈ rows', Returns (openLease V l))
    (hfew : FewerOpen rows' rows) : LeasesOk V config rows' where
  keys := hkeys
  valid := hval
  open_le := by simpa using (hfew.count_le fun _ => true).trans (by simpa using h.open_le)
  client_le c := (hfew.count_le _).trans (h.client_le c)
  filter_unique l hl l' hl' hopen hopen' :=
    h.filter_unique l (hfew.subset l hl hopen) l' (hfew.subset l' hl' hopen') hopen hopen'

/-- A lease with a new id fits where the client has no open one on its filter and the quotas leave
room. -/
theorem LeasesOk.insert {rows : List (Lease Idx Sealed)} {row : Lease Idx Sealed}
    (h : LeasesOk V config rows) (hfree : ∀ l ∈ rows, l.leaseId ≠ row.leaseId)
    (hval : Returns (openLease V row))
    (hnone : ∀ l ∈ rows, l.closed = false → l.clientIdx = row.clientIdx →
      l.filterIdx ≠ row.filterIdx)
    (htot : rows.countP (fun l => !l.closed) < config.maxLiveLeases)
    (hcl : rows.countP (fun l => !l.closed && l.clientIdx = row.clientIdx) <
      config.maxLiveLeasesPerClient) : LeasesOk V config (rows ++ [row]) where
  keys := nodup_snoc h.keys hfree
  valid := forall_mem_append.mpr ⟨h.valid, forall_mem_singleton.mpr hval⟩
  open_le := by
    have hone : [row].countP (fun l => !l.closed) ≤ 1 := countP_le_length
    rw [countP_append]
    omega
  client_le c := by
    rw [countP_append]
    -- Only the quota of its own client counts the new lease.
    by_cases hc : row.clientIdx = c
    · subst hc
      have hone : [row].countP (fun l => !l.closed && l.clientIdx = row.clientIdx) ≤ 1 :=
        countP_le_length
      omega
    · have hzero : [row].countP (fun l => !l.closed && l.clientIdx = c) = 0 := by simp [hc]
      rw [hzero]
      exact h.client_le c
  filter_unique l hl l' hl' hopen hopen' hc hf := by
    rcases mem_append.mp hl with hold | hnew <;>
      rcases mem_append.mp hl' with hold' | hnew'
    · exact h.filter_unique l hold l' hold' hopen hopen' hc hf
    · obtain rfl := mem_singleton.mp hnew'
      exact absurd hf (hnone l hold hopen hc)
    · obtain rfl := mem_singleton.mp hnew
      exact absurd hf.symm (hnone l' hold' hopen' hc.symm)
    · exact (mem_singleton.mp hnew).trans (mem_singleton.mp hnew').symm

/-! ### Lease rows and rate buckets -/

structure MappingsOk (V : Vault Idx Sealed) (rows : List (Mapping Sealed)) : Prop where
  keys : (rows.map fun m => (m.leaseId, m.rowId)).Nodup
  valid : ∀ m ∈ rows, openLeaseRow V m = .ok ()

structure RatesOk (V : Vault Idx Sealed) (rows : List (RateBucket Idx Sealed)) : Prop where
  keys : (rows.map RateBucket.clientIdx).Nodup
  valid : ∀ b ∈ rows, openRate V b = .ok ()

omit [DecidableEq Idx] in
theorem MappingsOk.sublist {rows rows' : List (Mapping Sealed)} (h : MappingsOk V rows)
    (hsub : rows'.Sublist rows) : MappingsOk V rows' :=
  ⟨h.keys.sublist (hsub.map _), fun m hm => h.valid m (hsub.subset hm)⟩

theorem RatesOk.sublist {rows rows' : List (RateBucket Idx Sealed)} (h : RatesOk V rows)
    (hsub : rows'.Sublist rows) : RatesOk V rows' :=
  ⟨h.keys.sublist (hsub.map _), fun b hb => h.valid b (hsub.subset hb)⟩

theorem RatesOk.charge (h : RatesOk V db.rateBuckets) (subject : Idx) (windowStart requests : ℕ) :
    RatesOk V (db.charge V draws subject windowStart requests).rateBuckets := by
  refine ⟨nodup_upsert h.keys, fun b hb => ?_⟩
  rcases mem_upsert_iff.mp hb with ⟨hmem, _⟩ | rfl
  · exact h.valid b hmem
  · simp [openRate, rateRow, openRow_store, rejectIf, ok_bind]

end Komms.Mailbox
