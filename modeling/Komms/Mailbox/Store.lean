import Komms.Lib.Table
import Komms.Protocol.Envelope

/-!
# The mailbox database

The tables of `create_schema` in `kult-transport/src/mailbox_v2.rs`, the records sealed into their
rows and the limits of a relay; then the parts that every request goes through: `sweep_on` deletes
what is expired, `rate_allowed_on` charges the relay-wide bucket and then the client's own.
`validateAll` is what a relay checks before it serves an existing database again.

Columns are found by opaque indexes, keyed hashes that nobody without the relay's key can compute.
They are values of a type `Idx`, and `IndexInput` lists what is hashed under which label.  The
sealed column of a row is a value of a type `Sealed`.  A `Vault` has the two keys of a relay: it
computes indexes, and it seals records to the place and the columns they are stored with.

A transaction that fails leaves the database as it was, so each part returns the database to commit.
Times and counters are natural numbers; SQLite holds an integer only below `2 ^ 63` (`bindInteger`).
-/

namespace Komms.Mailbox

/-! ### Limits -/

def recordVersion : UInt8 := 1
def rateWindowSecs : ℕ := 60
def pageMaxBytes : ℕ := 1024 * 1024
def pageMaxRows : ℕ := 128
def ackMaxRows : ℕ := pageMaxRows
def maxCheckinTokens : ℕ := 4096

/-- `MailboxConfig`. -/
structure Config where
  maxTokens : ℕ
  maxTokensPerClient : ℕ
  maxPerToken : ℕ
  maxBytesPerToken : ℕ
  maxPerClient : ℕ
  maxBytesPerClient : ℕ
  maxTotalItems : ℕ
  maxTotalBytes : ℕ
  envelopeTtlSecs : ℕ
  registrationTtlSecs : ℕ
  leaseTtlSecs : ℕ
  maxLiveLeasesPerClient : ℕ
  maxLiveLeasesPerToken : ℕ
  maxLiveLeases : ℕ
  maxRequestsPerClientPerMinute : ℕ
  maxRequestsPerMinute : ℕ

def Config.default : Config where
  maxTokens := 65536
  maxTokensPerClient := 4096
  maxPerToken := 256
  maxBytesPerToken := 16 * 1024 * 1024
  maxPerClient := 4096
  maxBytesPerClient := 32 * 1024 * 1024
  maxTotalItems := 65536
  maxTotalBytes := 64 * 1024 * 1024
  envelopeTtlSecs := 30 * 86400
  registrationTtlSecs := 60 * 86400
  leaseTtlSecs := 120
  maxLiveLeasesPerClient := 4
  maxLiveLeasesPerToken := 2
  maxLiveLeases := 4096
  maxRequestsPerClientPerMinute := 2048
  maxRequestsPerMinute := 8192

/-! ### Errors and integers -/

/-- An error of the database, or a message of `invalid`. -/
inductive MailboxError where
  | integerOutOfRange
  | databaseFull
  | invalid (message : String)
  deriving DecidableEq

/-- Binding a `u64` as an SQLite integer. -/
def bindInteger (n : ℕ) : Except MailboxError Unit := rejectIf (n ≥ 2 ^ 63) .integerOutOfRange

def saturatingAdd (a b : ℕ) : ℕ := min (a + b) (2 ^ 64 - 1)

def saturatingSucc (requests : ℕ) : ℕ := min (requests + 1) (2 ^ 32 - 1)

/-! ### Records -/

section

variable (Idx : Type)

/-- What an index is computed of: the label and the message. -/
inductive IndexInput where
  | token (token : Octets 32)
  | client (client : Bytes)
  | globalRate
  | content (contentId : Octets 16)
  | filter (tokenIndexes : List Idx)
  deriving DecidableEq

structure RegistrationRecord where
  version : UInt8
  token : Octets 32
  clientIdx : Idx
  expiresAt : ℕ

structure DepositRecord where
  version : UInt8
  rowId : Octets 16
  tokenIdx : Idx
  contentId : Octets 16
  clientIdx : Idx
  expiresAt : ℕ
  envelope : Bytes

structure LeaseRecord where
  version : UInt8
  leaseId : Octets 16
  clientIdx : Idx
  filterIdx : Idx
  createdAt : ℕ
  expiresAt : ℕ
  closed : Bool

structure LeaseRowRecord where
  version : UInt8
  leaseId : Octets 16
  rowId : Octets 16
  acknowledged : Bool

structure RateRecord where
  version : UInt8
  clientIdx : Idx
  windowStart : ℕ
  requests : ℕ

/-- The tables, each with a sealing key of its own. -/
inductive Domain where
  | registration
  | deposit
  | lease
  | leaseRow
  | rate
  deriving DecidableEq

/-- The locator and the binding that `row_ad` authenticates with a record. -/
abbrev Binding : Domain → Type
  | .registration => Idx × Idx × ℕ
  | .deposit => Octets 16 × Idx × Idx × Idx × ℕ
  | .lease => Octets 16 × Idx × Idx × ℕ × ℕ × Bool
  | .leaseRow => Octets 16 × Octets 16 × Bool
  | .rate => Idx × ℕ × ℕ

abbrev Record : Domain → Type
  | .registration => RegistrationRecord Idx
  | .deposit => DepositRecord Idx
  | .lease => LeaseRecord Idx
  | .leaseRow => LeaseRowRecord
  | .rate => RateRecord Idx

/-- The index key and the row key of a relay, with the hashes envelopes are named by.  A record that
was sealed opens where it was sealed; the errors of `openRow` are those of `open_record`. -/
structure Vault (Sealed : Type) where
  hash : Protocol.Envelope.ContentHash
  index : IndexInput Idx → Idx
  sealRow : (domain : Domain) → Octets 24 → Binding Idx domain → Record Idx domain → Sealed
  openRow : (domain : Domain) → Binding Idx domain → Sealed →
    Except MailboxError (Record Idx domain)
  openRow_sealRow : ∀ domain nonce binding record,
    openRow domain binding (sealRow domain nonce binding record) = .ok record

/-! ### Tables -/

variable (Sealed : Type)

structure RegistrationRow where
  tokenIdx : Idx
  clientIdx : Idx
  expiresAt : ℕ
  sealed : Sealed
  deriving DecidableEq

structure DepositRow where
  sequence : ℕ
  rowId : Octets 16
  tokenIdx : Idx
  contentIdx : Idx
  clientIdx : Idx
  expiresAt : ℕ
  encodedLen : ℕ
  sealed : Sealed
  deriving DecidableEq

/-- A row of `leases`. -/
structure Lease where
  leaseId : Octets 16
  clientIdx : Idx
  filterIdx : Idx
  createdAt : ℕ
  expiresAt : ℕ
  closed : Bool
  sealed : Sealed
  deriving DecidableEq

structure Mapping where
  leaseId : Octets 16
  rowId : Octets 16
  acknowledged : Bool
  sealed : Sealed
  deriving DecidableEq

structure RateBucket where
  clientIdx : Idx
  windowStart : ℕ
  requests : ℕ
  sealed : Sealed
  deriving DecidableEq

/-- The five tables and the counter of `AUTOINCREMENT`. -/
structure Database where
  registrations : List (RegistrationRow Idx Sealed)
  deposits : List (DepositRow Idx Sealed)
  leases : List (Lease Idx Sealed)
  leaseRows : List (Mapping Sealed)
  rateBuckets : List (RateBucket Idx Sealed)
  nextSequence : ℕ
  deriving DecidableEq

end

variable {Idx Sealed : Type}

def Database.empty : Database Idx Sealed := ⟨[], [], [], [], [], 1⟩

/-! ### Indexes -/

namespace Vault

variable (V : Vault Idx Sealed)

def tokenIndex (token : Octets 32) : Idx := V.index (.token token)
def clientIndex (client : Bytes) : Idx := V.index (.client client)
def contentIndex (contentId : Octets 16) : Idx := V.index (.content contentId)
def filterIndex (tokenIndexes : List Idx) : Idx := V.index (.filter tokenIndexes)
def globalIndex : Idx := V.index .globalRate

end Vault

/-! ### Opening rows -/

section

variable [DecidableEq Idx] (V : Vault Idx Sealed)

def validateRegistration (record : RegistrationRecord Idx) (token : Octets 32) (clientIdx : Idx)
    (expiresAt : ℕ) : Except MailboxError Unit :=
  rejectIf (record.version ≠ recordVersion ∨ record.token ≠ token ∨ record.clientIdx ≠ clientIdx ∨
    record.expiresAt ≠ expiresAt) (.invalid "mailbox registration binding mismatch")

def RegistrationRow.open (row : RegistrationRow Idx Sealed) :
    Except MailboxError (RegistrationRecord Idx) :=
  V.openRow .registration (row.tokenIdx, row.clientIdx, row.expiresAt) row.sealed

def openDeposit (row : DepositRow Idx Sealed) : Except MailboxError (DepositRecord Idx) := do
  let record ← V.openRow .deposit
    (row.rowId, row.tokenIdx, row.contentIdx, row.clientIdx, row.expiresAt) row.sealed
  rejectIf (record.version ≠ recordVersion ∨ record.rowId ≠ row.rowId ∨
    record.tokenIdx ≠ row.tokenIdx ∨ record.clientIdx ≠ row.clientIdx ∨
    record.expiresAt ≠ row.expiresAt) (.invalid "mailbox deposit binding mismatch")
  let envelope ← (Protocol.Envelope.decode record.envelope).mapError fun _ =>
    .invalid "mailbox envelope corrupt"
  rejectIf (V.tokenIndex envelope.token ≠ row.tokenIdx ∨
    V.contentIndex record.contentId ≠ row.contentIdx ∨
    envelope.contentId V.hash ≠ record.contentId) (.invalid "mailbox deposit logical-key mismatch")
  .ok record

def openLease (row : Lease Idx Sealed) : Except MailboxError (LeaseRecord Idx) := do
  let record ← V.openRow .lease
    (row.leaseId, row.clientIdx, row.filterIdx, row.createdAt, row.expiresAt, row.closed) row.sealed
  rejectIf (record.version ≠ recordVersion ∨ record.leaseId ≠ row.leaseId ∨
    record.clientIdx ≠ row.clientIdx ∨ record.filterIdx ≠ row.filterIdx ∨
    record.createdAt ≠ row.createdAt ∨ record.expiresAt ≠ row.expiresAt ∨
    record.closed ≠ row.closed) (.invalid "mailbox lease binding mismatch")
  .ok record

/-- The checks made on every row of `lease_rows` that is read. -/
def openLeaseRow (row : Mapping Sealed) : Except MailboxError Unit := do
  let record ← V.openRow .leaseRow (row.leaseId, row.rowId, row.acknowledged) row.sealed
  rejectIf (record.version ≠ recordVersion ∨ record.leaseId ≠ row.leaseId ∨
    record.rowId ≠ row.rowId ∨ record.acknowledged ≠ row.acknowledged)
    (.invalid "mailbox lease-row binding mismatch")

/-- The checks made on every row of `rate_buckets` that is read. -/
def openRate (row : RateBucket Idx Sealed) : Except MailboxError Unit := do
  let record ← V.openRow .rate (row.clientIdx, row.windowStart, row.requests) row.sealed
  rejectIf (record.version ≠ recordVersion ∨ record.clientIdx ≠ row.clientIdx ∨
    record.windowStart ≠ row.windowStart ∨ record.requests ≠ row.requests)
    (.invalid "mailbox rate binding mismatch")

end

/-! ### A vault that can be read

Its indexes of tokens and of clients never collide, and no client has the index of the relay-wide
bucket. -/

/-- The label and the message, each element of a filter closed by a zero byte. -/
def idealIndex : IndexInput Bytes → Bytes
  | .token token => 0 :: token.toBytes
  | .client client => 1 :: client
  | .globalRate => [2]
  | .content contentId => 3 :: contentId.toBytes
  | .filter tokenIndexes => 4 :: tokenIndexes.flatMap fun t => t.flatMap (fun b => [1, b]) ++ [0]

/-- A record with its table and the columns it is bound to. -/
structure PlainRow where
  domain : Domain
  binding : Binding Bytes domain
  record : Record Bytes domain

instance (domain : Domain) : DecidableEq (Binding Bytes domain) := by
  cases domain <;> unfold Binding <;> infer_instance

def PlainRow.open (domain : Domain) (binding : Binding Bytes domain) (row : PlainRow) :
    Except MailboxError (Record Bytes domain) :=
  if h : row.domain = domain then
    if h ▸ row.binding = binding then .ok (h ▸ row.record)
    else .error (.invalid "mailbox row authentication failed")
  else .error (.invalid "mailbox row authentication failed")

/-- The last bytes of a string, in place of its digest. -/
def tailDigest (bytes : Bytes) : Octets 32 :=
  ⟨(bytes.reverse ++ List.replicate 32 0).take 32, by simp⟩

def idealVault : Vault Bytes PlainRow where
  hash := ⟨tailDigest, fun _ => none⟩
  index := idealIndex
  sealRow domain _ binding record := ⟨domain, binding, record⟩
  openRow := PlainRow.open
  openRow_sealRow domain _ binding record := by simp [PlainRow.open]

theorem tokenIndex_ideal_injective : Function.Injective idealVault.tokenIndex :=
  fun _ _ h => Octets.ext (List.cons.inj h).2

theorem globalIndex_ideal_ne (client : Bytes) :
    idealVault.globalIndex ≠ idealVault.clientIndex client :=
  fun h => absurd (List.cons.inj h).1 (by decide)

open Table

/-! ### Randomness -/

/-- What a request draws: the ids of its allocation attempts and a nonce for each seal. -/
structure Draws (Idx : Type) where
  ids : Fin 16 → Octets 16
  nonce : (domain : Domain) → Binding Idx domain → Octets 24

/-- `random_id` of sixteen drawn bytes: never all zero. -/
def randomId (bytes : Octets 16) : Octets 16 :=
  if bytes = .zero 16 then ⟨1 :: List.replicate 15 0, rfl⟩ else bytes

def Draws.attempts (draws : Draws Idx) : List (Octets 16) := (List.ofFn draws.ids).map randomId

namespace Vault

variable (V : Vault Idx Sealed) (draws : Draws Idx)

def store (domain : Domain) (binding : Binding Idx domain) (record : Record Idx domain) : Sealed :=
  V.sealRow domain (draws.nonce domain binding) binding record

end Vault

namespace Database

variable (db : Database Idx Sealed)

/-! ### Leases and their rows -/

def deleteLeases (p : Lease Idx Sealed → Bool) : Database Idx Sealed :=
  { db with
    leases := db.leases.filter fun l => !p l
    leaseRows := db.leaseRows.filter fun m => !db.leases.any fun l => p l && l.leaseId = m.leaseId }

/-- Some row of the lease, acknowledged or not, joins a deposit that is expired. -/
def hasExpiredRow (now : ℕ) (l : Lease Idx Sealed) : Bool :=
  db.leaseRows.any fun m => m.leaseId = l.leaseId &&
    db.deposits.any fun d => d.rowId = m.rowId && d.expiresAt ≤ now

/-- An unacknowledged row of the lease is for this row id. -/
def holds (leaseId rowId : Octets 16) : Bool :=
  db.leaseRows.any fun m => m.leaseId = leaseId && m.rowId = rowId && !m.acknowledged

def liveLeases (now : ℕ) : List (Lease Idx Sealed) :=
  db.leases.filter fun l => !l.closed && now < l.expiresAt

/-- The deposits that unacknowledged rows of a lease refer to. -/
def leasedDeposits (leaseId : Octets 16) : List (DepositRow Idx Sealed) :=
  db.deposits.filter fun d => db.holds leaseId d.rowId

variable [DecidableEq Idx]

/-- An unacknowledged row of the lease is for a deposit of this token. -/
def coversToken (tokenIdx : Idx) (l : Lease Idx Sealed) : Bool :=
  (db.leasedDeposits l.leaseId).any fun d => d.tokenIdx = tokenIdx

/-- `COUNT(DISTINCT lease_id)` over the live leases that cover a token. -/
def liveForToken (tokenIdx : Idx) (now : ℕ) : ℕ :=
  (db.liveLeases now).countP (db.coversToken tokenIdx)

end Database

/-! ### Sweeping -/

/-- What `sweep_on` leaves at a clock. -/
def Database.sweep (db : Database Idx Sealed) (now : ℕ) : Database Idx Sealed :=
  let db := db.deleteLeases (db.hasExpiredRow now)
  let db := db.deleteLeases fun l => l.expiresAt ≤ now
  { db with
    deposits := db.deposits.filter fun d => now < d.expiresAt
    registrations := db.registrations.filter fun r => now < r.expiresAt
    rateBuckets := db.rateBuckets.filter fun b => now - 2 * rateWindowSecs < b.windowStart }

def sweepOn (db : Database Idx Sealed) (now : ℕ) : Except MailboxError (Database Idx Sealed) := do
  bindInteger now
  .ok (db.sweep now)

section

variable [DecidableEq Idx] (V : Vault Idx Sealed) (config : Config)

/-! ### Rate limits -/

variable (draws : Draws Idx) (db : Database Idx Sealed)

/-- The window a subject is in at a clock, and the requests already counted in it. -/
def currentWindow (subject : Idx) (now : ℕ) : Except MailboxError (ℕ × ℕ) :=
  match db.rateBuckets.find? fun b => b.clientIdx = subject with
  | none => .ok (now, 0)
  | some bucket => do
    openRate V bucket
    .ok (if now - bucket.windowStart ≥ rateWindowSecs then (now, 0)
      else (bucket.windowStart, bucket.requests))

def rateRow (subject : Idx) (windowStart requests : ℕ) : RateBucket Idx Sealed :=
  ⟨subject, windowStart, requests, V.store draws .rate (subject, windowStart, requests)
    ⟨recordVersion, subject, windowStart, requests⟩⟩

def Database.charge (draws : Draws Idx) (subject : Idx) (windowStart requests : ℕ) :
    Database Idx Sealed :=
  let bucket := rateRow V draws subject windowStart requests
  { db with rateBuckets := upsert RateBucket.clientIdx bucket db.rateBuckets }

def rateSubjectAllowedOn (subject : Idx) (limit now : ℕ) :
    Except MailboxError (Database Idx Sealed × Bool) := do
  let (windowStart, requests) ← currentWindow V db subject now
  if requests ≥ limit then .ok (db, false)
  else .ok (db.charge V draws subject windowStart (saturatingSucc requests), true)

/-- `rate_allowed_on`: the relay-wide bucket is charged before the client's own is looked at. -/
def rateAllowedOn (clientIdx : Idx) (now : ℕ) :
    Except MailboxError (Database Idx Sealed × Bool) := do
  let (db, allowed) ←
    rateSubjectAllowedOn V draws db V.globalIndex config.maxRequestsPerMinute now
  if allowed = false then .ok (db, false)
  else rateSubjectAllowedOn V draws db clientIdx config.maxRequestsPerClientPerMinute now

/-- How every request begins. -/
def admitClient (client : Bytes) (now : ℕ) : Except MailboxError (Database Idx Sealed × Bool) := do
  let db ← sweepOn db now
  rateAllowedOn V config draws db (V.clientIndex client) now

/-! ### Validation -/

/-- A row of `contents`. -/
structure StoredRow where
  rowId : Octets 16
  ciphertext : Bytes
  expiresAt : ℕ

def contents : Except MailboxError (List StoredRow) :=
  mapEach (fun row => do
    let record ← openDeposit V row
    .ok ⟨row.rowId, record.envelope, row.expiresAt⟩) (orderBy DepositRow.sequence db.deposits)

def validateRegistrationRow (row : RegistrationRow Idx Sealed) : Except MailboxError Unit := do
  let record ← row.open V
  validateRegistration record record.token row.clientIdx row.expiresAt
  rejectIf (V.tokenIndex record.token ≠ row.tokenIdx)
    (.invalid "mailbox registration logical-key mismatch")

/-- The stored deposits against the relay-wide bounds. -/
def validateCapacity (stored : List StoredRow) : Except MailboxError Unit :=
  rejectIf (stored.length ≠ db.deposits.length ∨
      total (fun row => row.ciphertext.length) stored ≠ total DepositRow.encodedLen db.deposits ∨
      (stored.map StoredRow.rowId).dedup.length ≠ stored.length ∨
      (∃ row ∈ stored, row.rowId = .zero 16 ∨ row.expiresAt = 0) ∨
      db.deposits.length > config.maxTotalItems ∨
      total DepositRow.encodedLen db.deposits > config.maxTotalBytes)
    (.invalid "mailbox durable capacity exceeds configured bounds")

/-- The tables against the bounds for one owner, one token and one lease. -/
def validateOwners (now : ℕ) : Except MailboxError Unit :=
  let registrations := db.registrations.filter fun r => now < r.expiresAt
  let live := db.liveLeases now
  rejectIf (registrations.length > config.maxTokens ∨
      maxPerGroup RegistrationRow.clientIdx List.length registrations > config.maxTokensPerClient ∨
      maxPerGroup DepositRow.tokenIdx List.length db.deposits > config.maxPerToken ∨
      maxPerGroup DepositRow.tokenIdx (total DepositRow.encodedLen) db.deposits >
        config.maxBytesPerToken ∨
      maxPerGroup DepositRow.clientIdx List.length db.deposits > config.maxPerClient ∨
      maxPerGroup DepositRow.clientIdx (total DepositRow.encodedLen) db.deposits >
        config.maxBytesPerClient ∨
      maxOf (fun m => (db.leasedDeposits m.leaseId).length) db.leaseRows > pageMaxRows ∨
      maxOf (fun m => total DepositRow.encodedLen (db.leasedDeposits m.leaseId)) db.leaseRows >
        pageMaxBytes ∨
      live.length > config.maxLiveLeases ∨
      maxPerGroup Lease.clientIdx List.length live > config.maxLiveLeasesPerClient ∨
      maxOf (fun d => db.liveForToken d.tokenIdx now) db.deposits > config.maxLiveLeasesPerToken)
    (.invalid "mailbox durable per-owner capacity exceeds configured bounds")

def validateLeaseRow (row : Mapping Sealed) : Except MailboxError Unit := do
  openLeaseRow V row
  rejectIf (row.acknowledged = false ∧ ∀ d ∈ db.deposits, d.rowId ≠ row.rowId)
    (.invalid "live mailbox lease references missing row")

/-- `validate_all` at the clock it reads. -/
def validateAll (now : ℕ) : Except MailboxError Unit := do
  forEach (validateRegistrationRow V) db.registrations
  let stored ← contents V db
  validateCapacity config db stored
  bindInteger now
  validateOwners config db now
  forEach (fun lease => do let _ ← openLease V lease) db.leases
  forEach (validateLeaseRow V db) db.leaseRows
  forEach (openRate V) db.rateBuckets

/-! ### Opening a relay -/

/-- The operating system's clock: seconds from the Unix epoch in 64 bits. -/
structure SystemTime where
  secs : ℤ
  secs_lt : secs < 2 ^ 63

/-- `unix_now`: a clock before the epoch reads 0. -/
def unixNow (time : SystemTime) : ℕ := time.secs.toNat

/-- `MailboxV2Store::open` on an existing database: validate, then sweep at a second reading. -/
def openStore (validated swept : SystemTime) : Except MailboxError (Database Idx Sealed) := do
  validateAll V config db (unixNow validated)
  sweepOn db (unixNow swept)

end

end Komms.Mailbox
