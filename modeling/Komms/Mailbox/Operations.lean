import Komms.Lib.Effect
import Komms.Lib.Sorting
import Komms.Mailbox.Store

/-!
# Deposits, leases and acknowledgements

The requests of `kult-transport/src/mailbox_v2.rs`, each one transaction.  A refused request commits
what it swept and charged; an error rolls the transaction back.

`Call` is a request with its clock and its draws, `Call.run` what it leaves of a database.
-/

namespace Komms.Mailbox

open Protocol (Envelope maxEnvelopeBytes)
open Table

variable {Idx Sealed : Type} [DecidableEq Idx] (V : Vault Idx Sealed) (config : Config)

/-! ### Deposits -/

inductive Disposition where
  | accepted
  | unregistered
  | refused
  deriving DecidableEq

/-- The retention hint, cut at the relay's own policy. -/
def depositExpiry (envelope : Envelope) (now : ℕ) : ℕ :=
  let policyExpiry := saturatingAdd now config.envelopeTtlSecs
  match envelope.retentionUntil with
  | some hint => min hint.toNat policyExpiry
  | none => policyExpiry

/-- A further deposit of this length would pass a bound on items or bytes. -/
def overQuota (rows : List (DepositRow Idx Sealed)) (maxItems maxBytes len : ℕ) : Prop :=
  rows.length ≥ maxItems ∨ total DepositRow.encodedLen rows + len > maxBytes

instance (rows : List (DepositRow Idx Sealed)) (maxItems maxBytes len : ℕ) :
    Decidable (overQuota rows maxItems maxBytes len) := by
  unfold overQuota
  infer_instance

variable (draws : Draws Idx) (db : Database Idx Sealed)

def exceedsQuota (tokenIdx clientIdx : Idx) (len : ℕ) : Prop :=
  overQuota db.deposits config.maxTotalItems config.maxTotalBytes len ∨
    overQuota (db.deposits.filter fun d => d.tokenIdx = tokenIdx) config.maxPerToken
      config.maxBytesPerToken len ∨
    overQuota (db.deposits.filter fun d => d.clientIdx = clientIdx) config.maxPerClient
      config.maxBytesPerClient len

instance (db : Database Idx Sealed) (tokenIdx clientIdx : Idx) (len : ℕ) :
    Decidable (exceedsQuota config db tokenIdx clientIdx len) := by
  unfold exceedsQuota
  infer_instance

def depositRow (sequence : ℕ) (rowId : Octets 16) (clientIdx : Idx) (envelope : Envelope)
    (encoded : Bytes) (expiresAt : ℕ) : DepositRow Idx Sealed :=
  let tokenIdx := V.tokenIndex envelope.token
  let contentId := envelope.contentId V.hash
  let contentIdx := V.contentIndex contentId
  ⟨sequence, rowId, tokenIdx, contentIdx, clientIdx, expiresAt, encoded.length,
    V.store draws .deposit (rowId, tokenIdx, contentIdx, clientIdx, expiresAt)
      ⟨recordVersion, rowId, tokenIdx, contentId, clientIdx, expiresAt, encoded⟩⟩

/-- `UNIQUE` constraints of `deposits` that a row would violate. -/
def DepositRow.conflicts (row other : DepositRow Idx Sealed) : Bool :=
  other.rowId = row.rowId || (other.tokenIdx = row.tokenIdx && other.contentIdx = row.contentIdx)

/-- Insert under the first drawn id that violates no constraint. -/
def insertDeposit (clientIdx : Idx) (envelope : Envelope) (encoded : Bytes) (expiresAt : ℕ) :
    Except MailboxError (Database Idx Sealed × Disposition) := do
  bindInteger expiresAt
  rejectIf (db.nextSequence ≥ 2 ^ 63) .databaseFull
  let row rowId := depositRow V draws db.nextSequence rowId clientIdx envelope encoded expiresAt
  let rowId ← required (.invalid "could not allocate a unique mailbox row id")
    (draws.attempts.find? fun rowId => !db.deposits.any (row rowId).conflicts)
  .ok ({ db with
    deposits := db.deposits ++ [row rowId]
    nextSequence := db.nextSequence + 1 }, .accepted)

/-- A deposit for a token that has a live registration. -/
def depositRegistered (clientIdx : Idx) (envelope : Envelope) (encoded : Bytes) (expiresAt : ℕ) :
    Except MailboxError (Database Idx Sealed × Disposition) :=
  let tokenIdx := V.tokenIndex envelope.token
  let contentId := envelope.contentId V.hash
  let contentIdx := V.contentIndex contentId
  match db.deposits.find? fun d => d.tokenIdx = tokenIdx && d.contentIdx = contentIdx with
  | some duplicate => do
    let stored ← openDeposit V duplicate
    .ok (db, if stored.contentId = contentId ∧ stored.envelope = encoded then .accepted
      else .refused)
  | none =>
    if exceedsQuota config db tokenIdx clientIdx encoded.length then .ok (db, .refused)
    else insertDeposit V draws db clientIdx envelope encoded expiresAt

/-- A deposit that was admitted and is canonical. -/
def depositCanonical (clientIdx : Idx) (envelope : Envelope) (encoded : Bytes) (now : ℕ) :
    Except MailboxError (Database Idx Sealed × Disposition) :=
  let expiresAt := depositExpiry config envelope now
  if expiresAt ≤ now then .ok (db, .refused)
  else match db.registrations.find? fun r => r.tokenIdx = V.tokenIndex envelope.token with
    | none => .ok (db, .unregistered)
    | some registration => do
      let record ← registration.open V
      validateRegistration record envelope.token registration.clientIdx registration.expiresAt
      if registration.expiresAt ≤ now then .ok (db, .unregistered)
      else depositRegistered V config draws db clientIdx envelope encoded expiresAt

def depositInner (client : Bytes) (envelope : Envelope) (encoded : Bytes) (now : ℕ) :
    Except MailboxError (Database Idx Sealed × Disposition) := do
  let (db, allowed) ← admitClient V config draws db client now
  if allowed = false then .ok (db, .refused)
  else if encoded = [] ∨ encoded.length > maxEnvelopeBytes ∨ envelope.tryEncode ≠ .ok encoded then
    .ok (db, .refused)
  else depositCanonical V config draws db (V.clientIndex client) envelope encoded now

/-- `refuse_deposit_request`: a malformed deposit is charged. -/
def refuseDepositRequest (client : Bytes) (now : ℕ) :
    Except MailboxError (Database Idx Sealed × Unit) := do
  let (db, _) ← admitClient V config draws db client now
  .ok (db, ())

/-! ### Pages -/

structure LeasedRow where
  rowId : Octets 16
  envelope : Bytes
  deriving DecidableEq

structure LeasePage where
  leaseId : Octets 16
  expiresAt : ℕ
  rows : List LeasedRow
  deriving DecidableEq

/-- Open a deposit and compare its cached length. -/
def openSized (row : DepositRow Idx Sealed) : Except MailboxError Bytes := do
  let record ← openDeposit V row
  rejectIf (record.envelope.length ≠ row.encodedLen)
    (.invalid "mailbox encoded-length binding mismatch")
  .ok record.envelope

/-- Fill a page that already has `bytes` bytes; a row that does not fit is skipped. -/
def fillPage : ℕ → List (DepositRow Idx Sealed) → Except MailboxError (List LeasedRow)
  | _, [] => .ok []
  | bytes, row :: rows => do
    let envelope ← openSized V row
    if bytes + envelope.length > pageMaxBytes then fillPage bytes rows
    else do
      let page ← fillPage (bytes + envelope.length) rows
      .ok (⟨row.rowId, envelope⟩ :: page)

/-- A deposit of these tokens that no live lease holds. -/
def Database.isAvailable (tokenIndexes : List Idx) (now : ℕ) (d : DepositRow Idx Sealed) : Bool :=
  d.tokenIdx ∈ tokenIndexes && now < d.expiresAt &&
    !(db.liveLeases now).any fun l => db.holds l.leaseId d.rowId

def availableRowsOn (tokenIndexes : List Idx) (now : ℕ) : Except MailboxError (List LeasedRow) :=
  fillPage V 0
    ((orderBy DepositRow.sequence (db.deposits.filter (db.isAvailable tokenIndexes now))).take
      pageMaxRows)

/-- Open the rows of a stored lease; `bytes` and `count` are what the page already has. -/
def loadPage : ℕ → ℕ → List (Mapping Sealed × DepositRow Idx Sealed) →
    Except MailboxError (List LeasedRow)
  | _, _, [] => .ok []
  | bytes, count, (m, row) :: rows => do
    openLeaseRow V m
    let envelope ← openSized V row
    rejectIf (bytes + envelope.length > pageMaxBytes ∨ count ≥ pageMaxRows)
      (.invalid "persisted mailbox lease exceeds page bounds")
    let page ← loadPage (bytes + envelope.length) (count + 1) rows
    .ok (⟨row.rowId, envelope⟩ :: page)

/-- The unacknowledged rows of a lease joined with their deposits, by sequence. -/
def Database.joined (leaseId : Octets 16) : List (Mapping Sealed × DepositRow Idx Sealed) :=
  (orderBy DepositRow.sequence db.deposits).filterMap fun d =>
    (db.leaseRows.find? fun m => m.leaseId = leaseId && m.rowId = d.rowId && !m.acknowledged).map
      fun m => (m, d)

/-- `SELECT COUNT(*) FROM lease_rows WHERE lease_id = ? AND acknowledged = 0`. -/
def Database.remaining (leaseId : Octets 16) : ℕ :=
  db.leaseRows.countP fun m => m.leaseId = leaseId && !m.acknowledged

def loadLeaseRowsOn (leaseId : Octets 16) : Except MailboxError (List LeasedRow) := do
  let page ← loadPage V 0 0 (db.joined leaseId)
  rejectIf (page.length ≠ db.remaining leaseId)
    (.invalid "mailbox lease references a missing deposit")
  .ok page

/-! ### Leases -/

def uniqueTokens (tokens : List (Octets 32)) : List (Octets 32) := sortDedup id tokens

def registrationRow (clientIdx : Idx) (expiresAt : ℕ) (token : Octets 32) :
    RegistrationRow Idx Sealed :=
  let tokenIdx := V.tokenIndex token
  ⟨tokenIdx, clientIdx, expiresAt, V.store draws .registration (tokenIdx, clientIdx, expiresAt)
    ⟨recordVersion, token, clientIdx, expiresAt⟩⟩

namespace Database

def register (draws : Draws Idx) (clientIdx : Idx) (expiresAt : ℕ) (db : Database Idx Sealed)
    (token : Octets 32) : Database Idx Sealed :=
  let row := registrationRow V draws clientIdx expiresAt token
  { db with registrations := upsert RegistrationRow.tokenIdx row db.registrations }

def registerAll (draws : Draws Idx) (clientIdx : Idx) (expiresAt : ℕ) (tokens : List (Octets 32))
    (db : Database Idx Sealed) : Database Idx Sealed :=
  tokens.foldl (register V draws clientIdx expiresAt) db

/-- The tokens that have no registration yet. -/
def newGlobal (db : Database Idx Sealed) (tokenIndexes : List Idx) : ℕ :=
  tokenIndexes.countP fun t => db.registrations.all fun r => r.tokenIdx ≠ t

def newlyOwned (db : Database Idx Sealed) (clientIdx : Idx) (tokenIndexes : List Idx) : ℕ :=
  tokenIndexes.countP fun t =>
    match db.registrations.find? fun r => r.tokenIdx = t with
    | none => true
    | some r => r.clientIdx ≠ clientIdx

def ownedBy (db : Database Idx Sealed) (clientIdx : Idx) : ℕ :=
  db.registrations.countP fun r => r.clientIdx = clientIdx

end Database

variable (leaseId : Octets 16) (clientIdx : Idx)

/-- Registering the tokens would pass the relay's or the client's bound. -/
def exceedsRegistrations (tokenIndexes : List Idx) : Prop :=
  db.registrations.length + db.newGlobal tokenIndexes > config.maxTokens ∨
    db.ownedBy clientIdx + db.newlyOwned clientIdx tokenIndexes > config.maxTokensPerClient

instance (db : Database Idx Sealed) (clientIdx : Idx) (tokenIndexes : List Idx) :
    Decidable (exceedsRegistrations config db clientIdx tokenIndexes) := by
  unfold exceedsRegistrations
  infer_instance

def Database.existingLease (filterIdx : Idx) (now : ℕ) : Option (Lease Idx Sealed) :=
  (orderBy Lease.createdAt (db.leases.filter fun l => l.clientIdx = clientIdx &&
    l.filterIdx = filterIdx && !l.closed && now < l.expiresAt)).head?

/-- A further live lease would pass a bound. -/
def exceedsLeases (tokenIndexes : List Idx) (now : ℕ) : Prop :=
  (db.liveLeases now).length ≥ config.maxLiveLeases ∨
    (db.liveLeases now).countP (fun l => l.clientIdx = clientIdx) ≥
      config.maxLiveLeasesPerClient ∨
    ∃ t ∈ tokenIndexes, db.liveForToken t now ≥ config.maxLiveLeasesPerToken

instance (db : Database Idx Sealed) (clientIdx : Idx) (tokenIndexes : List Idx) (now : ℕ) :
    Decidable (exceedsLeases config db clientIdx tokenIndexes now) := by
  unfold exceedsLeases
  infer_instance

def leaseRow (filterIdx : Idx) (createdAt expiresAt : ℕ) (closed : Bool) : Lease Idx Sealed :=
  ⟨leaseId, clientIdx, filterIdx, createdAt, expiresAt, closed,
    V.store draws .lease (leaseId, clientIdx, filterIdx, createdAt, expiresAt, closed)
      ⟨recordVersion, leaseId, clientIdx, filterIdx, createdAt, expiresAt, closed⟩⟩

/-- The sealed row that maps a deposit to a lease. -/
def mappingRow (rowId : Octets 16) (acknowledged : Bool) : Mapping Sealed :=
  ⟨leaseId, rowId, acknowledged, V.store draws .leaseRow (leaseId, rowId, acknowledged)
    ⟨recordVersion, leaseId, rowId, acknowledged⟩⟩

/-- A new lease over the oldest available rows; a lease of no rows is closed from the start. -/
def grantLease (filterIdx : Idx) (tokenIndexes : List Idx) (now : ℕ) :
    Except MailboxError (Database Idx Sealed × Option LeasePage) := do
  let rows ← availableRowsOn V db tokenIndexes now
  let expiresAt := saturatingAdd now config.leaseTtlSecs
  bindInteger expiresAt
  let leaseId ← required (.invalid "could not allocate a unique mailbox lease id")
    (draws.attempts.find? fun leaseId => !db.leases.any fun l => l.leaseId = leaseId)
  .ok ({ db with
    leases := db.leases ++
      [leaseRow V draws leaseId clientIdx filterIdx now expiresAt rows.isEmpty]
    leaseRows := db.leaseRows ++ rows.map fun row => mappingRow V draws leaseId row.rowId false },
    some ⟨leaseId, expiresAt, rows⟩)

/-- A lease request whose tokens are registered. -/
def leaseRegistered (filterIdx : Idx) (tokenIndexes : List Idx) (now : ℕ) :
    Except MailboxError (Database Idx Sealed × Option LeasePage) :=
  match db.existingLease clientIdx filterIdx now with
  | some lease => do
    let _ ← openLease V lease
    let rows ← loadLeaseRowsOn V db lease.leaseId
    .ok (db, some ⟨lease.leaseId, lease.expiresAt, rows⟩)
  | none =>
    if exceedsLeases config db clientIdx tokenIndexes now then .ok (db, none)
    else grantLease V config draws db clientIdx filterIdx tokenIndexes now

def leaseInner (client : Bytes) (tokens : List (Octets 32)) (now : ℕ) :
    Except MailboxError (Database Idx Sealed × Option LeasePage) := do
  let (db, allowed) ← admitClient V config draws db client now
  if allowed = false then .ok (db, none)
  else if tokens = [] ∨ tokens.length > maxCheckinTokens then .ok (db, none)
  else
    let clientIdx := V.clientIndex client
    let tokenIndexes := (uniqueTokens tokens).map V.tokenIndex
    if exceedsRegistrations config db clientIdx tokenIndexes then .ok (db, none)
    else do
      let expiresAt := saturatingAdd now config.registrationTtlSecs
      bindInteger expiresAt
      leaseRegistered V config draws
        (db.registerAll V draws clientIdx expiresAt (uniqueTokens tokens))
        clientIdx (V.filterIndex tokenIndexes) tokenIndexes now

/-! ### Acknowledgements -/

/-- The rows that an acknowledgement names and whether each is acknowledged already; nothing when
the lease does not have one of them. -/
def namedRows (db : Database Idx Sealed) (leaseId : Octets 16) :
    List (Octets 16) → Except MailboxError (Option (List (Octets 16 × Bool)))
  | [] => .ok (some [])
  | rowId :: rowIds =>
    match db.leaseRows.find? fun m => m.leaseId = leaseId && m.rowId = rowId with
    | none => .ok none
    | some m => do
      openLeaseRow V m
      let rows ← namedRows db leaseId rowIds
      .ok (rows.map ((rowId, m.acknowledged) :: ·))

/-- Delete the deposit of one row and mark the row. -/
def acknowledgeRow (rowId : Octets 16) : Except MailboxError (Database Idx Sealed) := do
  rejectIf (db.deposits.countP (fun d => d.rowId = rowId) ≠ 1)
    (.invalid "leased mailbox row disappeared before acknowledgement")
  rejectIf (db.leaseRows.countP (fun m => m.leaseId = leaseId && m.rowId = rowId) ≠ 1)
    (.invalid "mailbox lease-row acknowledgement mismatch")
  .ok { db with
    deposits := db.deposits.filter fun d => d.rowId ≠ rowId
    leaseRows := db.leaseRows.map fun m =>
      if m.leaseId = leaseId ∧ m.rowId = rowId then mappingRow V draws leaseId rowId true else m }

def acknowledgeRows (draws : Draws Idx) (leaseId : Octets 16) :
    List (Octets 16 × Bool) → Database Idx Sealed → Except MailboxError (Database Idx Sealed)
  | [], db => .ok db
  | (rowId, acknowledged) :: rows, db =>
    if acknowledged = true then acknowledgeRows draws leaseId rows db
    else do
      let db ← acknowledgeRow V draws db leaseId rowId
      acknowledgeRows draws leaseId rows db

def closeLease (lease : Lease Idx Sealed) (db : Database Idx Sealed) :
    Except MailboxError (Database Idx Sealed) :=
  if db.remaining lease.leaseId = 0 ∧ lease.closed = false then do
    rejectIf (db.leases.countP (fun l => l.leaseId = lease.leaseId) ≠ 1)
      (.invalid "mailbox lease close mismatch")
    let closed := leaseRow V draws lease.leaseId lease.clientIdx lease.filterIdx lease.createdAt
      lease.expiresAt true
    .ok { db with leases := db.leases.map fun l =>
      if l.leaseId = lease.leaseId then closed else l }
  else .ok db

/-- An acknowledgement of a lease that was found. -/
def ackLease (lease : Lease Idx Sealed) (rowIds : List (Octets 16)) (now : ℕ) :
    Except MailboxError (Database Idx Sealed × Bool) :=
  if lease.clientIdx ≠ clientIdx then .ok (db, false)
  else do
    let record ← openLease V lease
    if record.clientIdx ≠ clientIdx ∨ lease.expiresAt ≤ now then .ok (db, false)
    else do
      match ← namedRows V db lease.leaseId rowIds with
      | none => .ok (db, false)
      | some rows => do
        let db ← acknowledgeRows V draws lease.leaseId rows db
        let db ← closeLease V draws lease db
        .ok (db, true)

def ackInner (client : Bytes) (leaseId : Octets 16) (rowIds : List (Octets 16)) (now : ℕ) :
    Except MailboxError (Database Idx Sealed × Bool) := do
  let (db, allowed) ← admitClient V config draws db client now
  if allowed = false then .ok (db, false)
  else if leaseId = .zero 16 ∨ rowIds = [] ∨ rowIds.length > ackMaxRows then .ok (db, false)
  else if ¬ rowIds.Nodup then .ok (db, false)
  else match db.leases.find? fun l => l.leaseId = leaseId with
    | none => .ok (db, false)
    | some lease => ackLease V draws db (V.clientIndex client) lease rowIds now

/-! ### Runs -/

inductive Request where
  | deposit (client : Bytes) (envelope : Envelope) (encoded : Bytes)
  | refuseDeposit (client : Bytes)
  | lease (client : Bytes) (tokens : List (Octets 32))
  | ack (client : Bytes) (leaseId : Octets 16) (rowIds : List (Octets 16))
  | sweep

/-- The client of a request; the relay's own sweep has none. -/
def Request.client? : Request → Option Bytes
  | .deposit client _ _ => some client
  | .refuseDeposit client => some client
  | .lease client _ => some client
  | .ack client _ _ => some client
  | .sweep => none

inductive Response where
  | deposit (disposition : Disposition)
  | depositRefused
  | lease (page : Option LeasePage)
  | ack (accepted : Bool)
  | swept
  deriving DecidableEq

/-- A request at a clock, with what the relay draws while it serves it. -/
structure Call (Idx : Type) where
  request : Request
  now : ℕ
  draws : Draws Idx

def Call.transaction (call : Call Idx) : Except MailboxError (Database Idx Sealed × Response) :=
  match call.request with
  | .deposit client envelope encoded => do
    let (db, disposition) ← depositInner V config call.draws db client envelope encoded call.now
    .ok (db, .deposit disposition)
  | .refuseDeposit client => do
    let (db, _) ← refuseDepositRequest V config call.draws db client call.now
    .ok (db, .depositRefused)
  | .lease client tokens => do
    let (db, page) ← leaseInner V config call.draws db client tokens call.now
    .ok (db, .lease page)
  | .ack client leaseId rowIds => do
    let (db, accepted) ← ackInner V config call.draws db client leaseId rowIds call.now
    .ok (db, .ack accepted)
  | .sweep => do
    let db ← sweepOn db call.now
    .ok (db, .swept)

/-- A call commits its transaction or leaves the database as it was. -/
def Call.run (call : Call Idx) : Effect (Database Idx Sealed) MailboxError Response :=
  .ofExcept db (call.transaction V config db)

def run (db : Database Idx Sealed) (calls : List (Call Idx)) : Database Idx Sealed :=
  calls.foldl (fun db call => (call.run V config db).state) db

end Komms.Mailbox
