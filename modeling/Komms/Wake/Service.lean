import Komms.Lib.HashMap
import Komms.Lib.Throttle
import Komms.Lib.Transition
import Komms.Protocol.Rendezvous

/-!
# The wake gateway

A device registers a native push destination and gets a sealed capability for it.  Whoever holds the
capability can trigger a wake-up of that device until the capability expires or is revoked.

A trigger runs through steps that each hold one lock: `authorize` in the database, `rateAndCoalesce`
on the tables in memory, the call of the push provider with no lock at all, and, when the provider
reports an invalid destination, `revoke` in the database.  The time of a request is read once, when
it is received, and used in all of its steps.

The database has two tables: the request nonces that were used with a capability (`Replay`), and the
capabilities that were revoked (`Revocation`).  A row lives as long as the capability it is about.
`authorize`, `revoke` and `counts` are one transaction each, which first deletes expired rows,
oldest first and at most `maxPurgeRowsPerOperation` of each table; one that fails is rolled back.
-/

namespace Komms.Wake

def wakeCapabilityMaxLifetimeSecs : ℕ := 30 * 24 * 60 * 60

def maxPurgeRowsPerOperation : ℕ := 1024

inductive WakeError where
  | invalid (message : String)
  | key
  /-- A constraint of the database failed. -/
  | state
  deriving DecidableEq

inductive Authorization where
  | fresh
  | duplicate
  | revoked
  | full
  deriving DecidableEq

/-! ### Tables -/

/-- A row of `wake_replays`. -/
structure Replay where
  capabilityId : Octets 16
  requestNonce : Octets 16
  expiresAt : ℕ
  deriving DecidableEq

def Replay.key (row : Replay) : Octets 16 × Octets 16 := (row.capabilityId, row.requestNonce)

/-- A row of `wake_revocations`. -/
structure Revocation where
  capabilityId : Octets 16
  expiresAt : ℕ
  deriving DecidableEq

structure GatewayStateStore where
  replays : Keyed Replay.key
  revocations : Keyed Revocation.capabilityId
  maxRevocations : ℕ
  maxReplays : ℕ

structure GatewayStateCounts where
  revocations : ℕ
  replays : ℕ
  deriving DecidableEq

def GatewayStateStore.create (maxRevocations maxReplays : ℕ) : GatewayStateStore :=
  ⟨.empty, .empty, maxRevocations, maxReplays⟩

/-! ### Checks -/

def asI64 (value : ℕ) : Except WakeError ℕ := do
  rejectIf (2 ^ 63 ≤ value) (.invalid "wake timestamp exceeds SQLite range")
  .ok value

def validateExpiry (expiresAt now : ℕ) : Except WakeError Unit :=
  rejectIf (expiresAt ≤ now ∨ wakeCapabilityMaxLifetimeSecs < expiresAt - now)
    (.invalid "wake state expiry is outside its bound")

/-! ### Transactions -/

section

variable {α κ : Type} {key : α → κ}

def expiredRows (expiresAt : α → ℕ) (now : ℕ) (rows : List α) : List α :=
  (Table.orderBy expiresAt (rows.filter fun row => expiresAt row ≤ now)).take
    maxPurgeRowsPerOperation

def purgeTable [DecidableEq α] (expiresAt : α → ℕ) (now : ℕ) (table : Keyed key) : Keyed key :=
  table.filter fun row => row ∉ expiredRows expiresAt now table.rows

end

namespace GatewayStateStore

variable (store : GatewayStateStore)

/-- The database after the two deletions of `purge_expired`. -/
def purged (now : ℕ) : GatewayStateStore :=
  { store with
    replays := purgeTable Replay.expiresAt now store.replays
    revocations := purgeTable Revocation.expiresAt now store.revocations }

def purgeExpired (now : ℕ) : Except WakeError GatewayStateStore := do
  let now ← asI64 now
  .ok (store.purged now)

variable (capabilityId : Octets 16)

def isRevoked (now : ℕ) : Bool :=
  store.revocations.rows.any fun row => row.capabilityId = capabilityId ∧ now < row.expiresAt

def isDuplicate (requestNonce : Octets 16) (now : ℕ) : Bool :=
  store.replays.rows.any fun row => row.key = (capabilityId, requestNonce) ∧ now < row.expiresAt

/-- `INSERT INTO wake_replays`: a row with the key, even an expired one, makes it fail. -/
def insertReplay (row : Replay) : Except WakeError GatewayStateStore := do
  let _ ← asI64 row.expiresAt
  rejectIf (row.key ∈ store.replays.rows.map Replay.key) .state
  .ok { store with replays := store.replays.put row }

/-- The answer of `authorize` on the purged tables. -/
def decideAuthorization (row : Replay) (now : ℕ) :
    Except WakeError (Authorization × GatewayStateStore) :=
  if store.isRevoked row.capabilityId now then .ok (.revoked, store)
  else if store.isDuplicate row.capabilityId row.requestNonce now then .ok (.duplicate, store)
  else if store.maxReplays ≤ store.replays.rows.length then .ok (.full, store)
  else do
    let store ← store.insertReplay row
    .ok (.fresh, store)

def authorize (requestNonce : Octets 16) (expiresAt now : ℕ) :
    Except WakeError (Authorization × GatewayStateStore) := do
  validateExpiry expiresAt now
  rejectIf (capabilityId = .zero 16 ∨ requestNonce = .zero 16)
    (.invalid "zero wake state identifier")
  let store ← store.purgeExpired now
  store.decideAuthorization ⟨capabilityId, requestNonce, expiresAt⟩ now

/-- `INSERT INTO wake_revocations … ON CONFLICT DO UPDATE SET expires_at = max(…)`. -/
def upsertRevocation (row : Revocation) : GatewayStateStore :=
  let expiresAt := match store.revocations.get row.capabilityId with
    | some old => max old.expiresAt row.expiresAt
    | none => row.expiresAt
  { store with revocations := store.revocations.put ⟨row.capabilityId, expiresAt⟩ }

/-- The answer of `revoke` on the purged tables. -/
def decideRevocation (row : Revocation) : Except WakeError (Bool × GatewayStateStore) :=
  if store.revocations.get row.capabilityId = none ∧
      store.maxRevocations ≤ store.revocations.rows.length then .ok (false, store)
  else do
    let _ ← asI64 row.expiresAt
    .ok (true, store.upsertRevocation row)

def revoke (expiresAt now : ℕ) : Except WakeError (Bool × GatewayStateStore) := do
  validateExpiry expiresAt now
  rejectIf (capabilityId = .zero 16) (.invalid "zero wake capability id")
  let store ← store.purgeExpired now
  store.decideRevocation ⟨capabilityId, expiresAt⟩

def counts (now : ℕ) : Except WakeError (GatewayStateCounts × GatewayStateStore) := do
  let store ← store.purgeExpired now
  .ok (⟨store.revocations.rows.length, store.replays.rows.length⟩, store)

end GatewayStateStore

open HashMap Protocol

/-! ### Capabilities -/

inductive WakePlatform where
  | apns
  | fcm
  deriving DecidableEq

def WakePlatform.code : WakePlatform → UInt8
  | apns => 1
  | fcm => 2

inductive WakeEnvironment where
  | development
  | production
  deriving DecidableEq

def WakeEnvironment.code : WakeEnvironment → UInt8
  | development => 1
  | production => 2

inductive WakeProfile where
  | backgroundOnly
  | genericVisible
  deriving DecidableEq

def WakeProfile.code : WakeProfile → UInt8
  | backgroundOnly => 1
  | genericVisible => 2

/-- The fields of a registration that go into the capability. -/
structure WakeRegisterRequest where
  platform : WakePlatform
  environment : WakeEnvironment
  profile : WakeProfile
  providerToken : Bytes
  appTopic : Bytes
  deriving DecidableEq

structure WakeCapabilityPayload where
  platform : WakePlatform
  environment : WakeEnvironment
  profile : WakeProfile
  expiresAt : ℕ
  capabilityId : Octets 16
  providerToken : Bytes
  appTopic : Bytes
  deriving DecidableEq

/-- The native destination of a capability, in the form in which it was registered. -/
def WakeCapabilityPayload.target (payload : WakeCapabilityPayload) : WakeRegisterRequest :=
  ⟨payload.platform, payload.environment, payload.profile, payload.providerToken, payload.appTopic⟩

/-- The check of a trigger and of a revocation that the capability has not run out. -/
def WakeCapabilityPayload.isExpired (payload : WakeCapabilityPayload) (now : ℕ) : Bool :=
  payload.expiresAt ≤ now ∨ wakeCapabilityMaxLifetimeSecs < payload.expiresAt - now

/-! ### Limits -/

structure GatewayLimits where
  capabilityLifetimeSecs : ℕ
  perCapabilityPerMinute : ℕ
  perDestinationPerMinute : ℕ
  globalPerMinute : ℕ
  maxCapabilityBuckets : ℕ
  maxDestinationBuckets : ℕ
  coalesceSeconds : ℕ
  deriving DecidableEq

def GatewayLimits.validate (limits : GatewayLimits) : Except WakeError Unit :=
  rejectIf (limits.capabilityLifetimeSecs = 0 ∨
    wakeCapabilityMaxLifetimeSecs < limits.capabilityLifetimeSecs ∨
    limits.perCapabilityPerMinute = 0 ∨ limits.perDestinationPerMinute = 0 ∨
    limits.globalPerMinute = 0 ∨ limits.maxCapabilityBuckets = 0 ∨
    limits.maxDestinationBuckets = 0 ∨ 1000000 < limits.maxCapabilityBuckets ∨
    1000000 < limits.maxDestinationBuckets ∨ limits.coalesceSeconds = 0 ∨
    300 < limits.coalesceSeconds) (.invalid "wake gateway limits are invalid")

/-! ### Tables in memory -/

/-- The tables that a restart empties.  The period of a window is a minute. -/
structure RuntimeState where
  capability : HashMap (Octets 16) Window
  destination : HashMap (Octets 32) Window
  coalescedUntil : HashMap (Octets 32) ℕ
  global : Option Window

def RuntimeState.empty : RuntimeState := ⟨∅, ∅, ∅, none⟩

def allowWindow {κ : Type} [DecidableEq κ] (windows : HashMap κ Window) (key : κ)
    (maxBuckets limit now : ℕ) : Bool × HashMap κ Window :=
  let minute := now / 60
  let windows := retain (fun _ window => minute ≤ window.period + 1) windows
  if key ∉ windows ∧ maxBuckets ≤ len windows then (false, windows)
  else
    let window := Window.roll (windows.lookup key) minute
    if limit ≤ window.count then (false, windows.insert key window)
    else (true, windows.insert key ⟨window.period, window.count + 1⟩)

def allowGlobal (window : Option Window) (limit now : ℕ) : Bool × Option Window :=
  let current := Window.roll window (now / 60)
  if limit ≤ current.count then (false, some current)
  else (true, some ⟨current.period, current.count + 1⟩)

/-- `prune_coalescing`: entries run out, and should there be too many the earliest deadlines go. -/
def pruneCoalescing (windows : HashMap (Octets 32) ℕ) (now max : ℕ) : HashMap (Octets 32) ℕ :=
  let windows := retain (fun _ deadline => now < deadline) windows
  if len windows ≤ max then windows
  else
    let entries := Table.orderBy Sigma.snd windows.entries
    eraseAll ((entries.take (len windows - max)).map Sigma.fst) windows

namespace RuntimeState

/-- The three quotas, each taken only when those before it had room. -/
def allowQuotas (limits : GatewayLimits) (runtime : RuntimeState) (capabilityId : Octets 16)
    (destination : Octets 32) (now : ℕ) : Bool × RuntimeState :=
  let capability := allowWindow runtime.capability capabilityId limits.maxCapabilityBuckets
    limits.perCapabilityPerMinute now
  let runtime := { runtime with capability := capability.2 }
  if !capability.1 then (false, runtime)
  else
    let window := allowWindow runtime.destination destination limits.maxDestinationBuckets
      limits.perDestinationPerMinute now
    let runtime := { runtime with destination := window.2 }
    if !window.1 then (false, runtime)
    else
      let total := allowGlobal runtime.global limits.globalPerMinute now
      (total.1, { runtime with global := total.2 })

/-- The table of deadlines, and whether the provider is to be called for a destination. -/
def coalesce (limits : GatewayLimits) (runtime : RuntimeState) (destination : Octets 32) (now : ℕ) :
    Bool × RuntimeState :=
  if (runtime.coalescedUntil.lookup destination).any fun deadline => now < deadline then
    (false, runtime)
  else
    let windows := pruneCoalescing runtime.coalescedUntil now limits.maxDestinationBuckets
    if limits.maxDestinationBuckets ≤ len windows ∧ destination ∉ windows then
      (false, { runtime with coalescedUntil := windows })
    else
      (true, { runtime with
        coalescedUntil := windows.insert destination (now + limits.coalesceSeconds) })

/-- The part of `try_trigger` under the lock of the tables in memory. -/
def rateAndCoalesce (limits : GatewayLimits) (runtime : RuntimeState) (capabilityId : Octets 16)
    (destination : Octets 32) (now : ℕ) : Bool × RuntimeState :=
  let quotas := runtime.allowQuotas limits capabilityId destination now
  if quotas.1 then quotas.2.coalesce limits destination now else quotas

end RuntimeState

/-! ### Destinations -/

/-- `destination_digest`, under the secret of one run of the gateway. -/
def destinationDigest (hmacSha256 : Octets 32 → Bytes → Octets 32) (secret : Octets 32)
    (payload : WakeCapabilityPayload) : Except WakeError (Octets 32) := do
  rejectIf (2 ^ 16 ≤ payload.providerToken.length) (.invalid "wake token length")
  rejectIf (2 ^ 16 ≤ payload.appTopic.length) (.invalid "wake topic length")
  .ok (hmacSha256 secret (ascii "Komms-Wake-Destination-v1" ++
    [payload.platform.code, payload.environment.code, payload.profile.code] ++
    beBytes 2 payload.providerToken.length ++ payload.providerToken ++
    beBytes 2 payload.appTopic.length ++ payload.appTopic))

end Komms.Wake
