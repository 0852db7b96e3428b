import Komms.Protocol.Rendezvous
import Komms.Lib.HashMap

/-!
# The rendezvous service

`kult-rendezvous/src/lib.rs`: a service that keeps sealed route records in memory, one for each
slot, and answers every well-formed request with a body of fixed length.

The lock around the state is held for one admission, one registration or one lookup; requests are
handled one after the other here, and how many others are in progress is part of a call.  A clock is
a `u64`, counts are `usize`; the random bytes of a response and the order in which a sweep visits
the map are inputs of a call.
-/

namespace Komms.Rendezvous

open Protocol HashMap

def rateWindowSecs : ℕ := 60
def maxExpirySweepPerRequest : ℕ := 64
def accountedBytesPerRecord : ℕ := rendezvousSealedRecordLen + 32 + 8 + 8 + 128
def accountedBytesPerSlotBucket : ℕ := 128
def accountedBytesPerClientBucket : ℕ := 128

/-- A `usize` or `u64` sum or product that stays at the largest value. -/
def saturating64 (n : ℕ) : ℕ := min n (2 ^ 64 - 1)

def saturating32 (n : ℕ) : ℕ := min n (2 ^ 32 - 1)

def checked64 (n : ℕ) : Option ℕ := if n < 2 ^ 64 then some n else none

/-! ### Configuration -/

structure Config where
  maxRecords : ℕ
  maxMemoryBytes : ℕ
  maxConcurrentRequests : ℕ
  maxGlobalOperationsPerMinute : UInt32
  maxGlobalBytesPerMinute : UInt64
  maxSlotOperationsPerMinute : UInt32
  maxSlotBuckets : ℕ
  maxClientOperationsPerMinute : UInt32
  maxClientBuckets : ℕ
  deriving DecidableEq

def Config.default : Config where
  maxRecords := 16384
  maxMemoryBytes := 96 * 1024 * 1024
  maxConcurrentRequests := 256
  maxGlobalOperationsPerMinute := 120000
  maxGlobalBytesPerMinute := 512 * 1024 * 1024
  maxSlotOperationsPerMinute := 24
  maxSlotBuckets := 65536
  maxClientOperationsPerMinute := 600
  maxClientBuckets := 16384

/-- The bytes of full maps. -/
def Config.accounted (config : Config) : Option ℕ := do
  let bytes ← checked64 (config.maxRecords * accountedBytesPerRecord)
  let slots ← checked64 (config.maxSlotBuckets * accountedBytesPerSlotBucket)
  let bytes ← checked64 (bytes + slots)
  let clients ← checked64 (config.maxClientBuckets * accountedBytesPerClientBucket)
  checked64 (bytes + clients)

def Config.valid (config : Config) : Bool :=
  0 < config.maxRecords && 0 < config.maxConcurrentRequests &&
    0 < config.maxGlobalOperationsPerMinute && 0 < config.maxGlobalBytesPerMinute &&
    0 < config.maxSlotOperationsPerMinute && 0 < config.maxSlotBuckets &&
    0 < config.maxClientOperationsPerMinute && 0 < config.maxClientBuckets &&
    config.accounted.any fun bytes => bytes ≤ config.maxMemoryBytes

/-! ### State -/

structure StoredRecord where
  epoch : UInt64
  expiresAt : ℕ
  sealedRecord : Octets rendezvousSealedRecordLen
  deriving DecidableEq

structure RateBucket where
  window : ℕ
  operations : ℕ
  bytes : ℕ
  deriving DecidableEq

namespace RateBucket

def empty : RateBucket := ⟨0, 0, 0⟩

def charge (bucket : RateBucket) (now operations bytes : ℕ) : RateBucket :=
  let window := now / rateWindowSecs
  let bucket := if bucket.window ≠ window then ⟨window, 0, 0⟩ else bucket
  ⟨bucket.window, saturating32 (bucket.operations + operations),
    saturating64 (bucket.bytes + bytes)⟩

def operationsIn (bucket : RateBucket) (window : ℕ) : ℕ :=
  if bucket.window = window then bucket.operations else 0

def bytesIn (bucket : RateBucket) (window : ℕ) : ℕ :=
  if bucket.window = window then bucket.bytes else 0

end RateBucket

structure MutableState where
  records : HashMap (Octets 32) StoredRecord
  slotRates : HashMap (Octets 32) RateBucket
  clientRates : HashMap (Octets 16) RateBucket
  globalRate : RateBucket

def MutableState.empty : MutableState := ⟨∅, ∅, ∅, .empty⟩

def accountedMutableBytes (s : MutableState) : ℕ :=
  saturating64 (saturating64 (saturating64 (len s.records * accountedBytesPerRecord) +
    saturating64 (len s.slotRates * accountedBytesPerSlotBucket)) +
      saturating64 (len s.clientRates * accountedBytesPerClientBucket))

/-! ### Expiry -/

abbrev Entry := Sigma fun _ : Octets 32 => StoredRecord

def expiredSlots (order : Order Entry) (s : MutableState) (now : ℕ) : List (Octets 32) :=
  (((order.arrange s.records.entries).filter fun entry => entry.2.expiresAt ≤ now).take
    maxExpirySweepPerRequest).map Sigma.fst

/-- `sweep_expired`: an expired record goes, and with it the bucket of its slot. -/
def sweepExpired (order : Order Entry) (s : MutableState) (now : ℕ) : MutableState :=
  let expired := expiredSlots order s now
  { s with records := eraseAll expired s.records, slotRates := eraseAll expired s.slotRates }

/-! ### Requests -/

inductive Request where
  | register (request : RendezvousRegisterRequest)
  | lookup (request : RendezvousLookupRequest)
  deriving DecidableEq

def Request.slot : Request → Octets 32
  | .register request => request.slot
  | .lookup request => request.slot

def Request.responseLen : Request → ℕ
  | .register _ => rendezvousRegisterAckLen
  | .lookup _ => rendezvousLookupResponseLen

/-- The arguments of `handle`, and what is not determined by them: the requests in progress, the
orders of the two sweeps, the random bytes. -/
structure Call where
  path : String
  mediaType : String
  body : Bytes
  client : Octets 16
  now : ℕ
  now_lt : now < 2 ^ 64
  active : ℕ
  firstOrder : Order Entry
  secondOrder : Order Entry
  random : (n : ℕ) → Octets n

def Call.request (call : Call) : Option Request :=
  if call.mediaType ≠ rendezvousMediaType then none
  else if call.path = rendezvousRegisterPath then
    (RendezvousRegisterRequest.decode call.body).toOption.map .register
  else if call.path = rendezvousLookupPath then
    (RendezvousLookupRequest.decode call.body).toOption.map .lookup
  else none

structure ServiceResponse where
  status : ℕ
  body : Bytes
  mediaType : String
  noStore : Bool
  deriving DecidableEq

namespace ServiceResponse

def ok (body : Bytes) : ServiceResponse := ⟨200, body, rendezvousMediaType, true⟩

def malformed (random : (n : ℕ) → Octets n) : ServiceResponse :=
  ⟨400, (random rendezvousMalformedResponseLen).toBytes, rendezvousMediaType, true⟩

end ServiceResponse

/-- A service is constructed only for a valid configuration. -/
structure RendezvousService where
  config : Config
  valid : config.valid = true

namespace RendezvousService

variable (service : RendezvousService)

/-! ### Admission -/

/-- What an admission begins with: a sweep, and no bucket of another window. -/
def refresh (order : Order Entry) (s : MutableState) (now : ℕ) : MutableState :=
  let s := sweepExpired order s now
  let window := now / rateWindowSecs
  { s with
    slotRates := retain (fun _ bucket => bucket.window = window) s.slotRates
    clientRates := retain (fun _ bucket => bucket.window = window) s.clientRates }

def bucketOf {κ : Type} [DecidableEq κ] (rates : HashMap κ RateBucket) (key : κ) : RateBucket :=
  (rates.lookup key).getD .empty

variable (s : MutableState)

/-- Some limit is reached. -/
def exceeds (client : Octets 16) (slot : Octets 32) (bytes now : ℕ) : Prop :=
  let window := now / rateWindowSecs
  service.config.maxGlobalOperationsPerMinute.toNat ≤ s.globalRate.operationsIn window ∨
    service.config.maxGlobalBytesPerMinute.toNat <
      saturating64 (s.globalRate.bytesIn window + bytes) ∨
    service.config.maxSlotOperationsPerMinute.toNat ≤
      (bucketOf s.slotRates slot).operationsIn window ∨
    service.config.maxClientOperationsPerMinute.toNat ≤
      (bucketOf s.clientRates client).operationsIn window

instance (s : MutableState) (client : Octets 16) (slot : Octets 32) (bytes now : ℕ) :
    Decidable (service.exceeds s client slot bytes now) :=
  inferInstanceAs (Decidable (_ ∨ _ ∨ _ ∨ _))

/-- Every bucket of an admitted operation is charged. -/
def chargeAll (client : Octets 16) (slot : Octets 32) (bytes now : ℕ) : MutableState :=
  { s with
    globalRate := s.globalRate.charge now 1 bytes
    slotRates := s.slotRates.insert slot ((bucketOf s.slotRates slot).charge now 1 0)
    clientRates := s.clientRates.insert client ((bucketOf s.clientRates client).charge now 1 0) }

def admitRequest (order : Order Entry) (s : MutableState) (client : Octets 16) (slot : Octets 32)
    (bytes now : ℕ) : MutableState × Bool :=
  let s := refresh order s now
  if client ∉ s.clientRates ∧ len s.clientRates ≥ service.config.maxClientBuckets then (s, false)
  else if slot ∉ s.slotRates ∧ len s.slotRates ≥ service.config.maxSlotBuckets then (s, false)
  else
    let bytes := saturating64 bytes
    if service.exceeds s client slot bytes now then (s, false)
    else (chargeAll s client slot bytes now, true)

def enter (call : Call) (request : Request) : MutableState × Bool :=
  if call.active < service.config.maxConcurrentRequests then
    service.admitRequest call.firstOrder s call.client request.slot
      (call.body.length + request.responseLen) call.now
  else (s, false)

/-! ### Operations -/

def storedRecord (request : RendezvousRegisterRequest) (now : ℕ) : StoredRecord :=
  ⟨request.epoch, saturating64 (now + (min request.ttlSeconds rendezvousMaxTtlSecs).toNat),
    request.sealedRecord⟩

def register (order : Order Entry) (s : MutableState) (request : RendezvousRegisterRequest)
    (now : ℕ) : MutableState :=
  let epoch := rendezvousEpoch now
  if request.epoch.toNat ≠ epoch ∧ request.epoch.toNat ≠ saturating64 (epoch + 1) then s
  else
    let s := sweepExpired order s now
    if request.slot ∉ s.records ∧ (len s.records ≥ service.config.maxRecords ∨
        saturating64 (saturating64 (len s.records + 1) * accountedBytesPerRecord) >
          service.config.maxMemoryBytes) then s
    else { s with records := s.records.insert request.slot (storedRecord request now) }

def lookup (order : Order Entry) (s : MutableState) (request : RendezvousLookupRequest)
    (now : ℕ) : MutableState × Option (Octets rendezvousSealedRecordLen) :=
  let current := rendezvousEpoch now
  if request.epoch.toNat < current - 1 ∨ request.epoch.toNat > saturating64 (current + 1) then
    (s, none)
  else
    let s := sweepExpired order s now
    let record := (s.records.lookup request.slot).filter fun record =>
      record.epoch = request.epoch && now < record.expiresAt
    (s, record.map StoredRecord.sealedRecord)

/-- What a well-formed request does: the state it leaves, and the record that a lookup finds. -/
def serve (call : Call) (request : Request) :
    MutableState × Option (Octets rendezvousSealedRecordLen) :=
  let (s, admitted) := service.enter s call request
  if admitted = false then (s, none)
  else match request with
    | .register request => (service.register call.secondOrder s request call.now, none)
    | .lookup request => lookup call.secondOrder s request call.now

def handle (call : Call) : MutableState × ServiceResponse :=
  match call.request with
  | none => (s, .malformed call.random)
  | some request =>
    let (s, found) := service.serve s call request
    match request with
    | .register _ => (s, .ok (call.random rendezvousRegisterAckLen).toBytes)
    | .lookup _ => (s, .ok (found.getD (call.random rendezvousLookupResponseLen)).toBytes)

/-! ### Runs -/

def run (calls : List Call) : MutableState :=
  calls.foldl (fun s call => (service.handle s call).1) s

def trace (s : MutableState) : List Call → List (MutableState × Call)
  | [] => []
  | call :: calls => (s, call) :: trace (service.handle s call).1 calls

end RendezvousService

end Komms.Rendezvous
