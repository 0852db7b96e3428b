import Mathlib.Data.Finset.Card
import Mathlib.Data.List.MinMax
import Komms.Lib.Bytes
import Komms.Lib.Effect
import Komms.Lib.HashMap
import Komms.Lib.Sorting

/-!
# Transient calls

The calls of `kult-node/src/calls.rs` and the operations on the map of them: those of the local
user, the controls of authenticated peer devices, the media pump and the sweep.  What they read
elsewhere in the node (contacts, sessions, carriers, streams) and how it answers is a
`Surroundings`, one for each operation, so that everything around the calls may change between two
of them.  The stream layer's state of a call is a parameter `Media`.
-/

namespace Komms.Calls

open HashMap

def callOfferLifetimeSecs : ℕ := 60
def maxCallOfferLifetimeSecs : ℕ := 90
def terminalCallRetentionSecs : ℕ := 300
def maxTransientCalls : ℕ := 32
def maxMediaHandshakeFailures : ℕ := 3
def mediaRouteLossGraceSecs : ℕ := 2

inductive CallError where
  | unknownPeer
  | unknownCall
  | invalidCall
  | callBusy
  | callUnsupported
  | callUnavailable
  | noSession
  /-- The call-control codec refused a field. -/
  | protocol
  /-- What the store, a transport or the media cipher reported. -/
  | environment
  deriving DecidableEq

/-! ### Rows -/

inductive CallDirection where
  | outgoing
  | incoming
  deriving DecidableEq

inductive CallPhase where
  | ringing
  | connecting
  | active
  | ended
  deriving DecidableEq

inductive CallEndReason where
  | declined
  | busy
  | cancelled
  | hungUp
  | expired
  | answeredElsewhere
  | routeLost
  deriving DecidableEq

structure CallInfo where
  id : Octets 16
  peer : Octets 32
  direction : CallDirection
  phase : CallPhase
  initiatorDevice : Octets 32
  responderDevice : Option (Octets 32)
  expiresAt : ℕ
  endReason : Option CallEndReason
  deriving DecidableEq

structure ActiveCall (Media : Type) where
  info : CallInfo
  masterSecret : Option (Octets 32)
  offeredDevices : List (Octets 32)
  negativeResponses : Finset (Octets 32)
  sawDecline : Bool
  updatedAt : ℕ
  media : Option Media
  mediaFailures : ℕ
  mediaLostAt : Option ℕ

/-- A row as an offer creates it. -/
def ActiveCall.offered {Media : Type} (info : CallInfo) (masterSecret : Octets 32)
    (offeredDevices : List (Octets 32)) (now : ℕ) : ActiveCall Media :=
  ⟨info, some masterSecret, offeredDevices, ∅, false, now, none, 0, none⟩

abbrev CallTable (Media : Type) := HashMap (Octets 16) (ActiveCall Media)

abbrev Entry (Media : Type) := Sigma fun _ : Octets 16 => ActiveCall Media

/-- What an operation leaves: the rows it changed stay changed when it fails later on. -/
abbrev CallEffect (Media α : Type) := Effect (CallTable Media) CallError α

section

variable {Media : Type}

def hasLiveCall (calls : CallTable Media) : Bool :=
  calls.entries.any fun entry => entry.2.info.phase ≠ .ended

/-! ### Ending -/

def ActiveCall.ended (call : ActiveCall Media) (reason : CallEndReason) (now : ℕ) :
    ActiveCall Media :=
  let info := { call.info with phase := .ended, endReason := some reason }
  { call with info, media := none, masterSecret := none, updatedAt := now }

def endCall (id : Octets 16) (reason : CallEndReason) (now : ℕ) (calls : CallTable Media) :
    CallEffect Media Unit :=
  match calls.lookup id with
  | none => ⟨calls, .error .unknownCall⟩
  | some call =>
    if call.info.phase = .ended then ⟨calls, .ok ()⟩
    else ⟨calls.insert id (call.ended reason now), .ok ()⟩

/-! ### Trimming -/

/-- A row that is not ended, or not for long. -/
def ActiveCall.isRecent (now : ℕ) (call : ActiveCall Media) : Bool :=
  call.info.phase ≠ .ended || now - call.updatedAt ≤ terminalCallRetentionSecs

/-- `min_by_key` over the ended rows: the first of the oldest ones, as the map is visited. -/
def oldestEnded (order : Order (Entry Media)) (calls : CallTable Media) : Option (Octets 16) :=
  (((order.arrange calls.entries).filter fun entry => entry.2.info.phase = .ended).argmin
    fun entry => entry.2.updatedAt).map Sigma.fst

/-- The loop that makes room for one more row.  It removes a row in each round, so there are at most
as many rounds as rows. -/
def dropExcess (order : Order (Entry Media)) : ℕ → CallTable Media → CallEffect Media Unit
  | 0, calls => ⟨calls, .ok ()⟩
  | rounds + 1, calls =>
    if len calls < maxTransientCalls then ⟨calls, .ok ()⟩
    else match oldestEnded order calls with
      | none => ⟨calls, .error .callBusy⟩
      | some oldest => dropExcess order rounds (calls.erase oldest)

def trimCalls (order : Order (Entry Media)) (now : ℕ) (calls : CallTable Media) :
    CallEffect Media Unit :=
  let calls := retain (fun _ call => call.isRecent now) calls
  dropExcess order (len calls) calls

end

/-! ### Controls -/

inductive CallHangupReason where
  | ended
  | answeredElsewhere
  deriving DecidableEq

inductive CallControl where
  | offer (callId : Octets 16) (initiatorDevice : Octets 32) (expiresAt : ℕ)
    (masterSecret : Octets 32)
  | answer (callId : Octets 16) (initiatorDevice responderDevice : Octets 32) (expiresAt : ℕ)
  | decline (callId : Octets 16) (initiatorDevice responderDevice : Octets 32) (expiresAt : ℕ)
  | busy (callId : Octets 16) (initiatorDevice responderDevice : Octets 32) (expiresAt : ℕ)
  | cancel (callId : Octets 16) (initiatorDevice : Octets 32) (expiresAt : ℕ)
  | hangup (callId : Octets 16) (initiatorDevice responderDevice : Octets 32) (expiresAt : ℕ)
    (reason : CallHangupReason)
  deriving DecidableEq

namespace CallControl

def callId : CallControl → Octets 16
  | offer id _ _ _ | answer id _ _ _ | decline id _ _ _ | busy id _ _ _ | cancel id _ _
  | hangup id _ _ _ _ => id

def initiatorDevice : CallControl → Octets 32
  | offer _ initiator _ _ | answer _ initiator _ _ | decline _ initiator _ _
  | busy _ initiator _ _ | cancel _ initiator _ | hangup _ initiator _ _ _ => initiator

def expiresAt : CallControl → ℕ
  | offer _ _ expires _ | answer _ _ _ expires | decline _ _ _ expires | busy _ _ _ expires
  | cancel _ _ expires | hangup _ _ _ expires _ => expires

/-- The secret of an offer, or the responding device. -/
def bound : CallControl → Option (Octets 32)
  | offer _ _ _ secret => some secret
  | answer _ _ responder _ | decline _ _ responder _ | busy _ _ responder _
  | hangup _ _ responder _ _ => some responder
  | cancel _ _ _ => none

/-- What `encode_call_control` refuses. -/
def encode (control : CallControl) : Except CallError Unit :=
  rejectIf (control.callId = .zero 16 ∨ control.initiatorDevice = .zero 32 ∨ control.expiresAt = 0 ∨
    control.bound = some (.zero 32)) .protocol

/-- The clock at which a queued control is given up. -/
def deadline (control : CallControl) (now : ℕ) : ℕ :=
  match control with
  | hangup _ _ _ _ _ => min (now + 30) (2 ^ 64 - 1)
  | _ => control.expiresAt

end CallControl

/-! ### Surroundings -/

inductive CarrierCapability where
  | offlineOrUnknown
  | bulk
  | meshOnly
  | realtime
  deriving DecidableEq

inductive CallUnavailableReason where
  | offlineOrUnknown
  | bulkOnly
  | meshOnly
  | missingSession
  | unsupported
  | alreadyInCall
  deriving DecidableEq

inductive CallRole where
  | initiator
  | responder
  deriving DecidableEq

inductive MediaFailure where
  | link
  | authentication
  deriving DecidableEq

structure CallMediaContext where
  callId : Octets 16
  initiatorAccount : Octets 32
  responderAccount : Octets 32
  initiatorDevice : Octets 32
  responderDevice : Octets 32
  deriving DecidableEq

/-- A stored device of a contact. -/
structure ContactDevice where
  account : Octets 32
  device : Octets 32
  revoked : Bool
  deriving DecidableEq

structure Surroundings (Stream Media : Type) where
  localAccount : Octets 32
  localDevice : Octets 32
  hasContact : Octets 32 → Except CallError Bool
  contactDevices : Except CallError (List ContactDevice)
  carrier : Octets 32 → Except CallError CarrierCapability
  hasSession : Octets 32 → Bool
  supportsCalls : Octets 32 → Bool
  requestRendezvousRefresh : Octets 32 → Except CallError Unit
  /-- `commit_pairwise_envelopes` of a padded control. -/
  commitEnvelopes : List (Octets 32) → CallControl → Except CallError Unit
  /-- What the transports hand over, in the order in which they are asked. -/
  incomingStreams : List (Except CallError Stream)
  /-- The first stream that opens to a device. -/
  openCallStream : Octets 32 → Except CallError (Option Stream)
  newMedia : Stream → Octets 32 → CallMediaContext → CallRole → Except CallError Media
  /-- What pumping the stream of a call comes to. -/
  pump : Octets 16 → Media → Media × Except MediaFailure Bool
  /-- The queue rows of expired controls are removed. -/
  maintainQueue : Except CallError Unit
  /-- The order in which the map of calls is visited. -/
  order : Order (Entry Media)

/-- A random value that is not zero. -/
structure Nonzero (n : ℕ) where
  value : Octets n
  ne_zero : value ≠ .zero n

section

variable {Stream Media : Type} (around : Surroundings Stream Media)

def accountForDevice (device : Octets 32) : Except CallError (Octets 32) := do
  let endpoints ← around.contactDevices
  .ok (((endpoints.find? fun endpoint => endpoint.device = device).map ContactDevice.account).getD
    device)

def callDevices (peer : Octets 32) : Except CallError (List (Octets 32)) := do
  let endpoints ← around.contactDevices
  let devices := (endpoints.filter fun endpoint => endpoint.account = peer && !endpoint.revoked).map
    ContactDevice.device
  let stored ← if devices = [] then around.hasContact peer else .ok false
  .ok (sortDedup id (if stored then [peer] else devices))

variable (id : Octets 16) (now : ℕ) (call : ActiveCall Media) (calls : CallTable Media)
  (peer : Octets 32)

def queueCallControl (devices : List (Octets 32)) (control : CallControl) (now : ℕ) :
    Except CallError Unit := do
  rejectIf (devices = []) .noSession
  control.encode
  rejectIf (control.deadline now ≤ now) .invalidCall
  forEach (fun device => do
    let account ← accountForDevice around device
    rejectIf (account ≠ peer) .invalidCall) devices
  around.commitEnvelopes devices control

/-! ### Starting -/

def callAvailability : Except CallError (Option CallUnavailableReason) := do
  let known ← around.hasContact peer
  rejectIf (known = false) .unknownPeer
  if hasLiveCall calls then .ok (some .alreadyInCall)
  else match ← around.carrier peer with
    | .offlineOrUnknown => .ok (some .offlineOrUnknown)
    | .bulk => .ok (some .bulkOnly)
    | .meshOnly => .ok (some .meshOnly)
    | .realtime => do
      let devices ← callDevices around peer
      if devices = [] ∨ ∃ device ∈ devices, around.hasSession device = false then
        .ok (some .missingSession)
      else if ∃ device ∈ devices, around.supportsCalls device = false then .ok (some .unsupported)
      else .ok none

def refuseStart : CallUnavailableReason → Except CallError Unit
  | .unsupported => .error .callUnsupported
  | .alreadyInCall => .error .callBusy
  | .missingSession => .error .noSession
  | .offlineOrUnknown | .bulkOnly | .meshOnly => do
    around.requestRendezvousRefresh peer
    .error .callUnavailable

def prepareOffer (callId : Nonzero 16) (masterSecret : Nonzero 32) (now : ℕ) :
    Except CallError (CallTable Media × Unit) := do
  let devices ← callDevices around peer
  let expiresAt := now + callOfferLifetimeSecs
  rejectIf (expiresAt ≥ 2 ^ 64) .invalidCall
  queueCallControl around peer devices
    (.offer callId.value around.localDevice expiresAt masterSecret.value) now
  let info : CallInfo := ⟨callId.value, peer, .outgoing, .ringing, around.localDevice, none,
    expiresAt, none⟩
  .ok (calls.insert callId.value (.offered info masterSecret.value devices now), ())

def startCall (callId : Nonzero 16) (masterSecret : Nonzero 32) (now : ℕ)
    (calls : CallTable Media) : CallEffect Media Unit :=
  match callAvailability around calls peer with
  | .error e => ⟨calls, .error e⟩
  | .ok (some reason) => ⟨calls, refuseStart around peer reason⟩
  | .ok none =>
    (trimCalls around.order now calls).andThen fun calls _ =>
      .ofExcept calls (prepareOffer around calls peer callId masterSecret now)

/-! ### Answering and ending -/

/-- An offer that this device may still answer or decline. -/
def ActiveCall.answerable (now : ℕ) : Prop :=
  call.info.direction = .incoming ∧ call.info.phase = .ringing ∧ now < call.info.expiresAt

instance (call : ActiveCall Media) (now : ℕ) : Decidable (call.answerable now) :=
  inferInstanceAs (Decidable (_ ∧ _ ∧ _))

def ActiveCall.connecting (call : ActiveCall Media) (responder : Octets 32) (now : ℕ) :
    ActiveCall Media :=
  let info := { call.info with phase := .connecting, responderDevice := some responder }
  { call with info, updatedAt := now }

def answerCall : CallEffect Media Unit :=
  match calls.lookup id with
  | none => ⟨calls, .error .unknownCall⟩
  | some call =>
    if ¬ call.answerable now then ⟨calls, .error .invalidCall⟩
    else match queueCallControl around call.info.peer [call.info.initiatorDevice]
        (.answer id call.info.initiatorDevice around.localDevice call.info.expiresAt) now with
      | .error e => ⟨calls, .error e⟩
      | .ok _ => ⟨calls.insert id (call.connecting around.localDevice now), .ok ()⟩

def sendAndEnd (devices : List (Octets 32)) (control : CallControl) (reason : CallEndReason)
    (now : ℕ) (calls : CallTable Media) : CallEffect Media Unit :=
  match queueCallControl around call.info.peer devices control now with
  | .error e => ⟨calls, .error e⟩
  | .ok _ => endCall id reason now calls

def declineCall : CallEffect Media Unit :=
  match calls.lookup id with
  | none => ⟨calls, .error .unknownCall⟩
  | some call =>
    if ¬ call.answerable now then ⟨calls, .error .invalidCall⟩
    else sendAndEnd around id call [call.info.initiatorDevice]
      (.decline id call.info.initiatorDevice around.localDevice call.info.expiresAt) .declined now
      calls

def cancelCall : CallEffect Media Unit :=
  match calls.lookup id with
  | none => ⟨calls, .error .unknownCall⟩
  | some call =>
    if call.info.direction ≠ .outgoing ∨ call.info.phase ≠ .ringing then
      ⟨calls, .error .invalidCall⟩
    else sendAndEnd around id call call.offeredDevices
      (.cancel id call.info.initiatorDevice call.info.expiresAt) .cancelled now calls

def hangupCall : CallEffect Media Unit :=
  match calls.lookup id with
  | none => ⟨calls, .error .unknownCall⟩
  | some call =>
    if call.info.phase ≠ .connecting ∧ call.info.phase ≠ .active then
      ⟨calls, .error .invalidCall⟩
    else match call.info.responderDevice with
      | none => ⟨calls, .error .invalidCall⟩
      | some responder =>
        let target := match call.info.direction with
          | .outgoing => responder
          | .incoming => call.info.initiatorDevice
        sendAndEnd around id call [target]
          (.hangup id call.info.initiatorDevice responder call.info.expiresAt .ended) .hungUp
          now calls

def markCallActive : CallEffect Media Unit :=
  match calls.lookup id with
  | none => ⟨calls, .error .unknownCall⟩
  | some call =>
    if call.info.phase ≠ .connecting ∨ call.info.responderDevice = none then
      ⟨calls, .error .invalidCall⟩
    else
      let active := { call with info := { call.info with phase := .active }, updatedAt := now }
      ⟨calls.insert id active, .ok ()⟩

/-! ### Controls of peers -/

/-- The fields that every control of a call repeats. -/
def ActiveCall.matching (direction : CallDirection) (peer initiator : Octets 32) (expiresAt : ℕ) :
    Prop :=
  call.info.direction = direction ∧ call.info.peer = peer ∧ call.info.initiatorDevice = initiator ∧
    call.info.expiresAt = expiresAt

instance (call : ActiveCall Media) (direction : CallDirection) (peer initiator : Octets 32)
    (expiresAt : ℕ) : Decidable (call.matching direction peer initiator expiresAt) :=
  inferInstanceAs (Decidable (_ ∧ _ ∧ _ ∧ _))

def applyOffer (peerDevice : Octets 32) (id : Octets 16) (initiator : Octets 32) (expiresAt : ℕ)
    (masterSecret : Octets 32) (now : ℕ) (calls : CallTable Media) : CallEffect Media Unit :=
  if initiator ≠ peerDevice ∨ expiresAt ≤ now ∨
      expiresAt > min (now + maxCallOfferLifetimeSecs) (2 ^ 64 - 1) then
    ⟨calls, .error .invalidCall⟩
  else if id ∈ calls then ⟨calls, .ok ()⟩
  -- A busy answer is queued; whether that succeeds is ignored.
  else if hasLiveCall calls then ⟨calls, .ok ()⟩
  else (trimCalls around.order now calls).andThen fun calls _ =>
    let info : CallInfo := ⟨id, peer, .incoming, .ringing, initiator, none, expiresAt, none⟩
    ⟨calls.insert id (.offered info masterSecret [around.localDevice] now), .ok ()⟩

/-- The devices that lose the race are told so; whether that succeeds is ignored. -/
def applyAnswer (peerDevice : Octets 32) (id : Octets 16) (initiator responder : Octets 32)
    (expiresAt now : ℕ) (calls : CallTable Media) : CallEffect Media Unit :=
  if responder ≠ peerDevice then ⟨calls, .error .invalidCall⟩
  else match calls.lookup id with
    | none => ⟨calls, .ok ()⟩
    | some call =>
      if ¬ call.matching .outgoing peer initiator expiresAt then ⟨calls, .error .invalidCall⟩
      else if call.info.phase = .ringing ∧ now < expiresAt then
        ⟨calls.insert id (call.connecting responder now), .ok ()⟩
      else ⟨calls, .ok ()⟩

/-- A decline, or a busy answer. -/
def applyNegative (isDecline : Bool) (peer peerDevice : Octets 32) (id : Octets 16)
    (initiator responder : Octets 32) (expiresAt now : ℕ) (calls : CallTable Media) :
    CallEffect Media Unit :=
  if responder ≠ peerDevice then ⟨calls, .error .invalidCall⟩
  else match calls.lookup id with
    | none => ⟨calls, .ok ()⟩
    | some call =>
      if ¬ call.matching .outgoing peer initiator expiresAt then ⟨calls, .error .invalidCall⟩
      else if call.info.phase ≠ .ringing then ⟨calls, .ok ()⟩
      else
        let call := { call with
          negativeResponses := insert responder call.negativeResponses
          sawDecline := call.sawDecline || isDecline }
        let calls := calls.insert id call
        if call.negativeResponses.card ≥ call.offeredDevices.length then
          endCall id (if call.sawDecline then .declined else .busy) now calls
        else ⟨calls, .ok ()⟩

def applyCancel (peerDevice : Octets 32) (id : Octets 16) (initiator : Octets 32)
    (expiresAt now : ℕ) (calls : CallTable Media) : CallEffect Media Unit :=
  if initiator ≠ peerDevice then ⟨calls, .error .invalidCall⟩
  else match calls.lookup id with
    | none => ⟨calls, .ok ()⟩
    | some call =>
      if ¬ call.matching .incoming peer initiator expiresAt then ⟨calls, .error .invalidCall⟩
      else if call.info.phase = .ended then ⟨calls, .ok ()⟩
      else endCall id .cancelled now calls

/-- A hangup that the peer device may send. -/
def validHangup (peerDevice initiator responder : Octets 32) (expiresAt : ℕ)
    (reason : CallHangupReason) : Prop :=
  match call.info.direction with
  | .outgoing => call.matching .outgoing peer initiator expiresAt ∧ responder = peerDevice ∧
      call.info.responderDevice = some responder ∧ reason = .ended
  | .incoming => call.matching .incoming peer initiator expiresAt ∧ initiator = peerDevice ∧
      responder = around.localDevice

instance (call : ActiveCall Media) (peer peerDevice initiator responder : Octets 32)
    (expiresAt : ℕ) (reason : CallHangupReason) :
    Decidable (validHangup around call peer peerDevice initiator responder expiresAt reason) := by
  unfold validHangup
  cases call.info.direction <;> infer_instance

def applyHangup (peerDevice : Octets 32) (id : Octets 16) (initiator responder : Octets 32)
    (expiresAt : ℕ) (reason : CallHangupReason) (now : ℕ) (calls : CallTable Media) :
    CallEffect Media Unit :=
  match calls.lookup id with
  | none => ⟨calls, .ok ()⟩
  | some call =>
    if ¬ validHangup around call peer peerDevice initiator responder expiresAt reason then
      ⟨calls, .error .invalidCall⟩
    else if call.info.phase = .ended then ⟨calls, .ok ()⟩
    else
      let endReason := match reason with
        | .ended => .hungUp
        | .answeredElsewhere => .answeredElsewhere
      endCall id endReason now calls

def applyCallControl (peerDevice : Octets 32) (control : CallControl) (now : ℕ)
    (calls : CallTable Media) : CallEffect Media Unit :=
  match accountForDevice around peerDevice with
  | .error e => ⟨calls, .error e⟩
  | .ok account =>
    if account ≠ peer then ⟨calls, .error .invalidCall⟩
    else match control with
      | .offer id initiator expiresAt masterSecret =>
        applyOffer around peer peerDevice id initiator expiresAt masterSecret now calls
      | .answer id initiator responder expiresAt =>
        applyAnswer peer peerDevice id initiator responder expiresAt now calls
      | .decline id initiator responder expiresAt =>
        applyNegative true peer peerDevice id initiator responder expiresAt now calls
      | .busy id initiator responder expiresAt =>
        applyNegative false peer peerDevice id initiator responder expiresAt now calls
      | .cancel id initiator expiresAt =>
        applyCancel peer peerDevice id initiator expiresAt now calls
      | .hangup id initiator responder expiresAt reason =>
        applyHangup around peer peerDevice id initiator responder expiresAt reason now calls

/-! ### Media -/

def callMediaContext (localAccount : Octets 32) (info : CallInfo) :
    Except CallError CallMediaContext := do
  let responder ← required .invalidCall info.responderDevice
  match info.direction with
  | .outgoing => .ok ⟨info.id, localAccount, info.peer, info.initiatorDevice, responder⟩
  | .incoming => .ok ⟨info.id, info.peer, localAccount, info.initiatorDevice, responder⟩

/-- The stream layer's state for a call that is connecting. -/
def prepareMedia (stream : Stream) : Except CallError Media := do
  rejectIf (call.info.phase ≠ .connecting ∨ call.media.isSome) .invalidCall
  let secret ← required .invalidCall call.masterSecret
  let context ← callMediaContext around.localAccount call.info
  around.newMedia stream secret context
    (match call.info.direction with
      | .outgoing => .initiator
      | .incoming => .responder)

def installCallStream (stream : Stream) (calls : CallTable Media) : CallEffect Media Unit :=
  match calls.lookup id with
  | none => ⟨calls, .error .unknownCall⟩
  | some call =>
    match prepareMedia around call stream with
    | .error e => ⟨calls, .error e⟩
    | .ok media => ⟨calls.insert id { call with media := some media }, .ok ()⟩

/-- The entries of calls with a property, as the map is visited. -/
def idsWhere (p : ActiveCall Media → Bool) (calls : CallTable Media) : List (Octets 16) :=
  ((around.order.arrange calls.entries).filter fun entry => p entry.2).map Sigma.fst

/-- A call that waits for its stream. -/
def ActiveCall.awaitsStream (direction : CallDirection) (call : ActiveCall Media) : Bool :=
  call.info.direction = direction && call.info.phase = .connecting && call.media.isNone

/-- A stream that no call waits for is dropped. -/
def acceptStream (arrival : Except CallError Stream) (calls : CallTable Media) :
    CallEffect Media Unit :=
  match arrival with
  | .error e => ⟨calls, .error e⟩
  | .ok stream =>
    match (idsWhere around (ActiveCall.awaitsStream .incoming) calls).head? with
    | none => ⟨calls, .ok ()⟩
    | some id => installCallStream around id stream calls

def acceptIncomingCallStreams : CallEffect Media Unit :=
  .forEach (acceptStream around) (around.incomingStreams.take 16) calls

def openOutgoingCallStream (id : Octets 16) (calls : CallTable Media) : CallEffect Media Unit :=
  match (calls.lookup id).bind fun call => call.info.responderDevice with
  | none => ⟨calls, .error .invalidCall⟩
  | some responder =>
    match around.openCallStream responder with
    | .error e => ⟨calls, .error e⟩
    | .ok (some stream) => installCallStream around id stream calls
    | .ok none => endCall id .routeLost now calls

/-- What pumping a call's stream asks for afterwards. -/
inductive PumpOutcome where
  | retry
  | lost
  | ended
  deriving DecidableEq

/-- The loop body of the pump: the row with its new stream state, and what is left to do. -/
def pumpCall (id : Octets 16) (call : ActiveCall Media) : ActiveCall Media × Option PumpOutcome :=
  match call.media with
  | none => (call, none)
  | some media =>
    let (media, result) := around.pump id media
    let call := { call with media := some media }
    match result with
    | .ok ready =>
      if ready = true ∧ call.info.phase = .connecting then
        let info := { call.info with phase := .active }
        ({ call with info, masterSecret := none, updatedAt := now }, none)
      else (call, none)
    | .error _ =>
      if call.info.direction = .incoming ∧ call.info.phase = .connecting ∧
          call.mediaFailures < maxMediaHandshakeFailures then
        ({ call with mediaFailures := min (call.mediaFailures + 1) 255 }, some .retry)
      else if call.info.phase = .active then (call, some .lost)
      else (call, some .ended)

def modifyCall (f : ActiveCall Media → ActiveCall Media) (id : Octets 16)
    (calls : CallTable Media) : CallEffect Media Unit :=
  match calls.lookup id with
  | none => ⟨calls, .ok ()⟩
  | some call => ⟨calls.insert id (f call), .ok ()⟩

/-- The calls with an outcome, before the rows are changed. -/
def pumpedTo (outcome : PumpOutcome) (calls : CallTable Media) : List (Octets 16) :=
  ((around.order.arrange calls.entries).filter fun entry =>
    (pumpCall around now entry.1 entry.2).2 = some outcome).map Sigma.fst

def pumpStreams : CallEffect Media Unit :=
  let retry := pumpedTo around now .retry calls
  let lost := pumpedTo around now .lost calls
  let ended := pumpedTo around now .ended calls
  let pumped := mapValues (fun id call => (pumpCall around now id call).1) calls
  (Effect.forEach (modifyCall fun call => { call with media := none }) retry pumped).andThen
    fun calls _ => (Effect.forEach (modifyCall fun call =>
        { call with media := none, mediaLostAt := some now, updatedAt := now }) lost calls).andThen
      fun calls _ => .forEach (fun id => endCall id .routeLost now) ended calls

def pumpCallMedia : CallEffect Media Unit :=
  (acceptIncomingCallStreams around calls).andThen fun calls _ =>
    (Effect.forEach (openOutgoingCallStream around now)
      (idsWhere around (ActiveCall.awaitsStream .outgoing) calls) calls).andThen
        fun calls _ => pumpStreams around now calls

/-! ### Sweeping -/

/-- The stream of an active call has been lost for long enough. -/
def ActiveCall.routeLost : Bool :=
  call.info.phase = .active &&
    call.mediaLostAt.any fun lostAt => mediaRouteLossGraceSecs ≤ now - lostAt

def sweepCalls : CallEffect Media Unit :=
  (Effect.forEach (fun id => endCall id .expired now) (idsWhere around (fun call =>
      call.info.phase = .ringing && call.info.expiresAt ≤ now) calls) calls).andThen fun calls _ =>
    (Effect.forEach (fun id => endCall id .routeLost now)
      (idsWhere around (ActiveCall.routeLost now) calls) calls).andThen fun calls _ =>
        match around.maintainQueue with
        | .error e => ⟨calls, .error e⟩
        | .ok _ => trimCalls around.order now calls

/-! ### Runs -/

end

inductive Operation where
  | start (peer : Octets 32) (callId : Nonzero 16) (masterSecret : Nonzero 32)
  | answer (id : Octets 16)
  | decline (id : Octets 16)
  | cancel (id : Octets 16)
  | hangup (id : Octets 16)
  | markActive (id : Octets 16)
  | pumpMedia
  | control (peer peerDevice : Octets 32) (control : CallControl)
  | sweep

/-- An operation at a clock, with its surroundings. -/
structure Step (Stream Media : Type) where
  operation : Operation
  now : ℕ
  around : Surroundings Stream Media

variable {Stream Media : Type}

def Step.perform (step : Step Stream Media) (calls : CallTable Media) : CallEffect Media Unit :=
  match step.operation with
  | .start peer callId masterSecret =>
    startCall step.around peer callId masterSecret step.now calls
  | .answer id => answerCall step.around id step.now calls
  | .decline id => declineCall step.around id step.now calls
  | .cancel id => cancelCall step.around id step.now calls
  | .hangup id => hangupCall step.around id step.now calls
  | .markActive id => markCallActive id step.now calls
  | .pumpMedia => pumpCallMedia step.around step.now calls
  | .control peer peerDevice control =>
    applyCallControl step.around peer peerDevice control step.now calls
  | .sweep => sweepCalls step.around step.now calls

/-- The calls after a sequence of operations, failed ones included. -/
def run (calls : CallTable Media) (steps : List (Step Stream Media)) : CallTable Media :=
  steps.foldl (fun calls step => (step.perform calls).state) calls

end Komms.Calls
