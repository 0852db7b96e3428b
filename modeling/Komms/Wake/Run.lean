import Komms.Wake.Service

/-!
# Runs of the wake gateway

Requests are served concurrently, so their steps interleave in any way.  A `System` is the gateway
with its database, the requests between two of their steps, and the history of what it did.  `step`
carries one step of one request out; a step of a request that does not wait for it does nothing.

Sealing is ideal: a capability opens to the payload it was issued for, and nothing else opens.

`Legal` is what the surroundings guarantee: the clock, read when a request is received, does not go
back, and the identifiers and boxes of issued capabilities are new.
-/

namespace Komms.Wake

inductive ProviderErrorClass where
  | unavailable
  | rateLimited
  | authentication
  | invalidDestination
  | other
  deriving DecidableEq

/-- A request whose capability was opened, with the time at which it was received. -/
structure Request where
  payload : WakeCapabilityPayload
  requestNonce : Octets 16
  now : ℕ
  deriving DecidableEq

namespace Request

def capabilityId (request : Request) : Octets 16 := request.payload.capabilityId

def key (request : Request) : Octets 16 × Octets 16 := (request.capabilityId, request.requestNonce)

def minute (request : Request) : ℕ := request.now / 60

end Request

/-- A call of the provider, with the digest of its destination. -/
structure Call where
  request : Request
  destination : Octets 32
  deriving DecidableEq

structure System where
  durable : GatewayStateStore
  runtime : RuntimeState
  destinationSecret : Octets 32
  /-- The issued capabilities with what they open to. -/
  issued : List (Bytes × WakeCapabilityPayload)
  /-- Triggers that wait for the database. -/
  received : List Request
  /-- Triggers that wait for the tables in memory. -/
  authorized : List Request
  /-- Triggers that wait for the provider. -/
  dispatched : List Call
  /-- Triggers whose destination the provider reported invalid. -/
  invalid : List Request
  /-- Revocations that wait for the database. -/
  revoking : List Request
  /-- The last time that was read. -/
  clock : ℕ
  /-- The latest time of a transaction. -/
  durableAt : ℕ
  /-- The latest time used with the tables in memory. -/
  runtimeAt : ℕ
  /-- The fresh authorizations, with the capabilities revoked before each. -/
  fresh : List (Request × List (Octets 16))
  /-- The capabilities for which a revocation returned true. -/
  revoked : List (Octets 16)
  /-- What this run of the gateway decided to send. -/
  decided : List Call
  /-- The calls of this run of the gateway. -/
  called : List Call
  /-- The calls of all its runs. -/
  calls : List Call

namespace System

/-- A gateway that starts on a database, with nothing issued yet. -/
def start (durable : GatewayStateStore) (destinationSecret : Octets 32) : System where
  durable := durable
  runtime := .empty
  destinationSecret := destinationSecret
  issued := []
  received := []
  authorized := []
  dispatched := []
  invalid := []
  revoking := []
  clock := 0
  durableAt := 0
  runtimeAt := 0
  fresh := []
  revoked := []
  decided := []
  called := []
  calls := []

variable (g : System)

def openCapability (capability : Bytes) : Option WakeCapabilityPayload :=
  (g.issued.find? fun entry => entry.1 = capability).map Prod.snd

/-! ### Registration -/

/-- The identifier and the nonce of a capability: the first draw of eight with neither zero. -/
def drawn (draws : List (Octets 16 × Octets 24)) : Option (Octets 16 × Octets 24) :=
  (draws.take 8).find? fun draw => draw.1 ≠ .zero 16 ∧ draw.2 ≠ .zero 24

/-- The payload that `try_register` seals. -/
def registered (limits : GatewayLimits) (request : WakeRegisterRequest)
    (draws : List (Octets 16 × Octets 24)) (now : ℕ) : Except WakeError WakeCapabilityPayload := do
  rejectIf (2 ^ 64 ≤ now + limits.capabilityLifetimeSecs) (.invalid "wake expiry overflow")
  let draw ← required .key (drawn draws)
  .ok {
    platform := request.platform
    environment := request.environment
    profile := request.profile
    expiresAt := now + limits.capabilityLifetimeSecs
    capabilityId := draw.1
    providerToken := request.providerToken
    appTopic := request.appTopic }

/-! ### Steps of a request -/

/-- The trigger is opened, and refused when its capability has expired. -/
def receiveTrigger (capability : Bytes) (requestNonce : Octets 16) (now : ℕ) : System :=
  match g.openCapability capability with
  | none => g
  | some payload =>
    if payload.isExpired now then g
    else { g with received := ⟨payload, requestNonce, now⟩ :: g.received }

/-- The same for a revocation, which is carried by a trigger body too. -/
def receiveRevoke (capability : Bytes) (requestNonce : Octets 16) (now : ℕ) : System :=
  match g.openCapability capability with
  | none => g
  | some payload =>
    if payload.isExpired now then g
    else { g with revoking := ⟨payload, requestNonce, now⟩ :: g.revoking }

def authorize (g : System) (request : Request) : System :=
  let g := { g with received := g.received.erase request }
  match g.durable.authorize request.capabilityId request.requestNonce request.payload.expiresAt
      request.now with
  | .error _ => g
  | .ok (answer, durable) =>
    let g := { g with durable := durable, durableAt := max g.durableAt request.now }
    if answer = .fresh then
      { g with
        authorized := request :: g.authorized
        fresh := (request, g.revoked) :: g.fresh }
    else g

def rateAndCoalesce (limits : GatewayLimits) (hmacSha256 : Octets 32 → Bytes → Octets 32)
    (g : System) (request : Request) : System :=
  let g := { g with authorized := g.authorized.erase request }
  match destinationDigest hmacSha256 g.destinationSecret request.payload with
  | .error _ => g
  | .ok destination =>
    let outcome := g.runtime.rateAndCoalesce limits request.capabilityId destination request.now
    let g := { g with runtime := outcome.2, runtimeAt := max g.runtimeAt request.now }
    if outcome.1 then
      { g with
        dispatched := ⟨request, destination⟩ :: g.dispatched
        decided := ⟨request, destination⟩ :: g.decided }
    else g

/-- The provider is called.  It answers with an error, or with none. -/
def send (call : Call) (answer : Option ProviderErrorClass) : System :=
  let g := { g with
    dispatched := g.dispatched.erase call
    called := call :: g.called
    calls := call :: g.calls }
  if answer = some .invalidDestination then { g with invalid := call.request :: g.invalid } else g

/-- The revocation of the capability of a request in the database. -/
def revokeCapability (request : Request) : System :=
  match g.durable.revoke request.capabilityId request.payload.expiresAt request.now with
  | .error _ => g
  | .ok (answer, durable) =>
    let g := { g with durable := durable, durableAt := max g.durableAt request.now }
    if answer then { g with revoked := request.capabilityId :: g.revoked } else g

def counts (g : System) (now : ℕ) : System :=
  match g.durable.counts now with
  | .error _ => g
  | .ok (_, durable) => { g with durable := durable, durableAt := max g.durableAt now }

/-! A trigger with no other request in between. -/

/-- How a trigger was authorized, and whether the provider is to be called. -/
structure Answer where
  authorization : Except WakeError Authorization
  dispatch : Bool
  deriving DecidableEq

/-- The checks of a trigger before the tables in memory are looked at. -/
def ask (request : Request) : Except WakeError (Authorization × GatewayStateStore) := do
  rejectIf (request.payload.isExpired request.now = true) (.invalid "wake capability expired")
  g.durable.authorize request.capabilityId request.requestNonce request.payload.expiresAt
    request.now

def rate (limits : GatewayLimits) (hmacSha256 : Octets 32 → Bytes → Octets 32) (g : System)
    (request : Request) : Bool × RuntimeState :=
  match destinationDigest hmacSha256 g.destinationSecret request.payload with
  | .error _ => (false, g.runtime)
  | .ok destination =>
    g.runtime.rateAndCoalesce limits request.capabilityId destination request.now

/-- `try_trigger` up to the call of the provider. -/
def serve (limits : GatewayLimits) (hmacSha256 : Octets 32 → Bytes → Octets 32) (g : System)
    (request : Request) : Answer × System :=
  match g.ask request with
  | .error e => (⟨.error e, false⟩, g)
  | .ok (answer, durable) =>
    if answer = .fresh then
      (⟨.ok answer, (g.rate limits hmacSha256 request).1⟩,
        { g with durable := durable, runtime := (g.rate limits hmacSha256 request).2 })
    else (⟨.ok answer, false⟩, { g with durable := durable })

/-- The gateway stops, losing its requests, and starts again on the same database. -/
def restart (destinationSecret : Octets 32) : System :=
  { g with
    runtime := .empty
    destinationSecret := destinationSecret
    received := []
    authorized := []
    dispatched := []
    invalid := []
    revoking := []
    runtimeAt := 0
    decided := []
    called := [] }

end System

/-! ### Runs -/

/-- A step.  A body that does not decode is `none`. -/
inductive Step where
  | register (body : Option WakeRegisterRequest) (draws : List (Octets 16 × Octets 24))
      (capability : Bytes) (now : ℕ)
  | receiveTrigger (body : Option (Bytes × Octets 16)) (now : ℕ)
  | receiveRevoke (body : Option (Bytes × Octets 16)) (now : ℕ)
  | authorize (request : Request)
  | rateAndCoalesce (request : Request)
  | send (call : Call) (answer : Option ProviderErrorClass)
  | retire (request : Request)
  | revoke (request : Request)
  | counts (now : ℕ)
  | restart (destinationSecret : Octets 32)

namespace System

def register (limits : GatewayLimits) (g : System) (body : Option WakeRegisterRequest)
    (draws : List (Octets 16 × Octets 24)) (capability : Bytes) (now : ℕ) : System :=
  match body with
  | none => g
  | some request =>
    match registered limits request draws now with
    | .error _ => g
    | .ok payload => { g with issued := (capability, payload) :: g.issued }

def step (limits : GatewayLimits) (hmacSha256 : Octets 32 → Bytes → Octets 32) (g : System) :
    Step → System
  | .register body draws capability now =>
    ({ g with clock := now }).register limits body draws capability now
  | .receiveTrigger body now =>
    body.elim { g with clock := now } fun body =>
      ({ g with clock := now }).receiveTrigger body.1 body.2 now
  | .receiveRevoke body now =>
    body.elim { g with clock := now } fun body =>
      ({ g with clock := now }).receiveRevoke body.1 body.2 now
  | .authorize request => if request ∈ g.received then g.authorize request else g
  | .rateAndCoalesce request =>
    if request ∈ g.authorized then g.rateAndCoalesce limits hmacSha256 request else g
  | .send call answer => if call ∈ g.dispatched then g.send call answer else g
  | .retire request =>
    if request ∈ g.invalid then
      ({ g with invalid := g.invalid.erase request }).revokeCapability request
    else g
  | .revoke request =>
    if request ∈ g.revoking then
      ({ g with revoking := g.revoking.erase request }).revokeCapability request
    else g
  | .counts now => ({ g with clock := now }).counts now
  | .restart destinationSecret => g.restart destinationSecret

def Legal (g : System) : Step → Prop
  | .register _ draws capability now =>
    g.clock ≤ now ∧ capability ∉ g.issued.map Prod.fst ∧
      ∀ draw ∈ drawn draws, draw.1 ∉ g.issued.map fun entry => entry.2.capabilityId
  | .receiveTrigger _ now | .receiveRevoke _ now | .counts now => g.clock ≤ now
  | _ => True

instance decidableLegal (g : System) : (s : Step) → Decidable (g.Legal s)
  | .register _ draws capability now => inferInstanceAs (Decidable (g.clock ≤ now ∧
    capability ∉ g.issued.map Prod.fst ∧
      ∀ draw ∈ drawn draws, draw.1 ∉ g.issued.map fun entry => entry.2.capabilityId))
  | .receiveTrigger _ now | .receiveRevoke _ now | .counts now =>
    inferInstanceAs (Decidable (g.clock ≤ now))
  | .authorize _ | .rateAndCoalesce _ | .send _ _ | .retire _ | .revoke _ | .restart _ =>
    .isTrue trivial

/-- Runs of the gateway in which every step is legal and satisfies a condition on the state that it
is taken in.  The last step comes first. -/
inductive Run (limits : GatewayLimits) (hmacSha256 : Octets 32 → Bytes → Octets 32)
    (allowed : System → Step → Prop) (g₀ : System) : List Step → System → Prop where
  | start : Run limits hmacSha256 allowed g₀ [] g₀
  | step {steps : List Step} {g : System} {s : Step}
      (hrun : Run limits hmacSha256 allowed g₀ steps g)
      (hlegal : g.Legal s) (hallowed : allowed g s) :
      Run limits hmacSha256 allowed g₀ (s :: steps) (g.step limits hmacSha256 s)

/-! A list of steps, the first one first, played from a state. -/

section

variable (limits : GatewayLimits) (hmacSha256 : Octets 32 → Bytes → Octets 32)
  (allowed : System → Step → Prop)

def play (g : System) (steps : List Step) : System := steps.foldl (step limits hmacSha256) g

/-- Every step is legal and allowed where it is taken. -/
def Follows : System → List Step → Prop
  | _, [] => True
  | g, s :: steps => (g.Legal s ∧ allowed g s) ∧ Follows (g.step limits hmacSha256 s) steps

instance decidableFollows [h : ∀ g s, Decidable (allowed g s)] :
    (g : System) → (steps : List Step) → Decidable (Follows limits hmacSha256 allowed g steps)
  | _, [] => .isTrue trivial
  | g, s :: steps =>
    haveI := decidableFollows (g.step limits hmacSha256 s) steps
    inferInstanceAs (Decidable ((_ ∧ _) ∧ _))

end

theorem Run.play {limits : GatewayLimits} {hmacSha256 : Octets 32 → Bytes → Octets 32}
    {allowed : System → Step → Prop} {g₀ g : System} {past : List Step}
    (hrun : Run limits hmacSha256 allowed g₀ past g) {steps : List Step}
    (h : Follows limits hmacSha256 allowed g steps) :
    Run limits hmacSha256 allowed g₀ (steps.reverse ++ past) (g.play limits hmacSha256 steps) := by
  induction steps generalizing g past with
  | nil => exact hrun
  | cons s steps ih =>
    rw [List.reverse_cons, List.append_assoc]
    exact ih (hrun.step h.1.1 h.1.2) h.2

end System

end Komms.Wake
