import Komms.Wake.Equiv.Ledger
import Komms.Wake.Equiv.Runtime

/-!
# Safety of the wake gateway

`Safe` collects what the gateway promises about the calls of its push provider.  The promises rest
on two invariants over runs: `Ledger`, about the database and the requests authorized by it, and
`Rated`, about the tables in memory and the calls of one run of the gateway.

Both need the steps in the order of the clock (`safe_of_inOrder`).  A request keeps the time at
which it was received, and may reach a lock after requests that were received later
(`Sample.late_steps`).
-/

namespace Komms.Wake

open List

namespace System

/-- The promises of the gateway.  A call counts for the time of its request. -/
structure Safe (limits : GatewayLimits) (g : System) : Prop where
  /-- A nonce is used once with a capability. -/
  once : (g.calls.map fun call => call.request.key).Nodup
  unexpired : ∀ call ∈ g.calls, call.request.now < call.request.payload.expiresAt
  /-- No revocation had returned true when the trigger was authorized. -/
  unrevoked : ∀ call ∈ g.calls, ∃ revoked, (call.request, revoked) ∈ g.fresh ∧
    call.request.capabilityId ∉ revoked
  /-- Calls for one destination are apart. -/
  apart : g.called.Pairwise fun a b => a.request.payload.target = b.request.payload.target →
    a.request.now + limits.coalesceSeconds ≤ b.request.now ∨
      b.request.now + limits.coalesceSeconds ≤ a.request.now
  perCapability : ∀ capabilityId minute, g.called.countP (fun call =>
    call.request.capabilityId = capabilityId ∧ call.request.minute = minute) ≤
      limits.perCapabilityPerMinute
  perDestination : ∀ target minute, g.called.countP (fun call =>
    call.request.payload.target = target ∧ call.request.minute = minute) ≤
      limits.perDestinationPerMinute
  total : ∀ minute, g.called.countP (fun call => call.request.minute = minute) ≤
    limits.globalPerMinute
  sized : RuntimeState.Sized limits g.runtime

/-! ### The tables in memory and the calls of one run -/

variable {limits : GatewayLimits} {hmacSha256 : Octets 32 → Bytes → Octets 32} {g g' : System}
  {request : Request}

structure Rated (limits : GatewayLimits) (hmacSha256 : Octets 32 → Bytes → Octets 32) (g : System) :
    Prop where
  sized : RuntimeState.Sized limits g.runtime
  accounts : RuntimeState.Accounts limits g.runtime g.runtimeAt g.decided
  calls : (g.dispatched ++ g.called).Perm g.decided
  digest : ∀ call ∈ g.decided,
    destinationDigest hmacSha256 g.destinationSecret call.request.payload = .ok call.destination

theorem rated_empty (h : g.runtime = .empty) (hdis : g.dispatched = []) (hcalls : g.called = [])
    (hdec : g.decided = []) : g.Rated limits hmacSha256 where
  sized := h ▸ RuntimeState.sized_empty limits
  accounts := by
    rw [hdec]
    exact ⟨⟨.nil, .nil, .nil⟩, .nil⟩
  calls := by
    rw [hdis, hcalls, hdec]
    exact .nil
  digest := by
    rw [hdec]
    exact nofun

/-- The part of the system that a transaction does not touch. -/
def volatile (g : System) :
    RuntimeState × ℕ × Octets 32 × List Call × List Call × List Call :=
  (g.runtime, g.runtimeAt, g.destinationSecret, g.decided, g.dispatched, g.called)

theorem Rated.congr (h : g.Rated limits hmacSha256) (hsame : g'.volatile = g.volatile) :
    g'.Rated limits hmacSha256 := by
  simp only [volatile, Prod.mk.injEq] at hsame
  obtain ⟨hrun, hat, hsec, hdec, hdis, hcalls⟩ := hsame
  refine ⟨?_, ?_, ?_, ?_⟩
  · rw [hrun]
    exact h.sized
  · rw [hrun, hat, hdec]
    exact h.accounts
  · rw [hdis, hcalls, hdec]
    exact h.calls
  · rw [hdec, hsec]
    exact h.digest

theorem volatile_receive (g : System) (capability : Bytes) (nonce : Octets 16) (now : ℕ) :
    (g.receiveTrigger capability nonce now).volatile = g.volatile ∧
      (g.receiveRevoke capability nonce now).volatile = g.volatile := by
  unfold receiveTrigger receiveRevoke
  cases g.openCapability capability with
  | none => exact ⟨rfl, rfl⟩
  | some payload =>
    dsimp only
    split_ifs <;> exact ⟨rfl, rfl⟩

theorem volatile_authorize (g : System) (request : Request) :
    (g.authorize request).volatile = g.volatile := by
  dsimp only [System.authorize]
  cases g.durable.authorize request.capabilityId request.requestNonce request.payload.expiresAt
      request.now with
  | error e => rfl
  | ok outcome =>
    dsimp only
    split_ifs <;> rfl

theorem volatile_revokeCapability (g : System) (request : Request) :
    (g.revokeCapability request).volatile = g.volatile := by
  unfold revokeCapability
  cases g.durable.revoke request.capabilityId request.payload.expiresAt request.now with
  | error e => rfl
  | ok outcome =>
    dsimp only
    split_ifs <;> rfl

theorem volatile_counts (g : System) (now : ℕ) : (g.counts now).volatile = g.volatile := by
  unfold System.counts
  cases g.durable.counts now <;> rfl

variable (h : g.Rated limits hmacSha256)
include h

theorem Rated.rateAndCoalesce (hord : g.runtimeAt ≤ request.now) :
    (g.rateAndCoalesce limits hmacSha256 request).Rated limits hmacSha256 := by
  dsimp only [System.rateAndCoalesce]
  cases hdig : destinationDigest hmacSha256 g.destinationSecret request.payload with
  | error e => exact h.congr rfl
  | ok destination =>
    have hsize := @RuntimeState.sized_rateAndCoalesce limits g.runtime request.capabilityId
      destination request.now h.sized
    have hacc := @RuntimeState.accounts_rateAndCoalesce limits g.runtime destination
      g.runtimeAt g.decided request h.sized h.accounts hord
    dsimp only at hacc ⊢
    rw [Nat.max_eq_right hord]
    split_ifs with hsend
    · rw [hsend] at hacc
      exact ⟨hsize, hacc, h.calls.cons _, forall_mem_cons.mpr ⟨hdig, h.digest⟩⟩
    · rw [Bool.eq_false_iff.mpr hsend] at hacc
      exact ⟨hsize, hacc, h.calls, h.digest⟩

theorem Rated.send {call : Call} (hmem : call ∈ g.dispatched)
    (answer : Option ProviderErrorClass) : (g.send call answer).Rated limits hmacSha256 := by
  have hcalls : (g.dispatched.erase call ++ call :: g.called).Perm g.decided := by
    refine List.Perm.trans ?_ h.calls
    refine perm_middle.trans ?_
    exact (perm_cons_erase hmem).symm.append_right g.called
  dsimp only [System.send]
  split_ifs <;> exact { h with calls := hcalls }

/-- **One step keeps the calls accounted for**, when it is in order. -/
theorem Rated.step {s : Step} (hord : g.InOrder s) :
    (g.step limits hmacSha256 s).Rated limits hmacSha256 := by
  -- Only the rate limit, the send and the restart touch the volatile state.
  cases s with
  | register body draws capability now =>
    refine h.congr ?_
    cases body with
    | none => rfl
    | some body =>
      dsimp only [System.step, System.register]
      cases registered limits body draws now <;> rfl
  | receiveTrigger body now =>
    cases body with
    | none => exact h.congr rfl
    | some body => exact h.congr (volatile_receive _ body.1 body.2 now).1
  | receiveRevoke body now =>
    cases body with
    | none => exact h.congr rfl
    | some body => exact h.congr (volatile_receive _ body.1 body.2 now).2
  | authorize request =>
    dsimp only [System.step]
    split_ifs
    · exact h.congr (volatile_authorize g request)
    · exact h
  | rateAndCoalesce request =>
    dsimp only [System.step]
    split_ifs
    · exact h.rateAndCoalesce hord
    · exact h
  | send call answer =>
    dsimp only [System.step]
    split_ifs with hmem
    · exact h.send hmem answer
    · exact h
  | retire request | revoke request =>
    dsimp only [System.step]
    split_ifs
    · exact h.congr (volatile_revokeCapability _ request)
    · exact h
  | counts now => exact h.congr (volatile_counts _ now)
  | restart secret => exact rated_empty rfl rfl rfl rfl

omit h

/-! ### The promises -/

variable {secret : Octets 32}

theorem destinationDigest_congr {p p' : WakeCapabilityPayload} (h : p.target = p'.target) :
    destinationDigest hmacSha256 secret p = destinationDigest hmacSha256 secret p' := by
  simp only [WakeCapabilityPayload.target, WakeRegisterRequest.mk.injEq] at h
  obtain ⟨hplatform, henv, hprofile, htoken, htop⟩ := h
  simp only [destinationDigest, hplatform, henv, hprofile, htoken, htop]

/-- Calls are among the decisions, so what bounds these bounds them. -/
theorem Rated.countP_called_le (h : g.Rated limits hmacSha256) (p : Call → Bool) :
    g.called.countP p ≤ g.decided.countP p :=
  ((sublist_append_right g.dispatched g.called).subperm.trans h.calls.subperm).countP_le p

/-- Decisions counted by a column that an event carries. -/
theorem countP_decided_le {κ : Type} [BEq κ] [LawfulBEq κ] {decided : List Call} {event : Call → κ}
    {e : κ} {p : Call → Bool} (h : ∀ call ∈ decided, p call = true → event call = e) :
    decided.countP p ≤ (decided.map event).count e := by
  rw [List.count, countP_map]
  apply countP_mono_left
  intro call hcall hp
  simpa using h call hcall hp

theorem Rated.apart (h : g.Rated limits hmacSha256) :
    g.called.Pairwise fun a b => a.request.payload.target = b.request.payload.target →
      a.request.now + limits.coalesceSeconds ≤ b.request.now ∨
        b.request.now + limits.coalesceSeconds ≤ a.request.now := by
  refine .sublist (sublist_append_right g.dispatched _) ?_
  refine (h.calls.pairwise_iff fun hab htgt => (hab htgt.symm).symm).mpr ?_
  refine (pairwise_map.mp h.accounts.spaces.apart).imp_of_mem ?_
  intro a b ha hb hapart htgt
  have hdig : Except.ok a.destination = Except.ok (ε := WakeError) b.destination := by
    rw [← h.digest a ha, ← h.digest b hb, destinationDigest_congr htgt]
  exact .inr (hapart (Except.ok.inj hdig))

theorem Rated.perDestination (h : g.Rated limits hmacSha256) (target : WakeRegisterRequest)
    (minute : ℕ) : g.called.countP (fun call =>
      call.request.payload.target = target ∧ call.request.minute = minute) ≤
        limits.perDestinationPerMinute := by
  refine Nat.le_trans (h.countP_called_le _) ?_
  by_cases hany : ∃ call ∈ g.decided, call.request.payload.target = target
  · obtain ⟨first, hfst, htgt⟩ := hany
    refine Nat.le_trans (countP_decided_le (e := (first.destination, minute)) ?_)
      (h.accounts.counts.destination.bounded _)
    intro call hcall hp
    obtain ⟨hsame, hmin⟩ := of_decide_eq_true hp
    have hdig : Except.ok call.destination = Except.ok (ε := WakeError) first.destination := by
      rw [← h.digest call hcall, ← h.digest first hfst,
        destinationDigest_congr (hsame.trans htgt.symm)]
    rw [Except.ok.inj hdig, hmin]
  · have hnone : g.decided.countP (fun call =>
        call.request.payload.target = target ∧ call.request.minute = minute) = 0 := by
      rw [countP_eq_zero]
      intro call hcall hp
      exact hany ⟨call, hcall, (of_decide_eq_true hp).1⟩
    rw [hnone]
    exact Nat.zero_le _

theorem safe_of_ledger_of_rated (hgen : g.Genuine) (hled : g.Ledger)
    (hrat : g.Rated limits hmacSha256) : g.Safe limits where
  once := by
    have hused : (g.calls.map fun call => call.request.key).Sublist (g.used.map Request.key) := by
      rw [used, map_append, map_append, map_append, map_map, map_map]
      exact (sublist_append_right _ _).trans (sublist_append_right _ _)
    exact hled.once.sublist hused
  unexpired := fun call hcall => (hgen.opened call.request (mem_requests_of_used
    (mem_append_right _ (mem_map_of_mem (mem_append_right _ hcall))))).2
  unrevoked := fun call hcall => hled.unrevoked call.request
    (mem_append_right _ (mem_map_of_mem (mem_append_right _ hcall)))
  apart := hrat.apart
  perCapability := by
    intro capabilityId minute
    refine Nat.le_trans (hrat.countP_called_le _) (Nat.le_trans (countP_decided_le
      (e := (capabilityId, minute)) fun call _ hp => ?_)
      (hrat.accounts.counts.capability.bounded _))
    obtain ⟨hid, hmin⟩ := of_decide_eq_true hp
    rw [hid, hmin]
  perDestination := hrat.perDestination
  total := by
    intro minute
    refine Nat.le_trans (hrat.countP_called_le _) (Nat.le_trans (countP_decided_le
      (e := ((), minute)) fun call _ hp => ?_) (hrat.accounts.counts.total.bounded _))
    rw [of_decide_eq_true hp]
  sized := hrat.sized

/-- **Calls of the provider are safe in every run whose steps are in order**: once per capability
and nonce and only for live capabilities across restarts, apart for one destination, and within the
limits of each minute, with the tables in memory within their sizes. -/
theorem safe_of_inOrder {durable : GatewayStateStore} {secret : Octets 32} {steps : List Step}
    (h : Run limits hmacSha256 InOrder (start durable secret) steps g) : g.Safe limits := by
  have hrat : g.Rated limits hmacSha256 := by
    induction h with
    | start => exact rated_empty rfl rfl rfl rfl
    | step _ _ hord ih => exact ih.step hord
  exact safe_of_ledger_of_rated (run_genuine h) (run_ledger h) hrat

/-! Capabilities for three devices, that expire after 100 seconds.  The gateway may call its
provider once a minute. -/

namespace Sample

def policy : GatewayLimits where
  capabilityLifetimeSecs := 100
  perCapabilityPerMinute := 1
  perDestinationPerMinute := 1
  globalPerMinute := 1
  maxCapabilityBuckets := 4
  maxDestinationBuckets := 4
  coalesceSeconds := 30

/-- A digest that shows the last byte of the topic. -/
def digest (_ : Octets 32) (message : Bytes) : Octets 32 := .replicate 32 (message.getLast?.getD 0)

def device (n : UInt8) : WakeRegisterRequest := ⟨.fcm, .production, .backgroundOnly, [n], [n]⟩

/-- The capability of a device, registered at the time `now`. -/
def payload (n : UInt8) (now : ℕ) : WakeCapabilityPayload where
  platform := .fcm
  environment := .production
  profile := .backgroundOnly
  expiresAt := now + 100
  capabilityId := .replicate 16 n
  providerToken := [n]
  appTopic := [n]

def register (n : UInt8) (now : ℕ) : Step :=
  .register (some (device n)) [(.replicate 16 n, .replicate 24 n)] [n] now

def nonce : Octets 16 := .replicate 16 9

def receive (n : UInt8) (now : ℕ) : Step := .receiveTrigger (some ([n], nonce)) now

def trigger (n : UInt8) (registered now : ℕ) : Request := ⟨payload n registered, nonce, now⟩

def call (n : UInt8) (registered now : ℕ) : Call := ⟨trigger n registered now, .replicate 32 n⟩

def begin : System := start (.create 4 4) (.replicate 32 1)

/-- A capability is registered, and used 10 seconds later. -/
def first : List Step :=
  [register 1 0, receive 1 10, .authorize (trigger 1 0 10), .rateAndCoalesce (trigger 1 0 10),
    .send (call 1 0 10) none]

/-- The trigger is repeated in the last second of the capability, and reaches the database after a
trigger of the next second. -/
def repeated : List Step :=
  [register 2 11, receive 1 99, receive 2 100, .authorize (trigger 2 11 100),
    .authorize (trigger 1 0 99), .rateAndCoalesce (trigger 1 0 99), .send (call 1 0 99) none]

/-- A trigger of the last second of a minute is rated between two of the next minute. -/
def crossing : List Step :=
  [register 1 0, register 2 0, register 3 0, receive 1 59, receive 2 60, receive 3 60,
    .authorize (trigger 1 0 59), .authorize (trigger 2 0 60), .authorize (trigger 3 0 60),
    .rateAndCoalesce (trigger 2 0 60), .rateAndCoalesce (trigger 1 0 59),
    .rateAndCoalesce (trigger 3 0 60), .send (call 2 0 60) none, .send (call 3 0 60) none]

/-- Three devices in turn: the first trigger is repeated while the second is on its way, the third
comes in the same minute as the second, and the capability of the first is revoked before it is used
with another nonce. -/
def interleaved : List Step :=
  [register 1 0, register 2 0, register 3 0, receive 1 10, .authorize (trigger 1 0 10),
    receive 2 70, .rateAndCoalesce (trigger 1 0 10), receive 1 70, .authorize (trigger 2 0 70),
    .authorize (trigger 1 0 70), .send (call 1 0 10) none, receive 3 71,
    .rateAndCoalesce (trigger 2 0 70), .authorize (trigger 3 0 71),
    .rateAndCoalesce (trigger 3 0 71), .send (call 2 0 70) none,
    .receiveRevoke (some ([1], nonce)) 72, .revoke (trigger 1 0 72),
    .receiveTrigger (some ([1], .replicate 16 8)) 73,
    .authorize { trigger 1 0 73 with requestNonce := .replicate 16 8 }]

/-- The provider is called for the first two devices only. -/
theorem safe_of_inOrder_interleaved :
    (begin.play policy digest interleaved).calls = [call 2 0 70, call 1 0 10] ∧
      (begin.play policy digest interleaved).Safe policy :=
  ⟨by decide +kernel, safe_of_inOrder (Run.start.play (by decide +kernel))⟩

/-- The clock does not go back in either run.  In the first the provider is called twice for one
nonce, in the second it is called twice in a minute. -/
theorem late_steps : policy.validate = .ok () ∧
    (∃ steps g, Run policy digest (fun _ _ => True) begin steps g ∧
      g.calls.map (fun call => call.request.key) = [(.replicate 16 1, nonce),
        (.replicate 16 1, nonce)] ∧
      ¬ g.Safe policy) ∧
    ∃ steps g, Run policy digest (fun _ _ => True) begin steps g ∧
      g.called.map (fun call => call.request.minute) = [1, 1] ∧ ¬ g.Safe policy := by
  refine ⟨by decide +kernel,
    ⟨_, begin.play policy digest (first ++ repeated), Run.start.play (by decide +kernel),
      by decide +kernel, fun hsafe => ?_⟩,
    ⟨_, begin.play policy digest crossing, Run.start.play (by decide +kernel),
      by decide +kernel, fun hsafe => ?_⟩⟩
  · exact absurd hsafe.once (by decide +kernel)
  · exact absurd (hsafe.total 1) (by decide +kernel)

end Sample

end System

end Komms.Wake
