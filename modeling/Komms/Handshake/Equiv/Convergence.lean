import Komms.Handshake.Plan

/-!
# Convergence of sessions

The sessions of two physical devices with each other, as far as `prepare_session` and
`decide_inbound_session` of `kult-node/src/lib.rs` determine them.  A device starts a session with a
flight to the other one; flights in transit are delivered once each, in any order.  A restore from
backup loses the session and leaves a reset marker, which turns the next flight into a `Reset`.
Only the lower device starts a new session over an existing one.

Crossing `Establish` flights are decided for the lower device, a `Replace` is bound to the session
it replaces, and a `Reset` always wins.  This converges if the flights of a device arrive in the
order of their start, and if a `Reset` of the higher device does not cross an `Establish` or a
`Reset` of the lower one (`Regular`, `sessions_converge`).  Without either, the devices may end with
two sessions (`Sample.sessions_diverge`).

The invariant looks ahead: once everything in transit is delivered, both devices store the same id,
unless a marker is pending (`Coherent.agree`).
-/

namespace Komms.Handshake

/-- One of the two devices, by the order of their ids. -/
inductive Side where
  | lower
  | higher
  deriving DecidableEq, Repr

/-- What a device stores about the other one. -/
structure Endpoint where
  device : Octets 32
  session : Option (Octets 32)
  /-- Whether a reset marker is pending. -/
  marker : Bool
  deriving DecidableEq

/-- A first flight: the intent it declares and the id of the session it starts. -/
structure SessionFlight where
  intent : DeviceHandshakeIntent
  sessionId : Octets 32
  deriving DecidableEq

/-- The session id that a device stores after it handled a flight of its peer. -/
def sessionAfter (device peer : Octets 32) (session : Option (Octets 32)) (f : SessionFlight) :
    Option (Octets 32) :=
  match decideInboundSession device peer session f.intent with
  | .acceptInbound => some f.sessionId
  | .keepPrior | .reject => session

namespace Endpoint

/-- The intent that `prepare_session` selects. -/
def intent (e : Endpoint) : DeviceHandshakeIntent :=
  if e.marker then .reset
  else match e.session with
    | some prior => .replace prior
    | none => .establish

def receive (e : Endpoint) (peer : Octets 32) (f : SessionFlight) : Endpoint :=
  { e with session := sessionAfter e.device peer e.session f }

end Endpoint

/-- Both devices and what is in transit, oldest first.  `used` are the session ids so far. -/
structure Pair where
  lower : Endpoint
  higher : Endpoint
  lt : lower.device < higher.device
  toHigher : List SessionFlight
  toLower : List SessionFlight
  used : List (Octets 32)
  deriving DecidableEq

inductive PairStep where
  /-- A device without a session starts one, and clears its marker. -/
  | start (side : Side) (sessionId : Octets 32)
  /-- The lower device starts a session over the one it has. -/
  | rehandshake (sessionId : Octets 32)
  | restore (side : Side)
  /-- The flight at a position of those to a device is delivered. -/
  | deliver (receiver : Side) (position : ℕ)
  deriving DecidableEq

namespace Pair

variable (p : Pair)

def startLower (sessionId : Octets 32) : Pair :=
  { p with
    lower := { p.lower with session := some sessionId, marker := false }
    toHigher := p.toHigher ++ [⟨p.lower.intent, sessionId⟩]
    used := sessionId :: p.used }

def startHigher (sessionId : Octets 32) : Pair :=
  { p with
    higher := { p.higher with session := some sessionId, marker := false }
    toLower := p.toLower ++ [⟨p.higher.intent, sessionId⟩]
    used := sessionId :: p.used }

/-- A rehandshake leaves the marker. -/
def rehandshake (sessionId : Octets 32) : Pair :=
  { p with
    lower := { p.lower with session := some sessionId }
    toHigher := p.toHigher ++ [⟨p.lower.intent, sessionId⟩]
    used := sessionId :: p.used }

def restoreLower : Pair := { p with lower := { p.lower with session := none, marker := true } }

def restoreHigher : Pair := { p with higher := { p.higher with session := none, marker := true } }

def deliverLower (i : ℕ) (f : SessionFlight) : Pair :=
  { p with
    lower := p.lower.receive p.higher.device f
    toLower := p.toLower.eraseIdx i }

def deliverHigher (i : ℕ) (f : SessionFlight) : Pair :=
  { p with
    higher := p.higher.receive p.lower.device f
    toHigher := p.toHigher.eraseIdx i }

/-- One step; session ids are new. -/
def step : PairStep → Option Pair
  | .start .lower id =>
    if p.lower.session = none ∧ id ∉ p.used then some (p.startLower id) else none
  | .start .higher id =>
    if p.higher.session = none ∧ id ∉ p.used then some (p.startHigher id) else none
  | .rehandshake id =>
    if p.lower.session ≠ none ∧ id ∉ p.used then some (p.rehandshake id) else none
  | .restore .lower => some p.restoreLower
  | .restore .higher => some p.restoreHigher
  | .deliver .lower i => p.toLower[i]?.map (p.deliverLower i)
  | .deliver .higher i => p.toHigher[i]?.map (p.deliverHigher i)

def run : List PairStep → Pair → Option Pair
  | [], p => some p
  | s :: rest, p => (p.step s).bind (run rest)

/-- No flight is in transit and no marker is pending. -/
def Quiet : Prop :=
  p.toHigher = [] ∧ p.toLower = [] ∧ p.lower.marker = false ∧ p.higher.marker = false

end Pair

open List

variable {a b id : Octets 32} {session : Option (Octets 32)} {f : SessionFlight}
  {fs : List SessionFlight}

/-! ### One flight -/

theorem sessionAfter_reset (hf : f.intent = .reset) :
    sessionAfter a b session f = some f.sessionId := by
  rw [sessionAfter, hf]
  cases session <;> rfl

theorem sessionAfter_establish (h : a < b) (hf : f.intent = .establish) :
    sessionAfter a b session f = session.or (some f.sessionId) := by
  rw [sessionAfter, hf]
  cases session <;> simp [decideInboundSession, h]

theorem sessionAfter_higher (h : a < b) (hf : ∀ prior, f.intent ≠ .replace prior) :
    sessionAfter b a session f = some f.sessionId := by
  unfold sessionAfter
  cases hinterval : f.intent with
  | replace prior => exact absurd hinterval (hf prior)
  | establish => cases session <;> simp [decideInboundSession, h.not_gt]
  | reset | legacy => cases session <;> rfl

theorem sessionAfter_replace {prior : Octets 32} (hf : f.intent = .replace prior) :
    sessionAfter a b session f = if session = some prior then some f.sessionId else session := by
  rw [sessionAfter, hf]
  cases session with
  | none => rfl
  | some current => by_cases h : current = prior <;> simp [decideInboundSession, h]

/-! ### All flights in transit -/

/-- The stored id after a list of flights. -/
def arrive (device peer : Octets 32) (session : Option (Octets 32)) (fs : List SessionFlight) :
    Option (Octets 32) :=
  fs.foldl (sessionAfter device peer) session

theorem arrive_cons (a b : Octets 32) (session : Option (Octets 32)) (f : SessionFlight)
    (fs : List SessionFlight) :
    arrive a b session (f :: fs) = arrive a b (sessionAfter a b session f) fs := rfl

theorem arrive_concat (a b : Octets 32) (session : Option (Octets 32)) (f : SessionFlight)
    (fs : List SessionFlight) :
    arrive a b session (fs ++ [f]) = sessionAfter a b (arrive a b session fs) f :=
  foldl_concat ..

theorem exists_arrive (a b id : Octets 32) (fs : List SessionFlight) :
    ∃ id', arrive a b (some id) fs = some id' := by
  induction fs generalizing id with
  | nil => exact ⟨id, rfl⟩
  | cons f fs ih =>
    rw [arrive_cons]
    unfold sessionAfter
    split
    all_goals exact ih _

theorem arrive_higher (h : a < b) (hname : ∀ f ∈ fs, f.intent ≠ .replace id) :
    arrive b a (some id) fs = (arrive b a none fs).or (some id) := by
  induction fs with
  | nil => rfl
  | cons f fs ih =>
    have hrest : ∀ f ∈ fs, f.intent ≠ .replace id := fun g hg => hname g (.tail _ hg)
    by_cases hrep : ∃ prior, f.intent = .replace prior
    · obtain ⟨prior, hprior⟩ := hrep
      have hne : id ≠ prior := fun heq => hname f (.head _) (heq ▸ hprior)
      have hsome : sessionAfter b a (some id) f = some id := by
        simp [sessionAfter_replace hprior, hne]
      have hnone : sessionAfter b a none f = none := by simp [sessionAfter_replace hprior]
      rw [arrive_cons, arrive_cons, hsome, hnone, ih hrest]
    · rw [not_exists] at hrep
      obtain ⟨_, h'⟩ := exists_arrive b a f.sessionId fs
      rw [arrive_cons, arrive_cons, sessionAfter_higher h hrep, sessionAfter_higher h hrep, h']
      rfl

theorem arrive_higher_none (h : ∀ f ∈ fs, ∃ prior, f.intent = .replace prior) :
    arrive b a none fs = none := by
  induction fs with
  | nil => rfl
  | cons f fs ih =>
    obtain ⟨_, hprior⟩ := h f (.head _)
    have hnone : sessionAfter b a none f = none := by simp [sessionAfter_replace hprior]
    rw [arrive_cons, hnone]
    exact ih fun g hg => h g (.tail _ hg)

/-- The lower device keeps its session, or ends with that of a `Reset`, whichever it had. -/
theorem arrive_lower (h : a < b) (hfs : ∀ f ∈ fs, f.intent = .establish ∨ f.intent = .reset) :
    (∀ id, arrive a b (some id) fs = some id) ∨
      ∃ r ∈ fs, r.intent = .reset ∧ ∀ id, arrive a b (some id) fs = some r.sessionId := by
  induction fs with
  | nil => exact .inl fun _ => rfl
  | cons f fs ih =>
    have hrest := ih fun g hg => hfs g (.tail _ hg)
    rcases hfs f (.head _) with hf | hf
    · simp only [arrive_cons, sessionAfter_establish h hf, Option.some_or]
      rcases hrest with hkeep | ⟨r, hr, hres, harr⟩
      · exact .inl hkeep
      · exact .inr ⟨r, .tail _ hr, hres, harr⟩
    · simp only [arrive_cons, sessionAfter_reset hf]
      rcases hrest with hkeep | ⟨r, hr, hres, harr⟩
      · exact .inr ⟨f, .head _, hf, fun _ => hkeep _⟩
      · exact .inr ⟨r, .tail _ hr, hres, fun _ => harr _⟩

/-! ### The invariant -/

/-- What a step may do: flights arrive in the order of their start, and no `Reset` of the higher
device crosses an `Establish` or a `Reset` of the lower one. -/
def Pair.Regular (p : Pair) : PairStep → Prop
  | .start .lower _ => ∀ f ∈ p.toLower, f.intent ≠ .reset
  | .start .higher _ =>
    p.higher.marker = true → ∀ f ∈ p.toHigher, ∃ prior, f.intent = .replace prior
  | .rehandshake _ | .restore _ => True
  | .deliver _ position => position = 0

structure Coherent (p : Pair) : Prop where
  /-- With all in transit delivered, both devices store the same. -/
  agree : p.lower.marker = true ∨ p.higher.marker = true ∨
    arrive p.lower.device p.higher.device p.lower.session p.toLower =
      arrive p.higher.device p.lower.device p.higher.session p.toHigher
  lower_used : ∀ id ∈ p.lower.session, id ∈ p.used
  replace_used : ∀ f ∈ p.toHigher, ∀ prior, f.intent = .replace prior → prior ∈ p.used
  toLower_intent : ∀ f ∈ p.toLower, f.intent = .establish ∨ f.intent = .reset
  toLower_used : ∀ f ∈ p.toLower, f.sessionId ∈ p.used
  toLower_nodup : (p.toLower.map SessionFlight.sessionId).Nodup
  /-- A flight in transit has not been accepted. -/
  toLower_ne : ∀ f ∈ p.toLower, some f.sessionId ≠ p.lower.session

/-- Two devices before any flight. -/
structure Initial (p : Pair) : Prop where
  session_eq : p.lower.session = p.higher.session
  lower_used : ∀ id ∈ p.lower.session, id ∈ p.used
  toHigher_eq : p.toHigher = []
  toLower_eq : p.toLower = []

namespace Coherent

variable {p : Pair}

theorem of_initial (h : Initial p) : Coherent p where
  agree := by
    rw [h.toHigher_eq, h.toLower_eq]
    exact .inr (.inr h.session_eq)
  lower_used := h.lower_used
  replace_used := by simp [h.toHigher_eq]
  toLower_intent := by simp [h.toLower_eq]
  toLower_used := by simp [h.toLower_eq]
  toLower_nodup := by simp [h.toLower_eq]
  toLower_ne := by simp [h.toLower_eq]

variable (h : Coherent p)

include h

theorem toLower_ne_of_not_mem (hid : id ∉ p.used) :
    ∀ f ∈ p.toLower, some f.sessionId ≠ some id := by
  intro f hf heq
  exact hid (Option.some.inj heq ▸ h.toLower_used f hf)

theorem replace_ne_of_not_mem (hid : id ∉ p.used) : ∀ f ∈ p.toHigher, f.intent ≠ .replace id :=
  fun f hf heq => hid (h.replace_used f hf id heq)

/-- What a flight of the lower device keeps, whatever its intent. -/
theorem replace_used_concat :
    ∀ f ∈ p.toHigher ++ [⟨p.lower.intent, id⟩], ∀ prior, f.intent = .replace prior →
      prior ∈ id :: p.used := by
  refine forall_mem_append.mpr ⟨fun f hf prior hprior => .tail _ (h.replace_used f hf prior hprior),
    forall_mem_singleton.mpr fun prior hprior => ?_⟩
  simp only [Endpoint.intent] at hprior
  split_ifs at hprior
  cases hsession : p.lower.session with
  | none => simp [hsession] at hprior
  | some current =>
    simp only [hsession, DeviceHandshakeIntent.replace.injEq] at hprior
    exact .tail _ (hprior ▸ h.lower_used current hsession)

theorem startLower (hnone : p.lower.session = none) (hid : id ∉ p.used)
    (hreg : ∀ f ∈ p.toLower, f.intent ≠ .reset) : Coherent (p.startLower id) where
  agree := by
    have hlow : arrive p.lower.device p.higher.device (some id) p.toLower = some id := by
      rcases arrive_lower p.lt h.toLower_intent with hkeep | ⟨r, hr, hres, -⟩
      · exact hkeep id
      · exact absurd hres (hreg r hr)
    have hacc : ∀ prior, p.lower.intent ≠ .replace prior := by
      intro prior
      simp only [Endpoint.intent, hnone]
      split_ifs <;> simp
    refine .inr (.inr ?_)
    simp only [Pair.startLower]
    rw [hlow, arrive_concat, sessionAfter_higher p.lt hacc]
  lower_used := by simp [Pair.startLower]
  replace_used := h.replace_used_concat
  toLower_intent := h.toLower_intent
  toLower_used := fun f hf => .tail _ (h.toLower_used f hf)
  toLower_nodup := h.toLower_nodup
  toLower_ne := h.toLower_ne_of_not_mem hid

theorem startHigher (hnone : p.higher.session = none) (hid : id ∉ p.used)
    (hreg : p.higher.marker = true → ∀ f ∈ p.toHigher, ∃ prior, f.intent = .replace prior) :
    Coherent (p.startHigher id) where
  agree := by
    have hhigh := arrive_higher p.lt (h.replace_ne_of_not_mem hid)
    simp only [Pair.startHigher, arrive_concat, hhigh]
    cases hmar : p.higher.marker with
    | true =>
      -- A reset wins at the lower device, and nothing in transit undoes it.
      have hinterval : p.higher.intent = .reset := by simp [Endpoint.intent, hmar]
      rw [arrive_higher_none (hreg hmar), sessionAfter_reset hinterval]
      exact .inr (.inr rfl)
    | false =>
      have hinterval : p.higher.intent = .establish := by simp [Endpoint.intent, hmar, hnone]
      rw [sessionAfter_establish p.lt hinterval]
      rcases h.agree with hlow | hmar' | hagr
      · exact .inl hlow
      · exact absurd (hmar.symm.trans hmar') (by simp)
      · rw [hagr, hnone]
        exact .inr (.inr rfl)
  lower_used := fun n hn => .tail _ (h.lower_used n hn)
  replace_used := fun f hf prior hprior => .tail _ (h.replace_used f hf prior hprior)
  toLower_intent := by
    refine forall_mem_append.mpr ⟨h.toLower_intent, forall_mem_singleton.mpr ?_⟩
    cases hmar : p.higher.marker <;> simp [Endpoint.intent, hmar, hnone]
  toLower_used := forall_mem_append.mpr ⟨fun f hf => .tail _ (h.toLower_used f hf),
    forall_mem_singleton.mpr (.head _)⟩
  toLower_nodup := by
    simp only [Pair.startHigher, map_append, map_cons, map_nil]
    refine List.Nodup.append h.toLower_nodup (nodup_singleton _) ?_
    simp only [disjoint_singleton, mem_map, not_exists, not_and]
    exact fun f hf heq => hid (heq ▸ h.toLower_used f hf)
  toLower_ne := forall_mem_append.mpr ⟨h.toLower_ne,
    forall_mem_singleton.mpr fun heq => hid (h.lower_used id heq.symm)⟩

theorem rehandshake (hsome : p.lower.session ≠ none) (hid : id ∉ p.used) :
    Coherent (p.rehandshake id) where
  agree := by
    obtain ⟨prior, hprior⟩ := Option.ne_none_iff_exists'.mp hsome
    rcases h.agree with hlow | hhigh | hagr
    · exact .inl hlow
    · exact .inr (.inl hhigh)
    · cases hmar : p.lower.marker with
      | true => exact .inl hmar
      | false =>
        have hinterval : p.lower.intent = .replace prior := by
          simp [Endpoint.intent, hmar, hprior]
        refine .inr (.inr ?_)
        have hrep := @sessionAfter_replace p.higher.device p.lower.device
          (arrive p.lower.device p.higher.device (some prior) p.toLower)
          ⟨p.lower.intent, id⟩ _ hinterval
        simp only [Pair.rehandshake, arrive_concat, ← hagr, hprior, hrep]
        rcases arrive_lower p.lt h.toLower_intent with hkeep | ⟨r, hr, -, harr⟩
        · simp [hkeep]
        · -- The reset in transit replaces both the old and the new session.
          have hne : r.sessionId ≠ prior := fun heq =>
            h.toLower_ne r hr (by rw [heq, hprior])
          simp [harr, hne]
  lower_used := by simp [Pair.rehandshake]
  replace_used := h.replace_used_concat
  toLower_intent := h.toLower_intent
  toLower_used := fun f hf => .tail _ (h.toLower_used f hf)
  toLower_nodup := h.toLower_nodup
  toLower_ne := h.toLower_ne_of_not_mem hid

theorem restoreLower : Coherent p.restoreLower :=
  { h with
    agree := .inl rfl
    lower_used := by simp [Pair.restoreLower]
    toLower_ne := by simp [Pair.restoreLower] }

theorem restoreHigher : Coherent p.restoreHigher :=
  { h with agree := .inr (.inl rfl) }

theorem deliverLower (hf : p.toLower[0]? = some f) : Coherent (p.deliverLower 0 f) := by
  rw [← head?_eq_getElem?] at hf
  obtain ⟨rest, hrest⟩ := head?_eq_some_iff.mp hf
  have hsub : ∀ g ∈ rest, g ∈ p.toLower := fun g hg => hrest ▸ .tail _ hg
  have hnd := h.toLower_nodup
  rw [hrest, map_cons, nodup_cons] at hnd
  -- The session is the one of the flight or the one from before.
  have hsession : (p.deliverLower 0 f).lower.session = some f.sessionId ∨
      (p.deliverLower 0 f).lower.session = p.lower.session := by
    simp only [Pair.deliverLower, Endpoint.receive, sessionAfter]
    split
    · exact .inl rfl
    all_goals exact .inr rfl
  have htrans : (p.deliverLower 0 f).toLower = rest := by simp [Pair.deliverLower, hrest]
  refine
    { h with
      agree := ?_
      lower_used := ?_
      toLower_intent := fun g hg => h.toLower_intent g (hsub g (htrans ▸ hg))
      toLower_used := fun g hg => h.toLower_used g (hsub g (htrans ▸ hg))
      toLower_nodup := htrans.symm ▸ hnd.2
      toLower_ne := ?_ }
  · rw [htrans]
    have hagr := h.agree
    rw [hrest] at hagr
    exact hagr
  · intro n hn
    rcases hsession with heq | heq
    · rw [heq] at hn
      cases hn
      exact h.toLower_used f (hrest ▸ .head _)
    · exact h.lower_used n (heq ▸ hn)
  · intro g hg
    rw [htrans] at hg
    rcases hsession with heq | heq
    · rw [heq]
      exact fun hid => hnd.1 (Option.some.inj hid ▸ mem_map_of_mem hg)
    · rw [heq]
      exact h.toLower_ne g (hsub g hg)

theorem deliverHigher (hf : p.toHigher[0]? = some f) : Coherent (p.deliverHigher 0 f) := by
  rw [← head?_eq_getElem?] at hf
  obtain ⟨rest, hrest⟩ := head?_eq_some_iff.mp hf
  have htrans : (p.deliverHigher 0 f).toHigher = rest := by simp [Pair.deliverHigher, hrest]
  refine
    { h with
      agree := ?_
      replace_used := fun g hg => h.replace_used g (hrest ▸ .tail _ (htrans ▸ hg)) }
  rw [htrans]
  have hagr := h.agree
  rw [hrest] at hagr
  exact hagr

/-- **One regular step.** -/
theorem step {s : PairStep} (hreg : p.Regular s) {q : Pair}
    (hstep : p.step s = some q) : Coherent q := by
  cases s with
  | start side id =>
    cases side <;> simp only [Pair.step, Option.ite_none_right_eq_some, Option.some.injEq] at hstep
    · obtain ⟨⟨hnone, hid⟩, rfl⟩ := hstep
      exact h.startLower hnone hid hreg
    · obtain ⟨⟨hnone, hid⟩, rfl⟩ := hstep
      exact h.startHigher hnone hid hreg
  | rehandshake id =>
    simp only [Pair.step, Option.ite_none_right_eq_some, Option.some.injEq] at hstep
    obtain ⟨⟨hsome, hid⟩, rfl⟩ := hstep
    exact h.rehandshake hsome hid
  | restore side =>
    cases side <;> cases hstep
    · exact h.restoreLower
    · exact h.restoreHigher
  | deliver receiver i =>
    obtain rfl : i = 0 := hreg
    cases receiver <;> obtain ⟨f, hf, rfl⟩ := Option.map_eq_some_iff.mp hstep
    · exact h.deliverLower hf
    · exact h.deliverHigher hf

end Coherent

def Pair.Next (p q : Pair) : Prop := ∃ s, p.Regular s ∧ p.step s = some q

theorem coherent_of_run {p q : Pair} (hinit : Initial p)
    (hrun : Relation.ReflTransGen Pair.Next p q) : Coherent q := by
  induction hrun with
  | refl => exact .of_initial hinit
  | tail _ hnext ih =>
    obtain ⟨s, hreg, hstep⟩ := hnext
    exact ih.step hreg hstep

/-- **Convergence.**  Whenever nothing is in transit and no marker is pending, in a run of regular
steps, both devices store the same session id or none. -/
theorem sessions_converge {p q : Pair} (hinitial : Initial p)
    (hrun : Relation.ReflTransGen Pair.Next p q) (hquiet : q.Quiet) :
    q.lower.session = q.higher.session := by
  have hcoh := coherent_of_run hinitial hrun
  obtain ⟨hhigher, hlow, hlower, hhigh⟩ := hquiet
  have hagr := hcoh.agree
  rw [hhigher, hlow, hlower, hhigh] at hagr
  simpa [arrive] using hagr

namespace Sample

def sid (b : UInt8) : Octets 32 := .replicate 32 b

theorem one_lt_two : Octets.replicate 32 1 < Octets.replicate 32 2 := by decide

/-- Devices 1 and 2, at rest with a session or without. -/
def pairOf (session : Option (Octets 32)) : Pair where
  lower := ⟨.replicate 32 1, session, false⟩
  higher := ⟨.replicate 32 2, session, false⟩
  lt := one_lt_two
  toHigher := []
  toLower := []
  used := session.toList

/-- Both devices have established, and their flights cross. -/
def crossed : Pair := ((pairOf none).startLower (sid 11)).startHigher (sid 12)

def met : Pair :=
  (crossed.deliverLower 0 ⟨.establish, sid 12⟩).deliverHigher 0 ⟨.establish, sid 11⟩

theorem met_reached : Relation.ReflTransGen Pair.Next (pairOf none) met := by
  have hlow : (pairOf none).Next ((pairOf none).startLower (sid 11)) :=
    ⟨.start .lower (sid 11), nofun, by decide⟩
  have hhigh : ((pairOf none).startLower (sid 11)).Next crossed :=
    ⟨.start .higher (sid 12), nofun, by decide⟩
  have hkeep : crossed.Next (crossed.deliverLower 0 ⟨.establish, sid 12⟩) :=
    ⟨.deliver .lower 0, rfl, by decide⟩
  have hacc : (crossed.deliverLower 0 ⟨.establish, sid 12⟩).Next met :=
    ⟨.deliver .higher 0, rfl, by decide⟩
  exact (((Relation.ReflTransGen.single hlow).tail hhigh).tail hkeep).tail hacc

/-- The session of the lower device is the one both end with. -/
theorem crossing_establish_converges :
    met.Quiet ∧ met.lower.session = some (sid 11) ∧ met.lower.session = met.higher.session := by
  have hini : Initial (pairOf none) := ⟨rfl, fun _ => Option.mem_toList.mpr, rfl, rfl⟩
  have hquiet : met.Quiet := by
    refine ⟨?_, ?_, ?_, ?_⟩ <;> decide
  exact ⟨hquiet, by decide, sessions_converge hini met_reached hquiet⟩

/-- The sessions of both devices after a run, if it ends quiet. -/
def outcome (steps : List PairStep) (p : Pair) : Option (Option (Octets 32) × Option (Octets 32)) :=
  ((Pair.run steps p).filter fun q => q.toHigher = [] && q.toLower = [] && !q.lower.marker &&
    !q.higher.marker).map fun q => (q.lower.session, q.higher.session)

/-- A run ends with two sessions, with nothing in transit and no marker pending. -/
def Diverges (session : Option (Octets 32)) (steps : List PairStep) : Prop :=
  ∃ q, Pair.run steps (pairOf session) = some q ∧ q.Quiet ∧ q.lower.session ≠ q.higher.session

theorem diverges_of_outcome {session : Option (Octets 32)} {steps : List PairStep}
    {a b : Option (Octets 32)} (h : outcome steps (pairOf session) = some (a, b)) (hne : a ≠ b) :
    Diverges session steps := by
  obtain ⟨q, hq, hsession⟩ := Option.map_eq_some_iff.mp h
  obtain ⟨hrun, hquiet⟩ := Option.filter_eq_some_iff.mp hq
  simp only [Bool.and_eq_true, decide_eq_true_eq, Bool.not_eq_true'] at hquiet
  cases hsession
  exact ⟨q, hrun, ⟨hquiet.1.1.1, hquiet.1.1.2, hquiet.1.2, hquiet.2⟩, hne⟩

/-- A replacement that overtakes the session it replaces is rejected; two resets that cross swap the
sessions; so do an `Establish` of the lower device and a `Reset` of the higher one. -/
theorem sessions_diverge :
    Diverges none [.start .lower (sid 11), .rehandshake (sid 12), .deliver .higher 1,
      .deliver .higher 0] ∧
    Diverges (some (sid 10)) [.restore .lower, .restore .higher, .start .lower (sid 11),
      .start .higher (sid 12), .deliver .lower 0, .deliver .higher 0] ∧
    Diverges none [.start .higher (sid 10), .restore .higher, .start .lower (sid 11),
      .start .higher (sid 12), .deliver .lower 0, .deliver .lower 0, .deliver .higher 0] := by
  refine ⟨diverges_of_outcome (a := some (sid 12)) (b := some (sid 11)) ?_ ?_,
    diverges_of_outcome (a := some (sid 12)) (b := some (sid 11)) ?_ ?_,
    diverges_of_outcome (a := some (sid 12)) (b := some (sid 11)) ?_ ?_⟩
  all_goals decide +kernel

end Sample

end Komms.Handshake
