import Komms.Ratchet.Equiv.KeySchedule

/-!
# Two sessions and the network between them

A `World` holds the two sessions of a conversation with a record of every call made so far.  An
`Action` is one `encrypt` or `decrypt` call on either side with all its arguments, random bytes
included, and `exec` carries it out.  The network is the adversary: it may present any message
that is `Admissible`, that is, whose two ciphertexts are unforged with respect to what the two
parties have sealed so far.  Loss, duplication, reordering, tampering and injection are all
choices of actions.
-/

namespace Komms.Ratchet

variable {Key Box : Type}

/-- The two ends of a conversation. -/
inductive Side where
  | initiator
  | responder
  deriving DecidableEq, Repr

def Side.other : Side → Side
  | .initiator => .responder
  | .responder => .initiator

@[simp] theorem Side.other_other (X : Side) : X.other.other = X := by cases X <;> rfl

theorem Side.other_ne (X : Side) : X.other ≠ X := by cases X <;> decide

theorem Side.eq_or_eq_other (X Y : Side) : Y = X ∨ Y = X.other := by
  cases X <;> cases Y <;> decide

/-- One `encrypt` call and the message it returned. -/
structure Emission (Box : Type) where
  side : Side
  plaintext : Bytes
  userAd : Bytes
  msg : RatchetMessage Box

/-- One `decrypt` call. -/
structure Presentation (Box : Type) where
  side : Side
  msg : RatchetMessage Box
  userAd : Bytes

/-- One `decrypt` call that returned `Ok(plaintext)`.  `sentBefore` counts the `encrypt` calls made
before it. -/
structure Acceptance (Box : Type) where
  side : Side
  msg : RatchetMessage Box
  userAd : Bytes
  plaintext : Bytes
  sentBefore : ℕ

/-- The two sessions and the history of the run. -/
structure World (Key Box : Type) where
  session : Side → Session Key
  sent : List (Emission Box)
  sealed : List (Aead.Sealing Key Nonce (Ad Box))
  presented : List (Presentation Box)
  accepted : List (Acceptance Box)

/-- A call on one side, with its arguments. -/
inductive Action (Key Box : Type) where
  | encrypt (side : Side) (hdrNonce nonce : Nonce) (nowSecs : ℕ) (plaintext userAd : Bytes)
  | decrypt (side : Side) (privBytes : Key) (nowSecs : ℕ) (msg : RatchetMessage Box)
      (userAd : Bytes)

section Execution

variable (P : Primitives Key Box)

/-- The two boxes an `encrypt` call seals: the header and the body. -/
def Session.sealings (s : Session Key) (hdrNonce nonce : Nonce) (plaintext userAd : Bytes) :
    List (Aead.Sealing Key Nonce (Ad Box)) :=
  match s.cks, s.hks with
  | some cks, some hks =>
    let header : Header := { dh := s.dhsPub, pn := s.pn, n := s.ns }
    let encHeader : SealedHeader Box :=
      { nonce := hdrNonce, box := P.aead.encrypt hks hdrNonce s.headerAd header.encode }
    [⟨hks, hdrNonce, s.headerAd, header.encode⟩,
      ⟨(kdfCk P cks).2, nonce, s.payloadAd encHeader userAd, plaintext⟩]
  | _, _ => []

/-- The sessions the handshake leaves: `spk` is the responder's signed prekey and `privBytes` the
initiator's first ratchet key. -/
def World.start (sid : Octets 32) (r : Roots Key) (spk privBytes : Key) : World Key Box :=
  { session := fun
      | .initiator =>
        initInitiator P privBytes sid r.skRoot (P.x25519.publicKey spk) r.hka r.nhkb
      | .responder => initResponder P sid r.skRoot spk r.hka r.nhkb,
    sent := [], sealed := [], presented := [], accepted := [] }

namespace World

def setSession (w : World Key Box) (side : Side) (s : Session Key) : World Key Box :=
  { w with session := Function.update w.session side s }

/-- The world after an `encrypt` call that returned `msg`. -/
def emit (w : World Key Box) (side : Side) (s : Session Key) (msg : RatchetMessage Box)
    (hdrNonce nonce : Nonce) (plaintext userAd : Bytes) : World Key Box :=
  { w.setSession side s with
    sent := w.sent ++ [⟨side, plaintext, userAd, msg⟩],
    sealed := w.sealed ++ (w.session side).sealings P hdrNonce nonce plaintext userAd }

/-- The world after a `decrypt` call that returned `result`. -/
def present (w : World Key Box) (side : Side) (s : Session Key) (msg : RatchetMessage Box)
    (userAd : Bytes) (result : Except CryptoError Bytes) : World Key Box :=
  { w.setSession side s with
    presented := w.presented ++ [⟨side, msg, userAd⟩],
    accepted := match result with
      | .ok plaintext => w.accepted ++ [⟨side, msg, userAd, plaintext, w.sent.length⟩]
      | .error _ => w.accepted }

/-- Carry out a call; `none` is a panic. -/
def exec [DecidableEq Key] (overflowChecks : Bool) (w : World Key Box) :
    Action Key Box → Option (World Key Box)
  | .encrypt side hdrNonce nonce nowSecs plaintext userAd =>
    ((w.session side).encrypt P overflowChecks hdrNonce nonce nowSecs plaintext userAd).map
      fun out => w.emit P side out.1 out.2 hdrNonce nonce plaintext userAd
  | .decrypt side privBytes nowSecs msg userAd =>
    ((w.session side).decrypt P overflowChecks privBytes nowSecs msg userAd).map
      fun out => w.present side out.1 msg userAd out.2

end World

/-! ### What the network may do -/

/-- The network cannot make a new ciphertext under a key of the session. -/
def Admissible (r : Roots Key) (w : World Key Box) : Action Key Box → Prop
  | .encrypt .. => True
  | .decrypt _ _ _ msg _ =>
    P.aead.Unforged (SessionSecret P r) w.sealed msg.encHeader.nonce msg.encHeader.box ∧
      P.aead.Unforged (SessionSecret P r) w.sealed msg.nonce msg.ct

/-- One step of a run in which every action is allowed. -/
def Step [DecidableEq Key] (overflowChecks : Bool)
    (allowed : World Key Box → Action Key Box → Prop) (w w' : World Key Box) : Prop :=
  ∃ a, allowed w a ∧ w.exec P overflowChecks a = some w'

/-- The worlds a run of allowed actions reaches. -/
def Reaches [DecidableEq Key] (overflowChecks : Bool)
    (allowed : World Key Box → Action Key Box → Prop) : World Key Box → World Key Box → Prop :=
  Relation.ReflTransGen (Step P overflowChecks allowed)

theorem Reaches.mono [DecidableEq Key] {overflowChecks : Bool}
    {allowed allowed' : World Key Box → Action Key Box → Prop} {w w' : World Key Box}
    (himp : ∀ w a, allowed w a → allowed' w a) (h : Reaches P overflowChecks allowed w w') :
    Reaches P overflowChecks allowed' w w' := by
  induction h with
  | refl => exact .refl
  | tail _ hstep ih =>
    obtain ⟨a, ha, hexec⟩ := hstep
    exact ih.tail ⟨a, himp _ a ha, hexec⟩

/-! ### Delivery bounds -/

/-- How many message keys `decrypt` has to skip for a message: on the current receiving chain, and
on the next one. -/
def Session.skipDemand (s : Session Key) (msg : RatchetMessage Box) : ℕ × ℕ :=
  match s.hkr.bind (s.openHeader P · msg.encHeader) with
  | some hdrBytes =>
    match Header.decode hdrBytes with
    | .ok header => (header.n.toNat - s.nr.toNat, 0)
    | .error _ => (0, 0)
  | none =>
    match s.openHeader P s.nhkr msg.encHeader with
    | some hdrBytes =>
      match Header.decode hdrBytes with
      | .ok header => (header.pn.toNat - s.nr.toNat, header.n.toNat)
      | .error _ => (0, 0)
    | none => (0, 0)

def Session.Fresh (s : Session Key) (nowSecs : ℕ) : Prop :=
  ∀ sk ∈ s.skipped, nowSecs - sk.storedAt ≤ skippedKeyTtlSecs

/-- The message needs at most `maxSkip` skips on either chain and does not fill the store. -/
def Session.Tolerates (s : Session Key) (msg : RatchetMessage Box) : Prop :=
  (s.skipDemand P msg).1 ≤ maxSkip ∧ (s.skipDemand P msg).2 ≤ maxSkip ∧
    s.skipped.length + (s.skipDemand P msg).1 + (s.skipDemand P msg).2 ≤ maxStoredSkipped

/-- The action respects the delay-tolerance bounds of the ratchet. -/
def WithinBounds (w : World Key Box) : Action Key Box → Prop
  | .encrypt side _ _ nowSecs _ _ => (w.session side).Fresh nowSecs
  | .decrypt side _ nowSecs msg _ =>
    (w.session side).Fresh nowSecs ∧ (w.session side).Tolerates P msg

def Bounded (r : Roots Key) (w : World Key Box) (a : Action Key Box) : Prop :=
  Admissible P r w a ∧ WithinBounds P w a

/-- The action does not take a sending chain past the last 32-bit message number. -/
def CounterFits (w : World Key Box) : Action Key Box → Prop
  | .encrypt side .. => (w.session side).ns.toNat + 1 < 2 ^ 32
  | .decrypt .. => True

end Execution

end Komms.Ratchet
