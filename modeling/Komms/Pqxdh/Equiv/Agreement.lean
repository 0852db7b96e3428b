import Komms.Pqxdh.Handshake
import Komms.Ratchet.Equiv.Delivery

/-!
# Both ends derive the same session

The responder of a handshake, given the initiator's flight and the secrets behind the bundle,
derives the initiator's keys (`responderKeys_of_initiatorKeys`), opens the first payload
(`respond_eq`), and the two sessions are those of a ratchet conversation whose first message has
been delivered (`converses_opened`).
-/

namespace Komms.Pqxdh

open Ratchet List Option Except

variable {Key Box Coins : Type} {P : Primitives Key Box Coins}

/-- The idealisation under which handshakes are analysed: an ideal ratchet suite, and signatures
that verify under their own key. -/
structure Primitives.Ideal (P : Primitives Key Box Coins) : Prop where
  ratchet : P.ratchet.Ideal
  signs : P.suite.Signs P.secretKeys

/-! ### The first message on the wire -/

theorem mapM_byte? (bs : Bytes) : (bs.map .byte : Wire Box).mapM WireSymbol.byte? = some bs := by
  induction bs with
  | nil => rfl
  | cons b bs ih => simp [mapM_cons, WireSymbol.byte?, ih]

theorem eq_map_of_mapM_byte? {symbols : Wire Box} {bs : Bytes}
    (h : symbols.mapM WireSymbol.byte? = some bs) : symbols = bs.map .byte := by
  induction symbols generalizing bs with
  | nil =>
    obtain rfl : [] = bs := some.inj h
    rfl
  | cons s rest ih =>
    simp only [mapM_cons, bind_eq_bind, bind_eq_some_iff] at h
    obtain ⟨b, hb, bs', hbs', heq⟩ := h
    obtain rfl : b :: bs' = bs := some.inj heq
    cases s with
    | byte c =>
      obtain rfl : c = b := some.inj hb
      rw [map_cons, ← ih hbs']
    | header _ | body _ => cases hb

theorem decode_encode (msg : RatchetMessage Box) : decode (encode msg) = .ok msg := by
  have hlen : (msg.nonce.toBytes.map .byte : Wire Box).length = 24 := by simp
  simp only [encode, decode, take_left' hlen, drop_left' hlen, mapM_byte?]
  simp [rejectIf, required, bind, Except.bind, pure, Except.pure]

theorem encode_of_decode {wire : Wire Box} {msg : RatchetMessage Box} (h : decode wire = .ok msg) :
    encode msg = wire := by
  unfold decode at h
  split at h
  · rename_i version encHeader rest
    simp only [bind_eq_ok_iff, rejectIf_eq_ok_iff, required_eq_ok_iff, ne_eq, not_not] at h
    obtain ⟨_, rfl, _, hnon, h⟩ := h
    split at h
    · rename_i ct hdrop
      cases h
      obtain ⟨_, hbs, hoct⟩ := bind_eq_some_iff.mp hnon
      rw [Octets.ofBytes?_eq_some_iff] at hoct
      rw [encode, hoct, ← eq_map_of_mapM_byte? hbs, ← hdrop, take_append_drop]
    · cases h
  · cases h

/-! ### The keys -/

/-- The bytes the responder hashes for a message. -/
def responderTranscript (P : Primitives Key Box Coins) (me : Identity Key)
    (spk : SignedPrekeySecret Key) (pqspk : PqPrekeySecret)
    (opk : Option (OneTimePrekeySecret Key)) (msg : InitialMessage Box) : Bytes :=
  transcriptBytes msg.initiator (me.toPublic P.secretKeys) (P.ratchet.x25519.publicKey spk.secret)
    pqspk.ek.toBytes msg.ek msg.kemCt (opk.map fun k => P.ratchet.x25519.publicKey k.secret)

variable {msg : InitialMessage Box}

theorem responderKeys_eq_ok_iff {me : Identity Key} {spk : SignedPrekeySecret Key}
    {pqspk : PqPrekeySecret} {opk : Option (OneTimePrekeySecret Key)} {keys : SessionKeys Key} :
    responderKeys P me spk pqspk opk msg = .ok keys ↔
      (msg.spkId = spk.id ∧ msg.pqspkId = pqspk.id ∧ msg.opkId = opk.map OneTimePrekeySecret.id ∧
        msg.kemCt.length = mlkem768CtLen) ∧ msg.initiator.verify P.suite = .ok () ∧
      ∃ kemSs, decapsulate P pqspk msg.kemCt = .ok kemSs ∧
        keys = sessionKeys P (P.suite.sha256 (responderTranscript P me spk pqspk opk msg))
          (deriveRoot P (P.ratchet.x25519.shared spk.secret msg.initiator.x)
            (P.ratchet.x25519.shared me.agreement msg.ek)
            (P.ratchet.x25519.shared spk.secret msg.ek)
            (opk.map fun k => P.ratchet.x25519.shared k.secret msg.ek) kemSs) := by
  simp only [responderKeys, check_bind_eq_ok_iff, rejectIf_eq_ok_iff, not_or, ne_eq, not_not]
  rw [bind_eq_ok_iff]
  refine and_congr_right fun _ => and_congr_right fun _ => exists_congr fun kemSs =>
    and_congr_right fun _ => ?_
  exact ⟨fun h => (ok.inj h).symm, fun h => h ▸ rfl⟩

section Honest

variable {alice bob : Identity Key} {b : PrekeyBundle} {spk : SignedPrekeySecret Key}
  {pqspk : PqPrekeySecret} {opk : Option (OneTimePrekeySecret Key)}
  {rng : InitiatorRandom Key Coins} {keys : SessionKeys Key} {kemCt : Octets mlkem768CtLen}

def flight (P : Primitives Key Box Coins) (me : Identity Key) (b : PrekeyBundle)
    (rng : InitiatorRandom Key Coins) (kemCt : Octets mlkem768CtLen) (first : RatchetMessage Box) :
    InitialMessage Box where
  initiator := me.toPublic P.secretKeys
  ek := P.ratchet.x25519.publicKey rng.ek
  spkId := b.spkId
  pqspkId := b.pqspkId
  opkId := b.opk.map Prod.fst
  kemCt := kemCt.toBytes
  first := encode first

/-- The initiator's keys, in terms of the responder's secrets. -/
theorem initiatorKeys_of_offers (hkem : P.kem.Correct pqspk.dk pqspk.ek)
    (hoffer : b.Offers P.secretKeys bob spk pqspk opk) (alice : Identity Key)
    (rng : InitiatorRandom Key Coins) :
    ∃ kemCt kemSs, P.kem.decapsulate pqspk.dk kemCt = some kemSs ∧
      initiatorKeys P alice b rng = .ok (sessionKeys P (transcript P (alice.toPublic P.secretKeys)
        (bob.toPublic P.secretKeys) (P.ratchet.x25519.publicKey spk.secret) pqspk.ek.toBytes
        (P.ratchet.x25519.publicKey rng.ek) kemCt.toBytes
        (opk.map fun k => P.ratchet.x25519.publicKey k.secret))
      (deriveRoot P (P.ratchet.x25519.shared alice.agreement
        (P.ratchet.x25519.publicKey spk.secret))
        (P.ratchet.x25519.shared rng.ek (P.ratchet.x25519.publicKey bob.agreement))
        (P.ratchet.x25519.shared rng.ek (P.ratchet.x25519.publicKey spk.secret))
        (opk.map fun k => P.ratchet.x25519.shared rng.ek (P.ratchet.x25519.publicKey k.secret))
        kemSs), kemCt) := by
  obtain ⟨kemCt, kemSs, hen, hde⟩ := hkem rng.encapsulation
  refine ⟨kemCt, kemSs, hde, ?_⟩
  simp only [initiatorKeys, hoffer.identity, hoffer.spk, hoffer.pqspk, hoffer.opk,
    Octets.ofBytes?_toBytes, required, ok_bind, hen, Option.map_map]
  rfl

theorem Primitives.Ideal.verify_toPublic (hP : P.Ideal) (me : Identity Key) :
    (me.toPublic P.secretKeys).verify P.suite = .ok () :=
  verifyPeerDomain_eq_ok_iff.mpr ⟨hP.signs.fromBytes me.signing, hP.signs.verify_sign me.signing _⟩

/-- **The keys agree.** -/
theorem responderKeys_of_initiatorKeys (hP : P.Ideal) (hkem : P.kem.Correct pqspk.dk pqspk.ek)
    (hoffer : b.Offers P.secretKeys bob spk pqspk opk)
    (hkeys : initiatorKeys P alice b rng = .ok (keys, kemCt)) (first : RatchetMessage Box) :
    responderKeys P bob spk pqspk opk (flight P alice b rng kemCt first) = .ok keys := by
  obtain ⟨_, kemSs, hde, hkeys'⟩ := initiatorKeys_of_offers hkem hoffer alice rng
  obtain ⟨rfl, rfl⟩ := Prod.mk.inj (ok.inj (hkeys.symm.trans hkeys'))
  refine responderKeys_eq_ok_iff.mpr ⟨⟨hoffer.spkId, hoffer.pqspkId, ?_, by simp [flight]⟩,
    hP.verify_toPublic alice, kemSs, ?_, ?_⟩
  · rw [flight, hoffer.opk, Option.map_map]
    rfl
  · simp [decapsulate, flight, required, hde, bind, Except.bind]
  · -- Each product is computed from the other side.
    have hdh := hP.ratchet.x25519
    simp only [flight, Identity.toPublic, Primitives.secretKeys, hdh spk.secret, hdh bob.agreement]
    congr 2
    cases opk with
    | none => rfl
    | some k => exact congrArg some (hdh _ _)

theorem initiatorKeys_fresh (hP : P.Ideal) (hkem : P.kem.Correct pqspk.dk pqspk.ek)
    (hoffer : b.Offers P.secretKeys bob spk pqspk opk)
    (hkeys : initiatorKeys P alice b rng = .ok (keys, kemCt)) : keys.roots.Fresh P.ratchet := by
  obtain ⟨_, _, -, hkeys'⟩ := initiatorKeys_of_offers hkem hoffer alice rng
  obtain ⟨rfl, rfl⟩ := Prod.mk.inj (ok.inj (hkeys.symm.trans hkeys'))
  exact deriveRoots_fresh hP.ratchet.hkdf fun _ _ h =>
    absurd (hP.ratchet.hkdf.block_inj h).2.2.1 (by decide)

/-! ### The two calls -/

section Calls

variable {vb : VerifiedBundle P.suite} (hoffer : vb.bundle.Offers P.secretKeys bob spk pqspk opk)
  (hkeys : initiatorKeys P alice vb.bundle rng = .ok (keys, kemCt)) {q : ℕ → Key}
  (hspk : q 0 = spk.secret) (hratchet : q 1 = rng.ratchet)

/-- The first message of the conversation. -/
def firstMessage (P : Primitives Key Box Coins) (keys : SessionKeys Key) (q : ℕ → Key)
    (rng : InitiatorRandom Key Coins) (payload : Bytes) : RatchetMessage Box :=
  messageOf P.ratchet keys.roots keys.sessionId q 0 0 0 rng.hdrNonce rng.nonce payload []

include hoffer hkeys hspk hratchet in
/-- The initiator is left with one message sent on the first chain. -/
theorem initiate_eq (checks : Bool) (payload : Bytes) (now : ℕ) :
    initiate P checks alice vb payload now rng = some (.ok
      (⟨realize P.ratchet keys.roots keys.sessionId q ⟨1, 1, 0, 0, []⟩, keys.services⟩,
        flight P alice vb.bundle rng kemCt (firstMessage P keys q rng payload))) := by
  obtain ⟨x, hinc⟩ := increment_of_lt (n := 0) checks (by decide)
  have henc := encrypt_realize P.ratchet keys.roots keys.sessionId q (v := ⟨1, 0, 0, 0, []⟩)
    rfl checks rng.hdrNonce rng.nonce now payload []
  rw [hinc, ← realize_initInitiator, hspk, hratchet] at henc
  have hspk' : vb.bundle.spk = P.ratchet.x25519.publicKey spk.secret := hoffer.spk
  simp only [initiate, hkeys, hspk', henc]
  rfl

theorem respond_of_decrypt [DecidableEq Key] {msg : InitialMessage Box} {first : RatchetMessage Box}
    {payload : Bytes} {checks : Bool} {now : ℕ} {privBytes : Key} {s : Session Key}
    (hkeys' : responderKeys P bob spk pqspk opk msg = .ok keys) (hfst : msg.first = encode first)
    (hdec : (initResponder P.ratchet keys.sessionId keys.roots.skRoot spk.secret keys.roots.hka
      keys.roots.nhkb).decrypt P.ratchet checks privBytes now first [] = some (s, .ok payload)) :
    respond P checks bob spk pqspk opk msg now privBytes =
      some (.ok (⟨s, keys.services⟩, payload)) := by
  simp only [respond, respondSession, hkeys', hfst, decode_encode, ok_bind, pure, Except.pure, hdec]
  rfl

include hspk in
/-- The responder opens the first message and is left with one message received. -/
theorem respond_eq [DecidableEq Key] (hP : P.Ideal) (hr : keys.roots.Fresh P.ratchet)
    {payload : Bytes} (hkeys' : responderKeys P bob spk pqspk opk msg = .ok keys)
    (hfst : msg.first = encode (firstMessage P keys q rng payload)) (checks : Bool) (now : ℕ) :
    respond P checks bob spk pqspk opk msg now (q 2) = some (.ok
      (⟨realize P.ratchet keys.roots keys.sessionId q ⟨2, 0, 0, 1, []⟩, keys.services⟩,
        payload)) := by
  have hdec : (realize P.ratchet keys.roots keys.sessionId q ⟨0, 0, 0, 0, []⟩).decrypt P.ratchet
      checks (q 2) now (firstMessage P keys q rng payload) [] =
      some (realize P.ratchet keys.roots keys.sessionId q ⟨2, 0, 0, 1, []⟩, .ok payload) :=
    @decrypt_first Key Box P.ratchet keys.roots keys.sessionId q (fun _ => rng.hdrNonce)
      (fun _ => rng.nonce) (fun _ => payload) checks _ hP.ratchet hr now
  rw [← realize_initResponder, hspk] at hdec
  exact respond_of_decrypt hkeys' hfst hdec

end Calls

end Honest

/-! ### The conversation that follows -/

section Conversation

variable [DecidableEq Key]

/-- In every run from this world within the delay-tolerance bounds in which no sending counter
leaves the 32-bit range, a message that was sent decrypts to its plaintext the first time it is
presented. -/
def Converses (R : Ratchet.Primitives Key Box) (checks : Bool) (r : Roots Key) (w : World Key Box) :
    Prop :=
  ∀ w', Reaches R checks (fun w a => Bounded R r w a ∧ CounterFits w a) w w' → ∀ em ∈ w'.sent,
    (⟨em.side.other, em.msg, em.userAd⟩ : Presentation Box) ∉ w'.presented → ∀ freshPriv now,
    WithinBounds R w' (.decrypt em.side.other freshPriv now em.msg em.userAd) →
    ∃ s', (w'.session em.side.other).decrypt R checks freshPriv now em.msg em.userAd =
      some (s', .ok em.plaintext)

/-- The world once the initiator holds session `a` and its first message is under way. -/
def initiated (P : Primitives Key Box Coins) (spk : SignedPrekeySecret Key)
    (rng : InitiatorRandom Key Coins) (keys : SessionKeys Key) (a : Established Key)
    (first : RatchetMessage Box) (payload : Bytes) : World Key Box :=
  (World.start P.ratchet keys.sessionId keys.roots spk.secret rng.ratchet).emit P.ratchet .initiator
    a.session first rng.hdrNonce rng.nonce payload []

/-- The world once the responder holds session `b` and has accepted the first message. -/
def opened (P : Primitives Key Box Coins) (spk : SignedPrekeySecret Key)
    (rng : InitiatorRandom Key Coins) (keys : SessionKeys Key) (a b : Established Key)
    (first : RatchetMessage Box) (payload : Bytes) : World Key Box :=
  (initiated P spk rng keys a first payload).present .responder b.session first [] (.ok payload)

section Reached

variable {spk : SignedPrekeySecret Key} {rng : InitiatorRandom Key Coins} {keys : SessionKeys Key}
  {q : ℕ → Key} {a b : Established Key} {payload : Bytes}

variable (hspk : q 0 = spk.secret) (hratchet : q 1 = rng.ratchet)
  (ha : a.session = realize P.ratchet keys.roots keys.sessionId q ⟨1, 1, 0, 0, []⟩)

include hspk hratchet ha

/-- The first message is one step of the ratchet conversation. -/
theorem step_initiated (checks : Bool) :
    Step P.ratchet checks (fun w a => Bounded P.ratchet keys.roots w a ∧ CounterFits w a)
      (World.start P.ratchet keys.sessionId keys.roots spk.secret rng.ratchet)
      (initiated P spk rng keys a (firstMessage P keys q rng payload) payload) := by
  obtain ⟨x, hinc⟩ := increment_of_lt (n := 0) checks (by decide)
  have hstart := @inOrder_start Key Box P.ratchet keys.roots keys.sessionId q
    (fun _ => rng.hdrNonce) (fun _ => rng.nonce) (fun _ => payload)
  obtain ⟨act, hbound, hfits, hexec⟩ := exec_inOrderSend (fun _ => rng.hdrNonce)
    (fun _ => rng.nonce) (fun _ => payload) hstart.initiator hinc
  rw [hspk, hratchet] at hbound hfits hexec
  refine ⟨act, ⟨hbound, hfits (by decide)⟩, hexec.trans ?_⟩
  rw [initiated, ha]
  rfl

variable (hb : b.session = realize P.ratchet keys.roots keys.sessionId q ⟨2, 0, 0, 1, []⟩)
  (hP : P.Ideal) (hr : keys.roots.Fresh P.ratchet)

include hb hP hr

theorem step_opened (checks : Bool) :
    Step P.ratchet checks (fun w a => Bounded P.ratchet keys.roots w a ∧ CounterFits w a)
      (initiated P spk rng keys a (firstMessage P keys q rng payload) payload)
      (opened P spk rng keys a b (firstMessage P keys q rng payload) payload) := by
  have hstart := @inOrder_start Key Box P.ratchet keys.roots keys.sessionId q
    (fun _ => rng.hdrNonce) (fun _ => rng.nonce) (fun _ => payload)
  have hstep := @step_inOrderReceive Key Box P.ratchet keys.roots keys.sessionId q
    (fun _ => rng.hdrNonce) (fun _ => rng.nonce) (fun _ => payload) 0 _ _ hP.ratchet hr
    hstart.initiator hstart.responder checks (by decide) 0
  rw [opened, initiated, ha, hb]
  rw [hspk, hratchet] at hstep
  exact hstep

/-- **The two sessions converse.** -/
theorem converses_opened (checks : Bool) : Converses P.ratchet checks keys.roots
      (opened P spk rng keys a b (firstMessage P keys q rng payload) payload) := by
  intro w' hrun em hsent hfst freshPriv now hbd
  have hreach := Relation.ReflTransGen.head (step_opened hspk hratchet ha hb hP hr checks) hrun
  obtain ⟨g, h, hc⟩ :=
    complete_of_reaches hP.ratchet hr (hreach.head (step_initiated hspk hratchet ha checks))
  exact h.delivers_sent hP.ratchet hr hc hsent hfst checks hbd

end Reached

end Conversation

end Komms.Pqxdh
