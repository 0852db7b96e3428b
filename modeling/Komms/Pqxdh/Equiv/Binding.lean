import Komms.Pqxdh.Equiv.Agreement

/-!
# What the session id binds

The session id is a hash over the two identities' keys, the prekeys, the ephemeral key and the KEM
ciphertext (`transcriptBytes_inj`).  A responder that reaches the initiator's session id has
therefore read all of these as the initiator sent them.  The first message is bound by its
encryption: what a fresh responder opens was sealed by the initiator's session (`first_authentic`).

Two things are not bound.  The cross-signature of the initiator's identity is not part of the
transcript; and any message that the initiator's session has sealed with empty associated data opens
as the first one (`later_message_opens_as_first`), as the ratchet tolerates the loss of messages.
-/

namespace Komms.Pqxdh

open Ratchet List Option Except Octets

variable {Key Box Coins : Type} {P : Primitives Key Box Coins}

/-! ### The transcript -/

theorem transcriptOpk_injective : Function.Injective transcriptOpk := by
  rintro (_ | a) (_ | b) h
  · rfl
  · simp [transcriptOpk] at h
  · simp [transcriptOpk] at h
  · exact congrArg some (ext (List.cons.inj h).2)

/-- **The transcript is injective** in what it covers, for the fixed lengths of ML-KEM-768. -/
theorem transcriptBytes_inj {i i' r r' : IdentityPublic} {spk spk' : Octets 32}
    {pqspk pqspk' : Bytes} {ek ek' : Octets 32} {ct ct' : Bytes} {opk opk' : Option (Octets 32)}
    (hpqs : pqspk.length = pqspk'.length) (hct : ct.length = ct'.length)
    (h : transcriptBytes i r spk pqspk ek ct opk = transcriptBytes i' r' spk' pqspk' ek' ct' opk') :
    (i.ed = i'.ed ∧ i.x = i'.x) ∧ (r.ed = r'.ed ∧ r.x = r'.x) ∧ spk = spk' ∧ pqspk = pqspk' ∧
      ek = ek' ∧ ct = ct' ∧ opk = opk' := by
  simp only [transcriptBytes, append_cancel_left_eq, append_inj_iff, append_inj_iff_of_length hpqs,
    append_inj_iff_of_length hct] at h
  obtain ⟨hied, hix, hred, hrx, hspk, hpq, hek, hcts, hopk⟩ := h
  exact ⟨⟨hied, hix⟩, ⟨hred, hrx⟩, hspk, hpq, hek, hcts, transcriptOpk_injective hopk⟩

/-- The two messages agree in everything the transcript covers. -/
structure SameElements (m m' : InitialMessage Box) : Prop where
  ed : m'.initiator.ed = m.initiator.ed
  x : m'.initiator.x = m.initiator.x
  ek : m'.ek = m.ek
  kemCt : m'.kemCt = m.kemCt
  opkId : m'.opkId = m.opkId

section Secrets

variable {me : Identity Key} {spk : SignedPrekeySecret Key} {pqspk : PqPrekeySecret}
  {opk opk' : Option (OneTimePrekeySecret Key)} {m m' : InitialMessage Box}
  {keys keys' : SessionKeys Key}

theorem responderKeys_of_sessionId (hopk : (opk'.map fun k => P.ratchet.x25519.publicKey k.secret) =
      opk.map (fun k => P.ratchet.x25519.publicKey k.secret) → opk' = opk)
    (hsha : P.suite.sha256 (responderTranscript P me spk pqspk opk' m') =
        P.suite.sha256 (responderTranscript P me spk pqspk opk m) →
      responderTranscript P me spk pqspk opk' m' = responderTranscript P me spk pqspk opk m)
    (h : responderKeys P me spk pqspk opk m = .ok keys)
    (h' : responderKeys P me spk pqspk opk' m' = .ok keys')
    (hid : keys'.sessionId = keys.sessionId) : SameElements m m' ∧ keys' = keys := by
  obtain ⟨⟨-, -, hid₁, hlen⟩, -, kemSs, hss, rfl⟩ := responderKeys_eq_ok_iff.mp h
  obtain ⟨⟨-, -, hid₂, hlen'⟩, -, kemSs', hss', rfl⟩ := responderKeys_eq_ok_iff.mp h'
  obtain ⟨⟨hed, hx⟩, -, -, -, hek, hct, hpub⟩ :=
    transcriptBytes_inj rfl (hlen'.trans hlen.symm) (hsha hid)
  obtain rfl := hopk hpub
  have hkem : kemSs' = kemSs := by
    rw [hct, hss] at hss'
    exact (ok.inj hss').symm
  refine ⟨⟨hed, hx, hek, hct, hid₂.trans hid₁.symm⟩, ?_⟩
  rw [hsha hid, hx, hek, hkem]

end Secrets

/-! ### The first message -/

section First

variable {R : Ratchet.Primitives Key Box} {r : Roots Key} {sid : Octets 32}

/-- Skipping ahead stays among the keys derived from the chain. -/
theorem skipLoop_secret (hkr : Key) (now count : ℕ) {ckr : Key} (nr : UInt32)
    (skipped : List (SkippedKey Key)) (h : SessionSecret R r ckr) :
    SessionSecret R r (Session.skipLoop R hkr now count ckr nr skipped).1 := by
  induction count generalizing ckr nr skipped with
  | zero => exact h
  | succ count ih => exact ih _ _ (.unsalted _ _ h)

variable {s s' : Session Key} {now : ℕ} {checks : Bool} {msg : RatchetMessage Box} {ad pt : Bytes}
  {spk privBytes : Key}

section

variable (hckr : ∀ ck, s.ckr = some ck → SessionSecret R r ck)
include hckr

theorem skipMessageKeys_secret {untilN : UInt32}
    (h : s.skipMessageKeys R untilN now = some (s', .ok ())) :
    s'.sessionId = s.sessionId ∧ s'.rk = s.rk ∧ ∀ ck, s'.ckr = some ck → SessionSecret R r ck := by
  unfold Session.skipMessageKeys at h
  split at h
  · cases h
  · cases hs : s.ckr with
    | none =>
      simp only [hs, some.injEq, Prod.mk.injEq] at h
      obtain ⟨rfl, -⟩ := h
      exact ⟨rfl, rfl, hckr⟩
    | some ckr =>
      simp only [hs, bind_eq_bind, bind_eq_some_iff] at h
      obtain ⟨_, -, h⟩ := h
      obtain ⟨rfl, -⟩ := Prod.mk.inj (some.inj h)
      refine ⟨rfl, rfl, fun ck hck => ?_⟩
      cases hck
      exact skipLoop_secret _ _ _ _ _ (hckr _ hs)

theorem skipAndDecrypt_secret {n : UInt32}
    (h : s.skipAndDecrypt R checks n now msg ad = some (s', .ok pt)) :
    s'.sessionId = s.sessionId ∧ ∃ ck, SessionSecret R r ck ∧
      R.aead.decrypt (kdfCk R ck).2 msg.nonce (payloadAdOf s.sessionId msg.encHeader ad) msg.ct =
        some pt := by
  unfold Session.skipAndDecrypt at h
  split at h
  · cases h
  · cases some.inj h
  · rename_i s₁ hskip
    obtain ⟨hid, -, hckr'⟩ := skipMessageKeys_secret hckr hskip
    simp only [Session.decryptCurrent, bind_eq_bind, bind_eq_some_iff] at h
    obtain ⟨ck, hck, h⟩ := h
    split at h
    · cases some.inj h
    · rename_i hopen
      simp only [bind_eq_some_iff] at h
      obtain ⟨_, -, h⟩ := h
      obtain ⟨rfl, heq⟩ := Prod.mk.inj (some.inj h)
      cases heq
      refine ⟨hid, ck, hckr' ck hck, ?_⟩
      rw [← hid]
      exact hopen

end

variable [DecidableEq Key]
  (h : (initResponder R sid r.skRoot spk r.hka r.nhkb).decrypt R checks privBytes now msg ad =
    some (s', .ok pt))
include h

/-- What a fresh responder session has opened: a header under the first header key, and a body under
a message key derived from the root. -/
theorem decrypt_initResponder : s'.sessionId = sid ∧
      (∃ bytes, R.aead.decrypt r.hka msg.encHeader.nonce (headerAdOf sid) msg.encHeader.box =
        some bytes) ∧
      ∃ ck, SessionSecret R r ck ∧ R.aead.decrypt (kdfCk R ck).2 msg.nonce
        (payloadAdOf sid msg.encHeader ad) msg.ct = some pt := by
  set s := initResponder R sid r.skRoot spk r.hka r.nhkb with hs
  change s.decryptByHeader R checks privBytes now msg ad = _ at h
  unfold Session.decryptByHeader at h
  -- A fresh responder has no current header key: only the next one can open the header.
  simp only [hs, initResponder, bind_none] at h
  rw [← initResponder, ← hs] at h
  cases hopen : s.openHeader R r.hka msg.encHeader with
  | none =>
    simp only [hopen, some.injEq, Prod.mk.injEq] at h
    cases h.2
  | some bytes =>
    simp only [hopen, Session.withHeader] at h
    cases hdec : Header.decode bytes with
    | error e =>
      simp only [hdec, some.injEq, Prod.mk.injEq] at h
      cases h.2
    | ok header =>
      simp only [hdec, Session.decryptOnNextChain] at h
      split at h
      · cases h
      · cases some.inj h
      · rename_i s₁ hskip
        -- There is no receiving chain to skip on; the turn derives one from the root.
        have hnone : ∀ ck, s.ckr = some ck → SessionSecret R r ck := by
          intro ck hck
          cases hck
        obtain ⟨hid, hrk, -⟩ := skipMessageKeys_secret hnone hskip
        have hroot : SessionSecret R r s₁.rk := by
          rw [hrk]
          exact .skRoot
        obtain ⟨hid', ck, hsec, hbody⟩ := skipAndDecrypt_secret (fun ck hck => by
          cases hck
          exact .salted _ _ _ hroot) h
        have hsid : (s₁.dhRatchet R privBytes header).sessionId = sid := hid
        rw [hsid] at hid' hbody
        exact ⟨hid', ⟨bytes, hopen⟩, ck, hsec, hbody⟩

/-- **The first message is authentic**: what a fresh responder opens is a message that the initiator
has sent in this conversation. -/
theorem first_authentic (hR : R.Ideal) (hr : r.Fresh R) {g : Ghost Key} {w : World Key Box}
    (hinv : Inv R r sid g w) (hadm : Admissible R r w (.decrypt .responder privBytes now msg ad)) :
    ∃ em ∈ w.sent, em.side = .initiator ∧ em.plaintext = pt ∧ em.userAd = ad ∧ em.msg = msg := by
  obtain ⟨-, ⟨_, hhead⟩, ck, hsec, hbody⟩ := decrypt_initResponder h
  have hne : ∀ i, (kdfCk R ck).2 ≠ headerKey R r g.q i := by
    rintro (_ | _ | i) heq
    · exact hr.hka_ne_message _ heq.symm
    · exact hr.nhkb_ne_message _ heq.symm
    · exact salted_ne_unsalted hR.hkdf heq.symm
  obtain ⟨j, em, t, hsent, -, ⟨hside, -, _, _, hmsg⟩, -, hpt, had, rfl⟩ :=
    body_authentic hinv (.unsalted _ _ hsec) hne hadm.2 hbody
  -- The header opens under the key of the first chain only.
  have hch : t.1 = 0 := by
    rw [hmsg] at hhead
    have hkey : headerKey R r g.q 0 = headerKey R r g.q t.1 := (hR.aead.binding hhead).1
    exact (headerKey_inj hR.hkdf hr hkey).symm
  refine ⟨em, mem_of_getElem? hsent, ?_, hpt, had, rfl⟩
  rw [hside, hch]
  rfl

end First

/-! ### The handshake -/

section Handshake

variable [DecidableEq Key] {bob : Identity Key} {spk : SignedPrekeySecret Key}
  {pqspk : PqPrekeySecret} {opk : Option (OneTimePrekeySecret Key)}

theorem respond_eq_ok {opk : Option (OneTimePrekeySecret Key)} {checks : Bool}
    {m : InitialMessage Box} {now : ℕ} {privBytes : Key} {b : Established Key} {payload : Bytes}
    (h : respond P checks bob spk pqspk opk m now privBytes = some (.ok (b, payload))) :
    ∃ keys first s', responderKeys P bob spk pqspk opk m = .ok keys ∧ decode m.first = .ok first ∧
      (initResponder P.ratchet keys.sessionId keys.roots.skRoot spk.secret keys.roots.hka
        keys.roots.nhkb).decrypt P.ratchet checks privBytes now first [] = some (s', .ok payload) ∧
      b = ⟨s', keys.services⟩ := by
  revert h
  unfold respond respondSession
  cases responderKeys P bob spk pqspk opk m with
  | error e => exact fun h => nomatch some.inj h
  | ok keys =>
    cases decode m.first with
    | error e => exact fun h => nomatch some.inj h
    | ok first =>
      intro h
      obtain ⟨⟨s', result⟩, hdec, h⟩ := bind_eq_some_iff.mp h
      cases result with
      | error e => exact nomatch some.inj h
      | ok pt =>
        obtain ⟨rfl, rfl⟩ := Prod.mk.inj (ok.inj (some.inj h))
        exact ⟨keys, first, s', rfl, rfl, hdec, rfl⟩

/-- **A later message opens as the first one.**  Whatever the initiator's session encrypts next with
empty associated data can stand in the flight in the place of the first message. -/
theorem later_message_opens_as_first (hP : P.Ideal) (hkem : P.kem.Correct pqspk.dk pqspk.ek)
    {vb : VerifiedBundle P.suite} (hoff : vb.bundle.Offers P.secretKeys bob spk pqspk opk)
    (checks : Bool) (alice : Identity Key) (payload later : Bytes) (now : ℕ)
    (rng : InitiatorRandom Key Coins) (hdrNonce nonce : Nonce) :
    ∃ a m s second, initiate P checks alice vb payload now rng = some (.ok (a, m)) ∧
      a.session.encrypt P.ratchet checks hdrNonce nonce now later [] = some (s, second) ∧
      encode second ≠ m.first ∧ ∀ now' privBytes, ∃ b,
        respond P checks bob spk pqspk opk { m with first := encode second } now' privBytes =
          some (.ok (b, later)) ∧ b.session.sessionId = a.session.sessionId := by
  obtain ⟨_, _, -, hkeys⟩ := initiatorKeys_of_offers hkem hoff alice rng
  generalize hgen : sessionKeys P _ _ = keys at hkeys
  have hr := initiatorKeys_fresh hP hkem hoff hkeys
  let q : ℕ → Key
    | 0 => spk.secret
    | _ => rng.ratchet
  have hinit := initiate_eq hoff hkeys (q := q) rfl rfl checks payload now
  obtain ⟨x, hinc⟩ := increment_of_lt (n := 1) checks (by decide)
  have henc := encrypt_realize P.ratchet keys.roots keys.sessionId q (v := ⟨1, 1, 0, 0, []⟩)
    rfl checks hdrNonce nonce now later []
  rw [hinc] at henc
  refine ⟨_, _, _, _, hinit, henc, fun heq => ?_, fun now' privBytes => ?_⟩
  · -- The two bodies are sealed under different keys.
    have hmsg := congrArg decode heq
    simp only [flight, decode_encode, ok.injEq] at hmsg
    have hct := congrArg RatchetMessage.ct hmsg
    exact absurd (messageKey_inj hP.ratchet.hkdf hr (hP.ratchet.aead.encrypt_inj hct).1).2
      (by decide)
  · -- Both messages are sent; the second is presented first.
    set a : Established Key :=
      ⟨realize P.ratchet keys.roots keys.sessionId q ⟨1, 1, 0, 0, []⟩, keys.services⟩ with ha
    set w := initiated P spk rng keys a (firstMessage P keys q rng payload) payload with hw
    obtain ⟨act, hbound, hfits, hexec⟩ := exec_inOrderSend (w := w)
      (fun _ => hdrNonce) (fun _ => nonce) (fun _ => later) rfl hinc
    have hsent : Step P.ratchet checks
        (fun w a => Bounded P.ratchet keys.roots w a ∧ CounterFits w a)
        (World.start P.ratchet keys.sessionId keys.roots spk.secret rng.ratchet) w :=
      step_initiated rfl rfl rfl checks
    have hreach := (Relation.ReflTransGen.single hsent).tail
      ⟨act, ⟨hbound, hfits (by decide)⟩, hexec⟩
    obtain ⟨g, hinv, hc⟩ := complete_of_reaches hP.ratchet hr hreach
    set msg : RatchetMessage Box :=
      messageOf P.ratchet keys.roots keys.sessionId q 0 1 0 hdrNonce nonce later [] with hmsg
    have hdem : (realize P.ratchet keys.roots keys.sessionId q ⟨0, 0, 0, 0, []⟩).skipDemand
        P.ratchet msg = (0, 1) :=
      skipDemand_messageOf_next hP.ratchet hr (by decide) (by decide) (by decide)
    have hbd : ((inOrderSend P.ratchet keys.roots keys.sessionId q (fun _ => hdrNonce)
        (fun _ => nonce) (fun _ => later) 1 w).session .responder).Fresh now' ∧
        ((inOrderSend P.ratchet keys.roots keys.sessionId q (fun _ => hdrNonce) (fun _ => nonce)
          (fun _ => later) 1 w).session .responder).Tolerates P.ratchet msg := by
      refine ⟨fun sk hsk => absurd hsk not_mem_nil, ?_⟩
      change (realize P.ratchet keys.roots keys.sessionId q ⟨0, 0, 0, 0, []⟩).Tolerates
        P.ratchet msg
      rw [Session.Tolerates, hdem]
      simp [realize, maxSkip, maxStoredSkipped]
    obtain ⟨_, hdec⟩ := hinv.delivers_sent hP.ratchet hr hc mem_sent_inOrderSend
      not_mem_nil checks hbd
    exact ⟨_, respond_of_decrypt (responderKeys_of_initiatorKeys hP hkem hoff hkeys _) rfl hdec,
      (decrypt_initResponder hdec).1⟩

/-- **Agreement and binding.**  For every two identities, every verified bundle that offers the
responder's secrets, every payload and all randomness:

* `respond` opens the initiator's flight to that payload, and both ends hold the same session id and
  service secrets and sessions that converse;
* a message that leads `respond` to the initiator's session id carries the initiator's two keys, its
  ephemeral key, its KEM ciphertext and its one-time prekey, and its first message is one that the
  initiator's own session has encrypted with empty associated data. -/
theorem handshake_agrees_and_binds (hP : P.Ideal) (hkem : P.kem.Correct pqspk.dk pqspk.ek)
    {vb : VerifiedBundle P.suite} (hoffer : vb.bundle.Offers P.secretKeys bob spk pqspk opk)
    (checks : Bool) (alice : Identity Key) (payload : Bytes) (now : ℕ)
    (rng : InitiatorRandom Key Coins) :
    ∃ keys kemCt a m first, initiatorKeys P alice vb.bundle rng = .ok (keys, kemCt) ∧
      initiate P checks alice vb payload now rng = some (.ok (a, m)) ∧ m.first = encode first ∧
      (∀ now' privBytes, ∃ b,
        respond P checks bob spk pqspk opk m now' privBytes = some (.ok (b, payload)) ∧
        b.session.sessionId = a.session.sessionId ∧ b.services = a.services ∧
        Converses P.ratchet checks keys.roots (opened P spk rng keys a b first payload)) ∧
      ∀ m' opk' now' privBytes b' payload',
        ((opk'.map fun k => P.ratchet.x25519.publicKey k.secret) =
          opk.map (fun k => P.ratchet.x25519.publicKey k.secret) → opk' = opk) →
        (P.suite.sha256 (responderTranscript P bob spk pqspk opk' m') =
            P.suite.sha256 (responderTranscript P bob spk pqspk opk m) →
          responderTranscript P bob spk pqspk opk' m' = responderTranscript P bob spk pqspk opk m) →
        respond P checks bob spk pqspk opk' m' now' privBytes = some (.ok (b', payload')) →
        b'.session.sessionId = a.session.sessionId →
        SameElements m m' ∧ ∃ first', m'.first = encode first' ∧
          ∀ w, Reaches P.ratchet checks (Admissible P.ratchet keys.roots)
              (initiated P spk rng keys a first payload) w →
            Admissible P.ratchet keys.roots w (.decrypt .responder privBytes now' first' []) →
            ∃ em ∈ w.sent, em.side = .initiator ∧ em.plaintext = payload' ∧ em.userAd = [] ∧
              em.msg = first' := by
  obtain ⟨kemCt, _, -, hkeys⟩ := initiatorKeys_of_offers hkem hoffer alice rng
  generalize hgen : sessionKeys P _ _ = keys at hkeys
  have hr := initiatorKeys_fresh hP hkem hoffer hkeys
  -- The ratchet keys drawn by the two calls.
  let q (privBytes : Key) : ℕ → Key
    | 0 => spk.secret
    | 1 => rng.ratchet
    | _ => privBytes
  have hinit := initiate_eq hoffer hkeys (q := q rng.ratchet) rfl rfl checks payload now
  refine ⟨keys, kemCt, _, _, firstMessage P keys (q rng.ratchet) rng payload, hkeys, hinit, rfl, ?_,
    ?_⟩
  · intro now' privBytes
    have hresp := responderKeys_of_initiatorKeys hP hkem hoffer hkeys
      (firstMessage P keys (q privBytes) rng payload)
    exact ⟨_, respond_eq (q := q privBytes) rfl hP hr hresp rfl checks now', rfl, rfl,
      converses_opened (q := q privBytes) rfl rfl rfl rfl hP hr checks⟩
  · intro m' opk' now' privBytes b' payload' hopk hsha hrsp hid
    obtain ⟨keys', first', _, hkeys', hdec, hdecrypt, rfl⟩ := respond_eq_ok hrsp
    have hid' : keys'.sessionId = keys.sessionId := by
      rw [← (decrypt_initResponder hdecrypt).1]
      exact hid
    obtain ⟨hsame, rfl⟩ := responderKeys_of_sessionId hopk hsha
      (responderKeys_of_initiatorKeys hP hkem hoffer hkeys _) hkeys' hid'
    refine ⟨hsame, first', (encode_of_decode hdec).symm, fun w hreach hadm => ?_⟩
    obtain ⟨act, hall, hexec⟩ := step_initiated (P := P) (q := q rng.ratchet) rfl rfl
      (rfl : (⟨realize P.ratchet keys'.roots keys'.sessionId (q rng.ratchet) ⟨1, 1, 0, 0, []⟩,
        keys'.services⟩ : Established Key).session = _) checks
    obtain ⟨g, hinv, -⟩ := inv_of_reaches hP.ratchet hr (fun _ _ h => h)
      (Relation.ReflTransGen.head ⟨act, hall.1.1, hexec⟩ hreach)
    exact first_authentic hdecrypt hP.ratchet hr hinv hadm

end Handshake

/-! ### Instances -/

namespace Sample

open Ratchet.Symbolic (nonces)

/-- The tag that stands for a signature: the beginning of the key and the message. -/
def tag (key : Octets 32) (message : Bytes) : Octets 64 :=
  ⟨leBytes 64 (ofLeBytes (key.toBytes ++ message)), length_leBytes _ _⟩

/-- The hash of a transcript is its ephemeral key. -/
def sha256 (bytes : Bytes) : Octets 32 :=
  (Octets.ofBytes? 32 ((bytes.drop 1358).take 32)).getD (.zero 32)

def suite : Suite where
  ed25519 := { fromBytes := fun _ => true, verify := fun key message sig => sig == tag key message }
  sha256 := sha256

def kem : Kem (Octets mlkem768EkLen) (Octets mlkem768DkLen) (Octets mlkem768CtLen) ℕ Unit where
  encapsulate := fun _ _ => some (.replicate mlkem768CtLen 7, 11)
  decapsulate := fun _ _ => some 11

/-- The symbolic primitives of the ratchet with a toy signature, hash and KEM. -/
def primitives : Primitives ℕ ℕ Unit where
  ratchet := Ratchet.Symbolic.primitives
  suite := suite
  verifyingKey := fun sk => .ofLe 32 sk
  sign := fun sk message => tag (.ofLe 32 sk) message
  kem := kem
  ofOctets := fun o => ofLeBytes o.toBytes
  concat := Encodable.encode

theorem primitives_ideal : primitives.Ideal where
  ratchet := Ratchet.Symbolic.primitives_ideal
  signs := ⟨fun _ => rfl, fun _ _ => beq_self_eq_true _⟩

def alice : Identity ℕ := ⟨1, 2⟩
def bob : Identity ℕ := ⟨3, 4⟩
def spk : SignedPrekeySecret ℕ := ⟨10, 5⟩
def pqspk : PqPrekeySecret := ⟨20, .zero _, .zero _⟩
def opk : Option (OneTimePrekeySecret ℕ) := some ⟨30, 6⟩

def bundle : VerifiedBundle primitives.suite where
  bundle := .build primitives.secretKeys bob spk pqspk opk 100 []
  verified := ⟨_, 50, PrekeyBundle.verify_build primitives_ideal.signs bob spk pqspk opk
    (Nat.zero_le _) (fun _ h => absurd h List.not_mem_nil) (Nat.zero_le _) (by decide), .inl rfl⟩

theorem kem_correct : primitives.kem.Correct pqspk.dk pqspk.ek := fun _ => ⟨_, _, rfl, rfl⟩

theorem bundle_offers : bundle.bundle.Offers primitives.secretKeys bob spk pqspk opk :=
  ⟨rfl, rfl, rfl, rfl, rfl, rfl⟩

def random : InitiatorRandom ℕ Unit := ⟨8, (), 9, nonces 0, nonces 1⟩

theorem sha256_transcriptBytes {i r : IdentityPublic} {spk : Octets 32} {pqspk : Bytes}
    {ek : Octets 32} {ct : Bytes} {opk : Option (Octets 32)} (h : pqspk.length = mlkem768EkLen) :
    sha256 (transcriptBytes i r spk pqspk ek ct opk) = ek := by
  have hspl : transcriptBytes i r spk pqspk ek ct opk =
      (pqxdhInfo ++ i.ed.toBytes ++ i.x.toBytes ++ r.ed.toBytes ++ r.x.toBytes ++ spk.toBytes ++
        pqspk) ++ (ek.toBytes ++ (ct ++ transcriptOpk opk)) := by
    simp [transcriptBytes]
  have hinfo : pqxdhInfo.length = 14 := by decide
  rw [sha256, hspl, drop_left' (by simp [h, hinfo, mlkem768EkLen]),
    take_left' ek.length_toBytes, ofBytes?_toBytes, getD_some]

/-- A handshake with a one-time prekey: the responder reads the payload and shares the session, and
no flight with another ephemeral key leads it to that session. -/
theorem handshake_agrees_and_binds_sample : ∃ a m b,
    initiate primitives true alice bundle [1, 2, 3] 60 random = some (.ok (a, m)) ∧
    respond primitives true bob spk pqspk opk m 70 12 = some (.ok (b, [1, 2, 3])) ∧
    b.session.sessionId = a.session.sessionId ∧ b.services = a.services ∧
    ∀ ek b' payload, ek ≠ m.ek →
      respond primitives true bob spk pqspk opk { m with ek := ek } 70 12 =
        some (.ok (b', payload)) → b'.session.sessionId ≠ a.session.sessionId := by
  obtain ⟨_, _, a, m, _, -, hinit, -, hagr, hbind⟩ :=
    handshake_agrees_and_binds primitives_ideal kem_correct bundle_offers true alice [1, 2, 3] 60
      random
  obtain ⟨b, hrsp, hid, hser, -⟩ := hagr 70 12
  refine ⟨a, m, b, hinit, hrsp, hid, hser, fun ek b' payload hek hrsp' hid' => ?_⟩
  -- The hash of a transcript is its ephemeral key here, so the two transcripts do not collide.
  have hread {m' : InitialMessage ℕ} :
      sha256 (responderTranscript primitives bob spk pqspk opk m') =
      m'.ek := sha256_transcriptBytes pqspk.ek.length_toBytes
  have hsame := (hbind { m with ek := ek } opk _ _ _ _ (fun _ => rfl)
    (fun hsha => absurd (hread.symm.trans (hsha.trans hread)) hek) hrsp' hid').1
  exact hek hsame.ek

/-- The initiator's second message, put in the flight in the place of the first, is accepted under
the same session id. -/
theorem second_message_opens_as_first : ∃ a m s second b,
    initiate primitives true alice bundle [1, 2, 3] 60 random = some (.ok (a, m)) ∧
    a.session.encrypt primitives.ratchet true (nonces 2) (nonces 3) 60 [4, 5] [] =
      some (s, second) ∧
    encode second ≠ m.first ∧
    respond primitives true bob spk pqspk opk { m with first := encode second } 70 12 =
      some (.ok (b, [4, 5])) ∧
    b.session.sessionId = a.session.sessionId := by
  obtain ⟨a, m, s, second, hinit, henc, hne, hopen⟩ :=
    later_message_opens_as_first primitives_ideal kem_correct bundle_offers true alice [1, 2, 3]
      [4, 5] 60 random (nonces 2) (nonces 3)
  obtain ⟨b, hrsp, hid⟩ := hopen 70 12
  exact ⟨a, m, s, second, b, hinit, henc, hne, hrsp, hid⟩

end Sample

end Komms.Pqxdh
