import Mathlib.Logic.Equiv.List
import Komms.Ratchet.Equiv.Reception

/-!
# A conversation without disorder

The initiator sends, the responder receives each message at once.  `inOrder_reaches` gives the
world after `n` messages, for every `n` that a 32-bit counter can number.

Runs are exhibited in a symbolic model of the primitives: keys and boxes are numbers that encode the
whole input they were made from, so nothing collides and nothing opens by accident.
-/

namespace Komms.Ratchet.Symbolic

instance encodableUInt8 : Encodable UInt8 :=
  Encodable.ofLeftInjection UInt8.toNat (fun n => some (UInt8.ofNat n)) fun b => by simp

instance (n : ℕ) : Encodable (Octets n) :=
  Encodable.ofLeftInjection Octets.toBytes (Octets.ofBytes? n) Octets.ofBytes?_toBytes

instance {Box : Type} [Encodable Box] : Encodable (SealedHeader Box) :=
  Encodable.ofLeftInjection (fun h => (h.nonce, h.box)) (fun p => some ⟨p.1, p.2⟩) fun _ => rfl

/-- A derived key is the code of its derivation. -/
def hkdf : Hkdf ℕ := ⟨fun salt ikm info i => Encodable.encode (salt, ikm, info, i)⟩

def x25519 : DiffieHellman ℕ (Octets 32) ℕ :=
  { publicKey := fun priv => ⟨leBytes 32 priv, length_leBytes 32 priv⟩,
    shared := fun priv pub => ofLeBytes (leBytes 32 priv) * ofLeBytes pub.toBytes }

/-- A box is the code of everything that went into it. -/
def aead : Aead ℕ Nonce (Ad ℕ) ℕ :=
  { encrypt := fun k n ad pt => Encodable.encode (k, n, ad, pt),
    decrypt := fun k n ad box =>
      match (Encodable.decode box : Option (ℕ × Nonce × Ad ℕ × Bytes)) with
      | some (k', n', ad', pt) => if k = k' ∧ n = n' ∧ ad = ad' then some pt else none
      | none => none }

def primitives : Primitives ℕ ℕ := ⟨hkdf, x25519, aead⟩

theorem primitives_ideal : primitives.Ideal where
  hkdf := by
    constructor
    intro salt salt' ikm ikm' info info' i i' h
    have := Encodable.encode_injective h
    simpa only [Prod.mk.injEq] using this
  x25519 := fun a b => Nat.mul_comm _ _
  aead := by
    constructor
    · intro k n ad pt
      simp [primitives, aead]
    · intro k k' n n' ad ad' pt pt' h
      simp only [primitives, aead, Encodable.encodek] at h
      split_ifs at h with heq
      exact heq

/-- Roots as the handshake derives them, from a secret that is no key of the ratchet. -/
def roots : Roots ℕ := deriveRoots primitives (hkdf.block none 0 [] 0)

theorem roots_fresh : roots.Fresh primitives := by
  refine deriveRoots_fresh primitives_ideal.hkdf fun rk d h => ?_
  have := (primitives_ideal.hkdf.block_inj h).1
  cases this

/-- The nonces and plaintexts of the runs exhibited in this model. -/
def nonces (i : ℕ) : Nonce := ⟨leBytes 24 i, length_leBytes 24 i⟩

def plaintexts (i : ℕ) : Bytes := leBytes 4 i

def sessionId : Octets 32 := Octets.zero 32

end Komms.Ratchet.Symbolic

namespace Komms.Ratchet

open List

variable {Key Box : Type} (P : Primitives Key Box) (r : Roots Key) (sid : Octets 32)
  (q : ℕ → Key) (hdrNonce nonce : ℕ → Nonce) (pt : ℕ → Bytes)

/-- Message `i` of the initiator's first chain. -/
def inOrderMessage (i : ℕ) : RatchetMessage Box :=
  messageOf P r sid q 0 i 0 (hdrNonce i) (nonce i) (pt i) []

/-- The view of the responder after `n` messages. -/
def inOrderView (n : ℕ) : View := if n = 0 then ⟨0, 0, 0, 0, []⟩ else ⟨2, 0, 0, n, []⟩

/-- The world after `n` messages sent and received. -/
structure InOrder (n : ℕ) (w : World Key Box) : Prop where
  initiator : w.session .initiator = realize P r sid q ⟨1, n, 0, 0, []⟩
  responder : w.session .responder =
    realize P r sid q (inOrderView n)
  sent : w.sent = (List.range n).map fun i =>
    ⟨.initiator, pt i, [], inOrderMessage P r sid q hdrNonce nonce pt i⟩
  presented : w.presented = (List.range n).map fun i =>
    ⟨.responder, inOrderMessage P r sid q hdrNonce nonce pt i, []⟩
  accepted : w.accepted = (List.range n).map fun i =>
    ⟨.responder, inOrderMessage P r sid q hdrNonce nonce pt i, [], pt i, i + 1⟩

/-- The world once the initiator has sent message `n`. -/
def inOrderSend (n : ℕ) (w : World Key Box) : World Key Box :=
  w.emit P .initiator (realize P r sid q ⟨1, n + 1, 0, 0, []⟩)
    (inOrderMessage P r sid q hdrNonce nonce pt n) (hdrNonce n) (nonce n) (pt n) []

variable {P r sid q hdrNonce nonce pt} {checks : Bool} {n : ℕ} {w : World Key Box}

theorem mem_sent_inOrderSend :
    (⟨.initiator, pt n, [], inOrderMessage P r sid q hdrNonce nonce pt n⟩ :
    Emission Box) ∈ (inOrderSend P r sid q hdrNonce nonce pt n w).sent :=
  mem_append_right _ (mem_singleton_self _)

theorem presented_inOrderSend :
    (inOrderSend P r sid q hdrNonce nonce pt n w).presented = w.presented := rfl

theorem responder_inOrderSend :
    (inOrderSend P r sid q hdrNonce nonce pt n w).session .responder = w.session .responder := rfl

theorem inOrder_start : InOrder P r sid q hdrNonce nonce pt 0 (World.start P sid r (q 0) (q 1)) :=
  ⟨rfl, rfl, rfl, rfl, rfl⟩

section Steps

variable [DecidableEq Key]

/-- The initiator can send its next message, whether or not its counter wraps. -/
theorem exec_inOrderSend (hdrNonce nonce : ℕ → Nonce) (pt : ℕ → Bytes)
    (hs : w.session .initiator = realize P r sid q ⟨1, n, 0, 0, []⟩)
    {x : UInt32} (hinc : increment checks (UInt32.ofNat n) = some x) :
    ∃ a, Bounded P r w a ∧ (n + 1 < 2 ^ 32 → CounterFits w a) ∧
      w.exec P checks a = some (inOrderSend P r sid q hdrNonce nonce pt n w) := by
  refine ⟨.encrypt .initiator (hdrNonce n) (nonce n) 0 (pt n) [], ⟨trivial, ?_⟩, fun hn => ?_, ?_⟩
  · rw [WithinBounds, hs]
    exact fun sk hsk => absurd hsk not_mem_nil
  · rw [CounterFits, hs]
    change (UInt32.ofNat n).toNat + 1 < 2 ^ 32
    rwa [toNat_ofNat_of_lt (by omega)]
  · have henc := encrypt_realize P r sid q (v := ⟨1, n, 0, 0, []⟩) rfl checks (hdrNonce n)
      (nonce n) 0 (pt n) []
    rw [hinc, Option.map_some] at henc
    rw [World.exec, hs, henc, Option.map_some]
    rfl

variable (hP : P.Ideal)

include hP

omit [DecidableEq Key] in
theorem admissible_inOrderMessage {privBytes : Key} {now : ℕ}
    (hs : w.session .initiator = realize P r sid q ⟨1, n, 0, 0, []⟩) :
    Admissible P r (inOrderSend P r sid q hdrNonce nonce pt n w)
      (.decrypt .responder privBytes now (inOrderMessage P r sid q hdrNonce nonce pt n) []) := by
  have hseal : (inOrderSend P r sid q hdrNonce nonce pt n w).sealed =
      w.sealed ++ (realize P r sid q ⟨1, n, 0, 0, []⟩).sealings P (hdrNonce n) (nonce n)
        (pt n) [] := by
    rw [← hs]
    rfl
  constructor
  · refine hP.aead.unforged_of_mem ?_ _
    rw [hseal]
    exact mem_append_right _ mem_cons_self
  · refine hP.aead.unforged_of_mem ?_ _
    rw [hseal]
    exact mem_append_right _ (mem_cons_of_mem _ (mem_singleton_self _))

omit hP in
theorem View.skip_zero_of_nil (e s p o k now : ℕ) :
    View.skip ⟨e, s, p, o, []⟩ k 0 now = ⟨e, s, p, o, []⟩ := by
  simp [View.skip, View.newSlots]

variable (hr : r.Fresh P)

include hr

/-- The first message takes the responder through its first DH step. -/
theorem decrypt_first (now : ℕ) : (realize P r sid q ⟨0, 0, 0, 0, []⟩).decrypt P checks (q 2) now
        (inOrderMessage P r sid q hdrNonce nonce pt 0) [] =
      some (realize P r sid q ⟨2, 0, 0, 1, []⟩, .ok (pt 0)) := by
  have hopen : (realize P r sid q ⟨0, 0, 0, 0, []⟩).openHeader P
      (realize P r sid q ⟨0, 0, 0, 0, []⟩).nhkr
      (inOrderMessage P r sid q hdrNonce nonce pt 0).encHeader = some (headerOf P q 0 0 0).encode :=
    (openHeader_messageOf hP hr 0).trans (if_pos rfl)
  have hskip : (realize P r sid q ⟨0, 0, 0, 0, []⟩).skipMessageKeys P (headerOf P q 0 0 0).pn now =
      some (realize P r sid q ⟨0, 0, 0, 0, []⟩, .ok ()) :=
    skipMessageKeys_realize_none P r sid q (by decide) _ now
  have hrat : (realize P r sid q ⟨0, 0, 0, 0, []⟩).dhRatchet P (q 2) (headerOf P q 0 0 0) =
      realize P r sid q ⟨2, 0, 0, 0, []⟩ := by
    rw [dhRatchet_realize P r sid q hP.x25519 (q 2) rfl (fun sl hsl => absurd hsl not_mem_nil),
      Function.update_eq_self]
    rfl
  have htry : (realize P r sid q ⟨0, 0, 0, 0, []⟩).trySkipped P
      (inOrderMessage P r sid q hdrNonce nonce pt 0) [] =
      (realize P r sid q ⟨0, 0, 0, 0, []⟩, .ok none) :=
    trySkipped_miss hP hr (fun sl hsl => absurd hsl not_mem_nil) (by decide) not_mem_nil
  -- No stored key and no current header key: the next header key opens the message.
  rw [decrypt_eq_decryptByHeader checks (q 2) (fun sk hsk => absurd hsk not_mem_nil) htry,
    Session.decryptByHeader, inOrderMessage, openHeader_current_none hP hr (by decide),
    ← inOrderMessage, hopen]
  simp only [Session.withHeader, Header.decode_encode, Session.decryptOnNextChain, hskip, hrat]
  refine (skipAndDecrypt_messageOf hP checks now rfl (Nat.zero_le 0) (by decide)
    (by decide)).trans ?_
  rw [Nat.sub_zero, View.skip_zero_of_nil]
  rfl

theorem decrypt_inOrder (hn : n + 1 < 2 ^ 32) (now : ℕ) :
    (realize P r sid q (inOrderView n)).decrypt P checks (q 2) now
        (inOrderMessage P r sid q hdrNonce nonce pt n) [] =
      some (realize P r sid q (inOrderView (n + 1)), .ok (pt n)) := by
  rw [inOrderView, inOrderView, if_neg (Nat.succ_ne_zero n)]
  split_ifs with h0
  · subst h0
    exact decrypt_first hP hr now
  · -- A later message is the next one on the receiving chain.
    refine (decryptByHeader_current hP hr checks (q 2) now rfl le_rfl hn (by simp)).trans ?_
    rw [Nat.sub_self, View.skip_zero_of_nil]
    rfl

omit hP hr in
omit [DecidableEq Key] in
theorem skipped_inOrder : (realize P r sid q (inOrderView n)).skipped = [] := by
  rw [inOrderView]
  split_ifs <;> rfl

omit [DecidableEq Key] in
theorem tolerates_inOrder (hn : n < 2 ^ 32) : (realize P r sid q (inOrderView n)).Tolerates P
      (inOrderMessage P r sid q hdrNonce nonce pt n) := by
  have hdem : (realize P r sid q (inOrderView n)).skipDemand P
      (inOrderMessage P r sid q hdrNonce nonce pt n) = (0, 0) := by
    rw [inOrderView]
    split_ifs with h0
    · subst h0
      exact skipDemand_messageOf_next hP hr (by decide) (by decide) (by decide)
    · refine (skipDemand_messageOf_current hP hr rfl hn hn).trans ?_
      rw [Nat.sub_self]
  rw [Session.Tolerates, hdem, skipped_inOrder]
  simp

omit [DecidableEq Key] in
theorem within_inOrder {privBytes : Key} {now : ℕ}
    (hs : w.session .responder = realize P r sid q (inOrderView n)) (hn : n < 2 ^ 32) :
    WithinBounds P w
      (.decrypt .responder privBytes now (inOrderMessage P r sid q hdrNonce nonce pt n) []) := by
  rw [WithinBounds, hs]
  refine ⟨fun sk hsk => ?_, tolerates_inOrder hP hr hn⟩
  rw [skipped_inOrder] at hsk
  cases hsk

theorem step_inOrderReceive (hinit : w.session .initiator = realize P r sid q ⟨1, n, 0, 0, []⟩)
    (hresp : w.session .responder = realize P r sid q (inOrderView n)) (checks : Bool)
    (hn : n + 1 < 2 ^ 32) (now : ℕ) :
    Step P checks (fun w a => Bounded P r w a ∧ CounterFits w a)
      (inOrderSend P r sid q hdrNonce nonce pt n w)
      ((inOrderSend P r sid q hdrNonce nonce pt n w).present .responder
        (realize P r sid q (inOrderView (n + 1))) (inOrderMessage P r sid q hdrNonce nonce pt n) []
        (.ok (pt n))) := by
  have hresp' : (inOrderSend P r sid q hdrNonce nonce pt n w).session .responder =
      realize P r sid q (inOrderView n) := by
    rw [responder_inOrderSend, hresp]
  refine ⟨.decrypt .responder (q 2) now (inOrderMessage P r sid q hdrNonce nonce pt n) [],
    ⟨⟨admissible_inOrderMessage hP hinit, within_inOrder hP hr hresp' (by omega)⟩, trivial⟩, ?_⟩
  rw [World.exec, hresp', decrypt_inOrder hP hr hn]
  rfl

theorem InOrder.step (h : InOrder P r sid q hdrNonce nonce pt n w) (checks : Bool)
    (hn : n + 1 < 2 ^ 32) :
    ∃ w', Reaches P checks (fun w a => Bounded P r w a ∧ CounterFits w a) w w' ∧
      InOrder P r sid q hdrNonce nonce pt (n + 1) w' := by
  obtain ⟨x, hinc⟩ := increment_of_lt checks hn
  obtain ⟨a, hbound, hfits, hexec⟩ :=
    exec_inOrderSend hdrNonce nonce pt h.initiator hinc
  have hrecv : Step P checks (fun w a => Bounded P r w a ∧ CounterFits w a)
      (inOrderSend P r sid q hdrNonce nonce pt n w) _ :=
    step_inOrderReceive hP hr h.initiator h.responder checks hn 0
  set msg := inOrderMessage P r sid q hdrNonce nonce pt n with hmsg
  set w₁ := inOrderSend P r sid q hdrNonce nonce pt n w with hw₁
  have hlen : w₁.sent.length = n + 1 := by simp [hw₁, inOrderSend, World.emit, h.sent]
  refine ⟨_, (Relation.ReflTransGen.single ⟨a, ⟨hbound, hfits hn⟩, hexec⟩).tail hrecv, ?_⟩
  constructor
  · rfl
  · rfl
  · simp [hw₁, inOrderSend, World.present, World.setSession, World.emit, h.sent, range_succ]
  · simp [hw₁, hmsg, inOrderSend, World.present, World.setSession, World.emit, h.presented,
      range_succ]
  · simp only [World.present, hlen]
    simp [hw₁, hmsg, inOrderSend, World.setSession, World.emit, h.accepted, range_succ]

theorem inOrder_reaches (checks : Bool) (hn : n < 2 ^ 32) :
    ∃ w, Reaches P checks (fun w a => Bounded P r w a ∧ CounterFits w a)
      (World.start P sid r (q 0) (q 1)) w ∧ InOrder P r sid q hdrNonce nonce pt n w := by
  induction n with
  | zero => exact ⟨_, .refl, inOrder_start⟩
  | succ n ih =>
    obtain ⟨w, hreach, hw⟩ := ih (by omega)
    obtain ⟨w', hstep, hw'⟩ := hw.step hP hr checks hn
    exact ⟨w', hreach.trans hstep, hw'⟩

/-- After `N = 2 ^ 32 - 1` messages in order, a build without overflow checks sends two more: one
numbered `N`, and one numbered 0 again.  The responder, asked to skip a single key, refuses the
second as a replay. -/
theorem inOrder_refused_after_wrap (hdrNonce nonce : ℕ → Nonce)
    (pt : ℕ → Bytes) {N : ℕ} (hN : N + 1 = 2 ^ 32) (now : ℕ) :
    ∃ (w : World Key Box) (em : Emission Box),
      Reaches P false (Bounded P r) (World.start P sid r (q 0) (q 1)) w ∧ em ∈ w.sent ∧
      (⟨em.side.other, em.msg, em.userAd⟩ : Presentation Box) ∉ w.presented ∧
      WithinBounds P w (.decrypt em.side.other (q 2) now em.msg em.userAd) ∧
      ∃ s', (w.session em.side.other).decrypt P false (q 2) now em.msg em.userAd =
        some (s', .error .messageAuthentication) := by
  obtain ⟨w, hreach, hw⟩ : ∃ w, Reaches P false (fun w a => Bounded P r w a ∧ CounterFits w a)
      (World.start P sid r (q 0) (q 1)) w ∧ InOrder P r sid q hdrNonce nonce pt N w :=
    inOrder_reaches hP hr false (by omega)
  have hreach' : Reaches P false (Bounded P r) (World.start P sid r (q 0) (q 1)) w :=
    hreach.mono _ fun _ _ ha => ha.1
  have hinc : ∀ n, increment false (UInt32.ofNat n) = some (UInt32.ofNat n + 1) := fun _ => rfl
  -- Two more messages: the first takes the counter back to zero.
  obtain ⟨a₁, hb₁, -, hexec₁⟩ := exec_inOrderSend hdrNonce nonce pt hw.initiator (hinc _)
  obtain ⟨a₂, hb₂, -, hexec₂⟩ := exec_inOrderSend (w := inOrderSend P r sid q hdrNonce nonce pt N w)
    hdrNonce nonce pt rfl (hinc _)
  set w₂ := inOrderSend P r sid q hdrNonce nonce pt (N + 1)
    (inOrderSend P r sid q hdrNonce nonce pt N w) with hw₂
  set msg := inOrderMessage P r sid q hdrNonce nonce pt (N + 1) with hmsg
  have hresp : w₂.session .responder = realize P r sid q ⟨2, 0, 0, N, []⟩ := by
    rw [hw₂, responder_inOrderSend, responder_inOrderSend, hw.responder, inOrderView,
      if_neg (by omega)]
  have hzero : UInt32.ofNat (N + 1) = 0 := by
    rw [hN]
    decide
  have hpast : UInt32.ofNat (N + 1) < UInt32.ofNat N := by
    rw [hzero, UInt32.lt_iff_toNat_lt, toNat_ofNat_of_lt (by omega)]
    simp only [UInt32.toNat_zero]
    omega
  refine ⟨w₂, ⟨.initiator, pt (N + 1), [], msg⟩,
    (hreach'.tail ⟨a₁, hb₁, hexec₁⟩).tail ⟨a₂, hb₂, hexec₂⟩, mem_sent_inOrderSend, ?_, ?_, ?_⟩
  · -- Its body is sealed under a key that no presented message uses.
    rw [hw₂, presented_inOrderSend, presented_inOrderSend, hw.presented]
    intro hmem
    obtain ⟨i, hi, heq⟩ := mem_map.mp hmem
    have hct : (inOrderMessage P r sid q hdrNonce nonce pt i).ct = msg.ct :=
      congrArg (fun p : Presentation Box => p.msg.ct) heq
    have hidx : i = N + 1 := (messageKey_inj hP.hkdf hr (hP.aead.encrypt_inj hct).1).2
    rw [mem_range] at hi
    omega
  · change WithinBounds P w₂ (.decrypt .responder (q 2) now msg [])
    have hdem : (realize P r sid q ⟨2, 0, 0, N, []⟩).skipDemand P msg = (0, 0) := by
      have hopen : (realize P r sid q ⟨2, 0, 0, N, []⟩).hkr.bind
          ((realize P r sid q ⟨2, 0, 0, N, []⟩).openHeader P · msg.encHeader) =
          some (headerOf P q 0 (N + 1) 0).encode :=
        (openHeader_messageOf hP hr 0).trans (if_pos rfl)
      rw [skipDemand_current hopen (Header.decode_encode _)]
      simp only [headerOf, hzero, UInt32.toNat_zero, Nat.zero_sub]
    rw [WithinBounds, hresp, Session.Tolerates, hdem]
    refine ⟨fun sk hsk => absurd hsk not_mem_nil, Nat.zero_le _, Nat.zero_le _, ?_⟩
    exact Nat.zero_le _
  · change ∃ s', (w₂.session .responder).decrypt P false (q 2) now msg [] = _
    rw [hresp, decrypt_eq_decryptByHeader false (q 2) (fun sk hsk => absurd hsk not_mem_nil) rfl]
    exact ⟨_, decryptByHeader_past hP hr false (q 2) now rfl hpast⟩

end Steps

end Komms.Ratchet
