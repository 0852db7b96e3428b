import Komms.Ratchet.Equiv.InOrder

/-!
# Authenticity and delivery

`accepted_injects_into_sent`: in every run against an active network, the successful `decrypt` calls
can be matched one-to-one with earlier `encrypt` calls of the other side that had the same plaintext
and caller's data.

`decrypt_delivers`: in every run within the delay-tolerance bounds whose sending counters fit in 32
bits, a message that was really sent decrypts to its plaintext the first time it is presented with
its own associated data.  The condition on the counters cannot be dropped:
`decrypt_fails_after_counter_wrap` is a run in which a build without overflow checks refuses such a
message.  The argument places the message by its (chain, index): it is stored, or on the current
chain, or on the next one, and completeness leaves no other place.
-/

namespace Komms.Ratchet

open List

variable {Key Box : Type} [DecidableEq Key] {P : Primitives Key Box} {r : Roots Key}
  {sid : Octets 32} {w : World Key Box} {checks : Bool}

/-- The acceptance is answered by the emission: other side, same plaintext, same caller's data. -/
def Answers (em : Emission Box) (a : Acceptance Box) : Prop :=
  em.side = a.side.other ∧ em.plaintext = a.plaintext ∧ em.userAd = a.userAd

omit [DecidableEq Key] in
theorem Inv.exists_emission {g : Ghost Key} (h : Inv P r sid g w) (i : Fin w.accepted.length) :
    ∃ j : Fin w.sent.length, (j : ℕ) < (w.accepted.get i).sentBefore ∧
      Answers (w.sent.get j) (w.accepted.get i) ∧ g.tags[(j : ℕ)]? = g.consumed[(i : ℕ)]? := by
  have hlen := h.history.accounts.length_eq
  have hi : (i : ℕ) < g.consumed.length := hlen ▸ i.isLt
  obtain ⟨j, em, hj, ht, hbef, hside, hpt, had, -⟩ := h.history.accounts.get i.isLt hi
  obtain ⟨hlt, rfl⟩ := List.getElem?_eq_some_iff.mp hj
  refine ⟨⟨j, hlt⟩, hbef, ⟨hside, hpt, had⟩, ?_⟩
  rw [List.getElem?_eq_getElem hi]
  exact ht

/-- **Authenticity and at-most-once acceptance.**  Whatever the network presents, in any order, any
number of times and at any clock values, the accepted plaintexts are matched injectively by earlier
`encrypt` calls of the other side. -/
theorem accepted_injects_into_sent (hP : P.Ideal) (hr : r.Fresh P) {spk privBytes : Key}
    (hreach : Reaches P checks (Admissible P r) (World.start P sid r spk privBytes) w) :
    ∃ f : Fin w.accepted.length → Fin w.sent.length, Function.Injective f ∧
      ∀ i, (f i : ℕ) < (w.accepted.get i).sentBefore ∧
        Answers (w.sent.get (f i)) (w.accepted.get i) := by
  obtain ⟨g, h, -⟩ := inv_of_reaches hP hr (fun _ _ ha => ha) hreach
  choose f hbef hans htags using h.exists_emission
  refine ⟨f, fun i i' hii => ?_, fun i => ⟨hbef i, hans i⟩⟩
  -- Two acceptances with one emission would use one message key twice.
  have hlen := h.history.accounts.length_eq
  have hsame : g.consumed[(i : ℕ)]? = g.consumed[(i' : ℕ)]? := by
    rw [← htags i, ← htags i', hii]
  exact Fin.ext ((List.getElem?_inj (hlen ▸ i.isLt) h.stock.used_nodup).mp hsame)

/-- Two messages received in order, each matched by its own `encrypt` call. -/
theorem Symbolic.accepted_injects_into_sent_two : ∃ w : World ℕ ℕ, w.accepted.length = 2 ∧
    ∃ f : Fin w.accepted.length → Fin w.sent.length, Function.Injective f ∧
      ∀ i, (f i : ℕ) < (w.accepted.get i).sentBefore ∧
        Answers (w.sent.get (f i)) (w.accepted.get i) := by
  obtain ⟨w, hreach, hw⟩ : ∃ w, Reaches primitives false
      (fun w a => Bounded primitives roots w a ∧ CounterFits w a)
      (World.start primitives sessionId roots 0 1) w ∧
      InOrder primitives roots sessionId id nonces nonces plaintexts 2 w :=
    inOrder_reaches (q := id) primitives_ideal roots_fresh false (by decide)
  refine ⟨w, by simp [hw.accepted], ?_⟩
  exact accepted_injects_into_sent primitives_ideal roots_fresh (hreach.mono _ fun _ _ ha => ha.1.1)

/-! ### Delivery -/

variable {g : Ghost Key} {X : Side} {hdrNonce nonce : Nonce} {pt ad : Bytes}

/-- A message of the conversation that the receiver has not accepted yet decrypts. -/
theorem Inv.delivers (hP : P.Ideal) (hr : r.Fresh P) (h : Inv P r sid g w) (hc : Complete g)
    {t : ℕ × ℕ} (htag : t ∈ g.tags) (hside : senderOf t.1 = X.other) (hfr : t ∉ g.consumed)
    (checks : Bool) (privBytes : Key) (now : ℕ) {msg : RatchetMessage Box}
    (hmsg : msg = messageOf P r sid g.q t.1 t.2 (prevLen g.len t.1) hdrNonce nonce pt ad)
    (hbd : (w.session X).Fresh now ∧ (w.session X).Tolerates P msg) :
    ∃ s', (w.session X).decrypt P checks privBytes now msg ad = some (s', .ok pt) := by
  obtain ⟨k, n⟩ := t
  have hlt : n < g.len k := h.log.tag_lt _ htag
  have hlen := hc.len_lt k
  have hpos := hc.pos_lt h.shape X
  have hslot : ∀ sl ∈ (g.view X).stored, sl.index < 2 ^ 32 :=
    fun sl hsl => (hc.slot_lt X sl hsl).trans (hc.len_lt _)
  obtain ⟨hfr', htol⟩ := hbd
  by_cases hsto : (k, n) ∈ (g.view X).stored.map Slot.tag
  · unfold Session.decrypt
    rw [purgeExpired_of_fresh hfr', h.session X, hmsg]
    obtain ⟨i, hi⟩ : ∃ i, (realize P r sid g.q (g.view X)).trySkipped P
        (messageOf P r sid g.q k n (prevLen g.len k) hdrNonce nonce pt ad) ad =
        (realize P r sid g.q ((g.view X).take i), .ok (some pt)) :=
      trySkipped_hit hP hr hslot (by omega) hsto
    rw [hi]
    exact ⟨_, rfl⟩
  · -- Neither stored nor used, so the receiver has not passed it.
    have hahead : ¬ (g.view X).Past (k, n) := fun hpast =>
      (hc.kept X (k, n) hside hlt hpast).elim hsto hfr
    have htry : (w.session X).trySkipped P msg ad = (w.session X, .ok none) := by
      rw [h.session X, hmsg]
      exact trySkipped_miss hP hr hslot (by omega) hsto
    rw [decrypt_eq_decryptByHeader checks privBytes hfr' htry]
    by_cases hcur : (g.view X).epoch = k + 2
    · have hge : (g.view X).pos ≤ n := by
        by_contra hlt'
        exact hahead (.inr ⟨hcur.symm, by omega⟩)
      rw [h.session X, hmsg, Session.Tolerates,
        skipDemand_messageOf_current hP hr hcur (by omega) hpos] at htol
      rw [h.session X, hmsg]
      exact ⟨_, decryptByHeader_current hP hr checks privBytes now hcur hge (by omega) htol.1⟩
    · -- The peer is at most one DH step ahead, and chain parities leave only the next chain.
      obtain rfl : k = (g.view X).epoch := by
        have hstart := h.log.tag_epoch htag
        rw [hside] at hstart
        have hadj := h.shape.adjacent X
        have hpar := senderOf_eq_iff.mp (hside.trans (h.shape.parity X).symm)
        have hnot : ¬ k + 2 < (g.view X).epoch := fun hp => hahead (.inl hp)
        omega
      have hprev : prevLen g.len (g.view X).epoch < 2 ^ 32 := hc.prevLen_lt _
      rw [h.session X, hmsg, Session.Tolerates,
        skipDemand_messageOf_next hP hr (by omega) hprev hpos] at htol
      rw [hmsg]
      exact decryptByHeader_next hP hr h hc checks privBytes now htag htol.1 htol.2.1

/-- A message that was sent and never presented decrypts to its plaintext. -/
theorem Inv.delivers_sent (hP : P.Ideal) (hr : r.Fresh P) (h : Inv P r sid g w) (hc : Complete g)
    {em : Emission Box} (hsent : em ∈ w.sent)
    (hfst : (⟨em.side.other, em.msg, em.userAd⟩ : Presentation Box) ∉ w.presented)
    (checks : Bool) {freshPriv : Key} {now : ℕ}
    (hbd : WithinBounds P w (.decrypt em.side.other freshPriv now em.msg em.userAd)) :
    ∃ s', (w.session em.side.other).decrypt P checks freshPriv now em.msg em.userAd =
      some (s', .ok em.plaintext) := by
  obtain ⟨j, hj⟩ := mem_iff_getElem?.mp hsent
  obtain ⟨t, ht, hem⟩ := exists_getElem?_of_forall₂ h.log.emitted hj
  obtain ⟨hside, -, hdrNonce, nonce, hmsg⟩ := hem
  refine h.delivers hP hr hc (mem_of_getElem? ht) (by rw [← hside, Side.other_other]) ?_
    checks freshPriv now hmsg hbd
  -- A used message was accepted, hence presented before.
  intro hused
  obtain ⟨i, hi⟩ := mem_iff_getElem?.mp hused
  obtain ⟨a, ha, j', em', hj', ht', -, hside', -, had', hmsg'⟩ := h.history.acceptance_of_used hi
  have hjj : j' = j :=
    (List.getElem?_inj (List.getElem?_eq_some_iff.mp ht').1 h.log.tags_nodup).mp (ht'.trans ht.symm)
  subst hjj
  obtain rfl : em = em' := Option.some.inj (hj.symm.trans hj')
  refine hfst ?_
  rw [hside', Side.other_other, had', hmsg']
  exact h.history.presented a ha

/-- **Delivery.**  In every run within the delay-tolerance bounds in which no sending counter
leaves the 32-bit range, a message that was sent decrypts to its plaintext the first time it is
presented with its own associated data. -/
theorem decrypt_delivers (hP : P.Ideal) (hr : r.Fresh P) {checks : Bool} {spk privBytes : Key}
    (hreach : Reaches P checks (fun w a => Bounded P r w a ∧ CounterFits w a)
      (World.start P sid r spk privBytes) w)
    {em : Emission Box} (hsent : em ∈ w.sent)
    (hfirst : (⟨em.side.other, em.msg, em.userAd⟩ : Presentation Box) ∉ w.presented)
    {freshPriv : Key} {now : ℕ}
    (hbounds : WithinBounds P w (.decrypt em.side.other freshPriv now em.msg em.userAd)) :
    ∃ s', (w.session em.side.other).decrypt P checks freshPriv now em.msg em.userAd =
      some (s', .ok em.plaintext) := by
  obtain ⟨g, h, hc⟩ := complete_of_reaches hP hr hreach
  exact h.delivers_sent hP hr hc hsent hfirst checks hbounds

/-! ### Instances -/

namespace Symbolic

/-- One message sent and not yet presented: it decrypts. -/
theorem decrypt_delivers_first : ∃ (w : World ℕ ℕ) (em : Emission ℕ), em ∈ w.sent ∧
    em.plaintext = [0, 0, 0, 0] ∧ ∃ s', (w.session em.side.other).decrypt primitives false 2 0
      em.msg em.userAd = some (s', .ok em.plaintext) := by
  have hstart : InOrder primitives roots sessionId id nonces nonces plaintexts 0
      (World.start primitives sessionId roots 0 1) := inOrder_start
  obtain ⟨x, hinc⟩ := increment_of_lt (n := 0) false (by decide)
  obtain ⟨a, hbound, hfits, hexec⟩ :=
    exec_inOrderSend nonces nonces plaintexts hstart.initiator hinc
  refine ⟨inOrderSend primitives roots sessionId id nonces nonces plaintexts 0
      (World.start primitives sessionId roots 0 1),
    ⟨.initiator, plaintexts 0, [], inOrderMessage primitives roots sessionId id nonces nonces
      plaintexts 0⟩, mem_sent_inOrderSend, rfl, ?_⟩
  refine decrypt_delivers primitives_ideal roots_fresh
    (Relation.ReflTransGen.single ⟨a, ⟨hbound, hfits (by decide)⟩, hexec⟩) mem_sent_inOrderSend
    ?_ (within_inOrder primitives_ideal roots_fresh ?_ (by decide))
  · rw [presented_inOrderSend, hstart.presented]
    exact not_mem_nil
  · rw [responder_inOrderSend, hstart.responder]

/-- **The counter wraps.**  In a build without overflow checks the initiator sends `2 ^ 32 + 1`
messages on one chain and the responder receives the first `2 ^ 32 - 1` of them.  The last message
carries number 0 again, and the responder, asked to skip a single key, refuses it as a replay. -/
theorem decrypt_fails_after_counter_wrap : ∃ (w : World ℕ ℕ) (em : Emission ℕ),
    Reaches primitives false (Bounded primitives roots)
      (World.start primitives sessionId roots 0 1) w ∧ em ∈ w.sent ∧
    (⟨em.side.other, em.msg, em.userAd⟩ : Presentation ℕ) ∉ w.presented ∧
    WithinBounds primitives w (.decrypt em.side.other 2 0 em.msg em.userAd) ∧
    ∃ s', (w.session em.side.other).decrypt primitives false 2 0 em.msg em.userAd =
      some (s', .error .messageAuthentication) :=
  inOrder_refused_after_wrap (q := id) primitives_ideal roots_fresh nonces nonces plaintexts rfl 0

end Symbolic

end Komms.Ratchet
