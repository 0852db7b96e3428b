import Komms.Ratchet.Equiv.Run

/-!
# How `decrypt` meets an authentic message

The three ways a message of the conversation can be opened: a stored message is found by the lookup
(`trySkipped_hit`), one that lies ahead is reached by skipping on the current chain
(`decryptByHeader_current`) or by a DH step (`decryptByHeader_next`).
-/

namespace Komms.Ratchet

open List Ghost World

variable {Key Box : Type} {P : Primitives Key Box} {r : Roots Key} {sid : Octets 32}
  {q : ℕ → Key} {v : View} {k n prev : ℕ} {hdrNonce nonce : Nonce} {pt ad : Bytes}

/-! ### Opening an authentic message -/

variable (hP : P.Ideal) (hr : r.Fresh P)

include hP hr

theorem openHeader_messageOf (i : ℕ) : (realize P r sid q v).openHeader P (headerKey P r q i)
        (messageOf P r sid q k n prev hdrNonce nonce pt ad).encHeader =
      if i = k then some (headerOf P q k n prev).encode else none := by
  split_ifs with h
  · rw [h]
    exact hP.aead.decrypt_encrypt _ _ _ _
  · exact hP.aead.decrypt_of_ne fun heq => h (headerKey_inj hP.hkdf hr heq)

omit hr in
theorem openPayload_messageOf : (realize P r sid q v).openPayload P (messageKey P r q k n)
      (messageOf P r sid q k n prev hdrNonce nonce pt ad) ad = some pt :=
  hP.aead.decrypt_encrypt _ _ _ _

theorem openHeader_current (hk : v.epoch = k + 2) :
    (realize P r sid q v).hkr.bind ((realize P r sid q v).openHeader P ·
      (messageOf P r sid q k n prev hdrNonce nonce pt ad).encHeader) =
        some (headerOf P q k n prev).encode := by
  rw [(receiving_realize _ _ _ _ hk).2, Option.bind_some, openHeader_messageOf hP hr, if_pos rfl]

theorem openHeader_current_none (hk : v.epoch ≠ k + 2) :
    (realize P r sid q v).hkr.bind ((realize P r sid q v).openHeader P ·
      (messageOf P r sid q k n prev hdrNonce nonce pt ad).encHeader) = none := by
  by_cases hge : 2 ≤ v.epoch
  · have hhkr : (realize P r sid q v).hkr = some (headerKey P r q (v.epoch - 2)) := if_pos hge
    rw [hhkr, Option.bind_some, openHeader_messageOf hP hr, if_neg (by omega)]
  · have hhkr : (realize P r sid q v).hkr = none := if_neg hge
    rw [hhkr]
    rfl

/-! ### The lookup among stored keys -/

section Lookup

variable [DecidableEq Key]

/-- The scan stops at the first stored key of the message's chain, if there is one. -/
theorem findSkipped_messageOf {slots : List Slot} {keys : List (SkippedKey Key)}
    (hkeys : keys = slots.map (Slot.key P r q)) {tried : List Key}
    (htried : headerKey P r q k ∉ tried) :
    (realize P r sid q v).findSkipped P
        (messageOf P r sid q k n prev hdrNonce nonce pt ad).encHeader tried keys =
      .ok (if ∃ sl ∈ slots, sl.chain = k then
        (realize P r sid q v).skipped.findIdx? fun cand =>
          cand.hk == headerKey P r q k && cand.n == UInt32.ofNat n
        else none) := by
  subst hkeys
  induction slots generalizing tried with
  | nil => simp [Session.findSkipped]
  | cons sl slots ih =>
    have hopen : (realize P r sid q v).openHeader P (sl.key P r q).hk
        (messageOf P r sid q k n prev hdrNonce nonce pt ad).encHeader =
        if sl.chain = k then some (headerOf P q k n prev).encode else none :=
      openHeader_messageOf hP hr sl.chain
    rw [map_cons, Session.findSkipped, hopen]
    by_cases hk : sl.chain = k
    · have hmem : (sl.key P r q).hk ∉ tried := by
        simp only [Slot.key, hk]
        exact htried
      rw [if_neg hmem, if_pos hk, if_pos ⟨sl, mem_cons_self, hk⟩]
      simp only [Header.decode_encode, Slot.key, hk, headerOf]
      rfl
    · -- A key of another chain changes nothing, tried before or not.
      have hrest : (∃ sl' ∈ sl :: slots, sl'.chain = k) ↔ ∃ sl' ∈ slots, sl'.chain = k := by
        simp [hk]
      have hmem : headerKey P r q k ∉ tried ++ [(sl.key P r q).hk] := by
        rw [mem_append, mem_singleton, not_or]
        exact ⟨htried, fun heq => hk (headerKey_inj hP.hkdf hr heq).symm⟩
      simp only [hrest]
      split_ifs with hin hex hex
      · rw [ih htried, if_pos hex]
      · rw [ih htried, if_neg hex]
      · rw [ih hmem, if_pos hex]
      · rw [ih hmem, if_neg hex]

/-- The joint (header key, counter) test singles out the slot of the message. -/
theorem slot_matches_iff {sl : Slot} (hsl : sl.index < 2 ^ 32) (hn : n < 2 ^ 32) :
    ((sl.key P r q).hk == headerKey P r q k && (sl.key P r q).n == UInt32.ofNat n) = true ↔
      sl.tag = (k, n) := by
  simp only [Slot.key, Bool.and_eq_true, beq_iff_eq, Slot.tag, Prod.mk.injEq]
  constructor
  · rintro ⟨hhk, hidx⟩
    refine ⟨headerKey_inj hP.hkdf hr hhk, ?_⟩
    rw [← toNat_ofNat_of_lt hsl, hidx, toNat_ofNat_of_lt hn]
  · rintro ⟨rfl, rfl⟩
    exact ⟨rfl, rfl⟩

/-- A message whose key is stored is opened with it. -/
theorem trySkipped_hit (hslot : ∀ sl ∈ v.stored, sl.index < 2 ^ 32) (hn : n < 2 ^ 32)
    (hmem : (k, n) ∈ v.stored.map Slot.tag) :
    ∃ i, (realize P r sid q v).trySkipped P (messageOf P r sid q k n prev hdrNonce nonce pt ad) ad =
      (realize P r sid q (v.take i), .ok (some pt)) := by
  obtain ⟨sl, hsl, htag⟩ := mem_map.mp hmem
  have hch : ∃ sl ∈ v.stored, sl.chain = k := ⟨sl, hsl, congrArg Prod.fst htag⟩
  have hkeys : (realize P r sid q v).skipped = v.stored.map (Slot.key P r q) := rfl
  unfold Session.trySkipped
  rw [findSkipped_messageOf hP hr hkeys not_mem_nil, if_pos hch]
  cases hidx : (realize P r sid q v).skipped.findIdx? fun cand =>
      cand.hk == headerKey P r q k && cand.n == UInt32.ofNat n with
  | none =>
    have hnone := findIdx?_eq_none_iff.mp hidx (sl.key P r q) (mem_map_of_mem hsl)
    rw [(slot_matches_iff hP hr (hslot sl hsl) hn).mpr htag] at hnone
    cases hnone
  | some i =>
    -- The entry found first may be another of the same tag, with the same key.
    obtain ⟨hi, hmat, -⟩ := findIdx?_eq_some_iff_getElem.mp hidx
    have hi' : i < v.stored.length := by simpa [realize] using hi
    have hget : (realize P r sid q v).skipped[i] = v.stored[i].key P r q := by simp [realize]
    rw [hget, slot_matches_iff hP hr (hslot _ (getElem_mem hi')) hn] at hmat
    obtain ⟨hc, hx⟩ := Prod.mk.inj hmat
    have hmk : (v.stored[i].key P r q).mk = messageKey P r q k n := by
      rw [Slot.key, hc, hx]
    refine ⟨i, ?_⟩
    simp only [getElem?_eq_getElem hi, hget, hmk, openPayload_messageOf hP]
    simp only [realize, View.take, eraseIdx_map]
    rfl

theorem trySkipped_miss (hslot : ∀ sl ∈ v.stored, sl.index < 2 ^ 32) (hn : n < 2 ^ 32)
    (hmem : (k, n) ∉ v.stored.map Slot.tag) :
    (realize P r sid q v).trySkipped P (messageOf P r sid q k n prev hdrNonce nonce pt ad) ad =
      (realize P r sid q v, .ok none) := by
  have hidx : ((realize P r sid q v).skipped.findIdx? fun cand =>
      cand.hk == headerKey P r q k && cand.n == UInt32.ofNat n) = none := by
    refine findIdx?_eq_none_iff.mpr fun sk hsk => ?_
    obtain ⟨sl, hsl, rfl⟩ := mem_map.mp hsk
    rw [← Bool.not_eq_true, slot_matches_iff hP hr (hslot sl hsl) hn]
    exact fun htag => hmem (htag ▸ mem_map_of_mem hsl)
  have hkeys : (realize P r sid q v).skipped = v.stored.map (Slot.key P r q) := rfl
  unfold Session.trySkipped
  rw [findSkipped_messageOf hP hr hkeys not_mem_nil, hidx, ite_self]

omit hP hr in
/-- Without a stored key for it, a message is judged by its header. -/
theorem decrypt_eq_decryptByHeader {s : Session Key} {now : ℕ} {msg : RatchetMessage Box}
    (checks : Bool) (privBytes : Key) (hfr : s.Fresh now)
    (htry : s.trySkipped P msg ad = (s, .ok none)) :
    s.decrypt P checks privBytes now msg ad = s.decryptByHeader P checks privBytes now msg ad := by
  unfold Session.decrypt
  rw [purgeExpired_of_fresh hfr, htry]

end Lookup

/-! ### Messages ahead -/

omit hP hr in
theorem increment_of_lt (checks : Bool) (hn : n + 1 < 2 ^ 32) :
    ∃ x, increment checks (UInt32.ofNat n) = some x := by
  refine ⟨UInt32.ofNat n + 1, ?_⟩
  unfold increment
  rw [toNat_ofNat_of_lt (by omega), if_neg]
  simp only [Bool.and_eq_true, beq_iff_eq, not_and]
  omega

omit hr in
/-- Message `n` lies ahead on the receiving chain and within reach. -/
theorem skipAndDecrypt_messageOf (checks : Bool) (now : ℕ)
    (hk : v.epoch = k + 2) (hpos : v.pos ≤ n) (hn : n + 1 < 2 ^ 32)
    (hskip : n - v.pos ≤ maxSkip) :
    (realize P r sid q v).skipAndDecrypt P checks (UInt32.ofNat n) now
        (messageOf P r sid q k n prev hdrNonce nonce pt ad) ad =
      some (realize P r sid q (v.skip k (n - v.pos) now).accept, .ok pt) := by
  have hlim : ¬ Session.skipLimit (UInt32.ofNat v.pos) < (UInt32.ofNat n).toNat := by
    rw [Session.skipLimit, toNat_ofNat_of_lt (by omega), toNat_ofNat_of_lt (by omega)]
    omega
  unfold Session.skipAndDecrypt
  rw [skipMessageKeys_realize _ _ _ _ hk, if_neg hlim, toNat_ofNat_of_lt (by omega),
    toNat_ofNat_of_lt (by omega)]
  simp only
  have hep : (v.skip k (n - v.pos) now).epoch = k + 2 := hk
  have hnew : (v.skip k (n - v.pos) now).pos = n := by
    simp only [View.skip]
    omega
  obtain ⟨x, hx⟩ := increment_of_lt checks hn
  rw [decryptCurrent_realize _ _ _ _ hep, hnew, openPayload_messageOf hP, hx]
  rfl

/-- The current header key recognises message `n` of the receiving chain. -/
theorem decryptByHeader_current (checks : Bool) (privBytes : Key)
    (now : ℕ) (hk : v.epoch = k + 2) (hpos : v.pos ≤ n) (hn : n + 1 < 2 ^ 32)
    (hskip : n - v.pos ≤ maxSkip) :
    (realize P r sid q v).decryptByHeader P checks privBytes now
        (messageOf P r sid q k n prev hdrNonce nonce pt ad) ad =
      some (realize P r sid q (v.skip k (n - v.pos) now).accept, .ok pt) := by
  have hnr : (realize P r sid q v).nr = UInt32.ofNat v.pos := rfl
  have hahead : ¬ UInt32.ofNat n < UInt32.ofNat v.pos := by
    rw [UInt32.lt_iff_toNat_lt, toNat_ofNat_of_lt (by omega), toNat_ofNat_of_lt (by omega)]
    omega
  unfold Session.decryptByHeader
  rw [openHeader_current hP hr hk]
  simp only [Session.withHeader, Header.decode_encode, Session.decryptOnCurrentChain, headerOf, hnr,
    if_neg hahead]
  exact skipAndDecrypt_messageOf hP checks now hk hpos hn hskip

/-- A message whose 32-bit number lies before the receiving position is refused. -/
theorem decryptByHeader_past (checks : Bool) (privBytes : Key)
    (now : ℕ) (hk : v.epoch = k + 2) (hlt : UInt32.ofNat n < UInt32.ofNat v.pos) :
    (realize P r sid q v).decryptByHeader P checks privBytes now
        (messageOf P r sid q k n prev hdrNonce nonce pt ad) ad =
      some (realize P r sid q v, .error .messageAuthentication) := by
  have hnr : (realize P r sid q v).nr = UInt32.ofNat v.pos := rfl
  unfold Session.decryptByHeader
  rw [openHeader_current hP hr hk]
  simp only [Session.withHeader, Header.decode_encode, Session.decryptOnCurrentChain, headerOf, hnr,
    if_pos hlt]

section Reach

variable {g : Ghost Key} {w : World Key Box} {X : Side}

omit hP hr in
/-- The receiver finishes its old chain when the peer's announced length is within reach. -/
theorem finishChain_succeeds (h : Inv P r sid g w) (hc : Complete g) (now : ℕ)
    (hold : prevLen g.len (g.view X).epoch - (g.view X).pos ≤ maxSkip) :
    ∃ s, (w.session X).skipMessageKeys P (UInt32.ofNat (prevLen g.len (g.view X).epoch)) now =
      some (s, .ok ()) := by
  rw [h.session X]
  by_cases hlt : (g.view X).epoch < 2
  · have hprev : prevLen g.len (g.view X).epoch = 0 := if_neg (by omega)
    rw [skipMessageKeys_realize_none _ _ _ _ hlt, hprev, if_pos (by decide)]
    exact ⟨_, rfl⟩
  · obtain ⟨k, hk⟩ : ∃ k, (g.view X).epoch = k + 2 := ⟨(g.view X).epoch - 2, by omega⟩
    have hprev : prevLen g.len (g.view X).epoch = g.len k := by
      rw [prevLen, if_pos (by omega), hk, Nat.add_sub_cancel]
    have hlen := hc.len_lt k
    have hpos := hc.pos_le X k hk
    have hlim : ¬ Session.skipLimit (UInt32.ofNat (g.view X).pos) <
        (UInt32.ofNat (g.len k)).toNat := by
      rw [hprev] at hold
      rw [Session.skipLimit, toNat_ofNat_of_lt hlen, toNat_ofNat_of_lt (by omega)]
      omega
    rw [hprev, skipMessageKeys_realize _ _ _ _ hk, if_neg hlim]
    exact ⟨_, rfl⟩

/-- The next header key recognises message `n` of the peer's new chain: the old chain is finished,
the DH step made, and the message reached on the new chain. -/
theorem decryptByHeader_next (h : Inv P r sid g w)
    (hc : Complete g) (checks : Bool) (privBytes : Key) (now : ℕ)
    (htag : ((g.view X).epoch, n) ∈ g.tags)
    (hold : prevLen g.len (g.view X).epoch - (g.view X).pos ≤ maxSkip) (hnew : n ≤ maxSkip) :
    ∃ s', (w.session X).decryptByHeader P checks privBytes now
        (messageOf P r sid g.q (g.view X).epoch n (prevLen g.len (g.view X).epoch) hdrNonce nonce
          pt ad) ad = some (s', .ok pt) := by
  have hn : n < g.len (g.view X).epoch := h.log.tag_lt _ htag
  have hlen := hc.len_lt (g.view X).epoch
  set header := headerOf P g.q (g.view X).epoch n (prevLen g.len (g.view X).epoch)
  set msg := messageOf P r sid g.q (g.view X).epoch n (prevLen g.len (g.view X).epoch) hdrNonce
    nonce pt ad
  obtain ⟨s, hskip⟩ := finishChain_succeeds h hc now hold
  obtain ⟨v, hep, hinv, -⟩ := inv_dhStep hP.x25519 h htag rfl hskip privBytes
  have hs := hinv.session X
  rw [session_setSession_self, view_ratchet_self, view_setView_self] at hs
  -- The message's keys do not depend on the private key just drawn.
  have hmsg : msg = messageOf P r sid ((g.setView X v).ratchet X privBytes).q (g.view X).epoch n
      (prevLen g.len (g.view X).epoch) hdrNonce nonce pt ad := by
    refine messageOf_congr (fun j hj => ?_) _ _ _ _ _ _
    simp only [Ghost.ratchet, view_setView_self, hep]
    rw [Function.update_of_ne (by omega)]
    rfl
  have hdec : (w.session X).decryptByHeader P checks privBytes now msg ad =
      (s.dhRatchet P privBytes header).skipAndDecrypt P checks (UInt32.ofNat n) now msg ad := by
    unfold Session.decryptByHeader
    rw [h.session X, openHeader_current_none hP hr (by omega), ← h.session X]
    have hnext : (w.session X).openHeader P (w.session X).nhkr msg.encHeader =
        some header.encode := by
      rw [h.session X]
      exact (openHeader_messageOf hP hr (g.view X).epoch).trans (if_pos rfl)
    rw [hnext]
    simp only [Session.withHeader, Header.decode_encode, Session.decryptOnNextChain]
    rw [show header.pn = UInt32.ofNat (prevLen g.len (g.view X).epoch) from rfl, hskip]
    rfl
  rw [hdec, hs, hmsg]
  refine ⟨_, skipAndDecrypt_messageOf hP checks now ?_ (Nat.zero_le n) (by omega) ?_⟩
  · simp only [View.ratchet, hep]
  · simpa [View.ratchet] using hnew

theorem skipDemand_messageOf_current (hk : v.epoch = k + 2)
    (hn : n < 2 ^ 32) (hpos : v.pos < 2 ^ 32) :
    (realize P r sid q v).skipDemand P (messageOf P r sid q k n prev hdrNonce nonce pt ad) =
      (n - v.pos, 0) := by
  rw [skipDemand_current (openHeader_current hP hr hk) (Header.decode_encode _)]
  simp only [headerOf, realize, toNat_ofNat_of_lt hn, toNat_ofNat_of_lt hpos]

theorem skipDemand_messageOf_next (hn : n < 2 ^ 32)
    (hprev : prev < 2 ^ 32) (hpos : v.pos < 2 ^ 32) :
    (realize P r sid q v).skipDemand P
        (messageOf P r sid q v.epoch n prev hdrNonce nonce pt ad) = (prev - v.pos, n) := by
  have hopen : (realize P r sid q v).openHeader P (realize P r sid q v).nhkr
      (messageOf P r sid q v.epoch n prev hdrNonce nonce pt ad).encHeader =
      some (headerOf P q v.epoch n prev).encode :=
    (openHeader_messageOf hP hr v.epoch).trans (if_pos rfl)
  rw [skipDemand_next (openHeader_current_none hP hr (by omega)) hopen (Header.decode_encode _)]
  simp only [headerOf, realize, toNat_ofNat_of_lt hn, toNat_ofNat_of_lt hprev,
    toNat_ofNat_of_lt hpos]

end Reach

end Komms.Ratchet
