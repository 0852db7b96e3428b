import Komms.Ratchet.Equiv.Moves

/-!
# Every call keeps the invariant

`inv_exec` is the step lemma of the conversation: whatever admissible call is carried out, the new
world is again an abstract conversation realized with the keys of the schedule, and if nothing had
been lost and the call respects the delivery bounds, then nothing is lost.  `inv_of_reaches` and
`complete_of_reaches` carry both to whole runs.
-/

namespace Komms.Ratchet

open List Option Function Ghost World View

variable {Key Box : Type} {g : Ghost Key}

/-! ### Completeness of the moves -/

variable {v : View} {k m now : ℕ} {X : Side} {t : ℕ × ℕ}

theorem View.Past.of_skip (h : (v.skip k m now).Past t) :
    v.Past t ∨ t.1 + 2 = v.epoch ∧ v.pos ≤ t.2 ∧ t.2 < v.pos + m := by
  rcases h with hlt | ⟨heq, hlt⟩
  · exact .inl (.inl hlt)
  · simp only [View.skip] at heq hlt
    by_cases hp : t.2 < v.pos
    · exact .inl (.inr ⟨heq, hp⟩)
    · exact .inr ⟨heq, by omega, hlt⟩

theorem View.stored_skip_of_le (hroom : v.stored.length + m ≤ maxStoredSkipped) :
    (v.skip k m now).stored = v.stored ++ View.newSlots k v.pos m now := by
  have hlen : (v.stored ++ View.newSlots k v.pos m now).length = v.stored.length + m := by
    simp [View.newSlots]
  rw [stored_skip, hlen, Nat.sub_eq_zero_of_le hroom, drop_zero]

/-- A side may move on when what it passes is stored or used. -/
theorem Complete.setView (h : Complete g) {X : Side} {v : View} {used : List (ℕ × ℕ)}
    (hpos : ∀ k, v.epoch = k + 2 → v.pos ≤ g.len k)
    (hslot : ∀ sl ∈ v.stored, sl.index < g.len sl.chain) (hused : g.consumed ⊆ used)
    (hkept : ∀ t, senderOf t.1 = X.other → t.2 < g.len t.1 → v.Past t →
      t ∈ v.stored.map Slot.tag ∨ t ∈ used) :
    Complete { g.setView X v with consumed := used } where
  len_lt := h.len_lt
  pos_le := forall_setView (p := fun _ u => ∀ k, u.epoch = k + 2 → u.pos ≤ g.len k) hpos
    fun Y _ => h.pos_le Y
  slot_lt := forall_setView (p := fun _ u => ∀ sl ∈ u.stored, sl.index < g.len sl.chain) hslot
    fun Y _ => h.slot_lt Y
  kept := forall_setView (p := fun Y u => ∀ t, senderOf t.1 = Y.other → t.2 < g.len t.1 →
      u.Past t → t ∈ u.stored.map Slot.tag ∨ t ∈ used) hkept
    fun Y _ t hs hlt hpast => (h.kept Y t hs hlt hpast).imp_right (@hused t)

theorem Complete.skip (h : Complete g) {X : Side} {m now : ℕ} (hk : (g.view X).epoch = k + 2)
    (hle : (g.view X).pos + m ≤ g.len k) (hroom : (g.view X).stored.length + m ≤ maxStoredSkipped) :
    Complete (g.setView X ((g.view X).skip k m now)) := by
  refine h.setView (fun k' hk' => ?_) (fun sl hsl => ?_) (List.Subset.refl _)
    fun t hs hlt hpast => ?_
  · simp only [View.skip] at hk' ⊢
    obtain rfl : k' = k := by omega
    exact hle
  · rw [stored_skip_of_le hroom] at hsl
    rcases mem_append.mp hsl with hold | hnew
    · exact h.slot_lt X sl hold
    · obtain ⟨hc, -, hlt, -⟩ := mem_newSlots.mp hnew
      rw [hc]
      exact hlt.trans_le hle
  · rw [stored_skip_of_le hroom, map_append, mem_append]
    rcases hpast.of_skip with hold | ⟨heq, hge, hlt'⟩
    · rcases h.kept X t hs hlt hold with hst | hus
      · exact .inl (.inl hst)
      · exact .inr hus
    · have hmem : ⟨k, t.2, now⟩ ∈ View.newSlots k (g.view X).pos m now :=
        mem_newSlots.mpr ⟨rfl, hge, hlt', rfl⟩
      have htag : Slot.tag ⟨k, t.2, now⟩ = t := Prod.ext (by simp only [Slot.tag]; omega) rfl
      exact .inl (.inr (htag ▸ mem_map_of_mem hmem))

theorem senderOf_eq_iff {a b : ℕ} : senderOf a = senderOf b ↔ a % 2 = b % 2 := by
  unfold senderOf
  rcases Nat.mod_two_eq_zero_or_one a with ha | ha <;>
    rcases Nat.mod_two_eq_zero_or_one b with hb | hb <;> simp [ha, hb]

/-- A DH step loses nothing when the old chain has been covered to its end. -/
theorem Complete.ratchet (h : Complete g) (hshape : Shape g) (privBytes : Key)
    (hcov : ∀ k, (g.view X).epoch = k + 2 → g.len k ≤ (g.view X).pos) :
    Complete (g.ratchet X privBytes) := by
  have hview : Complete (g.setView X (g.view X).ratchet) := by
    refine h.setView (fun _ _ => Nat.zero_le _) (h.slot_lt X) (List.Subset.refl _)
      fun t hs hlt hpast => h.kept X t hs hlt ?_
    have hpar : t.1 % 2 = (g.view X).epoch % 2 :=
      senderOf_eq_iff.mp (hs.trans (hshape.parity X).symm)
    rcases hpast with hlt' | ⟨-, hlt'⟩
    · simp only [View.ratchet] at hlt'
      by_cases hcur : t.1 + 2 = (g.view X).epoch
      · exact .inr ⟨hcur, hlt.trans_le (hcov t.1 hcur.symm)⟩
      · exact .inl (by omega)
    · exact absurd hlt' (Nat.not_lt_zero _)
  exact { hview with }

theorem Complete.accept (h : Complete g) {X : Side} (hk : (g.view X).epoch = k + 2)
    (hlt : (g.view X).pos < g.len k) :
    Complete ((g.setView X (g.view X).accept).use (k, (g.view X).pos)) := by
  refine h.setView (fun k' hk' => ?_) (h.slot_lt X) (subset_append_left _ _)
    fun t hs hlt' hpast => ?_
  · simp only [View.accept] at hk' ⊢
    obtain rfl : k' = k := by omega
    exact hlt
  · by_cases hnew : t = (k, (g.view X).pos)
    · exact .inr (mem_append_right _ (mem_singleton.mpr hnew))
    · have hold : (g.view X).Past t := by
        rcases hpast with hp | ⟨heq, hp⟩
        · exact .inl hp
        · simp only [View.accept] at heq hp
          refine .inr ⟨heq, lt_of_le_of_ne (Nat.lt_succ_iff.mp hp) fun hpos => hnew ?_⟩
          exact Prod.ext (by simp only; omega) hpos
      exact (h.kept X t hs hlt' hold).imp_right (mem_append_left _)

theorem Complete.take (h : Complete g) {i : ℕ} {sl : Slot} (hi : (g.view X).stored[i]? = some sl) :
    Complete ((g.setView X ((g.view X).take i)).use sl.tag) := by
  refine h.setView (h.pos_le X)
    (fun sl' hsl' => h.slot_lt X sl' ((eraseIdx_sublist _ _).subset hsl'))
    (subset_append_left _ _) fun t hs hlt hpast => ?_
  rcases h.kept X t hs hlt hpast with hst | hus
  · obtain ⟨sl', hsl', rfl⟩ := mem_map.mp hst
    obtain ⟨j, hj⟩ := mem_iff_getElem?.mp hsl'
    by_cases hji : j = i
    · rw [hji, hi] at hj
      cases hj
      exact .inr (mem_append_right _ (mem_singleton_self _))
    · exact .inl (mem_map_of_mem (mem_eraseIdx_iff_getElem?.mpr ⟨j, hji, hj⟩))
  · exact .inr (mem_append_left _ hus)

theorem View.purge_of_fresh (h : ∀ sl ∈ v.stored, now - sl.storedAt ≤ skippedKeyTtlSecs) :
    v.purge now = v := by
  have hfil : v.stored.filter (fun sl => now - sl.storedAt ≤ skippedKeyTtlSecs) = v.stored :=
    filter_eq_self.mpr fun sl hsl => by simpa using h sl hsl
  simp only [View.purge] at hfil ⊢
  rw [hfil]

/-! ### The parts of `decrypt` -/

section Receive

variable {P : Primitives Key Box} {r : Roots Key} {sid : Octets 32} {w : World Key Box} {n : ℕ}
  {s : Session Key} {privBytes : Key} {bytes : Bytes}

theorem toNat_ofNat_of_lt (h : n < 2 ^ 32) : (UInt32.ofNat n).toNat = n :=
  UInt32.toNat_ofNat_of_lt' h

theorem Inv.other_epoch (h : Inv P r sid g w) {n : ℕ} (htag : ((g.view X).epoch, n) ∈ g.tags) :
    (g.view X.other).epoch = (g.view X).epoch + 1 := by
  have hlt := h.log.tag_epoch htag
  rw [h.shape.parity X] at hlt
  exact le_antisymm (h.shape.adjacent X) hlt

theorem skip_cases (h : Inv P r sid g w) {untilN : UInt32} {res : Except CryptoError Unit}
    (hrun : (w.session X).skipMessageKeys P untilN now = some (s, res)) :
    (∃ e, res = .error e ∧ s = w.session X) ∨
    (res = .ok () ∧ (g.view X).epoch < 2 ∧ s = w.session X) ∨
    ∃ k, res = .ok () ∧ (g.view X).epoch = k + 2 ∧ s = realize P r sid g.q
      ((g.view X).skip k (untilN.toNat - (UInt32.ofNat (g.view X).pos).toNat) now) := by
  rw [h.session X] at hrun ⊢
  by_cases hlt : (g.view X).epoch < 2
  · rw [skipMessageKeys_realize_none _ _ _ _ hlt] at hrun
    cases hrun
    split_ifs
    · exact .inr (.inl ⟨rfl, hlt, rfl⟩)
    · exact .inl ⟨_, rfl, rfl⟩
  · obtain ⟨k, hk⟩ : ∃ k, (g.view X).epoch = k + 2 := ⟨(g.view X).epoch - 2, by omega⟩
    rw [skipMessageKeys_realize _ _ _ _ hk] at hrun
    split_ifs at hrun
    · cases hrun
      exact .inl ⟨_, rfl, rfl⟩
    · cases hrun
      exact .inr (.inr ⟨k, rfl, hk, rfl⟩)

theorem eq_of_skip_error (h : Inv P r sid g w) {untilN : UInt32} {e : CryptoError}
    (hrun : (w.session X).skipMessageKeys P untilN now = some (s, .error e)) : s = w.session X := by
  rcases skip_cases h hrun with ⟨_, -, hs⟩ | ⟨hres, -⟩ | ⟨_, hres, -⟩
  · exact hs
  all_goals cases hres

/-- Finishing the receiving chain before a DH step: the keys up to the length the peer announced
are stored. -/
theorem inv_finishChain {prev : ℕ} (h : Inv P r sid g w)
    (hprev : prevLen g.len (g.view X).epoch = prev)
    (hskip : (w.session X).skipMessageKeys P (UInt32.ofNat prev) now = some (s, .ok ())) :
    ∃ v, v.epoch = (g.view X).epoch ∧ Inv P r sid (g.setView X v) (w.setSession X s) ∧
      (Complete g → (g.view X).stored.length + (prev - (g.view X).pos) ≤ maxStoredSkipped →
        Complete (g.setView X v) ∧ (∀ k, v.epoch = k + 2 → g.len k ≤ v.pos) ∧
        v.stored.length = (g.view X).stored.length + (prev - (g.view X).pos)) := by
  rcases skip_cases h hskip with ⟨_, hres, -⟩ | ⟨-, hlt, rfl⟩ | ⟨k, -, hk, rfl⟩
  · cases hres
  -- No receiving chain yet: nothing is stored.
  · have hself : g.setView X (g.view X) = g := by simp [Ghost.setView]
    refine ⟨g.view X, rfl, by rwa [setSession_session, hself], fun hc _ => ?_⟩
    rw [prevLen, if_neg (by omega)] at hprev
    exact ⟨by rwa [hself], fun k hk => by omega, by omega⟩
  -- The keys from the position on to the announced length.
  · set m := (UInt32.ofNat prev).toNat - (UInt32.ofNat (g.view X).pos).toNat with hm
    refine ⟨(g.view X).skip k m now, rfl, h.skip hk m now, fun hc hroom => ?_⟩
    obtain rfl : g.len k = prev := by
      rw [← hprev, prevLen, if_pos (by omega), hk, Nat.add_sub_cancel]
    have hlen := hc.len_lt k
    have hpos := hc.pos_le X k hk
    have hm' : m = g.len k - (g.view X).pos := by
      rw [hm, toNat_ofNat_of_lt hlen, toNat_ofNat_of_lt (by omega)]
    refine ⟨hc.skip hk (by omega) (by omega), fun k' hk' => ?_, ?_⟩
    · simp only [View.skip] at hk' ⊢
      obtain rfl : k' = k := by omega
      omega
    · rw [stored_skip_of_le (by omega)]
      simp [View.newSlots, hm']

/-- Then the DH step to the chain of an emitted message: this side is one step ahead of its peer. -/
theorem inv_dhStep {prev : ℕ} (hD : P.x25519.Commutes) (h : Inv P r sid g w)
    (htag : ((g.view X).epoch, n) ∈ g.tags) (hprev : prevLen g.len (g.view X).epoch = prev)
    (hskip : (w.session X).skipMessageKeys P (UInt32.ofNat prev) now = some (s, .ok ()))
    (privBytes : Key) :
    ∃ v, v.epoch = (g.view X).epoch ∧ Inv P r sid ((g.setView X v).ratchet X privBytes)
        (w.setSession X (s.dhRatchet P privBytes (headerOf P g.q (g.view X).epoch n prev))) ∧
      (Complete g → (g.view X).stored.length + (prev - (g.view X).pos) ≤ maxStoredSkipped →
        Complete ((g.setView X v).ratchet X privBytes) ∧
          v.stored.length = (g.view X).stored.length + (prev - (g.view X).pos)) := by
  obtain ⟨v, hep, hg₁, hc₁⟩ := inv_finishChain h hprev hskip
  have hv : (g.setView X v).view X = v := view_setView_self _ _ _
  have hg₂ := hg₁.ratchet hD privBytes (headerOf P g.q (g.view X).epoch n prev)
    (by rw [hv, hep]; rfl)
    (by rw [view_setView_other _ _ X.other_ne, hv, hep]; exact h.other_epoch htag)
  rw [session_setSession_self, setSession_setSession] at hg₂
  refine ⟨v, hep, hg₂, fun hc hroom => ?_⟩
  obtain ⟨hc₁, hcov, hsto⟩ := hc₁ hc hroom
  exact ⟨hc₁.ratchet hg₁.shape privBytes (by rwa [hv]), hsto⟩

variable {checks : Bool} {msg : RatchetMessage Box} {ad : Bytes} {s' : Session Key}
  {res : Except CryptoError Bytes}

theorem purgeExpired_of_fresh (h : s.Fresh now) : s.purgeExpired now = s := by
  have hfil : s.skipped.filter (fun sk => now - sk.storedAt ≤ skippedKeyTtlSecs) = s.skipped :=
    filter_eq_self.mpr fun sk hsk => by simpa using h sk hsk
  unfold Session.purgeExpired
  rw [hfil]

theorem Complete.purge (h : Inv P r sid g w) (hc : Complete g) (hfr : (w.session X).Fresh now) :
    Complete (g.setView X ((g.view X).purge now)) := by
  have hview : (g.view X).purge now = g.view X := by
    refine purge_of_fresh fun sl hsl => ?_
    refine hfr (sl.key P r g.q) ?_
    rw [h.session X]
    exact mem_map_of_mem hsl
  rw [hview]
  simpa [Ghost.setView] using hc

theorem skipDemand_current {header : Header}
    (hbytes : s.hkr.bind (s.openHeader P · msg.encHeader) = some bytes)
    (hdec : Header.decode bytes = .ok header) :
    s.skipDemand P msg = (header.n.toNat - s.nr.toNat, 0) := by
  unfold Session.skipDemand
  rw [hbytes]
  simp only [hdec]

theorem skipDemand_next {header : Header}
    (hcur : s.hkr.bind (s.openHeader P · msg.encHeader) = none)
    (hbytes : s.openHeader P s.nhkr msg.encHeader = some bytes)
    (hdec : Header.decode bytes = .ok header) :
    s.skipDemand P msg = (header.pn.toNat - s.nr.toNat, header.n.toNat) := by
  unfold Session.skipDemand
  rw [hcur, hbytes]
  simp only [hdec]

/-- While nothing is lost, the receiving position is a 32-bit number. -/
theorem Complete.pos_lt (hc : Complete g) (h : Shape g) (X : Side) : (g.view X).pos < 2 ^ 32 := by
  by_cases hlt : (g.view X).epoch < 2
  · rw [h.pos_zero X hlt]
    decide
  · exact (hc.pos_le X ((g.view X).epoch - 2) (by omega)).trans_lt (hc.len_lt _)

theorem Complete.prevLen_lt (hc : Complete g) (k : ℕ) : prevLen g.len k < 2 ^ 32 := by
  unfold prevLen
  split_ifs
  · exact hc.len_lt _
  · decide

variable (hP : P.Ideal) (hr : r.Fresh P) (h : Inv P r sid g w)
  (hunf : P.aead.Unforged (SessionSecret P r) w.sealed msg.nonce msg.ct)

include hP hr h hunf

theorem inv_decryptCurrent (hk : (g.view X).epoch = k + 2)
    (hrun : (w.session X).decryptCurrent P checks msg ad = some (s', res)) :
    ∃ g', Inv P r sid g' (w.present X s' msg ad res) ∧ (Complete g → Complete g') := by
  rw [h.session X, decryptCurrent_realize _ _ _ _ hk] at hrun
  cases hopen : (realize P r sid g.q (g.view X)).openPayload P
      (messageKey P r g.q k (g.view X).pos) msg ad with
  | none =>
    rw [hopen] at hrun
    cases hrun
    refine ⟨g, ?_, id⟩
    rw [← h.session X]
    exact h.refuse X msg ad _
  | some pt =>
    rw [hopen] at hrun
    obtain ⟨x, -, hx⟩ := map_eq_some_iff.mp hrun
    cases hx
    have hrecv : senderOf k = X.other := h.shape.receiver hk
    refine ⟨(g.setView X (g.view X).accept).use (k, (g.view X).pos), ?_, fun hc => ?_⟩
    · refine h.consume hP hr rfl rfl rfl (fun hlt => ?_) (h.stock.accept h.shape hk) hrecv hunf
        hopen
      simp only [View.accept] at hlt
      omega
    · obtain ⟨j, em, -, htag, -⟩ :=
        payload_authentic (t := (k, (g.view X).pos)) hP hr h hunf hopen
      exact hc.accept hk (h.log.tag_lt _ (mem_of_getElem? htag))

/-- Skipping to an emitted message of the receiving chain and opening the body. -/
theorem inv_skipAndDecrypt (hk : (g.view X).epoch = k + 2) (htag : (k, n) ∈ g.tags)
    (hrun : (w.session X).skipAndDecrypt P checks (UInt32.ofNat n) now msg ad = some (s', res)) :
    ∃ g', Inv P r sid g' (w.present X s' msg ad res) ∧
      (Complete g → (g.view X).stored.length + (n - (g.view X).pos) ≤ maxStoredSkipped →
        Complete g') := by
  unfold Session.skipAndDecrypt at hrun
  split at hrun
  · cases hrun
  · rename_i s e hskip
    cases hrun
    rw [eq_of_skip_error h hskip]
    exact ⟨g, h.refuse X msg ad _, fun hc _ => hc⟩
  · rename_i s hskip
    rcases skip_cases h hskip with ⟨_, hres, -⟩ | ⟨-, hlt, -⟩ | ⟨k', -, hk', rfl⟩
    · cases hres
    · omega
    · obtain rfl : k' = k := by omega
      set m := (UInt32.ofNat n).toNat - (UInt32.ofNat (g.view X).pos).toNat with hm
      obtain ⟨g', hg', hc'⟩ := inv_decryptCurrent hP hr (h.skip hk m now) hunf
        (by rw [view_setView_self]; exact hk)
        (by rw [session_setSession_self]; exact hrun)
      refine ⟨g', by rwa [present_setSession] at hg', fun hc hroom => hc' ?_⟩
      -- Without wrapping, the skip goes from the position to the message's own index.
      have hn : n < g.len k' := h.log.tag_lt _ htag
      have hlen := hc.len_lt k'
      have hpos := hc.pos_le X k' hk
      have hm' : m = n - (g.view X).pos := by
        rw [hm, toNat_ofNat_of_lt (by omega), toNat_ofNat_of_lt (by omega)]
      exact hc.skip hk (by omega) (by omega)

theorem inv_decryptOnNextChain (htag : ((g.view X).epoch, n) ∈ g.tags)
    (hrun : (w.session X).decryptOnNextChain P checks privBytes now msg ad
      (headerOf P g.q (g.view X).epoch n (prevLen g.len (g.view X).epoch)) = some (s', res)) :
    ∃ g', Inv P r sid g' (w.present X s' msg ad res) ∧
      (Complete g → (g.view X).stored.length +
        (prevLen g.len (g.view X).epoch - (g.view X).pos) + n ≤ maxStoredSkipped →
          Complete g') := by
  unfold Session.decryptOnNextChain at hrun
  split at hrun
  · cases hrun
  · rename_i s e hskip
    cases hrun
    rw [eq_of_skip_error h hskip]
    exact ⟨g, h.refuse X msg ad _, fun hc _ => hc⟩
  · rename_i s hskip
    obtain ⟨v, hep, hg₁, hc₁⟩ := inv_dhStep hP.x25519 h htag rfl hskip privBytes
    have hview : ((g.setView X v).ratchet X privBytes).view X = v.ratchet := by simp
    obtain ⟨g', hg', hc'⟩ := inv_skipAndDecrypt hP hr hg₁ hunf
      (by rw [hview, View.ratchet, hep]) htag (by rw [session_setSession_self]; exact hrun)
    rw [present_setSession] at hg'
    refine ⟨g', hg', fun hc hroom => ?_⟩
    obtain ⟨hc₁, hsto⟩ := hc₁ hc (by omega)
    refine hc' hc₁ ?_
    rw [hview]
    change v.stored.length + (n - 0) ≤ maxStoredSkipped
    omega

/-! ### `decrypt` -/

omit hunf

theorem inv_decryptByHeader (hadm : Admissible P r w (.decrypt X privBytes now msg ad))
    (hrun : (w.session X).decryptByHeader P checks privBytes now msg ad = some (s', res)) :
    ∃ g', Inv P r sid g' (w.present X s' msg ad res) ∧
      (Complete g → (w.session X).Tolerates P msg → Complete g') := by
  obtain ⟨hunfH, hunfB⟩ := hadm
  have hskip : (w.session X).skipped.length = (g.view X).stored.length := by
    simp [h.session X, realize]
  have hnr : (w.session X).nr = UInt32.ofNat (g.view X).pos := by rw [h.session X]; rfl
  unfold Session.decryptByHeader at hrun
  split at hrun
  · -- The current header key opens the header.
    rename_i bytes hbytes
    obtain ⟨hkr, hhkr, hopen⟩ := bind_eq_some_iff.mp hbytes
    obtain ⟨k, hk, rfl⟩ : ∃ k, (g.view X).epoch = k + 2 ∧ hkr = headerKey P r g.q k := by
      rw [h.session X] at hhkr
      simp only [realize] at hhkr
      split_ifs at hhkr with hge
      exact ⟨(g.view X).epoch - 2, by omega, (some.inj hhkr).symm⟩
    rw [h.session X] at hopen
    obtain ⟨n, htag, hdec⟩ := header_authentic hP hr h hunfH hopen
    simp only [Session.withHeader, hdec, Session.decryptOnCurrentChain] at hrun
    split_ifs at hrun with hpast
    · cases hrun
      exact ⟨g, h.refuse X msg ad _, fun hc _ => hc⟩
    · obtain ⟨g', hg', hc'⟩ := inv_skipAndDecrypt hP hr h hunfB hk htag hrun
      refine ⟨g', hg', fun hc htol => hc' hc ?_⟩
      have hroom := htol.2.2
      have hn : n < 2 ^ 32 := (h.log.tag_lt _ htag).trans (hc.len_lt k)
      rw [skipDemand_current hbytes hdec, hskip, hnr] at hroom
      simpa [headerOf, toNat_ofNat_of_lt hn, toNat_ofNat_of_lt (hc.pos_lt h.shape X)] using hroom
  · rename_i hcur
    split at hrun
    · -- The next header key opens the header.
      rename_i bytes hbytes
      have hopen := hbytes
      rw [h.session X] at hopen
      obtain ⟨n, htag, hdec⟩ := header_authentic hP hr h hunfH hopen
      simp only [Session.withHeader, hdec] at hrun
      obtain ⟨g', hg', hc'⟩ := inv_decryptOnNextChain hP hr h hunfB htag hrun
      refine ⟨g', hg', fun hc htol => hc' hc ?_⟩
      have hroom := htol.2.2
      have hn : n < 2 ^ 32 := (h.log.tag_lt _ htag).trans (hc.len_lt _)
      have hprev := hc.prevLen_lt (g.view X).epoch
      rw [skipDemand_next hcur hbytes hdec, hskip, hnr] at hroom
      simpa [headerOf, toNat_ofNat_of_lt hn, toNat_ofNat_of_lt hprev,
        toNat_ofNat_of_lt (hc.pos_lt h.shape X)] using hroom
    · cases hrun
      exact ⟨g, h.refuse X msg ad _, fun hc _ => hc⟩

/-- **The step lemma of `decrypt`.** -/
theorem inv_decrypt [DecidableEq Key] (hadm : Admissible P r w (.decrypt X privBytes now msg ad))
    (hrun : (w.session X).decrypt P checks privBytes now msg ad = some (s', res)) :
    ∃ g', Inv P r sid g' (w.present X s' msg ad res) ∧
      (Complete g → (w.session X).Fresh now → (w.session X).Tolerates P msg → Complete g') := by
  have hg₁ := h.purge X now
  have hc₁ : Complete g → (w.session X).Fresh now →
      Complete (g.setView X ((g.view X).purge now)) := fun hc => hc.purge h
  -- Under the bounds purging changes nothing, so demands can be read off the purged session.
  have hdem : (w.session X).Fresh now → (w.session X).Tolerates P msg →
      ((w.session X).purgeExpired now).Tolerates P msg := fun hfr htol => by
    rwa [purgeExpired_of_fresh hfr]
  unfold Session.decrypt at hrun
  generalize (w.session X).purgeExpired now = s₁ at hg₁ hdem hrun
  generalize g.setView X ((g.view X).purge now) = g₁ at hg₁ hc₁
  have hs₁ : s₁ = realize P r sid g₁.q (g₁.view X) := by
    rw [← hg₁.session X, session_setSession_self]
  rcases trySkipped_realize_cases P r sid g₁.q (g₁.view X) msg ad with
    ⟨e, htry⟩ | htry | ⟨i, sl, pt, hi, hopen, htry⟩
  · rw [hs₁, htry] at hrun
    cases hrun
    refine ⟨g₁, ?_, fun hc hfr _ => hc₁ hc hfr⟩
    have := hg₁.refuse X msg ad e
    rwa [session_setSession_self, present_setSession, hs₁] at this
  · rw [hs₁, htry, ← hs₁] at hrun
    obtain ⟨g', hg', hc'⟩ := inv_decryptByHeader hP hr hg₁ hadm
      (by rw [session_setSession_self]; exact hrun)
    rw [present_setSession] at hg'
    refine ⟨g', hg', fun hc hfr htol => hc' (hc₁ hc hfr) ?_⟩
    rw [session_setSession_self]
    exact hdem hfr htol
  · rw [hs₁, htry] at hrun
    cases hrun
    have hmem : sl ∈ (g₁.view X).stored := mem_of_getElem? hi
    refine ⟨(g₁.setView X ((g₁.view X).take i)).use sl.tag, ?_,
      fun hc hfr _ => (hc₁ hc hfr).take hi⟩
    have hused := hg₁.consume hP hr (v := (g₁.view X).take i) (t := sl.tag) rfl rfl rfl
      (hg₁.shape.pos_zero X) (hg₁.stock.take hi) (hg₁.stock.slot_past X sl hmem).2 hadm.2 hopen
    rwa [present_setSession] at hused

end Receive

/-! ### `encrypt` -/

section Send

variable {P : Primitives Key Box} {r : Roots Key} {sid : Octets 32} {w : World Key Box}

/-- The sender adds a message to its current chain `k`. -/
def Ghost.emit (g : Ghost Key) (X : Side) (k : ℕ) : Ghost Key :=
  { g.setView X (g.view X).send with
    len := Function.update g.len k (g.len k + 1), tags := g.tags ++ [(k, g.len k)] }

theorem sealings_realize (q : ℕ → Key) {v : View} (hk : v.epoch = k + 1) (hdrNonce nonce : Nonce)
    (plaintext userAd : Bytes) :
    (realize P r sid q v).sealings P hdrNonce nonce plaintext userAd =
      [⟨headerKey P r q k, hdrNonce, headerAdOf sid, (headerOf P q k v.sent v.prevSent).encode⟩,
        ⟨messageKey P r q k v.sent, nonce, payloadAdOf sid
          (messageOf P r sid q k v.sent v.prevSent hdrNonce nonce plaintext userAd).encHeader
            userAd,
          plaintext⟩] := by
  unfold Session.sealings
  obtain ⟨hcks, hhks⟩ := sending_realize P r sid q hk
  rw [hcks, hhks]
  simp only [headerAd_realize, payloadAd_realize, messageOf, headerOf, messageKey, ← hk]
  rfl

theorem Shape.sender (h : Shape g) (hk : (g.view X).epoch = k + 1) : senderOf k = X := by
  have := h.parity X
  rw [hk, senderOf_succ] at this
  rw [← Side.other_other (senderOf k), this, Side.other_other]

theorem Ghost.epoch_emit (g : Ghost Key) (X : Side) (k : ℕ) :
    ∀ Y, ((g.emit X k).view Y).epoch = (g.view Y).epoch :=
  forall_setView (p := fun Y u => u.epoch = (g.view Y).epoch) rfl fun _ _ => rfl

theorem Shape.emit (h : Shape g) (hk : (g.view X).epoch = k + 1) : Shape (g.emit X k) := by
  have hep := g.epoch_emit X k
  have hne : ∀ k', k' ≠ k → (g.emit X k).len k' = g.len k' := fun k' hk' =>
    update_of_ne hk' _ _
  have hprev : ∀ Y k', (g.view Y).epoch = k' + 1 →
      prevLen (g.emit X k).len k' = prevLen g.len k' := fun Y k' hk' => by
    unfold prevLen
    split_ifs with hge
    · refine hne _ fun heq => ?_
      have hY := h.sender hk'
      -- Both chains are of one parity, so this is the side itself, two chains later.
      rw [show k' = k + 2 by omega, senderOf_add_two, h.sender hk] at hY
      subst hY
      omega
    · rfl
  refine .of_views (forall_setView ⟨h.parity X, ?_, ?_, ?_, h.pos_zero X⟩ fun Y hY => ?_)
    (fun Y => ?_) fun k' hk' => ?_
  · intro k' hk'
    obtain rfl : k' = k := by simp only [View.send] at hk'; omega
    simp [View.send, Ghost.emit, h.sent_eq X k' hk]
  · intro hzero
    simp only [View.send] at hzero
    omega
  · intro k' hk'
    rw [hprev X k' hk']
    exact h.prev_eq X k' hk'
  · refine ⟨h.parity Y, fun k' hk' => ?_, h.sent_zero Y, fun k' hk' => ?_, h.pos_zero Y⟩
    · -- The peer sends on chains of the other parity, so its counters do not see chain `k`.
      rw [h.sent_eq Y k' hk', hne k']
      rintro rfl
      exact hY ((h.sender hk').symm.trans (h.sender hk))
    · rw [hprev Y k' hk']
      exact h.prev_eq Y k' hk'
  · rw [hep, hep]
    exact h.adjacent Y
  · rw [hne k' fun heq => ?_]
    · exact h.len_zero k' fun Y => hep Y ▸ hk' Y
    · have := hk' X
      rw [hep] at this
      omega

theorem Log.snoc (h : Log P r sid g w) {em : Emission Box} {w' : World Key Box} {g' : Ghost Key}
    {hs bs : Aead.Sealing Key Nonce (Ad Box)} (hg' : g' = { g with tags := g.tags ++ [t] })
    (hsent : w'.sent = w.sent ++ [em]) (hseal : w'.sealed = w.sealed ++ [hs, bs])
    (hem : Emitted P r sid g em t) (hnew : t ∉ g.tags) (hlt : t.2 < g.len t.1)
    (hhs : HeaderSealing P r g hs t) (hbs : BodySealing P r sid g bs em t) : Log P r sid g' w' := by
  subst hg'
  have hlen : w.sent.length = g.tags.length := h.emitted.length_eq
  constructor
  · rw [hsent]
    exact rel_append h.emitted (List.Forall₂.cons hem List.Forall₂.nil)
  · rw [← concat_eq_append]
    exact h.tags_nodup.concat hnew
  · exact forall_mem_append.mpr ⟨h.tag_lt, forall_mem_singleton.mpr hlt⟩
  · rw [hseal, hsent, zip_append hlen, forall_mem_append, forall_mem_cons, forall_mem_singleton]
    refine ⟨fun sl hsl => ?_, .inl ⟨t, mem_append_right _ (mem_singleton_self t), hhs⟩,
      .inr ⟨(em, t), mem_append_right _ (mem_singleton_self _), hbs⟩⟩
    rcases h.sealed sl hsl with ⟨t', ht', hh⟩ | ⟨p, hp, hb⟩
    · exact .inl ⟨t', mem_append_left _ ht', hh⟩
    · exact .inr ⟨p, mem_append_left _ hp, hb⟩

/-- A longer current chain does not change the lengths that emitted headers announce. -/
theorem Inv.prevLen_emit (h : Inv P r sid g w) (hk : (g.view X).epoch = k + 1) (ht : t ∈ g.tags) :
    prevLen (g.emit X k).len t.1 = prevLen g.len t.1 := by
  unfold prevLen
  split_ifs with hge
  · refine update_of_ne (fun heq => ?_) _ _
    have hlt := h.log.tag_epoch ht
    rw [show t.1 = k + 2 by omega, senderOf_add_two, h.shape.sender hk] at hlt
    omega
  · rfl

theorem Inv.emit (h : Inv P r sid g w) (hk : (g.view X).epoch = k + 1) (hdrNonce nonce : Nonce)
    (pt ad : Bytes) {w' : World Key Box}
    (hsession : w'.session = (w.setSession X (realize P r sid g.q (g.view X).send)).session)
    (hsent : w'.sent = w.sent ++ [⟨X, pt, ad,
      messageOf P r sid g.q k (g.view X).sent (g.view X).prevSent hdrNonce nonce pt ad⟩])
    (hseal : w'.sealed = w.sealed ++ (realize P r sid g.q (g.view X)).sealings P hdrNonce nonce
      pt ad)
    (hpresent : w'.presented = w.presented) (hacc : w'.accepted = w.accepted) :
    Inv P r sid (g.emit X k) w' := by
  have hshape := h.shape.emit hk
  have hview : (g.emit X k).view X = (g.view X).send := view_setView_self _ _ _
  have hep := g.epoch_emit X k
  have hlen : ∀ k', g.len k' ≤ (g.emit X k).len k' := fun k' => by
    by_cases hk' : k' = k
    · subst hk'
      simp [Ghost.emit]
    · simp [Ghost.emit, hk']
  have hprev : prevLen (g.emit X k).len k = (g.view X).prevSent := by
    rw [h.shape.prev_eq X k hk]
    unfold prevLen
    split_ifs with hge
    · exact update_of_ne (by omega) _ _
    · rfl
  have hcnt : (g.view X).sent = g.len k := h.shape.sent_eq X k hk
  constructor
  · intro Y
    rw [hsession]
    by_cases hY : Y = X
    · rw [hY, session_setSession_self, hview]
      rfl
    · rw [session_setSession_other _ _ _ hY, h.session Y]
      simp only [Ghost.emit, view_setView_other _ _ hY]
      rfl
  · exact hshape
  · -- First the longer chain under the old log, then the new message.
    have hfram : Log P r sid { g.emit X k with tags := g.tags } w :=
      h.log.frame rfl rfl rfl hlen (fun _ => h.prevLen_emit hk) (fun Y => (hep Y).ge)
        fun _ _ _ _ => rfl
    refine hfram.snoc rfl hsent (by rw [hseal, sealings_realize g.q hk]) ?_ ?_ ?_ ?_ ?_
    · refine ⟨(h.shape.sender hk).symm, ?_, hdrNonce, nonce, ?_⟩
      · change k < ((g.emit X k).view X).epoch
        rw [hep, hk]
        exact Nat.lt_succ_self k
      · simp only [hprev, hcnt]
        rfl
    · intro hmem
      exact lt_irrefl _ (h.log.tag_lt _ hmem)
    · simp [Ghost.emit]
    · refine ⟨rfl, ?_⟩
      simp only [hprev, hcnt]
      rfl
    · simp only [BodySealing, hcnt]
      rfl
  · exact { h.stock.mono (v := (g.view X).send) (fun _ ht => ht) (List.Sublist.refl _) with }
  · refine h.history.frame (fun j em hj => ?_) (fun j t ht => ?_) hacc rfl fun p hp => ?_
    · rw [hsent]
      exact (List.getElem?_append_left (List.getElem?_eq_some_iff.mp hj).1).trans hj
    · exact (List.getElem?_append_left (List.getElem?_eq_some_iff.mp ht).1).trans ht
    · rw [hpresent]
      exact hp

theorem Complete.emit (hc : Complete g) (h : Shape g) (hk : (g.view X).epoch = k + 1)
    (hfits : g.len k + 1 < 2 ^ 32) : Complete (g.emit X k) := by
  have hlen : ∀ k', (g.emit X k).len k' = if k' = k then g.len k + 1 else g.len k' := fun k' => by
    simp only [Ghost.emit, update_apply]
  have hcond : ∀ Y, ((g.emit X k).view Y).epoch = (g.view Y).epoch ∧
      ((g.emit X k).view Y).pos = (g.view Y).pos ∧
      ((g.emit X k).view Y).stored = (g.view Y).stored :=
    forall_setView (p := fun Y u => u.epoch = (g.view Y).epoch ∧ u.pos = (g.view Y).pos ∧
      u.stored = (g.view Y).stored) ⟨rfl, rfl, rfl⟩ fun _ _ => ⟨rfl, rfl, rfl⟩
  refine ⟨fun k' => ?_, fun Y k' hk' => ?_, fun Y sl hsl => ?_, fun Y t hs hlt hpast => ?_⟩
  · rw [hlen]
    split_ifs
    · exact hfits
    · exact hc.len_lt k'
  · obtain ⟨he, hp, -⟩ := hcond Y
    rw [he] at hk'
    rw [hp, hlen]
    have := hc.pos_le Y k' hk'
    split_ifs with heq
    · subst heq
      omega
    · exact this
  · rw [(hcond Y).2.2] at hsl
    have := hc.slot_lt Y sl hsl
    rw [hlen]
    split_ifs with heq
    · rw [heq] at this
      omega
    · exact this
  · obtain ⟨he, hp, hst⟩ := hcond Y
    rw [View.Past, he, hp] at hpast
    rw [hst]
    refine hc.kept Y t hs ?_ hpast
    rw [hlen] at hlt
    split_ifs at hlt with heq
    · -- Only the new message itself is in question, and the receiver has not reached it.
      have hY : Y = X.other := by
        rw [heq, h.sender hk] at hs
        rw [hs, Side.other_other]
      have hadj := h.adjacent X
      rw [← hY, hk] at hadj
      rcases hpast with hp' | ⟨heq', hp'⟩
      · omega
      · have := hc.pos_le Y k (by omega)
        rw [heq]
        omega
    · exact hlt

/-- **The step lemma of `encrypt`.** -/
theorem inv_encrypt (h : Inv P r sid g w) {checks : Bool} {hdrNonce nonce : Nonce} {now : ℕ}
    {pt ad : Bytes} {s' : Session Key} {msg : RatchetMessage Box}
    (hrun : (w.session X).encrypt P checks hdrNonce nonce now pt ad = some (s', msg)) :
    ∃ g', Inv P r sid g' (w.emit P X s' msg hdrNonce nonce pt ad) ∧
      (Complete g → (w.session X).Fresh now → (w.session X).ns.toNat + 1 < 2 ^ 32 →
        Complete g') := by
  have hwx := h.session X
  rw [hwx] at hrun
  obtain he | ⟨k, hk⟩ : (g.view X).epoch = 0 ∨ ∃ k, (g.view X).epoch = k + 1 := by
    cases hcase : (g.view X).epoch with
    | zero => exact .inl rfl
    | succ k => exact .inr ⟨k, rfl⟩
  -- Before its first epoch a side has no sending chain.
  · rw [encrypt_realize_zero _ _ _ _ he] at hrun
    cases hrun
  · rw [encrypt_realize _ _ _ _ hk] at hrun
    obtain ⟨x, -, hx⟩ := map_eq_some_iff.mp hrun
    cases hx
    -- A send first purges what has expired.
    have hg₁ := h.purge X now
    set g₁ := g.setView X ((g.view X).purge now) with hg₁def
    have hview : g₁.view X = (g.view X).purge now := view_setView_self _ _ _
    have hk₁ : (g₁.view X).epoch = k + 1 := by
      rw [hview]
      exact hk
    refine ⟨g₁.emit X k, ?_, fun hc hfr hfits => ?_⟩
    · refine hg₁.emit hk₁ hdrNonce nonce pt ad ?_ ?_ ?_ rfl rfl
      · rw [setSession_setSession, hview]
        rfl
      · rw [hview]
        rfl
      · rw [hview]
        change w.sealed ++ (w.session X).sealings P hdrNonce nonce pt ad = _
        rw [hwx]
        rfl
    · refine (hc.purge h hfr).emit hg₁.shape hk₁ ?_
      have hns : (w.session X).ns = UInt32.ofNat (g.len k) := by
        rw [hwx, ← h.shape.sent_eq X k hk]
        rfl
      rwa [hns, toNat_ofNat_of_lt (hc.len_lt k)] at hfits

end Send

/-! ### Runs -/

section Runs

variable [DecidableEq Key] {P : Primitives Key Box} {r : Roots Key} {sid : Octets 32}
  {w w' : World Key Box} {checks : Bool}

/-- **The step lemma**: every admissible call keeps the invariant, and a call within the bounds
loses nothing. -/
theorem inv_exec (hP : P.Ideal) (hr : r.Fresh P) (h : Inv P r sid g w) {a : Action Key Box}
    (hadm : Admissible P r w a) (hrun : w.exec P checks a = some w') :
    ∃ g', Inv P r sid g' w' ∧
      (Complete g → WithinBounds P w a → CounterFits w a → Complete g') := by
  cases a with
  | encrypt X hdrNonce nonce now pt ad =>
    obtain ⟨⟨s', msg⟩, hout, rfl⟩ := map_eq_some_iff.mp hrun
    exact inv_encrypt h hout
  | decrypt X privBytes now msg ad =>
    obtain ⟨⟨s', res⟩, hout, rfl⟩ := map_eq_some_iff.mp hrun
    obtain ⟨g', hg', hc'⟩ := inv_decrypt hP hr h hadm hout
    exact ⟨g', hg', fun hc hb _ => hc' hc hb.1 hb.2⟩

variable {spk privBytes : Key} {allowed : World Key Box → Action Key Box → Prop}

/-- **Runs keep the invariant**, and within the bounds they lose nothing. -/
theorem inv_of_reaches (hP : P.Ideal) (hr : r.Fresh P)
    (hadm : ∀ w a, allowed w a → Admissible P r w a)
    (hreach : Reaches P checks allowed (World.start P sid r spk privBytes) w) :
    ∃ g, Inv P r sid g w ∧
      ((∀ w a, allowed w a → WithinBounds P w a ∧ CounterFits w a) → Complete g) := by
  induction hreach with
  | refl => exact ⟨_, inv_start P r sid spk privBytes, fun _ => complete_start spk privBytes⟩
  | tail _ hstep ih =>
    obtain ⟨g, hg, hc⟩ := ih
    obtain ⟨a, hall, hrun⟩ := hstep
    obtain ⟨g', hg', hc'⟩ := inv_exec hP hr hg (hadm _ a hall) hrun
    refine ⟨g', hg', fun hbd => ?_⟩
    obtain ⟨hb, hf⟩ := hbd _ a hall
    exact hc' (hc hbd) hb hf

theorem complete_of_reaches (hP : P.Ideal) (hr : r.Fresh P)
    (hreach : Reaches P checks (fun w a => Bounded P r w a ∧ CounterFits w a)
      (World.start P sid r spk privBytes) w) : ∃ g, Inv P r sid g w ∧ Complete g := by
  obtain ⟨g, hg, hc⟩ := inv_of_reaches hP hr (fun _ _ ha => ha.1.1) hreach
  exact ⟨g, hg, hc fun _ _ ha => ⟨ha.1.2, ha.2⟩⟩

end Runs

end Komms.Ratchet
