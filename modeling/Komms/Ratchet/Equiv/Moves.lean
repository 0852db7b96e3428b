import Mathlib.Data.List.Nodup
import Komms.Ratchet.Equiv.Simulation

/-!
# The moves of a receiver keep the invariant

`decrypt` is made of five moves on the receiver's view: purging old keys, skipping ahead on the
receiving chain, the DH ratchet step, accepting the next message, and taking a stored key.  Each
keeps `Inv`, and each keeps `Complete` under the condition that nothing is thrown away.

The two facts about the network are `payload_authentic` and `header_authentic`: a body or a header
that opens under a key of the conversation is the one its owner sealed.
-/

namespace Komms.Ratchet

open List Ghost World

variable {Key Box : Type}

/-! ### Frames -/

namespace World

variable (w : World Key Box) (X : Side) (s s' : Session Key)

@[simp] theorem session_setSession_self : (w.setSession X s).session X = s := by
  simp [setSession]

theorem session_setSession_other {Y : Side} (h : Y ≠ X) :
    (w.setSession X s).session Y = w.session Y := by
  simp [setSession, h]

@[simp] theorem setSession_setSession : (w.setSession X s).setSession X s' = w.setSession X s' := by
  simp [setSession]

theorem setSession_session : w.setSession X (w.session X) = w := by
  simp [setSession]

@[simp] theorem present_setSession (msg : RatchetMessage Box) (userAd : Bytes)
    (result : Except CryptoError Bytes) :
    (w.setSession X s).present X s' msg userAd result = w.present X s' msg userAd result := by
  simp [present, setSession]

end World

def Ghost.setView (g : Ghost Key) (X : Side) (v : View) : Ghost Key :=
  { g with view := Function.update g.view X v }

@[simp] theorem Ghost.view_setView_self (g : Ghost Key) (X : Side) (v : View) :
    (g.setView X v).view X = v := by
  simp [Ghost.setView]

variable {X : Side} {g g' : Ghost Key} {v : View} {k : ℕ} {sl : Slot}

theorem Ghost.view_setView_other (g : Ghost Key) {Y : Side} (v : View) (h : Y ≠ X) :
    (g.setView X v).view Y = g.view Y := by
  simp [Ghost.setView, h]

/-- A property of views that `v` has if the old view had it, holds of both sides. -/
theorem Ghost.forall_setView {p : Side → View → Prop} (hX : p X v)
    (hother : ∀ Y, Y ≠ X → p Y (g.view Y)) (Y : Side) :
    p Y ((g.setView X v).view Y) := by
  by_cases h : Y = X
  · rw [h, g.view_setView_self]
    exact hX
  · rw [g.view_setView_other v h]
    exact hother Y h

/-- What `Shape` says about one side alone. -/
structure ViewShape (len : ℕ → ℕ) (Y : Side) (u : View) : Prop where
  parity : senderOf u.epoch = Y.other
  sent_eq : ∀ k, u.epoch = k + 1 → u.sent = len k
  sent_zero : u.epoch = 0 → u.sent = 0
  prev_eq : ∀ k, u.epoch = k + 1 → u.prevSent = prevLen len k
  pos_zero : u.epoch < 2 → u.pos = 0

theorem Shape.view (h : Shape g) (Y : Side) : ViewShape g.len Y (g.view Y) :=
  ⟨h.parity Y, h.sent_eq Y, h.sent_zero Y, h.prev_eq Y, h.pos_zero Y⟩

theorem Shape.of_views (hview : ∀ Y, ViewShape g.len Y (g.view Y))
    (hadj : ∀ Y, (g.view Y.other).epoch ≤ (g.view Y).epoch + 1)
    (hlen : ∀ k, (∀ Y, (g.view Y).epoch ≤ k) → g.len k = 0) : Shape g :=
  ⟨fun Y => (hview Y).parity, hadj, fun Y => (hview Y).sent_eq, fun Y => (hview Y).sent_zero,
    fun Y => (hview Y).prev_eq, hlen, fun Y => (hview Y).pos_zero⟩

theorem Shape.setView (h : Shape g) (hepoch : v.epoch = (g.view X).epoch)
    (hsent : v.sent = (g.view X).sent) (hprev : v.prevSent = (g.view X).prevSent)
    (hpos : v.epoch < 2 → v.pos = 0) :
    Shape (g.setView X v) := by
  have hep : ∀ Y, ((g.setView X v).view Y).epoch = (g.view Y).epoch :=
    forall_setView (p := fun Y u => u.epoch = (g.view Y).epoch) hepoch fun _ _ => rfl
  refine .of_views (forall_setView ?_ fun Y _ => h.view Y) (fun Y => ?_) fun k hk => ?_
  · obtain ⟨hpar, hsent_eq, hsent_zero, hprev_eq, -⟩ := h.view X
    rw [← hepoch] at hpar hsent_eq hsent_zero hprev_eq
    rw [← hsent] at hsent_eq hsent_zero
    rw [← hprev] at hprev_eq
    exact ⟨hpar, hsent_eq, hsent_zero, hprev_eq, hpos⟩
  · rw [hep, hep]
    exact h.adjacent Y
  · exact h.len_zero k fun Y => hep Y ▸ hk Y

/-! ### Moves on views -/

def Ghost.use (g : Ghost Key) (t : ℕ × ℕ) : Ghost Key := { g with consumed := g.consumed ++ [t] }

/-- The receiver draws a new private key and makes the DH step. -/
def Ghost.ratchet (g : Ghost Key) (X : Side) (privBytes : Key) : Ghost Key :=
  { g.setView X (g.view X).ratchet with
    q := Function.update g.q ((g.view X).epoch + 2) privBytes }

@[simp] theorem Ghost.view_ratchet_self (g : Ghost Key) (X : Side) (privBytes : Key) :
    (g.ratchet X privBytes).view X = (g.view X).ratchet := view_setView_self _ _ _

/-- A view that moved ahead, and stores keys of its past that were not used, keeps the stock. -/
theorem Stock.setView (h : Stock g)
    (hslot : ∀ sl ∈ v.stored, v.Past sl.tag ∧ senderOf sl.chain = X.other)
    (hnd : (v.stored.map Slot.tag).Nodup) (hpast : ∀ t, (g.view X).Past t → v.Past t)
    (hused : ∀ t ∈ g.consumed, t ∉ v.stored.map Slot.tag) : Stock (g.setView X v) where
  slot_past := forall_setView
    (p := fun Y u => ∀ sl ∈ u.stored, u.Past sl.tag ∧ senderOf sl.chain = Y.other) hslot
    fun Y _ => h.slot_past Y
  slot_nodup := forall_setView (p := fun _ u => (u.stored.map Slot.tag).Nodup) hnd
    fun Y _ => h.slot_nodup Y
  used_past := fun t ht => forall_setView
    (p := fun Y u => Y = (senderOf t.1).other → u.Past t)
    (fun hX => hpast t (by have := h.used_past t ht; rwa [← hX] at this))
    (fun Y _ hY => hY ▸ h.used_past t ht) _ rfl
  used_not_stored := fun t ht => forall_setView (p := fun _ u => t ∉ u.stored.map Slot.tag)
    (hused t ht) fun Y _ => h.used_not_stored t ht Y
  used_nodup := h.used_nodup

theorem Stock.mono (h : Stock g) (hpast : ∀ t, (g.view X).Past t → v.Past t)
    (hsub : v.stored.Sublist (g.view X).stored) : Stock (g.setView X v) := by
  refine h.setView (fun sl hsl => ?_) ((h.slot_nodup X).sublist (hsub.map _)) hpast
    fun t ht hmem => h.used_not_stored t ht X ((hsub.map _).subset hmem)
  obtain ⟨hp, hs⟩ := h.slot_past X sl (hsub.subset hsl)
  exact ⟨hpast _ hp, hs⟩

theorem Stock.use (h : Stock g) {t : ℕ × ℕ} (hpast : (g.view (senderOf t.1).other).Past t)
    (hsto : ∀ X, t ∉ (g.view X).stored.map Slot.tag) (hused : t ∉ g.consumed) :
    Stock (g.use t) where
  slot_past := h.slot_past
  slot_nodup := h.slot_nodup
  used_past := forall_mem_append.mpr ⟨h.used_past, forall_mem_singleton.mpr hpast⟩
  used_not_stored := forall_mem_append.mpr ⟨h.used_not_stored, forall_mem_singleton.mpr hsto⟩
  used_nodup := by
    rw [Ghost.use, ← concat_eq_append]
    exact h.used_nodup.concat hused

theorem Shape.receiver (h : Shape g) (hk : (g.view X).epoch = k + 2) : senderOf k = X.other := by
  rw [← senderOf_add_two, ← hk]
  exact h.parity X

/-- A side stores keys of its own receiving chains only. -/
theorem Stock.side_of_mem (h : Stock g) {X Y : Side} {t : ℕ × ℕ}
    (ht : t ∈ (g.view Y).stored.map Slot.tag) (hX : senderOf t.1 = X.other) : Y = X := by
  obtain ⟨sl, hsl, rfl⟩ := mem_map.mp ht
  have hY := (h.slot_past Y sl hsl).2
  rw [← Side.other_other Y, ← hY, ← Side.other_other X, ← hX]
  rfl

theorem Stock.accept {g : Ghost Key} (h : Stock g) (hshape : Shape g) {X : Side} {k : ℕ}
    (hk : (g.view X).epoch = k + 2) :
    Stock ((g.setView X (g.view X).accept).use (k, (g.view X).pos)) := by
  have hpast : ∀ t, (g.view X).Past t → (g.view X).accept.Past t := by
    rintro t (hlt | ⟨heq, hlt⟩)
    · exact .inl hlt
    · exact .inr ⟨heq, Nat.lt_succ_of_lt hlt⟩
  have hnot : ¬ (g.view X).Past (k, (g.view X).pos) := by
    rintro (hlt | ⟨-, hlt⟩)
    · simp only at hlt
      omega
    · exact lt_irrefl _ hlt
  have hrecv : senderOf k = X.other := hshape.receiver hk
  refine (h.mono hpast (List.Sublist.refl _)).use ?_ ?_ ?_
  · rw [hrecv, Side.other_other, view_setView_self]
    exact .inr ⟨hk.symm, Nat.lt_succ_self _⟩
  · refine forall_setView (p := fun _ u => (k, (g.view X).pos) ∉ u.stored.map Slot.tag) ?_ ?_
    · intro hmem
      obtain ⟨sl, hsl, heq⟩ := mem_map.mp hmem
      exact hnot (heq ▸ (h.slot_past X sl hsl).1)
    · exact fun Y hY hmem => hY (h.side_of_mem hmem hrecv)
  · intro hmem
    have := h.used_past _ hmem
    rw [hrecv, Side.other_other] at this
    exact hnot this

theorem Stock.take (h : Stock g) {i : ℕ} (hi : (g.view X).stored[i]? = some sl) :
    Stock ((g.setView X ((g.view X).take i)).use sl.tag) := by
  have hmem : sl ∈ (g.view X).stored := mem_of_getElem? hi
  obtain ⟨hp, hside⟩ := h.slot_past X sl hmem
  have hside' : senderOf sl.tag.1 = X.other := hside
  refine (h.mono (v := (g.view X).take i) (fun _ ht => ht) (eraseIdx_sublist _ _)).use ?_ ?_ ?_
  · rw [hside', Side.other_other, view_setView_self]
    exact hp
  · refine forall_setView (p := fun _ u => sl.tag ∉ u.stored.map Slot.tag) ?_ ?_
    · -- Tags are stored once, so erasing the slot erases its tag.
      intro hmem'
      have hmap : ((g.view X).take i).stored.map Slot.tag =
          ((g.view X).stored.map Slot.tag).eraseIdx i := (eraseIdx_map _ _ _).symm
      rw [hmap, mem_eraseIdx_iff_getElem?] at hmem'
      obtain ⟨j, hji, hj⟩ := hmem'
      have hi' : ((g.view X).stored.map Slot.tag)[i]? = some sl.tag := by
        rw [getElem?_map, hi]
        rfl
      have hlt : i < ((g.view X).stored.map Slot.tag).length :=
        (List.getElem?_eq_some_iff.mp hi').1
      exact hji ((getElem?_inj hlt (h.slot_nodup X)).mp (hi'.trans hj.symm)).symm
    · exact fun Y hY hmem' => hY (h.side_of_mem hmem' hside)
  · intro hused
    exact h.used_not_stored _ hused X (mem_map_of_mem hmem)

theorem View.stored_skip (v : View) (k m now : ℕ) : (v.skip k m now).stored =
    (v.stored ++ View.newSlots k v.pos m now).drop
      ((v.stored ++ View.newSlots k v.pos m now).length - maxStoredSkipped) := by
  simp only [View.skip]

theorem mem_newSlots {j m now : ℕ} : sl ∈ View.newSlots k j m now ↔
      sl.chain = k ∧ j ≤ sl.index ∧ sl.index < j + m ∧ sl.storedAt = now := by
  simp only [View.newSlots, mem_map, mem_range]
  constructor
  · rintro ⟨i, hi, rfl⟩
    exact ⟨rfl, by simp, by simpa using hi, rfl⟩
  · rintro ⟨hc, hj, _, hat⟩
    refine ⟨sl.index - j, by omega, ?_⟩
    obtain ⟨c, i, s⟩ := sl
    simp only at hc hj hat
    rw [Nat.add_sub_cancel' hj, hc, hat]

theorem nodup_newSlots (k j m now : ℕ) : ((View.newSlots k j m now).map Slot.tag).Nodup := by
  rw [View.newSlots, map_map]
  refine List.Nodup.map ?_ nodup_range
  intro a b hab
  simpa [Slot.tag] using hab

/-- Skipping ahead moves keys from the future to the store. -/
theorem Stock.skip (h : Stock g) (hshape : Shape g) (hk : (g.view X).epoch = k + 2) (m now : ℕ) :
    Stock (g.setView X ((g.view X).skip k m now)) := by
  set v := g.view X with hv
  set stored := v.stored ++ View.newSlots k v.pos m now with hsto
  have hsub : (v.skip k m now).stored.Sublist stored := by
    rw [View.stored_skip]
    exact drop_sublist _ _
  have hpast : ∀ t, v.Past t → (v.skip k m now).Past t := by
    rintro t (hlt | ⟨heq, hlt⟩)
    · exact .inl hlt
    · exact .inr ⟨heq, by simp only [View.skip]; omega⟩
  have hnot : ∀ t, v.Past t → t ∉ (View.newSlots k v.pos m now).map Slot.tag := by
    intro t ht hmem
    obtain ⟨sl, hsl, rfl⟩ := mem_map.mp hmem
    obtain ⟨hc, _, -, -⟩ := mem_newSlots.mp hsl
    rcases ht with hlt | ⟨-, hlt⟩
    all_goals
      simp only [Slot.tag] at hlt
      omega
  refine h.setView (fun sl hsl => ?_) (List.Nodup.sublist (hsub.map _) ?_) hpast fun t ht hmem => ?_
  · rcases mem_append.mp (hsub.subset hsl) with hold | hnew
    · obtain ⟨hp, hs⟩ := h.slot_past X sl hold
      exact ⟨hpast _ hp, hs⟩
    · obtain ⟨hc, -, hlt, -⟩ := mem_newSlots.mp hnew
      refine ⟨.inr ⟨by simp only [Slot.tag, hc, View.skip, hk],
        by simpa [View.skip, Slot.tag] using hlt⟩, ?_⟩
      rw [hc]
      exact hshape.receiver hk
  · rw [hsto, map_append, nodup_append]
    refine ⟨h.slot_nodup X, nodup_newSlots _ _ _ _, ?_⟩
    rintro t ht _ ht' rfl
    obtain ⟨sl, hsl, rfl⟩ := mem_map.mp ht
    exact hnot _ (h.slot_past X sl hsl).1 ht'
  · have hmem' := (hsub.map Slot.tag).subset hmem
    rw [hsto, map_append] at hmem'
    rcases mem_append.mp hmem' with hold | hnew
    · exact h.used_not_stored t ht X hold
    · -- A used message of this chain lies before the position, the new slots do not.
      obtain ⟨sl, hsl, rfl⟩ := mem_map.mp hnew
      obtain ⟨hc, -, -, -⟩ := mem_newSlots.mp hsl
      have hX : (senderOf sl.tag.1).other = X := by
        rw [show sl.tag.1 = k from hc, hshape.receiver hk, Side.other_other]
      exact hnot _ (by have := h.used_past _ ht; rwa [hX] at this) hnew

section Network

variable {P : Primitives Key Box} {r : Roots Key} {sid : Octets 32} {w w' : World Key Box}
  {t : ℕ × ℕ} {msg : RatchetMessage Box} {ad pt : Bytes}

theorem messageOf_congr {q q' : ℕ → Key} (h : ∀ j ≤ k + 1, q j = q' j) (n prev : ℕ)
    (hdrNonce nonce : Nonce) (pt ad : Bytes) :
    messageOf P r sid q k n prev hdrNonce nonce pt ad =
      messageOf P r sid q' k n prev hdrNonce nonce pt ad := by
  have hhdr : headerKey P r q k = headerKey P r q' k :=
    headerKey_congr fun j hj => h j (by omega)
  simp only [messageOf, headerOf, hhdr, messageKey_congr h, h (k + 1) le_rfl]

/-- The log does not notice a later epoch or private keys drawn for later steps. -/
theorem Log.frame (h : Log P r sid g w) (hsent : w'.sent = w.sent)
    (hseal : w'.sealed = w.sealed) (htags : g'.tags = g.tags) (hlen : ∀ k, g.len k ≤ g'.len k)
    (hprev : ∀ t ∈ g.tags, prevLen g'.len t.1 = prevLen g.len t.1)
    (hepoch : ∀ X, (g.view X).epoch ≤ (g'.view X).epoch)
    (hq : ∀ t ∈ g.tags, ∀ j ≤ t.1 + 1, g.q j = g'.q j) : Log P r sid g' w' := by
  constructor
  · rw [hsent, htags]
    refine forall₂_iff_zip.mpr ⟨h.emitted.length_eq, fun {em t} hmem => ?_⟩
    obtain ⟨hside, hlt, hn, n, hmsg⟩ := (forall₂_iff_zip.mp h.emitted).2 hmem
    refine ⟨hside, hlt.trans_le (hepoch _), hn, n, ?_⟩
    rw [hmsg, hprev t (of_mem_zip hmem).2]
    exact messageOf_congr (hq t (of_mem_zip hmem).2) _ _ _ _ _ _
  · rw [htags]
    exact h.tags_nodup
  · rw [htags]
    exact fun t ht => (h.tag_lt t ht).trans_le (hlen t.1)
  · rw [hsent, hseal, htags]
    intro sl hsl
    -- A header sealing is of a tag, a body sealing of an emission.
    rcases h.sealed sl hsl with ⟨t, ht, hkey, hpt⟩ | ⟨p, hp, hbody⟩
    · refine .inl ⟨t, ht, ?_, ?_⟩
      · rw [hkey]
        exact headerKey_congr fun j hj => hq t ht j (by omega)
      · rw [hpt, headerOf, headerOf, hq t ht _ le_rfl, hprev t ht]
    · refine .inr ⟨p, hp, ?_⟩
      rw [BodySealing, ← messageKey_congr (hq p.2 (of_mem_zip hp).2)]
      exact hbody

theorem exists_getElem?_of_forall₂ {α β : Type} {R : α → β → Prop} {as : List α} {bs : List β}
    (h : List.Forall₂ R as bs) {j : ℕ} {a : α} (hj : as[j]? = some a) :
    ∃ b, bs[j]? = some b ∧ R a b := by
  induction h generalizing j with
  | nil => cases hj
  | cons hhead _ ih =>
    cases j with
    | zero => exact ⟨_, rfl, Option.some.inj hj ▸ hhead⟩
    | succ j => exact ih hj

/-- Every chain that carries a message was started by its sender. -/
theorem Log.tag_epoch (h : Log P r sid g w) (ht : t ∈ g.tags) :
    t.1 < (g.view (senderOf t.1)).epoch := by
  obtain ⟨j, hj⟩ := mem_iff_getElem?.mp ht
  obtain ⟨_, -, hside, hlt, -⟩ := exists_getElem?_of_forall₂ h.emitted.flip hj
  rwa [hside] at hlt

theorem History.acceptance_of_used (h : History g w) {i : ℕ} (hi : g.consumed[i]? = some t) :
    ∃ a ∈ w.accepted, Accounts g w a t := by
  have hlt : i < g.consumed.length := (List.getElem?_eq_some_iff.mp hi).1
  have hlt' : i < w.accepted.length := h.accounts.length_eq ▸ hlt
  refine ⟨w.accepted[i], getElem_mem hlt', ?_⟩
  have hacc := h.accounts.get hlt' hlt
  simp only [get_eq_getElem] at hacc
  rwa [(List.getElem?_eq_some_iff.mp hi).2] at hacc

/-! ### What opens is authentic -/

/-- A body that opens under a secret key of the session other than the header keys is the one that
some emission sealed under this key, with the same caller's data. -/
theorem body_authentic (h : Inv P r sid g w) {k : Key} (hsec : SessionSecret P r k)
    (hk : ∀ i, k ≠ headerKey P r g.q i)
    (hunf : P.aead.Unforged (SessionSecret P r) w.sealed msg.nonce msg.ct)
    (hopen : P.aead.decrypt k msg.nonce (payloadAdOf sid msg.encHeader ad) msg.ct = some pt) :
    ∃ (j : ℕ) (em : Emission Box) (t : ℕ × ℕ), w.sent[j]? = some em ∧ g.tags[j]? = some t ∧
      Emitted P r sid g em t ∧ k = messageKey P r g.q t.1 t.2 ∧
      em.plaintext = pt ∧ em.userAd = ad ∧ em.msg = msg := by
  obtain ⟨hmem, hct⟩ := hunf _ _ _ hsec hopen
  rcases h.log.sealed _ hmem with ⟨_, -, hkey, -⟩ | ⟨⟨em, t⟩, hp, hbody⟩
  · exact absurd hkey (hk _)
  · obtain ⟨hkey, hnon, had, hpt⟩ := Aead.Sealing.mk.inj hbody
    obtain ⟨henc, huser⟩ := payloadAdOf_inj had
    obtain ⟨j, hj⟩ := mem_iff_getElem?.mp hp
    obtain ⟨hsent, htag⟩ := getElem?_zip_eq_some.mp hj
    have hem : Emitted P r sid g em t := (forall₂_iff_zip.mp h.log.emitted).2 hp
    obtain ⟨-, -, _, n, hmsg⟩ := id hem
    have hct' : em.msg.ct = P.aead.encrypt (messageKey P r g.q t.1 t.2) em.msg.nonce
        (payloadAdOf sid em.msg.encHeader em.userAd) em.plaintext := by
      rw [hmsg]
      rfl
    refine ⟨j, em, t, hsent, htag, hem, hkey, hpt.symm, huser.symm, ?_⟩
    obtain ⟨_, _, _⟩ := msg
    simp only at henc hnon hct
    rw [hct, henc, hnon, huser, hpt, hkey, ← hct']

/-- **Bodies are authentic**: a body that opens under the key of message `t` is the one emitted as
message `t`, with the same caller's data. -/
theorem payload_authentic (hP : P.Ideal) (hr : r.Fresh P) (h : Inv P r sid g w)
    (hunf : P.aead.Unforged (SessionSecret P r) w.sealed msg.nonce msg.ct)
    (hopen : P.aead.decrypt (messageKey P r g.q t.1 t.2) msg.nonce
      (payloadAdOf sid msg.encHeader ad) msg.ct = some pt) :
    ∃ (j : ℕ) (em : Emission Box), w.sent[j]? = some em ∧ g.tags[j]? = some t ∧
      Emitted P r sid g em t ∧ em.plaintext = pt ∧ em.userAd = ad ∧ em.msg = msg := by
  obtain ⟨j, em, t', hsent, htag, hem, hkey, hrest⟩ :=
    body_authentic h (.unsalted _ _ (sessionSecret_chainKey P r g.q t.1 t.2))
      (messageKey_ne_headerKey hP.hkdf hr _ _) hunf hopen
  -- The key tells which message it is.
  obtain ⟨h1, h2⟩ := messageKey_inj hP.hkdf hr hkey
  obtain rfl : t = t' := Prod.ext h1 h2
  exact ⟨j, em, hsent, htag, hem, hrest⟩

theorem Header.decode_encode (hd : Header) : Header.decode hd.encode = .ok hd := by
  have hdh : hd.dh.toBytes.length = 32 := hd.dh.length_eq
  have hlen : hd.encode.length = headerLen := by
    simp [Header.encode, headerLen]
  have htake : hd.encode.take 32 = hd.dh.toBytes := by
    rw [Header.encode, append_assoc]
    exact take_left' hdh
  have hpn : (hd.encode.drop 32).take 4 = leBytes 4 hd.pn.toNat := by
    rw [Header.encode, append_assoc, drop_left' hdh]
    exact take_left' (length_leBytes _ _)
  have hn : (hd.encode.drop 36).take 4 = leBytes 4 hd.n.toNat := by
    have h36 : (hd.dh.toBytes ++ leBytes 4 hd.pn.toNat).length = 36 := by simp
    rw [Header.encode, drop_left' h36, take_of_length_le (by simp)]
  unfold Header.decode
  rw [dif_pos hlen]
  simp only [htake, hpn, hn]
  rw [ofLeBytes_leBytes (hd.pn.toNat_lt.trans_eq (by decide)),
    ofLeBytes_leBytes (hd.n.toNat_lt.trans_eq (by decide))]
  simp

/-- **Headers are authentic**: a header that opens under the key of chain `k` is that of an emitted
message of chain `k`. -/
theorem header_authentic (hP : P.Ideal) (hr : r.Fresh P) (h : Inv P r sid g w)
    {encHeader : SealedHeader Box} {bytes : Bytes}
    (hunf : P.aead.Unforged (SessionSecret P r) w.sealed encHeader.nonce encHeader.box)
    (hopen : P.aead.decrypt (headerKey P r g.q k) encHeader.nonce (headerAdOf sid)
      encHeader.box = some bytes) :
    ∃ n, (k, n) ∈ g.tags ∧
      Header.decode bytes = .ok (headerOf P g.q k n (prevLen g.len k)) := by
  obtain ⟨hmem, -⟩ := hunf _ _ _ (sessionSecret_headerKey P r g.q k) hopen
  rcases h.log.sealed _ hmem with ⟨⟨k', n⟩, ht, hkey, hpt⟩ | ⟨p, -, hbody⟩
  · obtain rfl : k = k' := headerKey_inj hP.hkdf hr hkey
    simp only at hpt
    exact ⟨n, ht, by rw [hpt, Header.decode_encode]⟩
  · have hkey : headerKey P r g.q k = messageKey P r g.q p.2.1 p.2.2 :=
      congrArg Aead.Sealing.key hbody
    exact absurd hkey.symm (messageKey_ne_headerKey hP.hkdf hr _ _ _)

/-! ### Moves keep the invariant -/

theorem History.frame (h : History g w)
    (hsent : ∀ (j : ℕ) em, w.sent[j]? = some em → w'.sent[j]? = some em)
    (htags : ∀ (j : ℕ) t, g.tags[j]? = some t → g'.tags[j]? = some t)
    (hacc : w'.accepted = w.accepted) (hcons : g'.consumed = g.consumed)
    (hpresent : ∀ p ∈ w.presented, p ∈ w'.presented) : History g' w' := by
  constructor
  · rw [hacc, hcons]
    refine h.accounts.imp fun a t => ?_
    rintro ⟨j, em, hj, ht, hrest⟩
    exact ⟨j, em, hsent j em hj, htags j t ht, hrest⟩
  · rw [hacc]
    exact fun a ha => hpresent _ (h.presented a ha)

theorem Inv.setView (h : Inv P r sid g w) (hepoch : v.epoch = (g.view X).epoch)
    (hsent : v.sent = (g.view X).sent) (hprev : v.prevSent = (g.view X).prevSent)
    (hpos : v.epoch < 2 → v.pos = 0) (hstock : Stock (g.setView X v)) :
    Inv P r sid (g.setView X v) (w.setSession X (realize P r sid g.q v)) where
  session Y := by
    by_cases hY : Y = X
    · rw [hY, session_setSession_self, view_setView_self]
      rfl
    · rw [session_setSession_other _ _ _ hY, view_setView_other _ _ hY]
      exact h.session Y
  shape := h.shape.setView hepoch hsent hprev hpos
  log := h.log.frame rfl rfl rfl (fun _ => le_rfl) (fun _ _ => rfl)
    (forall_setView (p := fun Y u => (g.view Y).epoch ≤ u.epoch) hepoch.ge fun _ _ => le_rfl)
    fun _ _ _ _ => rfl
  stock := hstock
  history := h.history.frame (fun _ _ hj => hj) (fun _ _ ht => ht) rfl rfl fun _ hp => hp

theorem Inv.purge (h : Inv P r sid g w) (X : Side) (now : ℕ) :
    Inv P r sid (g.setView X ((g.view X).purge now))
      (w.setSession X ((w.session X).purgeExpired now)) := by
  rw [h.session X, purgeExpired_realize]
  refine h.setView rfl rfl rfl (h.shape.pos_zero X) ?_
  exact h.stock.mono (fun _ ht => ht) filter_sublist

theorem Inv.skip (h : Inv P r sid g w) (hk : (g.view X).epoch = k + 2) (m now : ℕ) :
    Inv P r sid (g.setView X ((g.view X).skip k m now))
      (w.setSession X (realize P r sid g.q ((g.view X).skip k m now))) := by
  refine h.setView rfl rfl rfl (fun hlt => ?_) (h.stock.skip h.shape hk m now)
  simp only [View.skip] at hlt
  omega

/-- The DH step: the receiver moves from one step behind its peer to one step ahead. -/
theorem Shape.ratchet (h : Shape g) (privBytes : Key)
    (hpeer : (g.view X.other).epoch = (g.view X).epoch + 1) : Shape (g.ratchet X privBytes) := by
  have hO : (g.ratchet X privBytes).view X.other = g.view X.other :=
    view_setView_other _ _ X.other_ne
  have hep : ∀ Y, (g.view Y).epoch ≤ ((g.ratchet X privBytes).view Y).epoch :=
    forall_setView (p := fun Y u => (g.view Y).epoch ≤ u.epoch)
      (Nat.le_add_right _ 2) fun _ _ => le_rfl
  have hlen : g.len ((g.view X).epoch + 1) = 0 := by
    refine h.len_zero _ fun Y => ?_
    rcases X.eq_or_eq_other Y with rfl | rfl
    · exact Nat.le_succ _
    · exact hpeer.le
  refine .of_views (forall_setView ⟨?_, ?_, nofun, ?_, fun _ => rfl⟩ fun Y _ => h.view Y)
    (fun Y => ?_) fun k hk => h.len_zero k fun Y => (hep Y).trans (hk Y)
  · rw [View.ratchet, senderOf_add_two]
    exact h.parity X
  · intro k hk
    obtain rfl : k = (g.view X).epoch + 1 := by simp only [View.ratchet] at hk; omega
    exact hlen.symm
  · -- The chain just finished is the one before the new sending chain.
    intro k hk
    obtain rfl : k = (g.view X).epoch + 1 := by simp only [View.ratchet] at hk; omega
    simp only [View.ratchet, prevLen]
    split_ifs with hge
    · exact h.sent_eq X _ (by omega)
    · exact h.sent_zero X (by omega)
  · rcases X.eq_or_eq_other Y with rfl | rfl
    · rw [view_ratchet_self, hO, hpeer]
      simp only [View.ratchet]
      omega
    · rw [Side.other_other, view_ratchet_self, hO, hpeer]
      simp only [View.ratchet]
      omega

theorem Inv.ratchet (hD : P.x25519.Commutes) (h : Inv P r sid g w) (privBytes : Key)
    (header : Header) (hdh : header.dh = P.x25519.publicKey (g.q ((g.view X).epoch + 1)))
    (hpeer : (g.view X.other).epoch = (g.view X).epoch + 1) :
    Inv P r sid (g.ratchet X privBytes)
      (w.setSession X ((w.session X).dhRatchet P privBytes header)) := by
  have hslot : ∀ Y, ∀ sl ∈ (g.view Y).stored, sl.chain + 2 ≤ (g.view Y).epoch := by
    intro Y sl hsl
    rcases (h.stock.slot_past Y sl hsl).1 with hlt | ⟨heq, -⟩
    · exact hlt.le
    · exact heq.le
  have hq : ∀ j ≤ (g.view X).epoch + 1, g.q j = (g.ratchet X privBytes).q j := fun j hj => by
    simp only [Ghost.ratchet]
    rw [Function.update_of_ne (by omega)]
  constructor
  · intro Y
    rcases X.eq_or_eq_other Y with rfl | rfl
    · rw [session_setSession_self, h.session, dhRatchet_realize _ _ _ _ hD _ hdh (hslot Y)]
      simp [Ghost.ratchet]
    · rw [session_setSession_other _ _ _ X.other_ne, h.session]
      simp only [Ghost.ratchet, view_setView_other _ _ X.other_ne]
      exact realize_congr _ _ _ (fun j hj => hq j (by omega)) (hslot _)
  · exact h.shape.ratchet privBytes hpeer
  · refine h.log.frame rfl rfl rfl (fun _ => le_rfl) (fun _ _ => rfl) (forall_setView
      (p := fun Y u => (g.view Y).epoch ≤ u.epoch) (Nat.le_add_right _ 2) fun _ _ => le_rfl) ?_
    -- No message of a chain later than the peer's current one has been emitted.
    intro t ht j hj
    refine hq j ?_
    have hlt := h.log.tag_epoch ht
    rcases X.eq_or_eq_other (senderOf t.1) with hs | hs
    all_goals
      rw [hs] at hlt
      omega
  · have hpast : ∀ t, (g.view X).Past t → (g.view X).ratchet.Past t := by
      rintro t (_ | ⟨_, -⟩)
      all_goals exact .inl (by simp only [View.ratchet]; omega)
    exact { h.stock.mono hpast (List.Sublist.refl _) with }
  · exact h.history.frame (fun _ _ hj => hj) (fun _ _ ht => ht) rfl rfl fun _ hp => hp

theorem Inv.refuse (h : Inv P r sid g w) (X : Side) (msg : RatchetMessage Box) (ad : Bytes)
    (e : CryptoError) : Inv P r sid g (w.present X (w.session X) msg ad (.error e)) where
  session Y := by
    have hsession : (w.present X (w.session X) msg ad (.error e)).session = w.session := by
      simp [World.present, World.setSession]
    rw [hsession, h.session]
  shape := h.shape
  log := { h.log with }
  stock := h.stock
  history := h.history.frame (fun _ _ hj => hj) (fun _ _ ht => ht) rfl rfl
    fun _ => mem_append_left _

/-- A body that opens under the key of message `t` is accounted for by its emission. -/
theorem Inv.consume (hP : P.Ideal) (hr : r.Fresh P) (h : Inv P r sid g w)
    (hepoch : v.epoch = (g.view X).epoch) (hsent : v.sent = (g.view X).sent)
    (hprev : v.prevSent = (g.view X).prevSent) (hpos : v.epoch < 2 → v.pos = 0)
    (hstock : Stock ((g.setView X v).use t)) (hside : senderOf t.1 = X.other)
    (hunf : P.aead.Unforged (SessionSecret P r) w.sealed msg.nonce msg.ct)
    (hopen : P.aead.decrypt (messageKey P r g.q t.1 t.2) msg.nonce
      (payloadAdOf sid msg.encHeader ad) msg.ct = some pt) :
    Inv P r sid ((g.setView X v).use t) (w.present X (realize P r sid g.q v) msg ad (.ok pt)) := by
  obtain ⟨j, em, hj, ht, hem, hpt, had, hmsg⟩ := payload_authentic hP hr h hunf hopen
  have hsub : ∀ t' ∈ g.consumed, t' ∈ ((g.setView X v).use t).consumed :=
    fun _ => mem_append_left _
  -- Without the new acceptance this is a move of one side.
  have hmove : Inv P r sid (g.setView X v) (w.setSession X (realize P r sid g.q v)) := by
    refine h.setView hepoch hsent hprev hpos ?_
    exact ⟨hstock.slot_past, hstock.slot_nodup, fun t' ht' => hstock.used_past t' (hsub t' ht'),
      fun t' ht' => hstock.used_not_stored t' (hsub t' ht'), h.stock.used_nodup⟩
  refine ⟨hmove.session, { hmove.shape with }, { hmove.log with }, hstock, ?_, ?_⟩
  · refine rel_append h.history.accounts ?_
    refine List.Forall₂.cons ⟨j, em, hj, ht, (List.getElem?_eq_some_iff.mp hj).1, ?_, hpt, had,
      hmsg⟩ List.Forall₂.nil
    rw [hem.1, hside]
  · exact forall_mem_append.mpr ⟨fun a ha => mem_append_left _ (h.history.presented a ha),
      forall_mem_singleton.mpr (mem_append_right _ (mem_singleton_self _))⟩

end Network

end Komms.Ratchet
