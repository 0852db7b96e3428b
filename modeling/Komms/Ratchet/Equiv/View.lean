import Mathlib.Data.List.InsertIdx
import Komms.Ratchet.Equiv.KeySchedule

/-!
# Sessions as views of a conversation

A `View` is a session without its keys: how many DH steps the party knows, how far it is in its
sending and receiving chains, and which message keys it holds back.  `realize` puts the keys of
the schedule in.  Each operation of a session commutes with `realize`, so a run can be followed on
views.

A party at epoch `e` sends on chain `e - 1`, receives on chain `e - 2` and waits for chain `e`.
-/

namespace Komms.Ratchet

open List Function

variable {Key Box : Type}

/-! ### Views -/

/-- A stored message key: message `index` of chain `chain`, stored at time `storedAt`. -/
structure Slot where
  chain : ℕ
  index : ℕ
  storedAt : ℕ

def Slot.tag (sl : Slot) : ℕ × ℕ := (sl.chain, sl.index)

structure View where
  /-- DH steps known to this party. -/
  epoch : ℕ
  /-- Messages sent on the current sending chain. -/
  sent : ℕ
  /-- Messages sent on the sending chain before it. -/
  prevSent : ℕ
  /-- Next message expected on the receiving chain. -/
  pos : ℕ
  stored : List Slot

namespace View

def purge (v : View) (now : ℕ) : View :=
  { v with stored := v.stored.filter fun sl => now - sl.storedAt ≤ skippedKeyTtlSecs }

def send (v : View) : View := { v with sent := v.sent + 1 }

/-- The slots a skip over `m` messages from index `j` adds. -/
def newSlots (k j m now : ℕ) : List Slot := (List.range m).map fun i => ⟨k, j + i, now⟩

def skip (v : View) (k m now : ℕ) : View :=
  let stored := v.stored ++ newSlots k v.pos m now
  { v with pos := v.pos + m, stored := stored.drop (stored.length - maxStoredSkipped) }

def ratchet (v : View) : View :=
  { v with epoch := v.epoch + 2, prevSent := v.sent, sent := 0, pos := 0 }

def accept (v : View) : View := { v with pos := v.pos + 1 }

def take (v : View) (i : ℕ) : View := { v with stored := v.stored.eraseIdx i }

end View

/-! ### Associated data of a session id -/

def baseAdOf (sid : Octets 32) : Bytes := sid.toBytes ++ [protocolVersion]

def headerAdOf (sid : Octets 32) : Ad Box := (baseAdOf sid ++ hdrAdDomain).map .inl

def payloadAdOf (sid : Octets 32) (encHeader : SealedHeader Box) (userAd : Bytes) : Ad Box :=
  (baseAdOf sid).map .inl ++ [.inr encHeader] ++ userAd.map .inl

theorem payloadAdOf_inj {sid : Octets 32} {h h' : SealedHeader Box} {u u' : Bytes}
    (heq : payloadAdOf sid h u = payloadAdOf sid h' u') : h = h' ∧ u = u' := by
  simp only [payloadAdOf, append_assoc, singleton_append] at heq
  have htail := append_cancel_left heq
  obtain ⟨hh, hu⟩ := List.cons.inj htail
  exact ⟨Sum.inr.inj hh, map_injective_iff.mpr Sum.inl_injective hu⟩

/-! ### Realizing a view -/

section Realize

variable (P : Primitives Key Box) (r : Roots Key) (sid : Octets 32) (q : ℕ → Key)

def Slot.key (sl : Slot) : SkippedKey Key :=
  { hk := headerKey P r q sl.chain, n := UInt32.ofNat sl.index,
    mk := messageKey P r q sl.chain sl.index, storedAt := sl.storedAt }

/-- The session a view stands for. -/
def realize (v : View) : Session Key :=
  { sessionId := sid, dhsPriv := q v.epoch, dhsPub := P.x25519.publicKey (q v.epoch),
    dhr := if 1 ≤ v.epoch then some (P.x25519.publicKey (q (v.epoch - 1))) else none,
    rk := rootKey P r q v.epoch,
    cks := if 1 ≤ v.epoch then some (chainKey P r q (v.epoch - 1) v.sent) else none,
    ckr := if 2 ≤ v.epoch then some (chainKey P r q (v.epoch - 2) v.pos) else none,
    hks := if 1 ≤ v.epoch then some (headerKey P r q (v.epoch - 1)) else none,
    hkr := if 2 ≤ v.epoch then some (headerKey P r q (v.epoch - 2)) else none,
    nhks := headerKey P r q (v.epoch + 1), nhkr := headerKey P r q v.epoch,
    ns := UInt32.ofNat v.sent, nr := UInt32.ofNat v.pos, pn := UInt32.ofNat v.prevSent,
    skipped := v.stored.map (Slot.key P r q) }

theorem headerAd_realize (v : View) :
    (realize P r sid q v).headerAd = (headerAdOf sid : Ad Box) := rfl

theorem payloadAd_realize (v : View) (h : SealedHeader Box) (u : Bytes) :
    (realize P r sid q v).payloadAd h u = payloadAdOf sid h u := rfl

theorem realize_initInitiator (hpriv : ℕ → Key) :
    initInitiator P (hpriv 1) sid r.skRoot (P.x25519.publicKey (hpriv 0)) r.hka r.nhkb =
      realize P r sid hpriv ⟨1, 0, 0, 0, []⟩ := rfl

theorem realize_initResponder :
    initResponder P sid r.skRoot (q 0) r.hka r.nhkb = realize P r sid q ⟨0, 0, 0, 0, []⟩ := rfl

variable {q' : ℕ → Key} {v : View} {k : ℕ}

theorem sending_realize (hk : v.epoch = k + 1) :
    (realize P r sid q v).cks = some (chainKey P r q k v.sent) ∧
      (realize P r sid q v).hks = some (headerKey P r q k) := by simp [realize, hk]

theorem receiving_realize (hk : v.epoch = k + 2) :
    (realize P r sid q v).ckr = some (chainKey P r q k v.pos) ∧
      (realize P r sid q v).hkr = some (headerKey P r q k) := by simp [realize, hk]

theorem slot_key_congr {q : ℕ → Key} {sl : Slot} (h : ∀ j ≤ sl.chain + 1, q j = q' j) :
    sl.key P r q = sl.key P r q' := by
  have hhdr : headerKey P r q sl.chain = headerKey P r q' sl.chain :=
    headerKey_congr fun j hj => h j (by omega)
  rw [Slot.key, Slot.key, hhdr, messageKey_congr h]

/-- A session at epoch `e` does not depend on keys drawn after step `e`. -/
theorem realize_congr {q : ℕ → Key} (h : ∀ j ≤ v.epoch, q j = q' j)
    (hslot : ∀ sl ∈ v.stored, sl.chain + 2 ≤ v.epoch) :
    realize P r sid q v = realize P r sid q' v := by
  have hroot : rootKey P r q v.epoch = rootKey P r q' v.epoch := rootKey_congr h
  have hhdr : ∀ i ≤ v.epoch + 1, headerKey P r q i = headerKey P r q' i :=
    fun i hi => headerKey_congr fun j hj => h j (by omega)
  have hskip : v.stored.map (Slot.key P r q) = v.stored.map (Slot.key P r q') :=
    map_congr_left fun sl hsl =>
      slot_key_congr P r fun j hj => h j (by have := hslot sl hsl; omega)
  have hch : ∀ i n, i + 1 ≤ v.epoch → chainKey P r q i n = chainKey P r q' i n :=
    fun i n hi => chainKey_congr (fun j hj => h j (by omega)) n
  unfold realize
  rw [hroot, hskip, hhdr (v.epoch + 1) le_rfl, hhdr v.epoch (Nat.le_succ _), h v.epoch le_rfl,
    h (v.epoch - 1) (Nat.sub_le _ _), hhdr (v.epoch - 1) (by omega), hhdr (v.epoch - 2) (by omega)]
  congr 1
  all_goals
    split_ifs with he
    · rw [hch _ _ (by omega)]
    · rfl

/-! ### Operations on realized views -/

theorem purgeExpired_realize (v : View) (now : ℕ) :
    (realize P r sid q v).purgeExpired now = realize P r sid q (v.purge now) := by
  unfold Session.purgeExpired realize View.purge
  simp only [filter_map]
  rfl

theorem increment_eq_some {checks : Bool} {a : ℕ} {x : UInt32}
    (h : increment checks (UInt32.ofNat a) = some x) : x = UInt32.ofNat (a + 1) := by
  unfold increment at h
  split_ifs at h
  rw [← Option.some.inj h, UInt32.ofNat_add]
  rfl

/-- The header of message `n` on chain `k`, when the chain before had `prev` messages. -/
def headerOf (k n prev : ℕ) : Header :=
  { dh := P.x25519.publicKey (q (k + 1)), pn := UInt32.ofNat prev, n := UInt32.ofNat n }

/-- Message `n` of chain `k` as its sender seals it. -/
def messageOf (k n prev : ℕ) (hdrNonce nonce : Nonce) (plaintext userAd : Bytes) :
    RatchetMessage Box :=
  let encHeader : SealedHeader Box :=
    { nonce := hdrNonce,
      box := P.aead.encrypt (headerKey P r q k) hdrNonce (headerAdOf sid)
        (headerOf P q k n prev).encode }
  { encHeader := encHeader, nonce := nonce,
    ct := P.aead.encrypt (messageKey P r q k n) nonce (payloadAdOf sid encHeader userAd)
      plaintext }

theorem encrypt_realize (hk : v.epoch = k + 1) (checks : Bool) (hdrNonce nonce : Nonce) (now : ℕ)
    (plaintext userAd : Bytes) :
    (realize P r sid q v).encrypt P checks hdrNonce nonce now plaintext userAd =
      (increment checks (UInt32.ofNat v.sent)).map fun _ =>
        (realize P r sid q (v.purge now).send,
          messageOf P r sid q k v.sent v.prevSent hdrNonce nonce plaintext userAd) := by
  obtain ⟨hcks, hhks⟩ := sending_realize P r sid q (v := v.purge now) hk
  unfold Session.encrypt
  rw [purgeExpired_realize]
  simp only [hcks, hhks, Option.bind_eq_bind, Option.bind_some]
  change Option.bind (increment checks (UInt32.ofNat v.sent)) _ = _
  cases hinc : increment checks (UInt32.ofNat v.sent) with
  | none => rfl
  | some x =>
    rw [increment_eq_some hinc]
    refine congrArg some (Prod.ext ?_ ?_)
    · simp [realize, View.purge, View.send, hk, chainKey]
    · simp only [messageOf, messageKey, headerOf, ← hk]
      rfl

/-- Before its first receiving step the responder has no sending chain, and `encrypt` panics. -/
theorem encrypt_realize_zero (hv : v.epoch = 0) (checks : Bool) (hdrNonce nonce : Nonce) (now : ℕ)
    (plaintext userAd : Bytes) :
    (realize P r sid q v).encrypt P checks hdrNonce nonce now plaintext userAd = none := by
  have hcks : (realize P r sid q (v.purge now)).cks = none := by
    simp [realize, View.purge, hv]
  unfold Session.encrypt
  rw [purgeExpired_realize]
  simp only [hcks, Option.bind_eq_bind, Option.bind_none]

/-! ### Receiving on realized views -/

theorem skipLoop_realize (k j m now : ℕ) (slots : List Slot) :
    Session.skipLoop P (headerKey P r q k) now m (chainKey P r q k j) (UInt32.ofNat j)
        (slots.map (Slot.key P r q)) =
      (chainKey P r q k (j + m), UInt32.ofNat (j + m),
        (slots ++ View.newSlots k j m now).map (Slot.key P r q)) := by
  induction m generalizing j slots with
  | zero => simp [Session.skipLoop, View.newSlots]
  | succ m ih =>
    -- One turn stores the key of message `j` and moves the chain to `j + 1`.
    have hslot : slots.map (Slot.key P r q) ++ [SkippedKey.make (headerKey P r q k)
        (UInt32.ofNat j) (kdfCk P (chainKey P r q k j)).2 now] =
        (slots ++ [(⟨k, j, now⟩ : Slot)]).map (Slot.key P r q) := by
      simp [Slot.key, messageKey]
    have hnew : View.newSlots k j (m + 1) now = ⟨k, j, now⟩ :: View.newSlots k (j + 1) m now := by
      simp only [View.newSlots, range_succ_eq_map, map_cons, map_map, Nat.add_zero]
      congr 1
      refine map_congr_left fun i _ => ?_
      simp only [Function.comp, Nat.succ_eq_add_one]
      rw [Nat.add_assoc, Nat.add_comm 1 i]
    have hnr : UInt32.ofNat j + 1 = UInt32.ofNat (j + 1) := by
      rw [UInt32.ofNat_add]
      rfl
    rw [Session.skipLoop, hslot, hnr, ← chainKey, ih, hnew]
    simp [Nat.add_assoc, Nat.add_comm 1 m]

theorem skipMessageKeys_realize (hk : v.epoch = k + 2) (untilN : UInt32) (now : ℕ) :
    (realize P r sid q v).skipMessageKeys P untilN now =
      if Session.skipLimit (UInt32.ofNat v.pos) < untilN.toNat then
        some (realize P r sid q v, .error .tooManySkipped)
      else
        some (realize P r sid q
          (v.skip k (untilN.toNat - (UInt32.ofNat v.pos).toNat) now), .ok ()) := by
  obtain ⟨hckr, hhkr⟩ := receiving_realize P r sid q hk
  have hnr : (realize P r sid q v).nr = UInt32.ofNat v.pos := rfl
  unfold Session.skipMessageKeys
  rw [hnr, hckr]
  by_cases hlim : Session.skipLimit (UInt32.ofNat v.pos) < untilN.toNat
  · rw [if_pos hlim, if_pos hlim]
  · rw [if_neg hlim, if_neg hlim]
    simp only [hhkr, Option.bind_eq_bind, Option.bind_some]
    have hloop := skipLoop_realize P r q k v.pos
      (untilN.toNat - (UInt32.ofNat v.pos).toNat) now v.stored
    rw [show (realize P r sid q v).skipped = v.stored.map (Slot.key P r q) from rfl, hloop]
    simp [realize, View.skip, Session.capSkipped, hk]

theorem skipMessageKeys_realize_none (hv : v.epoch < 2) (untilN : UInt32) (now : ℕ) :
    (realize P r sid q v).skipMessageKeys P untilN now =
      some (realize P r sid q v, if untilN = 0 then .ok () else .error .tooManySkipped) := by
  have hckr : (realize P r sid q v).ckr = none := by simp [realize, hv]
  unfold Session.skipMessageKeys
  rw [hckr]
  split_ifs with hlim h0
  · rw [h0] at hlim
    exact absurd hlim (by simp)
  all_goals rfl

/-- The DH ratchet step of a party at epoch `e`, on a header of chain `e`. -/
theorem dhRatchet_realize (hD : P.x25519.Commutes) {header : Header} (privBytes : Key)
    (hdh : header.dh = P.x25519.publicKey (q (v.epoch + 1)))
    (hslot : ∀ sl ∈ v.stored, sl.chain + 2 ≤ v.epoch) :
    (realize P r sid q v).dhRatchet P privBytes header =
      realize P r sid (Function.update q (v.epoch + 2) privBytes) v.ratchet := by
  set q' := Function.update q (v.epoch + 2) privBytes with hq'
  -- The fresh key changes no key of the epochs so far.
  have hold : ∀ j ≤ v.epoch + 1, q j = q' j := fun j hj => by
    rw [hq', update_of_ne (by omega)]
  have hnew : q' (v.epoch + 2) = privBytes := by rw [hq', update_self]
  have hroot : rootKey P r q v.epoch = rootKey P r q' v.epoch :=
    rootKey_congr fun j hj => hold j (by omega)
  -- The two halves of the step: receiving with the old key, sending with the fresh one.
  have hrecv : P.x25519.shared (q v.epoch) header.dh = dhOut P q' v.epoch := by
    rw [hdh, hD, dhOut, hold _ le_rfl, hold v.epoch (by omega)]
  have hsend : P.x25519.shared privBytes header.dh = dhOut P q' (v.epoch + 1) := by
    rw [hdh, dhOut, hnew, hold _ le_rfl]
  have hh : ∀ i ≤ v.epoch + 1, headerKey P r q i = headerKey P r q' i :=
    fun i hi => headerKey_congr fun j hj => hold j (by omega)
  have hskip : v.stored.map (Slot.key P r q) = v.stored.map (Slot.key P r q') :=
    map_congr_left fun sl hsl =>
      slot_key_congr P r fun j hj => hold j (by have := hslot sl hsl; omega)
  have h1 : kdfRk P (rootKey P r q v.epoch) (P.x25519.shared (q v.epoch) header.dh) =
      stepKeys P r q' v.epoch := by
    rw [hroot, hrecv, stepKeys]
  have h2 : kdfRk P (stepKeys P r q' v.epoch).1 (P.x25519.shared privBytes header.dh) =
      stepKeys P r q' (v.epoch + 1) := by
    rw [hsend]
    rfl
  unfold Session.dhRatchet
  simp only [realize, View.ratchet]
  rw [h1]
  simp only [h2]
  simp only [hskip, hh _ le_rfl, hh _ (Nat.le_succ _), hdh, hold _ le_rfl, hnew]
  simp only [Nat.le_add_left, if_true, Nat.add_sub_cancel, show 1 ≤ v.epoch + 2 by omega,
    show v.epoch + 2 - 1 = v.epoch + 1 by omega]
  rfl

theorem decryptCurrent_realize (hk : v.epoch = k + 2) (checks : Bool) (msg : RatchetMessage Box)
    (userAd : Bytes) :
    (realize P r sid q v).decryptCurrent P checks msg userAd =
      match (realize P r sid q v).openPayload P (messageKey P r q k v.pos) msg userAd with
      | none => some (realize P r sid q v, .error .messageAuthentication)
      | some pt => (increment checks (UInt32.ofNat v.pos)).map fun _ =>
          (realize P r sid q v.accept, .ok pt) := by
  unfold Session.decryptCurrent
  simp only [receiving_realize P r sid q hk, Option.bind_eq_bind, Option.bind_some]
  rw [← messageKey]
  cases (realize P r sid q v).openPayload P (messageKey P r q k v.pos) msg userAd with
  | none => rfl
  | some pt =>
    change Option.bind (increment checks (UInt32.ofNat v.pos)) _ = _
    cases hinc : increment checks (UInt32.ofNat v.pos) with
    | none => rfl
    | some x =>
      rw [increment_eq_some hinc]
      simp [realize, View.accept, hk, chainKey]

theorem trySkipped_realize_cases [DecidableEq Key] (v : View) (msg : RatchetMessage Box)
    (userAd : Bytes) :
    (∃ e, (realize P r sid q v).trySkipped P msg userAd = (realize P r sid q v, .error e)) ∨
    (realize P r sid q v).trySkipped P msg userAd = (realize P r sid q v, .ok none) ∨
    ∃ i sl pt, v.stored[i]? = some sl ∧
      (realize P r sid q v).openPayload P (messageKey P r q sl.chain sl.index) msg userAd =
        some pt ∧
      (realize P r sid q v).trySkipped P msg userAd =
        (realize P r sid q (v.take i), .ok (some pt)) := by
  unfold Session.trySkipped
  split
  · exact .inl ⟨_, rfl⟩
  · exact .inr (.inl rfl)
  · rename_i idx _
    split
    · exact .inr (.inl rfl)
    · rename_i sk hsk
      rw [show (realize P r sid q v).skipped = v.stored.map (Slot.key P r q) from rfl,
        getElem?_map, Option.map_eq_some_iff] at hsk
      obtain ⟨sl, hsl, rfl⟩ := hsk
      split
      · exact .inl ⟨_, rfl⟩
      · rename_i pt hpt
        refine .inr (.inr ⟨idx, sl, pt, hsl, hpt, ?_⟩)
        simp only [realize, View.take, eraseIdx_map]
        rfl

end Realize

end Komms.Ratchet
