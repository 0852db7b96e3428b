import Komms.Ratchet.Session

/-!
# The key schedule of a ratchet conversation

A conversation is one sequence of DH steps.  Step `i` starts chain `i`: the initiator sends on the
even chains, the responder on the odd ones.  If `q i` is the ratchet private key of the `i`-th step
(`q 0` being the responder's signed prekey), then all keys are functions of `q` and the handshake's
roots: `rootKey i`, `headerKey i`, `chainKey i n` and `messageKey i n`.  With an ideal HKDF no two
of them are the same key, and those of a step depend only on the private keys drawn up to that step.
-/

namespace Komms.Ratchet

open Option

variable {Key Box : Type}

/-- What the handshake hands to both sessions. -/
structure Roots (Key : Type) where
  skRoot : Key
  hka : Key
  nhkb : Key

/-- The roots are fresh for an ideal HKDF: none of them is a key the ratchet derives. -/
structure Roots.Fresh (P : Primitives Key Box) (r : Roots Key) : Prop where
  skRoot_ne : ∀ rk d, r.skRoot ≠ (kdfRk P rk d).1
  hka_ne_nhkb : r.hka ≠ r.nhkb
  hka_ne_header : ∀ rk d, r.hka ≠ (kdfRk P rk d).2.2
  nhkb_ne_header : ∀ rk d, r.nhkb ≠ (kdfRk P rk d).2.2
  hka_ne_message : ∀ ck, r.hka ≠ (kdfCk P ck).2
  nhkb_ne_message : ∀ ck, r.nhkb ≠ (kdfCk P ck).2

/-- `KK-hka` -/
def infoHka : Bytes := [0x4b, 0x4b, 0x2d, 0x68, 0x6b, 0x61]

/-- `KK-nhkb` -/
def infoNhkb : Bytes := [0x4b, 0x4b, 0x2d, 0x6e, 0x68, 0x6b, 0x62]

/-- The header keys as `derive_root` of the handshake computes them from the root secret. -/
def deriveRoots (P : Primitives Key Box) (skRoot : Key) : Roots Key :=
  { skRoot := skRoot, hka := P.hkdf.block none skRoot infoHka 0,
    nhkb := P.hkdf.block none skRoot infoNhkb 0 }

/-! ### Injectivity of the two derivation steps

`kdfRk` is salted by the root key and `kdfCk` has no salt. -/

section Derivation

variable {P : Primitives Key Box} (hP : P.hkdf.Ideal) {rk rk' d d' ck : Key} {info info' : Bytes}
  {n n' : ℕ}
include hP

theorem salted_inj (h : P.hkdf.block (some rk) d info n = P.hkdf.block (some rk') d' info' n') :
    rk = rk' ∧ d = d' := by
  obtain ⟨hsalt, hikm, -⟩ := hP.block_inj h
  exact ⟨some.inj hsalt, hikm⟩

theorem salted_ne_unsalted : P.hkdf.block (some rk) d info n ≠ P.hkdf.block none ck info' n' := by
  intro h
  simpa using (hP.block_inj h).1

end Derivation

/-- The handshake's header keys are fresh as soon as its root secret is. -/
theorem deriveRoots_fresh {P : Primitives Key Box} (hP : P.hkdf.Ideal) {skRoot : Key}
    (hroot : ∀ rk d, skRoot ≠ (kdfRk P rk d).1) : (deriveRoots P skRoot).Fresh P where
  skRoot_ne := hroot
  hka_ne_nhkb h := absurd (hP.block_inj h).2.2.1 (by decide)
  hka_ne_header _ _ h := salted_ne_unsalted hP h.symm
  nhkb_ne_header _ _ h := salted_ne_unsalted hP h.symm
  hka_ne_message _ h := absurd (hP.block_inj h).2.2.1 (by decide)
  nhkb_ne_message _ h := absurd (hP.block_inj h).2.2.1 (by decide)

/-! ### The keys of a conversation -/

section Schedule

variable (P : Primitives Key Box) (r : Roots Key) (q : ℕ → Key)

/-- The DH output of step `i`, as the party that starts chain `i` computes it. -/
def dhOut (i : ℕ) : Key := P.x25519.shared (q (i + 1)) (P.x25519.publicKey (q i))

def rootKey : ℕ → Key
  | 0 => r.skRoot
  | i + 1 => (kdfRk P (rootKey i) (dhOut P q i)).1

def stepKeys (i : ℕ) : Key × Key × Key := kdfRk P (rootKey P r q i) (dhOut P q i)

def headerKey : ℕ → Key
  | 0 => r.hka
  | 1 => r.nhkb
  | i + 2 => (stepKeys P r q i).2.2

def chainKey (i : ℕ) : ℕ → Key
  | 0 => (stepKeys P r q i).2.1
  | n + 1 => (kdfCk P (chainKey i n)).1

def messageKey (i n : ℕ) : Key := (kdfCk P (chainKey P r q i n)).2

variable {P r q} (hP : P.hkdf.Ideal) (hr : r.Fresh P)

include hP hr in
theorem rootKey_inj {i j : ℕ} (h : rootKey P r q i = rootKey P r q j) : i = j := by
  refine (chain_index_eq (salted_inj hP) (fun _ => rfl) (fun _ => rfl) ?_ ?_ h).1 <;>
    exact hr.skRoot_ne

include hP hr in
theorem headerKey_inj {i j : ℕ} (h : headerKey P r q i = headerKey P r q j) : i = j := by
  match i, j with
  | 0, 0 | 1, 1 => rfl
  | 0, 1 => exact absurd h hr.hka_ne_nhkb
  | 1, 0 => exact absurd h.symm hr.hka_ne_nhkb
  | 0, _ + 2 => exact absurd h (hr.hka_ne_header _ _)
  | 1, _ + 2 => exact absurd h (hr.nhkb_ne_header _ _)
  | _ + 2, 0 => exact absurd h.symm (hr.hka_ne_header _ _)
  | _ + 2, 1 => exact absurd h.symm (hr.nhkb_ne_header _ _)
  | i + 2, j + 2 => rw [rootKey_inj hP hr (salted_inj hP h).1]

include hP in
/-- Two chain keys meet only at the same depth, and then the chains start alike. -/
theorem chainKey_inj_aux {i j n m : ℕ} (h : chainKey P r q i n = chainKey P r q j m) :
    n = m ∧ chainKey P r q i 0 = chainKey P r q j 0 := by
  refine chain_index_eq (d := fun _ => ()) (e := fun _ => ())
    (fun h => ⟨(hP.block_inj h).2.1, rfl⟩) (fun _ => rfl) (fun _ => rfl) ?_ ?_ h
  all_goals exact fun _ _ => salted_ne_unsalted hP

include hP hr in
theorem messageKey_inj {i j n m : ℕ} (h : messageKey P r q i n = messageKey P r q j m) :
    i = j ∧ n = m := by
  obtain ⟨hnm, h0⟩ := chainKey_inj_aux hP (hP.block_inj h).2.1
  exact ⟨rootKey_inj hP hr (salted_inj hP h0).1, hnm⟩

include hP hr in
theorem messageKey_ne_headerKey (i n j : ℕ) : messageKey P r q i n ≠ headerKey P r q j := by
  intro h
  match j with
  | 0 => exact hr.hka_ne_message _ h.symm
  | 1 => exact hr.nhkb_ne_message _ h.symm
  | j + 2 => exact salted_ne_unsalted hP h.symm

/-! ### Keys depend on the past only -/

variable {q q' : ℕ → Key} {i : ℕ}

theorem dhOut_congr (h : ∀ j ≤ i + 1, q j = q' j) : dhOut P q i = dhOut P q' i := by
  rw [dhOut, dhOut, h (i + 1) le_rfl, h i (Nat.le_succ i)]

theorem rootKey_congr (h : ∀ j ≤ i, q j = q' j) : rootKey P r q i = rootKey P r q' i := by
  induction i with
  | zero => rfl
  | succ i ih =>
    rw [rootKey, rootKey, ih fun j hj => h j (Nat.le_succ_of_le hj), dhOut_congr h]

theorem stepKeys_congr (h : ∀ j ≤ i + 1, q j = q' j) : stepKeys P r q i = stepKeys P r q' i := by
  rw [stepKeys, stepKeys, rootKey_congr fun j hj => h j (Nat.le_succ_of_le hj), dhOut_congr h]

theorem headerKey_congr (h : ∀ j < i, q j = q' j) : headerKey P r q i = headerKey P r q' i := by
  match i with
  | 0 | 1 => rfl
  | i + 2 => rw [headerKey, headerKey, stepKeys_congr fun j hj => h j (by omega)]

theorem chainKey_congr (h : ∀ j ≤ i + 1, q j = q' j) (n : ℕ) :
    chainKey P r q i n = chainKey P r q' i n := by
  induction n with
  | zero => rw [chainKey, chainKey, stepKeys_congr h]
  | succ n ih => rw [chainKey, chainKey, ih]

theorem messageKey_congr (h : ∀ j ≤ i + 1, q j = q' j) (n : ℕ) :
    messageKey P r q i n = messageKey P r q' i n := by
  rw [messageKey, messageKey, chainKey_congr h]

end Schedule

/-! ### Secrets of the session -/

/-- The keys only the two parties know: the roots and everything derived from them. -/
inductive SessionSecret (P : Primitives Key Box) (r : Roots Key) : Key → Prop
  | skRoot : SessionSecret P r r.skRoot
  | hka : SessionSecret P r r.hka
  | nhkb : SessionSecret P r r.nhkb
  | salted {rk : Key} (dhOut : Key) (info : Bytes) (i : ℕ) :
      SessionSecret P r rk → SessionSecret P r (P.hkdf.block (some rk) dhOut info i)
  | unsalted {ck : Key} (info : Bytes) (i : ℕ) :
      SessionSecret P r ck → SessionSecret P r (P.hkdf.block none ck info i)

section Secrets

variable (P : Primitives Key Box) (r : Roots Key) (q : ℕ → Key)

theorem sessionSecret_rootKey (i : ℕ) : SessionSecret P r (rootKey P r q i) := by
  induction i with
  | zero => exact .skRoot
  | succ i ih => exact .salted _ _ _ ih

theorem sessionSecret_headerKey (i : ℕ) : SessionSecret P r (headerKey P r q i) := by
  match i with
  | 0 => exact .hka
  | 1 => exact .nhkb
  | i + 2 => exact .salted _ _ _ (sessionSecret_rootKey P r q i)

theorem sessionSecret_chainKey (i n : ℕ) : SessionSecret P r (chainKey P r q i n) := by
  induction n with
  | zero => exact .salted _ _ _ (sessionSecret_rootKey P r q i)
  | succ n ih => exact .unsalted _ _ ih

end Secrets

end Komms.Ratchet
