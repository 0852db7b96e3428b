import Komms.Lib.Bytes

/-!
# Ideal symmetric cryptography

Key derivation, authenticated encryption, Diffie–Hellman and key encapsulation as parameters, each
with the law an ideal implementation obeys.  Keys form an arbitrary type: a collision-free
derivation function has no model on 32-byte strings, so an ideal key is a symbol and not a bit
pattern.

* `Hkdf.Ideal`: different derivation inputs never meet.
* `Aead.Ideal`, `Aead.Unforged`: a box opens to its plaintext under what it was sealed with only,
  and every box that opens is in the log of what was sealed.
* `Kem.Correct`: what is encapsulated to a key is decapsulated with its other half.
-/

namespace Komms

/-! ### Key derivation -/

/-- HKDF: `block salt ikm info i` is the `i`-th 32-byte block of the output keying material. -/
structure Hkdf (Key : Type) where
  block : Option Key → Key → Bytes → ℕ → Key

/-- An ideal HKDF has no collisions. -/
structure Hkdf.Ideal {Key : Type} (H : Hkdf Key) : Prop where
  block_inj : ∀ {salt salt' ikm ikm' info info' i i'},
    H.block salt ikm info i = H.block salt' ikm' info' i' →
      salt = salt' ∧ ikm = ikm' ∧ info = info' ∧ i = i'

section Chains

variable {α β : Type} {f : α → β → α} {x y : ℕ → α} {d e : ℕ → β}

/-- Two chains `x (n + 1) = f (x n) (d n)` through an injective step, started outside its range,
meet only at equal depths, and only when they start at the same value. -/
theorem chain_index_eq (hf : ∀ {a a' b b'}, f a b = f a' b' → a = a' ∧ b = b')
    (hx : ∀ n, x (n + 1) = f (x n) (d n)) (hy : ∀ n, y (n + 1) = f (y n) (e n))
    (hx0 : ∀ a b, x 0 ≠ f a b) (hy0 : ∀ a b, y 0 ≠ f a b) {i j : ℕ} (h : x i = y j) :
    i = j ∧ x 0 = y 0 := by
  induction i generalizing j with
  | zero =>
    cases j with
    | zero => exact ⟨rfl, h⟩
    | succ j => exact absurd (h.trans (hy j)) (hx0 _ _)
  | succ i ih =>
    cases j with
    | zero => exact absurd (h.symm.trans (hx i)) (hy0 _ _)
    | succ j =>
      rw [hx, hy] at h
      obtain ⟨hij, h0⟩ := ih (hf h).1
      exact ⟨by rw [hij], h0⟩

end Chains

/-! ### Diffie–Hellman -/

/-- A Diffie–Hellman group: private keys, public keys and shared secrets. -/
structure DiffieHellman (Priv Pub Shared : Type) where
  publicKey : Priv → Pub
  shared : Priv → Pub → Shared

/-- Both ends of an exchange compute the same secret. -/
def DiffieHellman.Commutes {Priv Pub Shared : Type} (D : DiffieHellman Priv Pub Shared) : Prop :=
  ∀ a b, D.shared a (D.publicKey b) = D.shared b (D.publicKey a)

/-! ### Key encapsulation -/

/-- A key encapsulation mechanism; `Coins` is the randomness of an encapsulation. -/
structure Kem (Ek Dk Ct Shared Coins : Type) where
  encapsulate : Ek → Coins → Option (Ct × Shared)
  decapsulate : Dk → Ct → Option Shared

/-- The mechanism is correct for the key pair `(dk, ek)`. -/
def Kem.Correct {Ek Dk Ct Shared Coins : Type} (M : Kem Ek Dk Ct Shared Coins) (dk : Dk) (ek : Ek) :
    Prop :=
  ∀ coins, ∃ ct shared, M.encapsulate ek coins = some (ct, shared) ∧
    M.decapsulate dk ct = some shared

/-! ### Authenticated encryption -/

/-- Authenticated encryption with associated data. -/
structure Aead (Key Nonce Ad Box : Type) where
  encrypt : Key → Nonce → Ad → Bytes → Box
  decrypt : Key → Nonce → Ad → Box → Option Bytes

namespace Aead

variable {Key Nonce Ad Box : Type}

/-- An ideal AEAD inverts its own ciphertexts, and each of them opens under one key, nonce and
associated data only. -/
structure Ideal (A : Aead Key Nonce Ad Box) : Prop where
  decrypt_encrypt : ∀ k n ad pt, A.decrypt k n ad (A.encrypt k n ad pt) = some pt
  binding : ∀ {k k' n n' ad ad' pt pt'},
    A.decrypt k' n' ad' (A.encrypt k n ad pt) = some pt' → k' = k ∧ n' = n ∧ ad' = ad

/-- One use of the sealing function. -/
structure Sealing (Key Nonce Ad : Type) where
  key : Key
  nonce : Nonce
  ad : Ad
  plaintext : Bytes

/-- **Ciphertext integrity**: under a secret key the box opens only as something already
sealed. -/
def Unforged (A : Aead Key Nonce Ad Box) (secret : Key → Prop)
    (log : List (Sealing Key Nonce Ad)) (nonce : Nonce) (box : Box) : Prop :=
  ∀ k ad pt, secret k → A.decrypt k nonce ad box = some pt →
    (⟨k, nonce, ad, pt⟩ : Sealing Key Nonce Ad) ∈ log ∧ box = A.encrypt k nonce ad pt

variable {A : Aead Key Nonce Ad Box}

theorem Ideal.encrypt_inj (hA : A.Ideal) {k k' n n' ad ad' pt pt'}
    (h : A.encrypt k n ad pt = A.encrypt k' n' ad' pt') :
    k = k' ∧ n = n' ∧ ad = ad' ∧ pt = pt' := by
  have hopen : A.decrypt k n ad (A.encrypt k' n' ad' pt') = some pt := by
    rw [← h]
    exact hA.decrypt_encrypt k n ad pt
  obtain ⟨rfl, rfl, rfl⟩ := hA.binding hopen
  rw [hA.decrypt_encrypt] at hopen
  exact ⟨rfl, rfl, rfl, (Option.some.inj hopen).symm⟩

theorem Ideal.decrypt_of_ne (hA : A.Ideal) {k k' n n' ad ad' pt} (hk : k' ≠ k) :
    A.decrypt k' n' ad' (A.encrypt k n ad pt) = none := by
  by_contra h
  obtain ⟨_, hpt'⟩ := Option.ne_none_iff_exists'.mp h
  exact hk (hA.binding hpt').1

/-- A box that was sealed and is in the log is unforged, whatever keys are secret. -/
theorem Ideal.unforged_of_mem (hA : A.Ideal) {secret : Key → Prop}
    {log : List (Sealing Key Nonce Ad)} {k : Key} {n : Nonce} {ad : Ad} {pt : Bytes}
    (hlog : ⟨k, n, ad, pt⟩ ∈ log) (n' : Nonce) :
    A.Unforged secret log n' (A.encrypt k n ad pt) := by
  intro k' ad' pt' _ hopen
  obtain ⟨rfl, rfl, rfl⟩ := hA.binding hopen
  rw [hA.decrypt_encrypt] at hopen
  cases hopen
  exact ⟨hlog, rfl⟩

end Aead

end Komms
