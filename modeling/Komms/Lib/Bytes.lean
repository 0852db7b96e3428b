import Mathlib.Data.List.Lex
import Mathlib.Tactic.Ring

/-!
# Byte strings and little-endian integers

Byte strings are lists of bytes; a fixed-size array is a byte string that carries its length
(`Octets`), ordered lexicographically.  Integers travel in little-endian order: `leBytes w x` writes
the `w` low bytes of `x` and `ofLeBytes` reads them back.
-/

namespace Komms

abbrev Bytes := List UInt8

def ascii (s : String) : Bytes := s.toList.map fun c => UInt8.ofNat c.toNat

/-! ### Fixed-size arrays -/

/-- An array of exactly `n` bytes. -/
structure Octets (n : ℕ) where
  toBytes : Bytes
  length_eq : toBytes.length = n
  deriving DecidableEq

namespace Octets

variable {n : ℕ}

@[ext] theorem ext {a b : Octets n} (h : a.toBytes = b.toBytes) : a = b := by
  cases a; cases b; cases h; rfl

@[simp] theorem length_toBytes (a : Octets n) : a.toBytes.length = n := a.length_eq

def replicate (n : ℕ) (b : UInt8) : Octets n := ⟨List.replicate n b, List.length_replicate⟩

/-- The all-zero array, the value the wire formats reserve for "absent". -/
def zero (n : ℕ) : Octets n := replicate n 0

def ofBytes? (n : ℕ) (bs : Bytes) : Option (Octets n) :=
  if h : bs.length = n then some ⟨bs, h⟩ else none

@[simp] theorem ofBytes?_toBytes (a : Octets n) : ofBytes? n a.toBytes = some a := by
  unfold ofBytes?
  rw [dif_pos a.length_eq]

theorem ofBytes?_eq_some_iff {bs : Bytes} {a : Octets n} :
    ofBytes? n bs = some a ↔ a.toBytes = bs := by
  constructor
  · intro h
    unfold ofBytes? at h
    split_ifs at h
    exact (Option.some.inj h) ▸ rfl
  · rintro rfl
    exact ofBytes?_toBytes a

instance decidableMem (a : Octets n) (l : List (Octets n)) : Decidable (a ∈ l) := inferInstance

/-- Arrays are compared byte by byte, the first difference deciding. -/
instance : LinearOrder (Octets n) :=
  LinearOrder.lift' (fun a => a.toBytes.map UInt8.toNat) fun _ _ h =>
    ext (List.map_injective_iff.mpr (fun _ _ => UInt8.toNat_inj.mp) h)

end Octets

/-! ### Little-endian integers -/

/-- The `w` low bytes of `x`, least significant first. -/
def leBytes : ℕ → ℕ → Bytes
  | 0, _ => []
  | w + 1, x => UInt8.ofNat x :: leBytes w (x / 256)

/-- The number a little-endian byte string stands for. -/
def ofLeBytes : Bytes → ℕ
  | [] => 0
  | b :: bs => b.toNat + 256 * ofLeBytes bs

@[simp] theorem length_leBytes (w x : ℕ) : (leBytes w x).length = w := by
  induction w generalizing x with
  | zero => rfl
  | succ w ih => simp [leBytes, ih]

/-- An integer in an array of a given width. -/
def Octets.ofLe (w x : ℕ) : Octets w := ⟨leBytes w x, length_leBytes w x⟩

theorem ofLeBytes_leBytes {w x : ℕ} (hx : x < 256 ^ w) : ofLeBytes (leBytes w x) = x := by
  induction w generalizing x with
  | zero =>
    have : x = 0 := by simpa using hx
    rw [this]
    rfl
  | succ w ih =>
    have hq : x / 256 < 256 ^ w := by
      rw [Nat.div_lt_iff_lt_mul (by decide)]
      rwa [pow_succ] at hx
    have hb : (UInt8.ofNat x).toNat = x % 256 := by simp
    rw [leBytes, ofLeBytes, ih hq, hb]
    omega

theorem ofLeBytes_lt (bs : Bytes) : ofLeBytes bs < 256 ^ bs.length := by
  induction bs with
  | nil => exact Nat.one_pos
  | cons b bs ih =>
    have hb := b.toNat_lt
    rw [ofLeBytes, List.length_cons, pow_succ]
    omega

theorem leBytes_ofLeBytes (bs : Bytes) : leBytes bs.length (ofLeBytes bs) = bs := by
  induction bs with
  | nil => rfl
  | cons b bs ih =>
    have hb := b.toNat_lt
    have hlow : UInt8.ofNat (b.toNat + 256 * ofLeBytes bs) = b := by
      rw [← UInt8.toNat_inj, UInt8.toNat_ofNat']
      omega
    have hhigh : (b.toNat + 256 * ofLeBytes bs) / 256 = ofLeBytes bs := by omega
    rw [ofLeBytes, List.length_cons, leBytes, hlow, hhigh, ih]

theorem leBytes_inj {w x y : ℕ} (hx : x < 256 ^ w) (hy : y < 256 ^ w)
    (h : leBytes w x = leBytes w y) : x = y := by
  rw [← ofLeBytes_leBytes hx, h, ofLeBytes_leBytes hy]

/-! ### Fields in front of others -/

section Fields

variable {α : Type} {r s x y : Bytes}

theorem append_inj_iff_of_length (hlen : x.length = y.length) :
    x ++ r = y ++ s ↔ x = y ∧ r = s :=
  ⟨fun h => List.append_inj h hlen, fun ⟨hx, hr⟩ => hx ▸ hr ▸ rfl⟩

theorem Octets.append_inj_iff {n : ℕ} {a b : Octets n} :
    a.toBytes ++ r = b.toBytes ++ s ↔ a = b ∧ r = s := by
  rw [append_inj_iff_of_length (by simp), Octets.ext_iff]

theorem leBytes_append_inj_iff {w m n : ℕ} (hm : m < 256 ^ w) (hn : n < 256 ^ w) :
    leBytes w m ++ r = leBytes w n ++ s ↔ m = n ∧ r = s := by
  rw [append_inj_iff_of_length (by simp)]
  exact and_congr_left fun _ => ⟨leBytes_inj hm hn, congrArg _⟩

theorem u64_append_inj_iff {a b : UInt64} :
    leBytes 8 a.toNat ++ r = leBytes 8 b.toNat ++ s ↔ a = b ∧ r = s := by
  rw [leBytes_append_inj_iff a.toNat_lt b.toNat_lt, UInt64.toNat_inj]

/-- A string behind its length. -/
theorem lengthPrefixed_inj {w : ℕ} (hx : x.length < 256 ^ w) (hy : y.length < 256 ^ w)
    (h : leBytes w x.length ++ (x ++ r) = leBytes w y.length ++ (y ++ s)) : x = y ∧ r = s := by
  obtain ⟨hlen, h⟩ := (leBytes_append_inj_iff hx hy).mp h
  exact List.append_inj h hlen

/-- A presence byte, and the value if there is one. -/
theorem presence_inj {f : α → Bytes} {g : Option α → Bytes} {o o' : Option α}
    (hnone : g none = [0]) (hsome : ∀ a, g (some a) = 1 :: f a)
    (hf : ∀ a ∈ o, ∀ b ∈ o', f a ++ r = f b ++ s → a = b ∧ r = s) (h : g o ++ r = g o' ++ s) :
    o = o' ∧ r = s := by
  rcases o with _ | a <;> rcases o' with _ | b <;> simp only [hnone, hsome] at h <;>
    obtain ⟨htag, h⟩ := List.cons.inj h
  · exact ⟨rfl, h⟩
  · cases htag
  · cases htag
  · exact (hf a rfl b rfl h).imp_left (congrArg some)

/-- As many rows, one behind the other. -/
theorem flatMap_inj {f : α → Bytes} {as bs : List α}
    (hf : ∀ a ∈ as, ∀ b ∈ bs, ∀ {r s}, f a ++ r = f b ++ s → a = b ∧ r = s)
    (hlen : as.length = bs.length) (h : as.flatMap f ++ r = bs.flatMap f ++ s) :
    as = bs ∧ r = s := by
  induction as generalizing bs with
  | nil =>
    obtain rfl := List.length_eq_zero_iff.mp hlen.symm
    exact ⟨rfl, h⟩
  | cons a as ih =>
    cases bs with
    | nil => cases hlen
    | cons b bs =>
      rw [List.flatMap_cons, List.flatMap_cons, List.append_assoc, List.append_assoc] at h
      obtain ⟨hhead, h⟩ := hf a (.head _) b (.head _) h
      have htail := ih (fun x hx y hy => hf x (.tail _ hx) y (.tail _ hy)) (Nat.succ.inj hlen) h
      exact htail.imp_left (congrArg₂ _ hhead)

end Fields

/-! ### UTF-8 -/

def byteIn (lo hi b : UInt8) : Bool := lo ≤ b && b ≤ hi

/-- Well-formed UTF-8, sequence by sequence: the first byte fixes the length and the range of the
second byte. -/
def validUtf8 : Bytes → Bool
  | [] => true
  | a :: rest =>
    if a < 0x80 then validUtf8 rest
    else match rest with
      | [] => false
      | b :: rest =>
        if byteIn 0xC2 0xDF a then byteIn 0x80 0xBF b && validUtf8 rest
        else match rest with
          | [] => false
          | c :: rest =>
            if byteIn 0xE0 0xEF a then
              byteIn (if a = 0xE0 then 0xA0 else 0x80) (if a = 0xED then 0x9F else 0xBF) b &&
                byteIn 0x80 0xBF c && validUtf8 rest
            else match rest with
              | [] => false
              | d :: rest =>
                byteIn 0xF0 0xF4 a &&
                  byteIn (if a = 0xF0 then 0x90 else 0x80) (if a = 0xF4 then 0x8F else 0xBF) b &&
                  byteIn 0x80 0xBF c && byteIn 0x80 0xBF d && validUtf8 rest

/-- A string, as its UTF-8 bytes. -/
structure Utf8 where
  bytes : Bytes
  valid : validUtf8 bytes = true
  deriving DecidableEq

def Utf8.ofBytes? (bytes : Bytes) : Option Utf8 :=
  if h : validUtf8 bytes = true then some ⟨bytes, h⟩ else none

theorem Utf8.ofBytes?_eq_some_iff {bytes : Bytes} {s : Utf8} :
    Utf8.ofBytes? bytes = some s ↔ bytes = s.bytes := by
  constructor
  · intro h
    unfold Utf8.ofBytes? at h
    split_ifs at h
    exact (Option.some.inj h) ▸ rfl
  · rintro rfl
    unfold Utf8.ofBytes?
    rw [dif_pos s.valid]

end Komms
