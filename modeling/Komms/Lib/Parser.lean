import Komms.Lib.Bytes
import Komms.Lib.Checked

/-!
# Parsers over byte strings

A parser consumes a prefix of its input and returns a value and what is left, or stops with an
error.  `Reads p bytes a` says that `p` takes exactly `bytes` off the front of any input and returns
`a`; it composes along `bind`, so that a decoder follows its encoder field by field, and such an
encoding determines the value (`Reads.inj`).
-/

namespace Komms

open List

variable {ε α β : Type}

abbrev Parser (ε α : Type) := StateT Bytes (Except ε) α

namespace Parser

def take (e : ε) (n : ℕ) : Parser ε Bytes := fun bytes =>
  if n ≤ bytes.length then .ok (bytes.take n, bytes.drop n) else .error e

/-- The next `n` bytes as an array. -/
def octets (e : ε) (n : ℕ) : Parser ε (Octets n) := do
  let bytes ← take e n
  fun rest => (required e (Octets.ofBytes? n bytes)).map (·, rest)

/-- The next `w` bytes as a little-endian integer. -/
def le (e : ε) (w : ℕ) : Parser ε ℕ := do
  let bytes ← take e w
  pure (ofLeBytes bytes)

/-- The next eight bytes as a 64-bit integer. -/
def u64 (e : ε) : Parser ε UInt64 := do
  let x ← le e 8
  pure (UInt64.ofNat x)

/-- Stop with `e` when the condition `c` holds. -/
def reject (c : Prop) [Decidable c] (e : ε) : Parser ε Unit := fun rest =>
  if c then .error e else .ok ((), rest)

/-- A value that must be present. -/
def require (e : ε) (o : Option α) : Parser ε α := fun rest => (required e o).map (·, rest)

/-- Run a parser a given number of times. -/
def times (p : Parser ε α) : ℕ → Parser ε (List α)
  | 0 => pure []
  | n + 1 => do
    let a ← p
    let as ← times p n
    pure (a :: as)

end Parser

variable {p : Parser ε α} {bytes : Bytes} {a : α} {f : α → Parser ε β} {b : β} {e : ε} {n : ℕ}
  {input rest : Bytes}

/-! ### What a parser took -/

namespace Parser

theorem bind_eq_ok_iff {r : β × Bytes} :
    (p >>= f) input = .ok r ↔ ∃ a rest, p input = .ok (a, rest) ∧ f a rest = .ok r := by
  have hrun : (p >>= f) input = (p input >>= fun x => f x.1 x.2) := rfl
  rw [hrun, Komms.bind_eq_ok_iff]
  exact Prod.exists

theorem pure_eq_ok_iff {a' : α} :
    (pure a : Parser ε α) input = .ok (a', rest) ↔ a = a' ∧ input = rest := by
  have hrun : (pure a : Parser ε α) input = .ok (a, input) := rfl
  rw [hrun, Except.ok.injEq, Prod.mk.injEq]

theorem take_eq_ok_iff :
    take e n input = .ok (bytes, rest) ↔ bytes.length = n ∧ input = bytes ++ rest := by
  unfold take
  constructor
  · intro h
    split_ifs at h with hle
    cases h
    exact ⟨length_take_of_le hle, (take_append_drop n input).symm⟩
  · rintro ⟨rfl, rfl⟩
    rw [if_pos (by simp), take_left, drop_left]

theorem octets_eq_ok_iff {a : Octets n} :
    octets e n input = .ok (a, rest) ↔ input = a.toBytes ++ rest := by
  simp only [octets, bind_eq_ok_iff, take_eq_ok_iff, map_eq_ok_iff, required_eq_ok_iff,
    Octets.ofBytes?_eq_some_iff, Prod.mk.injEq]
  constructor
  · rintro ⟨_, _, ⟨-, rfl⟩, _, rfl, rfl, rfl⟩
    rfl
  · rintro rfl
    exact ⟨_, _, ⟨a.length_eq, rfl⟩, a, rfl, rfl, rfl⟩

theorem le_eq_ok_iff {w x : ℕ} :
    le e w input = .ok (x, rest) ↔ x < 256 ^ w ∧ input = leBytes w x ++ rest := by
  simp only [le, bind_eq_ok_iff, take_eq_ok_iff, pure_eq_ok_iff]
  constructor
  · rintro ⟨bytes, _, ⟨rfl, rfl⟩, rfl, rfl⟩
    exact ⟨ofLeBytes_lt bytes, by rw [leBytes_ofLeBytes]⟩
  · rintro ⟨hx, rfl⟩
    exact ⟨_, _, ⟨length_leBytes w x, rfl⟩, ofLeBytes_leBytes hx, rfl⟩

theorem u64_eq_ok_iff {x : UInt64} :
    u64 e input = .ok (x, rest) ↔ input = leBytes 8 x.toNat ++ rest := by
  simp only [u64, bind_eq_ok_iff, le_eq_ok_iff, pure_eq_ok_iff]
  constructor
  · rintro ⟨y, _, ⟨hy, rfl⟩, rfl, rfl⟩
    rw [UInt64.toNat_ofNat_of_lt' hy]
  · rintro rfl
    exact ⟨_, _, ⟨x.toNat_lt, rfl⟩, UInt64.ofNat_toNat, rfl⟩

theorem reject_eq_ok_iff {c : Prop} [Decidable c] {u : Unit} :
    reject c e input = .ok (u, rest) ↔ ¬ c ∧ input = rest := by
  unfold reject
  split_ifs with h <;> simp [h]

theorem require_eq_ok_iff {o : Option α} :
    require e o input = .ok (a, rest) ↔ o = some a ∧ input = rest := by
  simp [require, map_eq_ok_iff]

theorem times_eq_ok {encode : α → Bytes} {as : List α}
    (hp : ∀ {input a rest}, p input = .ok (a, rest) → input = encode a ++ rest)
    (h : times p n input = .ok (as, rest)) :
    as.length = n ∧ input = as.flatMap encode ++ rest := by
  induction n generalizing as input with
  | zero =>
    obtain ⟨rfl, rfl⟩ := pure_eq_ok_iff.mp h
    exact ⟨rfl, rfl⟩
  | succ n ih =>
    simp only [times, bind_eq_ok_iff, pure_eq_ok_iff] at h
    obtain ⟨a, _, ha, as, _, has, rfl, rfl⟩ := h
    obtain ⟨hlen, rfl⟩ := ih has
    exact ⟨congrArg (· + 1) hlen, by rw [hp ha, flatMap_cons, append_assoc]⟩

end Parser

/-! ### What a parser reads -/

/-- `p` takes `bytes` off any input and returns `a`. -/
def Reads (p : Parser ε α) (bytes : Bytes) (a : α) : Prop :=
  ∀ rest, p (bytes ++ rest) = .ok (a, rest)

theorem Reads.inj {b : α} (ha : Reads p bytes a) (hb : Reads p bytes b) : a = b := by
  have h := (ha []).symm.trans (hb [])
  exact (Prod.mk.inj (Except.ok.inj h)).1

theorem reads_pure (a : α) : Reads (pure a : Parser ε α) [] a := fun _ => rfl

/-- Two parsers in sequence read two encodings in sequence. -/
theorem Reads.bind {more : Bytes} (hp : Reads p bytes a) (hf : Reads (f a) more b) :
    Reads (p >>= f) (bytes ++ more) b := by
  intro rest
  rw [append_assoc]
  exact Parser.bind_eq_ok_iff.mpr ⟨a, _, hp _, hf rest⟩

/-- A parser that consumes nothing, before the rest of a decoder. -/
theorem Reads.bind_nil (hp : Reads p [] a) (hf : Reads (f a) bytes b) : Reads (p >>= f) bytes b :=
  Reads.bind hp hf

theorem Reads.bind_last (hp : Reads p bytes a) (hf : Reads (f a) [] b) :
    Reads (p >>= f) bytes b := by
  have hread := hp.bind hf
  rwa [append_nil] at hread

theorem reads_take (h : bytes.length = n) : Reads (Parser.take e n) bytes bytes := fun _ =>
  Parser.take_eq_ok_iff.mpr ⟨h, rfl⟩

theorem reads_octets (e : ε) (a : Octets n) : Reads (Parser.octets e n) a.toBytes a := fun _ =>
  Parser.octets_eq_ok_iff.mpr rfl

theorem reads_le (e : ε) {w x : ℕ} (hx : x < 256 ^ w) : Reads (Parser.le e w) (leBytes w x) x :=
  fun _ => Parser.le_eq_ok_iff.mpr ⟨hx, rfl⟩

theorem reads_u64 (e : ε) (x : UInt64) : Reads (Parser.u64 e) (leBytes 8 x.toNat) x := fun _ =>
  Parser.u64_eq_ok_iff.mpr rfl

theorem reads_reject {c : Prop} [Decidable c] (h : ¬ c) : Reads (Parser.reject c e) [] () :=
  fun _ =>
  Parser.reject_eq_ok_iff.mpr ⟨h, rfl⟩

theorem reads_require : Reads (Parser.require e (some a)) [] a := fun _ => rfl

theorem reads_times {encode : α → Bytes} {as : List α} (h : ∀ a ∈ as, Reads p (encode a) a) :
    Reads (Parser.times p as.length) (as.flatMap encode) as := by
  induction as with
  | nil => exact reads_pure []
  | cons a as ih =>
    have htail := ih fun x hx => h x (mem_cons_of_mem a hx)
    exact (h a mem_cons_self).bind (htail.bind_last (reads_pure (a :: as)))

end Komms
