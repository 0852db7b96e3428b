import Mathlib.Algebra.Group.Nat.Defs
import Mathlib.Data.List.Forall2

/-!
# Checked computations

A validator is a computation in `Except` that stops at its first failed check.  A check is written
`rejectIf c e`: stop with the error `e` when `c` holds.

* `bind_eq_ok_iff`, `check_bind_eq_ok_iff`, `rejectIf_bind_eq_ok_iff`: what a computation that ran
  to its end has passed.
* `Returns`, `returns_bind_iff`: when a computation runs to its end.
* `forEach_eq_ok_iff`, `collectEach_eq_ok_iff`, `forEachDistinct_eq_ok`: loops over a list.
-/

namespace Komms

open List Except

variable {ε α β : Type}

/-- Stop with `e` when the condition `c` holds. -/
def rejectIf (c : Prop) [Decidable c] (e : ε) : Except ε Unit :=
  if c then .error e else .ok ()

variable {x : Except ε α} {f : α → Except ε β} {b : β} {c : Prop} {e e' : ε} {γ ε' σ : Type} {a : α}
  {check : α → Except ε Unit} {xs : List α} {o : Option α} {step : σ → α → Except ε σ} {s : σ}

/-- A sequence of computations returned a value only if each of them did. -/
theorem bind_eq_ok_iff : (x >>= f) = .ok b ↔ ∃ a, x = .ok a ∧ f a = .ok b := by
  cases x <;> simp [bind, Except.bind]

theorem check_bind_eq_ok_iff {x : Except ε Unit} {f : Unit → Except ε β} :
    (x >>= f) = .ok b ↔ x = .ok () ∧ f () = .ok b := by
  rw [bind_eq_ok_iff]
  constructor
  · rintro ⟨⟨⟩, hx, hf⟩
    exact ⟨hx, hf⟩
  · rintro ⟨hx, hf⟩
    exact ⟨(), hx, hf⟩

/-- A computation that returns the state it started with keeps what holds of it. -/
theorem holds_of_ok_eq {I : σ → Prop} {s s' : σ} {a b : α} (hs : I s)
    (h : (.ok (s, a) : Except ε (σ × α)) = .ok (s', b)) : I s' :=
  (Prod.mk.inj (ok.inj h)).1 ▸ hs

@[simp] theorem rejectIf_eq_ok_iff [Decidable c] {u : Unit} : rejectIf c e = .ok u ↔ ¬ c := by
  unfold rejectIf
  split_ifs with h <;> simp [h]

theorem rejectIf_bind_eq_ok_iff [Decidable c] {f : Unit → Except ε β} :
    (rejectIf c e >>= f) = .ok b ↔ ¬ c ∧ f () = .ok b := by
  rw [check_bind_eq_ok_iff, rejectIf_eq_ok_iff]

theorem rejectIf_bind_of_not [Decidable c] {f : Unit → Except ε β} (h : ¬ c) :
    (rejectIf c e >>= f) = f () := by
  unfold rejectIf
  rw [if_neg h]
  rfl

theorem error_bind (e : ε) (f : α → Except ε β) : (Except.error e >>= f) = .error e :=
  rfl

theorem bind_map (x : Except ε α) (f : α → Except ε β) (g : β → γ) :
    (x >>= f).map g = x >>= fun a => (f a).map g := by
  cases x <;> rfl

theorem map_bind (x : Except ε α) (g : α → β) (f : β → Except ε γ) :
    x.map g >>= f = x >>= fun a => f (g a) := by
  cases x <;> rfl

theorem ok_bind (a : α) (f : α → Except ε β) : (Except.ok a >>= f) = f a := rfl

theorem map_eq_ok_iff {f : α → β} : x.map f = .ok b ↔ ∃ a, x = .ok a ∧ f a = b := by
  cases x <;> simp [Except.map]

theorem mapError_eq_ok_iff {f : ε → ε'} : x.mapError f = .ok a ↔ x = .ok a := by
  cases x <;> simp [Except.mapError]

/-! ### Loops -/

/-- Run a check on each element of a list, in order. -/
def forEach (check : α → Except ε Unit) : List α → Except ε Unit
  | [] => .ok ()
  | x :: xs => do
    check x
    forEach check xs

theorem forEach_eq_ok_iff : forEach check xs = .ok () ↔ ∀ x ∈ xs, check x = .ok () := by
  induction xs with
  | nil => simp [forEach]
  | cons x xs ih => simp [forEach, check_bind_eq_ok_iff, ih]

/-- Check each element of a list, and that no two of them have the same key. -/
def forEachDistinct {κ : Type} [DecidableEq κ] (key : α → Except ε κ) (e : ε) (bad : κ → α → Bool) :
    List κ → List α → Except ε Unit
  | _, [] => .ok ()
  | seen, a :: as => do
    let k ← key a
    rejectIf (k ∈ seen ∨ bad k a = true) e
    forEachDistinct key e bad (k :: seen) as

theorem forEachDistinct_eq_ok {κ : Type} [DecidableEq κ] {key : α → Except ε κ}
    {bad : κ → α → Bool} {f : α → κ} (hf : ∀ a k, key a = .ok k → f a = k) {seen : List κ}
    {as : List α} (h : forEachDistinct key e bad seen as = .ok ()) :
    (∀ a ∈ as, key a = .ok (f a) ∧ bad (f a) a = false ∧ f a ∉ seen) ∧ (as.map f).Nodup := by
  induction as generalizing seen with
  | nil => exact ⟨fun a ha => (not_mem_nil ha).elim, nodup_nil⟩
  | cons a as ih =>
    obtain ⟨k, hk, h⟩ := bind_eq_ok_iff.mp h
    rw [rejectIf_bind_eq_ok_iff, not_or] at h
    obtain ⟨⟨hseen, hbad⟩, h⟩ := h
    obtain rfl := hf a k hk
    obtain ⟨hall, hnd⟩ := ih h
    refine ⟨forall_mem_cons.mpr ⟨⟨hk, by simpa using hbad, hseen⟩, fun b hb => ?_⟩, ?_⟩
    · obtain ⟨hkey, hb', hnot⟩ := hall b hb
      exact ⟨hkey, hb', fun hmem => hnot (.tail _ hmem)⟩
    · rw [map_cons, nodup_cons]
      refine ⟨fun hmem => ?_, hnd⟩
      obtain ⟨b, hb, heq⟩ := mem_map.mp hmem
      exact (hall b hb).2.2 (heq ▸ .head _)

/-- Run a computation on each element of a list, in order, and collect what it returns. -/
def mapEach (f : α → Except ε β) : List α → Except ε (List β)
  | [] => .ok []
  | x :: xs => do
    let y ← f x
    let ys ← mapEach f xs
    .ok (y :: ys)

/-- The same, of computations that may return nothing. -/
def collectEach (f : α → Except ε (Option β)) : List α → Except ε (List β)
  | [] => .ok []
  | x :: xs => do
    let y ← f x
    let ys ← collectEach f xs
    .ok (y.toList ++ ys)

/-- A value that must be present. -/
def required (e : ε) : Option α → Except ε α
  | some a => .ok a
  | none => .error e

@[simp] theorem required_eq_ok_iff : required e o = .ok a ↔ o = some a := by
  cases o <;> simp [required]

/-! ### Computations that return -/

/-- The computation runs to its end. -/
def Returns (x : Except ε α) : Prop := ∃ a, x = .ok a

instance : (x : Except ε α) → Decidable (Returns x)
  | .ok a => isTrue ⟨a, rfl⟩
  | .error _ => isFalse fun ⟨_, h⟩ => nomatch h

@[simp] theorem returns_ok (a : α) : Returns (.ok a : Except ε α) := ⟨a, rfl⟩

@[simp] theorem not_returns_error (e : ε) : ¬ Returns (.error e : Except ε α) :=
  fun ⟨_, h⟩ => nomatch h

theorem returns_bind_iff : Returns (x >>= f) ↔ ∃ a, x = .ok a ∧ Returns (f a) := by
  simp only [Returns, bind_eq_ok_iff]
  exact ⟨fun ⟨b, a, hx, hf⟩ => ⟨a, hx, b, hf⟩, fun ⟨a, hx, b, hf⟩ => ⟨b, a, hx, hf⟩⟩

/-- A sequence whose second part runs to its end or not whatever the first gives. -/
theorem returns_bind_and_iff {Q : Prop} (h : ∀ a, x = .ok a → (Returns (f a) ↔ Q)) :
    Returns (x >>= f) ↔ Returns x ∧ Q := by
  rw [returns_bind_iff]
  exact ⟨fun ⟨a, hx, hf⟩ => ⟨⟨a, hx⟩, (h a hx).mp hf⟩,
    fun ⟨⟨a, hx⟩, hq⟩ => ⟨a, hx, (h a hx).mpr hq⟩⟩

theorem returns_bind_of_forall (hf : ∀ a, Returns (f a)) : Returns (x >>= f) ↔ Returns x := by
  rw [returns_bind_iff]
  exact ⟨fun ⟨a, hx, _⟩ => ⟨a, hx⟩, fun ⟨a, hx⟩ => ⟨a, hx, hf a⟩⟩

theorem returns_check_bind_iff {x : Except ε Unit} {f : Unit → Except ε β} :
    Returns (x >>= f) ↔ Returns x ∧ Returns (f ()) :=
  returns_bind_and_iff fun _ _ => .rfl

@[simp] theorem returns_mapError_iff {f : ε → ε'} : Returns (x.mapError f) ↔ Returns x := by
  cases x <;> simp [Except.mapError]

theorem collectEach_eq_ok_iff {f : α → Except ε (Option β)} {ys : List β} :
    collectEach f xs = .ok ys ↔
      (∀ x ∈ xs, Returns (f x)) ∧ ys = xs.filterMap fun x => (f x).toOption.join := by
  induction xs generalizing ys with
  | nil => simp [collectEach, eq_comm]
  | cons x xs ih =>
    rw [collectEach]
    cases hx : f x with
    | error e => simp [hx, bind, Except.bind]
    | ok y =>
      simp only [ok_bind, bind_eq_ok_iff, ih, ok.injEq, forall_mem_cons, hx, returns_ok, true_and]
      cases y <;> simp [hx, Except.toOption, eq_comm]

/-! Loops that pass a state on, `List.foldlM`. -/

/-- A loop whose steps succeed or fail whatever the state is. -/
theorem returns_foldlM_iff {P : α → Prop} (h : ∀ s a, Returns (step s a) ↔ P a) :
    Returns (xs.foldlM step s) ↔ ∀ x ∈ xs, P x := by
  induction xs generalizing s with
  | nil => simp [pure, Except.pure]
  | cons x xs ih =>
    rw [foldlM_cons, forall_mem_cons, ← h s x]
    exact returns_bind_and_iff fun _ _ => ih

theorem foldlM_invariant {I : σ → Prop} (hstep : ∀ s a s', step s a = .ok s' → I s → I s')
    {s' : σ} (h : xs.foldlM step s = .ok s') (hs : I s) : I s' := by
  induction xs generalizing s with
  | nil =>
    cases h
    exact hs
  | cons x xs ih =>
    rw [foldlM_cons, bind_eq_ok_iff] at h
    obtain ⟨s₁, h₁, hrest⟩ := h
    exact ih hrest (hstep s x s₁ h₁ hs)

@[simp] theorem returns_rejectIf_iff [Decidable c] : Returns (rejectIf c e) ↔ ¬ c := by
  simp [Returns]

@[simp] theorem returns_required_iff : Returns (required e o) ↔ o.isSome = true := by
  cases o <;> simp [required]

/-! ### Errors that are not raised -/

theorem bind_ne_error (hx : x ≠ .error e) (hf : ∀ a, f a ≠ .error e) : (x >>= f) ≠ .error e := by
  cases x with
  | error e' => exact fun h => hx (congrArg Except.error (error.inj h))
  | ok a => exact hf a

theorem rejectIf_ne_error [Decidable c] (h : e' ≠ e) : rejectIf c e' ≠ .error e := by
  unfold rejectIf
  split_ifs
  · exact fun heq => h (error.inj heq)
  · exact nofun

theorem required_ne_error (h : e' ≠ e) : required e' o ≠ .error e := by
  cases o with
  | none => exact fun heq => h (error.inj heq)
  | some a => exact nofun

theorem forEach_ne_error (h : ∀ x, check x ≠ .error e) : forEach check xs ≠ .error e := by
  induction xs with
  | nil => exact nofun
  | cons x xs ih => exact bind_ne_error (h x) fun _ => ih

/-! ### Checked arithmetic -/

/-- `x.checked_add(1)` on a 64-bit integer. -/
def checkedSucc (x : UInt64) : Option UInt64 :=
  if x.toNat + 1 < 2 ^ 64 then some (x + 1) else none

theorem checkedSucc_eq_some_iff {x y : UInt64} :
    checkedSucc x = some y ↔ y.toNat = x.toNat + 1 := by
  unfold checkedSucc
  split_ifs with h
  · rw [Option.some.injEq, ← UInt64.toNat_inj, UInt64.toNat_add]
    have hmod : (x.toNat + (1 : UInt64).toNat) % 2 ^ 64 = x.toNat + 1 := Nat.mod_eq_of_lt h
    rw [hmod]
    exact eq_comm
  · have hy := y.toNat_lt
    simp only [false_iff]
    omega

theorem exists_checkedSucc {x : UInt64} (h : x.toNat + 1 < 2 ^ 64) : ∃ y, checkedSucc x = some y :=
  ⟨x + 1, if_pos h⟩

end Komms
