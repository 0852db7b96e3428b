import Komms.Lib.Checked

/-!
# Calls that commit more than once

A call over a state `σ` leaves a state and a result, and the state of a failed call is the one its
last commit left.  `Effect.ofExcept` is a call with one commit at its end, `Effect.inspect` one that
commits nothing; `Effect.andThen` runs a call after another one that succeeded, and `Effect.forEach`
runs one for each element of a list.
-/

namespace Komms

/-- What a call leaves behind: the state, and the result or the error it returned. -/
structure Effect (σ ε α : Type) where
  state : σ
  result : Except ε α

namespace Effect

variable {σ ε α β : Type}

/-- A call with one commit at its end changes nothing when it fails. -/
def ofExcept (s : σ) : Except ε (σ × α) → Effect σ ε α
  | .ok (s', a) => ⟨s', .ok a⟩
  | .error e => ⟨s, .error e⟩

/-- A call that only looks at the state. -/
def inspect (s : σ) (x : Except ε α) : Effect σ ε α := ⟨s, x⟩

/-- Go on from the state of a call that succeeded. -/
def andThen (x : Effect σ ε α) (f : σ → α → Effect σ ε β) : Effect σ ε β :=
  match x.result with
  | .ok a => f x.state a
  | .error e => ⟨x.state, .error e⟩

/-- Run a call for each element of a list, as long as they succeed. -/
def forEach (f : β → σ → Effect σ ε Unit) : List β → σ → Effect σ ε Unit
  | [], s => ⟨s, .ok ()⟩
  | b :: bs, s => (f b s).andThen fun s _ => forEach f bs s

/-! ### Invariants -/

variable {I : σ → Prop} {s : σ} {x : Effect σ ε α} {f : σ → α → Effect σ ε β}

theorem ofExcept_state {x : Except ε (σ × α)} (hs : I s) (h : ∀ s' a, x = .ok (s', a) → I s') :
    I (ofExcept s x).state := by
  cases hx : x with
  | error e => exact hs
  | ok r => exact h r.1 r.2 hx

theorem andThen_state (hx : I x.state) (hf : ∀ a, x.result = .ok a → I (f x.state a).state) :
    I (x.andThen f).state := by
  unfold andThen
  split
  · next a ha => exact hf a ha
  · exact hx

theorem andThen_keeps (hx : I x.state) (hf : ∀ s a, I s → I (f s a).state) :
    I (x.andThen f).state :=
  andThen_state hx fun a _ => hf x.state a hx

theorem forEach_state {f : β → σ → Effect σ ε Unit} {bs : List β} (hs : I s)
    (hf : ∀ b s, I s → I (f b s).state) : I (forEach f bs s).state := by
  induction bs generalizing s with
  | nil => exact hs
  | cons b bs ih => exact andThen_keeps (hf b s hs) fun _ _ => ih

/-! ### Results -/

@[simp] theorem ofExcept_ok (s s' : σ) (a : α) :
    ofExcept s (.ok (s', a) : Except ε (σ × α)) = ⟨s', .ok a⟩ := rfl

@[simp] theorem ofExcept_error (s : σ) (e : ε) :
    ofExcept s (.error e : Except ε (σ × α)) = ⟨s, .error e⟩ := rfl

theorem andThen_result (x : Effect σ ε α) (f : σ → α → Effect σ ε β) :
    (x.andThen f).result = x.result >>= fun a => (f x.state a).result := by
  unfold andThen
  split
  · next h => rw [h]; rfl
  · next h => rw [h]; rfl

theorem andThen_result_eq_ok_iff {b : β} :
    (x.andThen f).result = .ok b ↔ ∃ a, x.result = .ok a ∧ (f x.state a).result = .ok b := by
  rw [andThen_result, bind_eq_ok_iff]

theorem returns_ofExcept_iff {x : Except ε (σ × α)} :
    Returns (ofExcept s x).result ↔ Returns x := by
  cases x <;> simp [ofExcept]

/-- A computation of the whole outcome leaves the state when it fails. -/
theorem ofExcept_state_of_not_returns {x : Except ε (σ × α)} (h : ¬ Returns (ofExcept s x).result) :
    (ofExcept s x).state = s := by
  cases x with
  | error e => rfl
  | ok value => exact absurd (returns_ok value.2) h

theorem returns_andThen_iff :
    Returns (x.andThen f).result ↔ ∃ a, x.result = .ok a ∧ Returns (f x.state a).result := by
  rw [andThen_result, returns_bind_iff]

end Effect

end Komms
