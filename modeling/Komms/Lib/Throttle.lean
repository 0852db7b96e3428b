import Mathlib.Data.List.Basic

/-!
# Throttles

Two ways to bound how often something happens under a clock that does not go back.

* A `Window` counts events within one period and starts again with the next one.  `Metered` says
  that a table of windows accounts for a list of events: no period had more than `limit` events of
  one key.
* A table of deadlines keeps two events of one key apart.  `Spaced` says that it does so for a list
  of events.

Both are kept when time passes and when an event is let through.  The lists hold the latest event
first.
-/

namespace Komms

open List

/-! ### Events counted by period -/

structure Window where
  period : ℕ
  count : ℕ
  deriving DecidableEq

namespace Window

/-- The window to count in: the one that is there when it is of this period, else a new one. -/
def roll (cell : Option Window) (period : ℕ) : Window :=
  match cell with
  | some window => if window.period ≠ period then ⟨period, 0⟩ else window
  | none => ⟨period, 0⟩

/-- How many events of a period a cell has counted. -/
def hits (cell : Option Window) (period : ℕ) : ℕ := (roll cell period).count

theorem period_roll (cell : Option Window) (period : ℕ) : (roll cell period).period = period := by
  unfold roll
  split
  · split_ifs with h
    · rfl
    · exact not_not.mp h
  · rfl

@[simp] theorem hits_none (period : ℕ) : hits none period = 0 := rfl

theorem hits_some_of_eq {window : Window} {period : ℕ} (h : window.period = period) :
    hits (some window) period = window.count := by
  show (if window.period ≠ period then ⟨period, 0⟩ else window).count = window.count
  rw [if_neg (not_not.mpr h)]

theorem hits_some_of_ne {window : Window} {period : ℕ} (h : window.period ≠ period) :
    hits (some window) period = 0 := by
  show (if window.period ≠ period then ⟨period, 0⟩ else window).count = 0
  rw [if_pos h]

theorem hits_roll (cell : Option Window) (period : ℕ) :
    hits (some (roll cell period)) period = hits cell period :=
  hits_some_of_eq (period_roll cell period)

theorem hits_roll_succ (cell : Option Window) (period : ℕ) :
    hits (some ⟨(roll cell period).period, (roll cell period).count + 1⟩) period =
      hits cell period + 1 := by
  rw [hits_some_of_eq]
  · rfl
  · exact period_roll cell period

end Window

section

open Window

variable {κ : Type} [DecidableEq κ] {cells cells' : κ → Option Window} {limit period period' : ℕ}
  {events : List (κ × ℕ)}

/-- Windows that account for events, each given by its key and its period. -/
structure Metered (cells : κ → Option Window) (limit period : ℕ) (events : List (κ × ℕ)) :
    Prop where
  past : ∀ event ∈ events, event.2 ≤ period
  bounded : ∀ event, events.count event ≤ limit
  counted : ∀ key, events.count (key, period) ≤ hits (cells key) period

theorem Metered.nil : Metered cells limit period [] :=
  ⟨nofun, fun _ => Nat.zero_le _, fun _ => Nat.zero_le _⟩

theorem Metered.advance (h : Metered cells limit period events) (hper : period ≤ period')
    (hcell : ∀ key, hits (cells key) period' ≤ hits (cells' key) period') :
    Metered cells' limit period' events := by
  refine ⟨fun event he => Nat.le_trans (h.past event he) hper, h.bounded, fun key => ?_⟩
  rcases Nat.eq_or_lt_of_le hper with rfl | hlt
  · exact Nat.le_trans (h.counted key) (hcell key)
  · -- nothing has happened in a period that has just begun
    have hnone : events.count (key, period') = 0 := by
      rw [count_eq_zero]
      intro hmem
      exact absurd (h.past _ hmem) (Nat.not_le.mpr hlt)
    rw [hnone]
    exact Nat.zero_le _

theorem Metered.record (h : Metered cells limit period events) {key : κ}
    (hroom : hits (cells key) period < limit)
    (hkey : hits (cells key) period < hits (cells' key) period)
    (hcell : ∀ key, hits (cells key) period ≤ hits (cells' key) period) :
    Metered cells' limit period ((key, period) :: events) := by
  have hcnt : events.count (key, period) ≤ hits (cells key) period := h.counted key
  refine ⟨forall_mem_cons.mpr ⟨Nat.le_refl _, h.past⟩, fun event => ?_, fun k => ?_⟩
  · by_cases heven : event = (key, period)
    · rw [heven, count_cons_self]
      omega
    · rw [count_cons_of_ne (Ne.symm heven)]
      exact h.bounded event
  · by_cases hk : k = key
    · rw [hk, count_cons_self]
      omega
    · have hne : (key, period) ≠ (k, period) := fun heq => hk (congrArg Prod.fst heq).symm
      rw [count_cons_of_ne hne]
      exact Nat.le_trans (h.counted k) (hcell k)

end

/-! ### Events kept apart -/

section

variable {κ : Type} {deadlines deadlines' : κ → Option ℕ} {gap time time' : ℕ}
  {events : List (κ × ℕ)}

/-- Deadlines that account for events, each given by its key and its time. -/
structure Spaced (deadlines : κ → Option ℕ) (gap time : ℕ) (events : List (κ × ℕ)) : Prop where
  past : ∀ event ∈ events, event.2 ≤ time
  apart : events.Pairwise fun later earlier => later.1 = earlier.1 → earlier.2 + gap ≤ later.2
  held : ∀ event ∈ events,
    event.2 + gap ≤ time ∨ ∃ deadline, deadlines event.1 = some deadline ∧ event.2 + gap ≤ deadline

theorem Spaced.nil : Spaced deadlines gap time [] :=
  ⟨nofun, .nil, nofun⟩

theorem Spaced.advance (h : Spaced deadlines gap time events) (htime : time ≤ time')
    (hkept : ∀ key deadline, deadlines key = some deadline →
      deadlines' key = some deadline ∨ deadline ≤ time') :
    Spaced deadlines' gap time' events := by
  refine ⟨fun event he => Nat.le_trans (h.past event he) htime, h.apart, fun event he => ?_⟩
  rcases h.held event he with hover | ⟨deadline, hdead, hle⟩
  · exact .inl (Nat.le_trans hover htime)
  · rcases hkept _ _ hdead with hsame | hend
    · exact .inr ⟨deadline, hsame, hle⟩
    · exact .inl (Nat.le_trans hle hend)

theorem Spaced.record (h : Spaced deadlines gap time events) {key : κ}
    (hfree : ∀ deadline, deadlines key = some deadline → deadline ≤ time)
    (hkey : deadlines' key = some (time + gap))
    (hother : ∀ k, k ≠ key → deadlines' k = deadlines k) :
    Spaced deadlines' gap time ((key, time) :: events) := by
  have hover : ∀ event ∈ events, key = event.1 → event.2 + gap ≤ time := by
    intro event he hsame
    rcases h.held event he with hover | ⟨deadline, hdead, hle⟩
    · exact hover
    · exact Nat.le_trans hle (hfree deadline (hsame ▸ hdead))
  refine ⟨forall_mem_cons.mpr ⟨Nat.le_refl _, h.past⟩, pairwise_cons.mpr ⟨hover, h.apart⟩,
    forall_mem_cons.mpr ⟨.inr ⟨_, hkey, Nat.le_refl _⟩, fun event he => ?_⟩⟩
  by_cases hsame : key = event.1
  · exact .inl (hover event he hsame)
  · rw [hother _ (Ne.symm hsame)]
    exact h.held event he

end

end Komms
