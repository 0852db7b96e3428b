import Mathlib.Algebra.Order.BigOperators.Group.List
import Mathlib.Data.Rat.Floor
import Komms.Transport.Airtime

/-!
# The duty cycle, the retry hint and the time on air

* `granted_le_allowance`: no closed interval of the length of the window has more airtime granted
  than the allowance.
* `retryHint_honest_iff`: at the end of the wait that a refusal names the oldest transmission still
  counts, so a retry is refused again.
* `reserved_iff_fits`: a reservation is granted just when it fits into the window that ends now.
* `exact_le_timeOnAir_iff`: when the rounded time on air covers the exact one.
-/

namespace Komms.Transport

open List

namespace AirtimeBudget

variable {A window start time : ℕ} {events entries requests : List (ℕ × ℕ)} {request : ℕ × ℕ}
  {b : AirtimeBudget} {now : ℕ} {s : AirtimeBudget × List (ℕ × ℕ)}

/-- A reservation is refused for its size, or recorded, or refused for what is accounted. -/
theorem tryReserve_cases (b : AirtimeBudget) (airtime now : ℕ) :
    b.allowance < airtime ∧ b.tryReserve airtime now = (b, .error b.window) ∨
    airtime ≤ (b.available now).2 ∧ b.tryReserve airtime now =
      ({ b.purge now with spent := (b.purge now).spent ++ [(now, airtime)] }, .ok ()) ∨
    (b.available now).2 < airtime ∧ b.tryReserve airtime now =
      (b.purge now, .error (((b.purge now).spent.head?.map Prod.fst).getD
        now + b.window - now)) := by
  unfold tryReserve
  by_cases hbig : airtime > b.allowance
  · exact .inl ⟨hbig, if_pos hbig⟩
  · rw [if_neg hbig]
    by_cases hroom : (b.available now).2 ≥ airtime
    · exact .inr (.inl ⟨hroom, if_pos hroom⟩)
    · exact .inr (.inr ⟨Nat.not_le.mp hroom, if_neg hroom⟩)

/-! ### The duty cycle -/

/-- The airtime in the closed interval of the length of the window from `start` on. -/
def airtimeIn (window start : ℕ) (events : List (ℕ × ℕ)) : ℕ :=
  ((events.filter fun event => start ≤ event.1 ∧ event.1 ≤ start + window).map Prod.snd).sum

theorem airtimeIn_append : airtimeIn window start (events ++ entries) =
    airtimeIn window start events + airtimeIn window start entries := by
  unfold airtimeIn
  rw [filter_append, map_append, sum_append]

theorem airtimeIn_le : airtimeIn window start events ≤ (events.map Prod.snd).sum :=
  (filter_sublist.map Prod.snd).sum_le_sum fun _ _ => Nat.zero_le _

/-- What `purge` forgets is in no window that has not ended. -/
theorem airtimeIn_purge (h : now ≤ start + b.window) :
    airtimeIn b.window start (b.purge now).spent = airtimeIn b.window start b.spent := by
  unfold purge
  induction b.spent with
  | nil => rfl
  | cons entry entries ih =>
    by_cases hold : entry.1 < now - b.window
    · have hout : ¬ (start ≤ entry.1 ∧ entry.1 ≤ start + b.window) := by omega
      rw [← singleton_append, airtimeIn_append]
      simpa [hold, airtimeIn, hout] using ih
    · simp [hold]

/-- One call of `try_reserve`, with the log of what was granted. -/
def step (s : AirtimeBudget × List (ℕ × ℕ)) (request : ℕ × ℕ) : AirtimeBudget × List (ℕ × ℕ) :=
  match s.1.tryReserve request.2 request.1 with
  | (b, .ok ()) => (b, s.2 ++ [request])
  | (b, .error _) => (b, s.2)

/-- The log is within the allowance, and the queue accounts for every window that has not ended. -/
structure Accounted (A window time : ℕ) (s : AirtimeBudget × List (ℕ × ℕ)) : Prop where
  allowance_eq : s.1.allowance = A
  window_eq : s.1.window = window
  bounded : ∀ start, airtimeIn window start s.2 ≤ A
  held : ∀ start, time ≤ start + window →
    airtimeIn window start s.2 ≤ airtimeIn window start s.1.spent

theorem Accounted.step (h : Accounted A window time s) (hle : time ≤ request.1) :
    Accounted A window request.1 (AirtimeBudget.step s request) := by
  obtain ⟨rfl, rfl, hbound, hheld⟩ := h
  have hheld' : ∀ start, request.1 ≤ start + s.1.window →
      airtimeIn s.1.window start s.2 ≤ airtimeIn s.1.window start (s.1.purge request.1).spent := by
    intro start hstart
    rw [airtimeIn_purge hstart]
    exact hheld start (Nat.le_trans hle hstart)
  unfold AirtimeBudget.step
  rcases tryReserve_cases s.1 request.2 request.1 with ⟨_, h⟩ | ⟨hroom, h⟩ | ⟨_, h⟩
  · rw [h]
    exact ⟨rfl, rfl, hbound, fun start hstart => hheld start (Nat.le_trans hle hstart)⟩
  · rw [h]
    refine ⟨rfl, rfl, fun start => ?_, fun start hstart => ?_⟩
    · have hlog := hbound start
      rw [airtimeIn_append]
      by_cases hin : start ≤ request.1 ∧ request.1 ≤ start + s.1.window
      · -- the queue has all that was granted in this window
        have hqueue := hheld' start hin.2
        have hall : airtimeIn s.1.window start (s.1.purge request.1).spent ≤ _ := airtimeIn_le
        have hone : airtimeIn s.1.window start [request] ≤ request.2 := airtimeIn_le
        have hleft : request.2 ≤ s.1.allowance -
          ((s.1.purge request.1).spent.map Prod.snd).sum := hroom
        omega
      · have hone : airtimeIn s.1.window start [request] = 0 := by simp [airtimeIn, hin]
        omega
    · rw [airtimeIn_append, airtimeIn_append]
      exact Nat.add_le_add_right (hheld' start hstart) _
  · rw [h]
    exact ⟨rfl, rfl, hbound, hheld'⟩

theorem Accounted.foldl (h : Accounted A window time s)
    (hclock : ((time, 0) :: requests).Pairwise fun r r' => r.1 ≤ r'.1) :
    ∃ time, Accounted A window time (requests.foldl AirtimeBudget.step s) := by
  induction requests generalizing s time with
  | nil => exact ⟨time, h⟩
  | cons request requests ih =>
    obtain ⟨hle, hrest⟩ := pairwise_cons.mp hclock
    refine ih (h.step (hle request mem_cons_self)) ?_
    exact pairwise_cons.mpr (pairwise_cons.mp hrest)

/-- **Duty-cycle safety.**  Whatever is asked for under a clock that does not go back, no closed
interval of the length of the window has more airtime granted than the allowance; and all that a
refused call does is to forget what is too old. -/
theorem granted_le_allowance (A window : ℕ) (requests : List (ℕ × ℕ))
    (hclock : requests.Pairwise fun r r' => r.1 ≤ r'.1) :
    (∀ start, airtimeIn window start (requests.foldl step (⟨A, window, []⟩, [])).2 ≤ A) ∧
    ∀ (b b' : AirtimeBudget) airtime now wait,
      b.tryReserve airtime now = (b', .error wait) → b' = b ∨ b' = b.purge now := by
  constructor
  · intro start
    have hnew : Accounted A window 0 (⟨A, window, []⟩, []) :=
      ⟨rfl, rfl, fun _ => Nat.zero_le _, fun _ _ => Nat.le_refl _⟩
    obtain ⟨_, hend⟩ := hnew.foldl (pairwise_cons.mpr ⟨fun _ _ => Nat.zero_le _, hclock⟩)
    exact hend.bounded start
  · intro b b' airtime now wait hrefused
    rcases tryReserve_cases b airtime now with ⟨_, h⟩ | ⟨_, h⟩ | ⟨_, h⟩
    · exact .inl (Prod.mk.inj (hrefused.symm.trans h)).1
    · exact absurd (h.symm.trans hrefused) (by simp)
    · exact .inr (Prod.mk.inj (hrefused.symm.trans h)).1

/-! ### The retry hint -/

/-- What is left at the front is in the window, and is so until it is as old as the window. -/
theorem purge_purge_head {entry : ℕ × ℕ} (h : (b.purge now).spent = entry :: entries) :
    now ≤ entry.1 + b.window ∧ (b.purge now).purge (entry.1 + b.window) = b.purge now := by
  have hhead := head?_dropWhile_not (fun entry : ℕ × ℕ => decide (entry.1 < now - b.window)) b.spent
  rw [show dropWhile _ b.spent = _ from h] at hhead
  have hkept : ¬ entry.1 < now - b.window := by simpa using hhead
  refine ⟨by omega, congrArg (mk _ _) ?_⟩
  show dropWhile _ (b.purge now).spent = (b.purge now).spent
  rw [h]
  exact dropWhile_cons_of_neg (by simp [purge])

/-- The time to wait is honest: at its end the oldest accounted transmission no longer counts, and
a retry succeeds if the transmissions after it leave room. -/
def HonestHint (b : AirtimeBudget) (airtime now : ℕ) : Prop :=
  ∀ b' wait, b.tryReserve airtime now = (b', .error wait) →
    (b'.purge (now + wait)).spent <:+ b'.spent.tail ∧
    (airtime ≤ b'.allowance - (b'.spent.tail.map Prod.snd).sum →
      (b'.tryReserve airtime (now + wait)).2 = .ok ())

/-- At the end of the wait everything is accounted that was accounted at the refusal. -/
theorem purge_of_refused {b' : AirtimeBudget} {airtime wait : ℕ} (hfit : airtime ≤ b.allowance)
    (h : b.tryReserve airtime now = (b', .error wait)) :
    b'.spent ≠ [] ∧ b'.purge (now + wait) = b' := by
  rcases tryReserve_cases b airtime now with ⟨hbig, _⟩ | ⟨_, hok⟩ | ⟨hfull, hrefused⟩
  · exact absurd hfit (Nat.not_le.mpr hbig)
  · exact absurd (hok.symm.trans h) (by simp)
  · obtain ⟨rfl, hwait⟩ := Prod.mk.inj (hrefused.symm.trans h)
    obtain rfl := Except.error.inj hwait
    cases hspent : (b.purge now).spent with
    | nil =>
      -- an empty queue leaves the whole allowance
      rw [available, hspent] at hfull
      exact absurd hfit (Nat.not_le.mpr hfull)
    | cons entry entries =>
      obtain ⟨hle, hsame⟩ := purge_purge_head hspent
      refine ⟨cons_ne_nil _ _, ?_⟩
      show (b.purge now).purge (now + (entry.1 + b.window - now)) = b.purge now
      rw [Nat.add_sub_of_le hle, hsame]

/-- **The end of the wait.**  The hint for a reservation within the allowance is honest just when
there is none, because the reservation fits beside what is accounted: whenever one is given, the
oldest transmission still counts at the end of the wait. -/
theorem retryHint_honest_iff (b : AirtimeBudget) (airtime now : ℕ) (hfit : airtime ≤ b.allowance) :
    b.HonestHint airtime now ↔
      airtime ≤ b.allowance -
        ((b.spent.dropWhile fun entry => entry.1 + b.window < now).map Prod.snd).sum := by
  have hspent : (b.purge now).spent = b.spent.dropWhile fun entry => entry.1 + b.window < now := by
    simp only [purge, Nat.lt_sub_iff_add_lt]
  rw [← hspent]
  rcases tryReserve_cases b airtime now with ⟨hbig, _⟩ | ⟨hroom, hok⟩ | ⟨hfull, hrefused⟩
  · exact absurd hfit (Nat.not_le.mpr hbig)
  · exact iff_of_true (fun b' wait h => absurd (hok.symm.trans h) (by simp)) hroom
  · refine iff_of_false (fun honest => ?_) (Nat.not_le.mpr hfull)
    obtain ⟨hne, hsame⟩ := purge_of_refused hfit hrefused
    have hlater := (honest _ _ hrefused).1
    rw [hsame] at hlater
    -- the queue is not a part of its own tail
    have hlen := hlater.length_le
    have hpos := length_pos_iff.mpr hne
    rw [length_tail] at hlen
    omega

/-! ### The sliding window -/

/-- The queue is a part of the log, which is in the order of time. -/
structure Queued (time : ℕ) (s : AirtimeBudget × List (ℕ × ℕ)) : Prop where
  sublist : s.1.spent <+ s.2
  sorted : s.2.Pairwise fun e e' => e.1 ≤ e'.1
  past : ∀ e ∈ s.2, e.1 ≤ time

theorem Queued.purge_sublist (h : Queued time s) (now : ℕ) : (s.1.purge now).spent <+ s.2 :=
  (dropWhile_sublist _).trans h.sublist

theorem Queued.step (h : Queued time s) (hle : time ≤ request.1) :
    Queued request.1 (AirtimeBudget.step s request) := by
  have hpast : ∀ e ∈ s.2, e.1 ≤ request.1 := fun e he => Nat.le_trans (h.past e he) hle
  have hpurge := h.purge_sublist request.1
  unfold AirtimeBudget.step
  rcases tryReserve_cases s.1 request.2 request.1 with ⟨_, h'⟩ | ⟨_, h'⟩ | ⟨_, h'⟩ <;> rw [h']
  · exact ⟨h.sublist, h.sorted, hpast⟩
  · refine ⟨hpurge.append (.refl _), pairwise_append.mpr ⟨h.sorted, pairwise_singleton _ _, ?_⟩, ?_⟩
    · simpa using hpast
    · exact forall_mem_append.mpr ⟨hpast, forall_mem_singleton.mpr (Nat.le_refl _)⟩
  · exact ⟨hpurge, h.sorted, hpast⟩

/-- What is left of the queue is in the window that ends now. -/
theorem Queued.sum_purge_le (h : Queued now s) : ((s.1.purge now).spent.map Prod.snd).sum ≤
    airtimeIn s.1.window (now - s.1.window) s.2 := by
  have hsub := h.purge_sublist now
  have hin : ∀ e ∈ (s.1.purge now).spent, now ≤ e.1 + s.1.window := by
    have hsort := h.sorted.sublist hsub
    cases hspent : (s.1.purge now).spent with
    | nil => exact nofun
    | cons entry entries =>
      -- the queue is sorted and its head is in the window
      have hhead := (purge_purge_head hspent).1
      rw [hspent] at hsort
      refine forall_mem_cons.mpr ⟨hhead, fun e he => ?_⟩
      have hle := (pairwise_cons.mp hsort).1 e he
      omega
  refine Sublist.sum_le_sum (Sublist.map _ ?_) fun _ _ => Nat.zero_le _
  refine sublist_filter_iff.mpr ⟨_, hsub, (filter_eq_self.mpr fun e he => ?_).symm⟩
  have hlate := h.past e (hsub.subset he)
  have hearly := hin e he
  exact decide_eq_true ⟨by omega, by omega⟩

theorem exact_foldl (hacc : Accounted A window time s) (hqueue : Queued time s)
    (hclock : ((time, 0) :: (requests ++ [request])).Pairwise fun r r' => r.1 ≤ r'.1) :
    Accounted A window request.1 (requests.foldl AirtimeBudget.step s) ∧
      Queued request.1 (requests.foldl AirtimeBudget.step s) := by
  induction requests generalizing s time with
  | nil =>
    have hle : time ≤ request.1 := (pairwise_cons.mp hclock).1 request mem_cons_self
    refine ⟨{ hacc with held := fun start h => hacc.held start (Nat.le_trans hle h) }, ?_⟩
    exact { hqueue with past := fun e he => Nat.le_trans (hqueue.past e he) hle }
  | cons next requests ih =>
    obtain ⟨hle, hrest⟩ := pairwise_cons.mp hclock
    have hnext := hle next mem_cons_self
    exact ih (hacc.step hnext) (hqueue.step hnext) (pairwise_cons.mpr (pairwise_cons.mp hrest))

/-- **The queue is an exact sliding window.**  Under a clock that does not go back, a reservation is
granted just when it fits beside all that was granted in the window that ends now. -/
theorem reserved_iff_fits (A window : ℕ) (requests : List (ℕ × ℕ)) (airtime now : ℕ)
    (hclock : (requests ++ [(now, airtime)]).Pairwise fun r r' => r.1 ≤ r'.1) :
    let s := requests.foldl step (⟨A, window, []⟩, [])
    (s.1.tryReserve airtime now).2 = .ok () ↔
      airtimeIn window (now - window) s.2 + airtime ≤ A := by
  intro s
  have hnew : Accounted A window 0 (⟨A, window, []⟩, []) :=
    ⟨rfl, rfl, fun _ => Nat.zero_le _, fun _ _ => Nat.le_refl _⟩
  have hempty : Queued 0 (⟨A, window, []⟩, []) := ⟨.slnil, .nil, by simp⟩
  obtain ⟨⟨hA, hwin, hbound, hheld⟩, hqueue⟩ : Accounted A window now s ∧ Queued now s :=
    exact_foldl hnew hempty (pairwise_cons.mpr ⟨fun _ _ => Nat.zero_le _, hclock⟩)
  -- the purged queue sums to what the log has in the window
  have hend : now ≤ now - s.1.window + s.1.window := by omega
  have hlog := hbound (now - window)
  have hge := hheld (now - window) (hwin ▸ hend)
  rw [← hwin, ← airtimeIn_purge hend] at hge
  have hsum : ((s.1.purge now).spent.map Prod.snd).sum = airtimeIn window (now - window) s.2 :=
    hwin ▸ Nat.le_antisymm hqueue.sum_purge_le (Nat.le_trans hge airtimeIn_le)
  rcases tryReserve_cases s.1 airtime now with ⟨hbig, h⟩ | ⟨hroom, h⟩ | ⟨hfull, h⟩
  · simp only [h, reduceCtorEq, false_iff]
    omega
  · simp only [available, hsum] at hroom
    simp only [h, true_iff]
    omega
  · simp only [available, hsum] at hfull
    simp only [h, reduceCtorEq, false_iff]
    omega

/-- With ten units in a window of five, the four units of time 1 count at time 6 and not at time
7. -/
theorem reserved_at_seven :
    let s := [(1, 4), (2, 6), (6, 1)].foldl step (⟨10, 5, []⟩, [])
    s.2 = [(1, 4), (2, 6)] ∧ (s.1.tryReserve 4 7).2 = .ok () :=
  ⟨by decide, (reserved_iff_fits 10 5 [(1, 4), (2, 6), (6, 1)] 4 7 (by decide)).mpr (by decide)⟩

end AirtimeBudget

/-! ### The time on air -/

namespace ModemParams

variable {params : ModemParams} {payloadLen : ℕ}

def exactSymbolMicros (params : ModemParams) : ℚ :=
  (2 ^ params.spreadingFactor * 1000000 : ℕ) / params.bandwidthHz

/-- The Semtech formula in microseconds, with the flag decided by the exact symbol time.  A ceiling
in `ℕ` is the maximum with 0. -/
def exactMicros (params : ModemParams) (payloadLen : ℕ) : ℚ :=
  let sf : ℤ := params.spreadingFactor
  let de : ℤ := if 16380 ≤ params.exactSymbolMicros then 1 else 0
  let ratio : ℚ := (8 * payloadLen - 4 * sf + 28 + 16 : ℤ) / (4 * (sf - 2 * de) : ℤ)
  (params.preambleSymbols + 4.25 + (8 + ⌈ratio⌉₊ * params.codingRateDenominator)) *
    params.exactSymbolMicros

/-- The threshold is a whole number, so rounding down does not move a symbol time across it. -/
theorem threshold_le_iff (h : 0 < params.bandwidthHz) :
    lowDataRateThresholdMicros ≤ params.symbolMicros ↔ 16380 ≤ params.exactSymbolMicros := by
  unfold symbolMicros exactSymbolMicros
  rw [Nat.le_div_iff_mul_le h, le_div_iff₀ (Nat.cast_pos.mpr h)]
  exact_mod_cast Iff.rfl

theorem ceil_div_eq {n d : ℤ} (hd : 0 < d) :
    ⌈(n : ℚ) / d⌉₊ = if n > 0 then (n.toNat + d.toNat - 1) / d.toNat else 0 := by
  lift d to ℕ using hd.le
  have hd' : (0 : ℚ) < (d : ℤ) := Int.cast_pos.mpr hd
  refine eq_of_forall_ge_iff fun m => ?_
  have hmul : (n : ℚ) ≤ m * (d : ℤ) ↔ n ≤ (m * d : ℕ) := by exact_mod_cast Iff.rfl
  rw [Nat.ceil_le, div_le_iff₀ hd', hmul, ← Int.toNat_le]
  split_ifs with hn
  · rw [Int.toNat_natCast, Nat.div_le_iff_le_mul_add_pred (Int.natCast_pos.mp hd), Nat.mul_comm]
    omega
  · rw [Int.toNat_of_nonpos (Int.not_lt.mp hn)]
    exact ⟨fun _ => Nat.zero_le _, fun _ => Nat.zero_le _⟩

theorem exactMicros_eq (h : 0 < params.bandwidthHz) (hden : 0 < params.denominator) :
    params.exactMicros payloadLen =
      params.quarterSymbols payloadLen / 4 * params.exactSymbolMicros := by
  have hde : 4 * ((params.spreadingFactor : ℤ) -
      2 * if 16380 ≤ params.exactSymbolMicros then 1 else 0) = params.denominator := by
    unfold denominator
    simp only [threshold_le_iff h]
  have hextra : params.extraSymbols payloadLen =
      ⌈((8 * payloadLen - 4 * params.spreadingFactor + 28 + 16 : ℤ) : ℚ) / params.denominator⌉₊ *
        params.codingRateDenominator := by
    rw [ceil_div_eq hden, ite_mul, Nat.zero_mul]
    rfl
  unfold exactMicros quarterSymbols
  rw [hextra]
  simp only [hde]
  push_cast
  ring

/-- The last rounding adds what the quarter-symbols miss to a multiple of four. -/
theorem four_mul_ceil (params : ModemParams) (payloadLen : ℕ) :
    (params.quarterSymbols payloadLen * params.symbolMicros + 3) / 4 * 4 =
      params.quarterSymbols payloadLen * params.symbolMicros +
        (4 - params.symbolMicros % 4) % 4 := by
  have hone : params.quarterSymbols payloadLen % 4 = 1 := by
    unfold quarterSymbols
    omega
  have hmod : params.quarterSymbols payloadLen * params.symbolMicros % 4 =
      params.symbolMicros % 4 := by
    rw [Nat.mul_mod, hone, Nat.one_mul, Nat.mod_mod]
  omega

theorem exact_le_iff {n d q m s : ℕ} (hd : 0 < d) (hm : m * 4 = q * (n / d) + s) :
    (q / 4 * (n / d) : ℚ) ≤ m ↔ q * (n % d) ≤ d * s := by
  have hexact : q * n = q * (n / d) * d + q * (n % d) := by
    conv_lhs => rw [← Nat.div_add_mod n d]
    ring
  have hround : m * (4 * d) = q * (n / d) * d + d * s := by
    rw [← Nat.mul_assoc, hm]
    ring
  rw [div_mul_div_comm, div_le_iff₀ (by positivity), ← Nat.add_le_add_iff_left, ← hexact, ← hround]
  exact_mod_cast Iff.rfl

end ModemParams

open ModemParams in
/-- **The time on air** is at least what the formula gives just when the time that the symbols lose
by their rounding is at most what the last rounding adds. -/
theorem exact_le_timeOnAir_iff (params : ModemParams) (payloadLen micros : ℕ)
    (h : timeOnAir params payloadLen = some micros) :
    params.exactMicros payloadLen ≤ micros ↔
      params.quarterSymbols payloadLen *
          (2 ^ params.spreadingFactor * 1000000 % params.bandwidthHz) ≤
        params.bandwidthHz * ((4 - params.symbolMicros % 4) % 4) := by
  unfold timeOnAir at h
  split_ifs at h with hrange hden
  have hpos : 0 < params.bandwidthHz := by
    simp only [valid, Bool.not_eq_true, Bool.or_eq_false_iff, Bool.not_eq_false', Bool.and_eq_true,
      decide_eq_true_eq] at hrange
    exact hrange.1.1.2
  rw [← Option.some.inj h, exactMicros_eq hpos (Int.not_le.mp hden)]
  exact exact_le_iff hpos (four_mul_ceil params payloadLen)

/-! ### Samples -/

namespace Sample

open AirtimeBudget ModemParams

theorem second_window_bounded : airtimeIn 100 1
    ([(0, 10), (10, 1), (101, 10)].foldl step (⟨10, 100, []⟩, [])).2 ≤ 10 :=
  (granted_le_allowance 10 100 _ (by decide)).1 1

/-- Two transmissions at one time: the second leaves room for five units, and the hint of 50 is not
honest; four units are granted once the window has moved on. -/
theorem hint_at_fifty : ¬ (⟨10, 100, [(0, 6), (0, 4)]⟩ : AirtimeBudget).HonestHint 5 50 ∧
    (⟨10, 100, [(0, 6), (1, 4)]⟩ : AirtimeBudget).HonestHint 4 101 :=
  ⟨fun honest => absurd ((retryHint_honest_iff _ 5 50 (by decide)).mp honest) (by decide),
    (retryHint_honest_iff _ 4 101 (by decide)).mpr (by decide)⟩

/-- Ten units at time 0, which is the whole allowance. -/
def exhausted : AirtimeBudget := ((⟨10, 100, []⟩ : AirtimeBudget).tryReserve 10 0).1

/-- One unit is asked for at time 10, and again after the wait of 90: the ten units still count. -/
theorem refused_after_wait : exhausted.tryReserve 1 10 = (exhausted, .error 90) ∧
    1 ≤ exhausted.allowance - (exhausted.spent.tail.map Prod.snd).sum ∧
    (exhausted.purge (10 + 90)).spent = [(0, 10)] ∧
    (exhausted.tryReserve 1 (10 + 90)).2 = .error 0 ∧ ¬ exhausted.HonestHint 1 10 := by
  refine ⟨rfl, by decide, by decide, rfl, fun honest => ?_⟩
  exact absurd ((honest _ _ rfl).2 (by decide)) (by decide)

/-- At 250 kHz a symbol takes 8192 microseconds. -/
theorem longFast_exact : exactMicros ⟨250000, 11, 5, 16⟩ 255 ≤ (2156544 : ℕ) :=
  (exact_le_timeOnAir_iff ⟨250000, 11, 5, 16⟩ 255 2156544 (by decide)).mpr (by decide)

/-- At 41 kHz a symbol takes 3121.95 microseconds. -/
theorem narrow_too_short : timeOnAir ⟨41000, 7, 5, 16⟩ 100 = some 556319 ∧
    ¬ exactMicros ⟨41000, 7, 5, 16⟩ 100 ≤ (556319 : ℕ) := by
  refine ⟨by decide, ?_⟩
  decide +kernel

end Sample

end Komms.Transport
