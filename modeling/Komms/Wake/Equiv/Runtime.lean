import Komms.Wake.Run

/-!
# What the tables in memory of the wake gateway account for

`Accounts` says that the windows and the deadlines account for the calls decided so far, and `Sized`
that no table is larger than configured.  `accounts_rateAndCoalesce` and `sized_rateAndCoalesce`:
one trigger keeps both, provided that its time is not before the time of an earlier one.
-/

namespace Komms.Wake

open HashMap AList Window

/-! ### Windows -/

section

variable {κ : Type} [DecidableEq κ] {windows : HashMap κ Window} {key : κ}
    {maxBuckets limit now : ℕ}

theorem hits_retain (k : κ) :
    Window.hits ((retain (fun _ window => decide (now / 60 ≤ window.period + 1)) windows).lookup k)
      (now / 60) = Window.hits (windows.lookup k) (now / 60) := by
  rw [lookup_retain]
  cases hfnd : windows.lookup k with
  | none => rfl
  | some window =>
    by_cases hkept : now / 60 ≤ window.period + 1
    · simp [Option.filter, hkept]
    · have hne : window.period ≠ now / 60 := by omega
      simp [Option.filter, hkept, hits_some_of_ne hne]

theorem allowWindow_cases (windows : HashMap κ Window) (key : κ) (maxBuckets limit now : ℕ) :
    let kept := retain (fun _ window => decide (now / 60 ≤ window.period + 1)) windows
    let window := Window.roll (kept.lookup key) (now / 60)
    allowWindow windows key maxBuckets limit now = (false, kept) ∨
    ((key ∈ kept ∨ len kept < maxBuckets) ∧
      allowWindow windows key maxBuckets limit now = (false, kept.insert key window)) ∨
    ((key ∈ kept ∨ len kept < maxBuckets) ∧ window.count < limit ∧
      allowWindow windows key maxBuckets limit now =
        (true, kept.insert key ⟨window.period, window.count + 1⟩)) := by
  intro kept window
  unfold allowWindow
  by_cases hbkts : key ∉ kept ∧ maxBuckets ≤ len kept
  · rw [if_pos hbkts]
    exact .inl rfl
  rw [if_neg hbkts]
  have hroom : key ∈ kept ∨ len kept < maxBuckets := by
    by_cases hkey : key ∈ kept
    · exact .inl hkey
    · exact .inr (Nat.not_le.mp fun hle => hbkts ⟨hkey, hle⟩)
  by_cases hlim : limit ≤ window.count
  · rw [if_pos hlim]
    exact .inr (.inl ⟨hroom, rfl⟩)
  · rw [if_neg hlim]
    exact .inr (.inr ⟨hroom, Nat.not_le.mp hlim, rfl⟩)

theorem allowWindow_hits_le (k : κ) : Window.hits (windows.lookup k) (now / 60) ≤
      Window.hits ((allowWindow windows key maxBuckets limit now).2.lookup k) (now / 60) := by
  rw [← hits_retain k]
  rcases allowWindow_cases windows key maxBuckets limit now with h | ⟨-, h⟩ | ⟨-, -, h⟩
  · rw [h]
  · rw [h]
    by_cases hk : k = key
    · rw [hk, lookup_insert, hits_roll]
    · rw [lookup_insert_ne hk]
  · rw [h]
    by_cases hk : k = key
    · rw [hk, lookup_insert, hits_roll_succ]
      exact Nat.le_succ _
    · rw [lookup_insert_ne hk]

theorem allowWindow_taken (h : (allowWindow windows key maxBuckets limit now).1 = true) :
    Window.hits (windows.lookup key) (now / 60) < limit ∧
      Window.hits (windows.lookup key) (now / 60) <
        Window.hits ((allowWindow windows key maxBuckets limit now).2.lookup key) (now / 60) := by
  rw [← hits_retain key]
  rcases allowWindow_cases windows key maxBuckets limit now with h' | ⟨-, h'⟩ | ⟨-, hlim, h'⟩
  any_goals
    rw [h'] at h
    cases h
  · rw [h', lookup_insert, hits_roll_succ]
    exact ⟨hlim, Nat.lt_succ_self _⟩

theorem len_allowWindow_le (h : len windows ≤ maxBuckets) :
    len (allowWindow windows key maxBuckets limit now).2 ≤ maxBuckets := by
  have hkept := Nat.le_trans (len_retain_le
    (fun _ window => decide (now / 60 ≤ window.period + 1)) windows) h
  rcases allowWindow_cases windows key maxBuckets limit now with h' | ⟨hroom, h'⟩ | ⟨hroom, -, h'⟩
  · rw [h']
    exact hkept
  all_goals
    rw [h']
    exact len_insert_le hroom hkept

end

/-! ### Deadlines -/

/-- A table within its size loses the entries that have run out, and no other. -/
theorem pruneCoalescing_eq {windows : HashMap (Octets 32) ℕ} {now max : ℕ} (h : len windows ≤ max) :
    pruneCoalescing windows now max = retain (fun _ deadline => decide (now < deadline))
      windows := by
  unfold pruneCoalescing
  rw [if_pos (Nat.le_trans (len_retain_le _ _) h)]

namespace RuntimeState

variable {limits : GatewayLimits} {runtime : RuntimeState} {capabilityId : Octets 16}
  {destination : Octets 32} {now : ℕ}

/-- No table is larger than configured. -/
structure Sized (limits : GatewayLimits) (runtime : RuntimeState) : Prop where
  capability : len runtime.capability ≤ limits.maxCapabilityBuckets
  destination : len runtime.destination ≤ limits.maxDestinationBuckets
  coalescedUntil : len runtime.coalescedUntil ≤ limits.maxDestinationBuckets

theorem sized_empty (limits : GatewayLimits) : Sized limits .empty :=
  ⟨Nat.zero_le _, Nat.zero_le _, Nat.zero_le _⟩

/-- What the quotas may do to the windows. -/
structure Counted (runtime runtime' : RuntimeState) (minute : ℕ) : Prop where
  capability : ∀ key, Window.hits (runtime.capability.lookup key) minute ≤
    Window.hits (runtime'.capability.lookup key) minute
  destination : ∀ key, Window.hits (runtime.destination.lookup key) minute ≤
    Window.hits (runtime'.destination.lookup key) minute
  total : Window.hits runtime.global minute ≤ Window.hits runtime'.global minute
  coalescedUntil : runtime'.coalescedUntil = runtime.coalescedUntil

/-- A trigger that all three quotas let through. -/
structure Taken (limits : GatewayLimits) (runtime runtime' : RuntimeState)
    (capabilityId : Octets 16) (destination : Octets 32) (minute : ℕ) : Prop where
  capability : Window.hits (runtime.capability.lookup capabilityId) minute <
      limits.perCapabilityPerMinute ∧
    Window.hits (runtime.capability.lookup capabilityId) minute <
      Window.hits (runtime'.capability.lookup capabilityId) minute
  destination : Window.hits (runtime.destination.lookup destination) minute <
      limits.perDestinationPerMinute ∧
    Window.hits (runtime.destination.lookup destination) minute <
      Window.hits (runtime'.destination.lookup destination) minute
  total : Window.hits runtime.global minute < limits.globalPerMinute ∧
    Window.hits runtime.global minute < Window.hits runtime'.global minute

theorem allowQuotas_counted (limits : GatewayLimits) (runtime : RuntimeState)
    (capabilityId : Octets 16) (destination : Octets 32) (now : ℕ) :
    Counted runtime (runtime.allowQuotas limits capabilityId destination now).2 (now / 60) := by
  dsimp only [allowQuotas]
  split_ifs
  · exact ⟨allowWindow_hits_le, fun _ => Nat.le_refl _, Nat.le_refl _, rfl⟩
  · exact ⟨allowWindow_hits_le, allowWindow_hits_le, Nat.le_refl _, rfl⟩
  · refine ⟨allowWindow_hits_le, allowWindow_hits_le, ?_, rfl⟩
    dsimp only [allowGlobal]
    split_ifs
    · rw [hits_roll]
    · rw [hits_roll_succ]
      exact Nat.le_succ _

theorem allowQuotas_taken (h : (runtime.allowQuotas limits capabilityId destination now).1 = true) :
    Taken limits runtime (runtime.allowQuotas limits capabilityId destination now).2 capabilityId
      destination (now / 60) := by
  dsimp only [allowQuotas] at h ⊢
  split_ifs at h ⊢ with hcap hdes
  · simp only [Bool.not_eq_true', Bool.not_eq_false] at hcap hdes
    refine ⟨allowWindow_taken hcap, allowWindow_taken hdes, ?_⟩
    unfold allowGlobal at h ⊢
    dsimp only at h ⊢
    split_ifs at h ⊢ with hlim
    rw [hits_roll_succ]
    exact ⟨Nat.not_le.mp hlim, Nat.lt_succ_self _⟩

theorem allowQuotas_sized (h : Sized limits runtime) :
    Sized limits (runtime.allowQuotas limits capabilityId destination now).2 := by
  dsimp only [allowQuotas]
  split_ifs
  · exact ⟨len_allowWindow_le h.capability, h.destination, h.coalescedUntil⟩
  all_goals
    exact ⟨len_allowWindow_le h.capability, len_allowWindow_le h.destination, h.coalescedUntil⟩

theorem coalesce_cases (limits : GatewayLimits) (runtime : RuntimeState) (destination : Octets 32)
    (now : ℕ) :
    let pruned := pruneCoalescing runtime.coalescedUntil now limits.maxDestinationBuckets
    runtime.coalesce limits destination now = (false, runtime) ∨
    runtime.coalesce limits destination now = (false, { runtime with coalescedUntil := pruned }) ∨
    ((∀ deadline, runtime.coalescedUntil.lookup destination = some deadline → deadline ≤ now) ∧
      (destination ∈ pruned ∨ len pruned < limits.maxDestinationBuckets) ∧
      runtime.coalesce limits destination now = (true, { runtime with
        coalescedUntil := pruned.insert destination (now + limits.coalesceSeconds) })) := by
  intro pruned
  unfold coalesce
  by_cases hheld : (runtime.coalescedUntil.lookup destination).any (fun deadline => now < deadline)
  · rw [if_pos hheld]
    exact .inl rfl
  rw [if_neg hheld]
  by_cases hfull : limits.maxDestinationBuckets ≤ len pruned ∧ destination ∉ pruned
  · rw [if_pos hfull]
    exact .inr (.inl rfl)
  · rw [if_neg hfull]
    refine .inr (.inr ⟨fun deadline hfnd => ?_, ?_, rfl⟩)
    · rw [hfnd] at hheld
      simpa using hheld
    · by_cases hmem : destination ∈ pruned
      · exact .inl hmem
      · exact .inr (Nat.not_le.mp fun hle => hfull ⟨hle, hmem⟩)

theorem coalesce_sized (h : Sized limits runtime) :
    Sized limits (runtime.coalesce limits destination now).2 := by
  have hprune : len (pruneCoalescing runtime.coalescedUntil now limits.maxDestinationBuckets) ≤
      limits.maxDestinationBuckets := by
    rw [pruneCoalescing_eq h.coalescedUntil]
    exact Nat.le_trans (len_retain_le _ _) h.coalescedUntil
  rcases coalesce_cases limits runtime destination now with heq | heq | ⟨-, hroom, heq⟩
  · rw [heq]
    exact h
  · rw [heq]
    exact ⟨h.capability, h.destination, hprune⟩
  · rw [heq]
    exact ⟨h.capability, h.destination, len_insert_le hroom hprune⟩

theorem sized_rateAndCoalesce (h : Sized limits runtime) :
    Sized limits (runtime.rateAndCoalesce limits capabilityId destination now).2 := by
  dsimp only [rateAndCoalesce]
  split_ifs
  · exact coalesce_sized (allowQuotas_sized h)
  · exact allowQuotas_sized h

/-! ### The calls decided so far -/

/-- The windows account for the calls decided up to a minute. -/
structure Counts (limits : GatewayLimits) (runtime : RuntimeState) (minute : ℕ)
    (decided : List Call) : Prop where
  capability : Metered (fun key => runtime.capability.lookup key) limits.perCapabilityPerMinute
    minute (decided.map fun call => (call.request.capabilityId, call.request.minute))
  destination : Metered (fun key => runtime.destination.lookup key) limits.perDestinationPerMinute
    minute (decided.map fun call => (call.destination, call.request.minute))
  total : Metered (fun _ : Unit => runtime.global) limits.globalPerMinute minute
    (decided.map fun call => ((), call.request.minute))

/-- The deadlines account for the calls decided up to a time. -/
def Spaces (limits : GatewayLimits) (runtime : RuntimeState) (time : ℕ) (decided : List Call) :
    Prop :=
  Spaced (fun key => runtime.coalescedUntil.lookup key) limits.coalesceSeconds time
    (decided.map fun call => (call.destination, call.request.now))

structure Accounts (limits : GatewayLimits) (runtime : RuntimeState) (time : ℕ)
    (decided : List Call) : Prop where
  counts : Counts limits runtime (time / 60) decided
  spaces : Spaces limits runtime time decided

variable {runtime' : RuntimeState} {minute minute' time : ℕ} {decided : List Call}
    {request : Request}

theorem Counts.advance (h : Counts limits runtime minute decided) (hmin : minute ≤ minute')
    (hcnt : Counted runtime runtime' minute') : Counts limits runtime' minute' decided :=
  ⟨h.capability.advance hmin hcnt.capability, h.destination.advance hmin hcnt.destination,
    h.total.advance hmin fun _ => hcnt.total⟩

theorem Counts.record (h : Counts limits runtime request.minute decided)
    (hcnt : Counted runtime runtime' request.minute)
    (htak : Taken limits runtime runtime' request.capabilityId destination request.minute) :
    Counts limits runtime' request.minute (⟨request, destination⟩ :: decided) :=
  ⟨h.capability.record htak.capability.1 htak.capability.2 hcnt.capability,
    h.destination.record htak.destination.1 htak.destination.2 hcnt.destination,
    h.total.record htak.total.1 htak.total.2 fun _ => hcnt.total⟩

theorem Counts.with_coalescedUntil (h : Counts limits runtime minute decided)
    (coalescedUntil : HashMap (Octets 32) ℕ) :
    Counts limits { runtime with coalescedUntil := coalescedUntil } minute decided :=
  ⟨h.capability, h.destination, h.total⟩

theorem Spaces.advance (h : Spaces limits runtime time decided) (htime : time ≤ now) :
    Spaces limits runtime now decided :=
  Spaced.advance h htime fun _ _ => .inl

theorem Spaces.prune (h : Spaces limits runtime now decided) (hsize : Sized limits runtime) :
    Spaces limits { runtime with
      coalescedUntil := pruneCoalescing runtime.coalescedUntil now limits.maxDestinationBuckets }
      now decided := by
  refine Spaced.advance h (Nat.le_refl _) fun key deadline hfnd => ?_
  rw [pruneCoalescing_eq hsize.coalescedUntil, lookup_retain, hfnd]
  by_cases hlive : now < deadline
  · exact .inl (Option.filter_some_pos (decide_eq_true hlive))
  · exact .inr (Nat.not_lt.mp hlive)

theorem Spaces.record (h : Spaces limits runtime request.now decided)
    (hfree : ∀ deadline, runtime.coalescedUntil.lookup destination = some deadline →
      deadline ≤ request.now) :
    Spaces limits { runtime with
      coalescedUntil :=
        runtime.coalescedUntil.insert destination (request.now + limits.coalesceSeconds) }
      request.now (⟨request, destination⟩ :: decided) :=
  Spaced.record h hfree (lookup_insert _) fun _ => lookup_insert_ne

/-- The calls decided once a trigger was rated. -/
def decidedAfter (outcome : Bool) (call : Call) (decided : List Call) : List Call :=
  if outcome then call :: decided else decided

/-- `coalesce` once the quotas let a trigger through and counted it. -/
theorem accounts_coalesce (hsize : Sized limits runtime')
    (hcnt : Counts limits runtime' request.minute decided)
    (hcnt' : Counts limits runtime' request.minute (⟨request, destination⟩ :: decided))
    (hspace : Spaces limits runtime' request.now decided) :
    Accounts limits (runtime'.coalesce limits destination request.now).2 request.now
      (decidedAfter (runtime'.coalesce limits destination request.now).1 ⟨request, destination⟩
        decided) := by
  have hprune := hspace.prune hsize
  rcases coalesce_cases limits runtime' destination request.now with heq | heq | ⟨hfree, -, heq⟩
  · rw [heq]
    exact ⟨hcnt, hspace⟩
  · rw [heq]
    exact ⟨hcnt.with_coalescedUntil _, hprune⟩
  · rw [heq]
    refine ⟨hcnt'.with_coalescedUntil _, hprune.record fun deadline hfnd => ?_⟩
    -- what is left after pruning was there before
    apply hfree deadline
    rw [pruneCoalescing_eq hsize.coalescedUntil, lookup_retain] at hfnd
    exact (Option.filter_eq_some_iff.mp hfnd).1

/-- **A rate decision keeps the account of the calls.** -/
theorem accounts_rateAndCoalesce (hsize : Sized limits runtime)
    (h : Accounts limits runtime time decided) (htime : time ≤ request.now) :
    let outcome := runtime.rateAndCoalesce limits request.capabilityId destination request.now
    Accounts limits outcome.2 request.now (decidedAfter outcome.1
      ⟨request, destination⟩ decided) := by
  intro outcome
  have hmin : time / 60 ≤ request.minute := Nat.div_le_div_right htime
  have hcnt := allowQuotas_counted limits runtime request.capabilityId destination request.now
  -- The quotas are counted also for a call that is then refused.
  have hcount := h.counts.advance hmin hcnt
  have hspace : Spaces limits
      (runtime.allowQuotas limits request.capabilityId destination request.now).2 request.now
      decided := by
    unfold Spaces
    rw [hcnt.coalescedUntil]
    exact h.spaces.advance htime
  show Accounts limits (rateAndCoalesce limits runtime request.capabilityId destination
    request.now).2 request.now (decidedAfter
      (rateAndCoalesce limits runtime request.capabilityId destination request.now).1 _ decided)
  unfold rateAndCoalesce
  by_cases hquota : (runtime.allowQuotas limits request.capabilityId destination request.now).1 =
    true
  · rw [if_pos hquota]
    have hstart : Counts limits runtime request.minute decided :=
      h.counts.advance hmin ⟨fun _ => Nat.le_refl _, fun _ => Nat.le_refl _, Nat.le_refl _, rfl⟩
    exact accounts_coalesce (allowQuotas_sized hsize) hcount
      (hstart.record hcnt (allowQuotas_taken hquota)) hspace
  · rw [if_neg hquota, Bool.eq_false_iff.mpr hquota]
    exact ⟨hcount, hspace⟩

end RuntimeState

end Komms.Wake
