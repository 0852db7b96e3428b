import Komms.Mailbox.Equiv.Operations

/-!
# The relay-wide request budget

Every request is charged to the relay-wide bucket before the client's own bucket is looked at, and
the charge is committed when the client is then refused (`Commits.relayBucket`).  A client's own
limit therefore does not bound what it takes from the relay-wide budget: in one window it takes a
unit for each of its requests that the budget still has room for (`units_eq`), refused or not.
-/

namespace Komms.Mailbox

open Table List Option

/-- At this clock a bucket that started at `w` is neither swept nor restarted. -/
def InWindow (w now : ℕ) : Prop := now < w + rateWindowSecs ∧ now - 2 * rateWindowSecs < w

instance (w now : ℕ) : Decidable (InWindow w now) := inferInstanceAs (Decidable (_ ∧ _))

section

variable {Idx Sealed : Type} [DecidableEq Idx] (V : Vault Idx Sealed) (config : Config)

/-! ### Units of a run -/

def relayBucket (db : Database Idx Sealed) : Option (RateBucket Idx Sealed) :=
  db.rateBuckets.find? fun b => b.clientIdx = V.globalIndex

/-- The requests counted in the relay-wide window of a clock. -/
def relayRequests (db : Database Idx Sealed) (now : ℕ) : ℕ :=
  match relayBucket V db with
  | none => 0
  | some bucket => if now - bucket.windowStart ≥ rateWindowSecs then 0 else bucket.requests

/-- What all clients together may still send in the window of a clock. -/
def budgetLeft (db : Database Idx Sealed) (now : ℕ) : ℕ :=
  config.maxRequestsPerMinute - relayRequests V db now

/-- The client and the clock of each request that commits. -/
def committed (db : Database Idx Sealed) : List (Call Idx) → List (Bytes × ℕ)
  | [] => []
  | call :: calls =>
    let rest := committed (call.run V config db).state calls
    match call.request.client?, call.transaction V config db with
    | some client, .ok _ => (client, call.now) :: rest
    | _, _ => rest

/-- A call commits, and the relay-wide check has charged it. -/
def charged (db : Database Idx Sealed) (call : Call Idx) : Bool :=
  match call.request.client?, call.transaction V config db,
    rateSubjectAllowedOn V call.draws (db.sweep call.now) V.globalIndex
      config.maxRequestsPerMinute call.now with
  | some _, .ok _, .ok (_, allowed) => allowed
  | _, _, _ => false

/-- The units of the relay-wide budget that a client consumes in a run. -/
def units (client : Bytes) (db : Database Idx Sealed) : List (Call Idx) → ℕ
  | [] => 0
  | call :: calls =>
    (if call.request.client? = some client ∧ charged V config db call = true then 1 else 0) +
      units client (call.run V config db).state calls

/-- The requests that a budget has room for; a limit that the 32-bit counter cannot reach is
none. -/
def withinBudget {α : Type} (limit used : ℕ) (requests : List α) : List α :=
  if limit < 2 ^ 32 then requests.take (limit - used) else requests

def Open (db : Database Idx Sealed) (w n : ℕ) : Prop :=
  ∃ bucket ∈ relayBucket V db, bucket.windowStart = w ∧ bucket.requests = n

/-- The relay-wide window starts with the first request that commits. -/
structure Opens (db : Database Idx Sealed) (calls : List (Call Idx)) (w n : ℕ) : Prop where
  stale : ∀ bucket ∈ relayBucket V db, ∀ call ∈ calls,
    bucket.windowStart + rateWindowSecs ≤ call.now
  first : ∀ request ∈ (committed V config db calls).head?, request.2 = w
  unused : n = 0

/-- The calls of a run are in one relay-wide window, in which `n` requests are already counted. -/
structure OneWindow (db : Database Idx Sealed) (calls : List (Call Idx)) (w n : ℕ) : Prop where
  clocks : ∀ call ∈ calls, InWindow w call.now
  start : Open V db w n ∨ Opens V config db calls w n

end

section

variable {Idx Sealed : Type} [DecidableEq Idx] {V : Vault Idx Sealed} {config : Config}
  {db db' : Database Idx Sealed} {draws : Draws Idx} {client : Bytes} {now w n : ℕ}
  {call : Call Idx} {calls : List (Call Idx)} {response : Response}

/-! ### One request -/

theorem mem_relayBucket_sweep_iff (h : Sound V config db) {bucket : RateBucket Idx Sealed} :
    bucket ∈ relayBucket V (db.sweep now) ↔
      bucket ∈ relayBucket V db ∧ now - 2 * rateWindowSecs < bucket.windowStart := by
  have hfil : relayBucket V (db.sweep now) =
      (relayBucket V db).filter fun b => now - 2 * rateWindowSecs < b.windowStart :=
    find?_filter_key h.rates.keys
  rw [hfil, mem_def, filter_eq_some_iff, decide_eq_true_eq, mem_def]

/-- The call commits, as a request of the client. -/
def Commits (V : Vault Idx Sealed) (config : Config) (db : Database Idx Sealed) (call : Call Idx)
    (client : Bytes) (db' : Database Idx Sealed) : Prop :=
  call.request.client? = some client ∧
    ∃ response, call.transaction V config db = .ok (db', response)

theorem Commits.admits (h : Sound V config db) (hcall : Commits V config db call client db') :
    ∃ db₁ allowed, admitClient V config call.draws db client call.now = .ok (db₁, allowed) ∧
      db'.rateBuckets = db₁.rateBuckets := by
  obtain ⟨hcl, _, hok⟩ := hcall
  obtain ⟨hno, -⟩ | ⟨_, db₁, allowed, hcl', hadm, hwrite⟩ := transaction_eq_ok hok
  · cases hcl.symm.trans hno
  · cases hcl.symm.trans hcl'
    refine ⟨db₁, allowed, hadm, ?_⟩
    cases hwrite with
    | none | deposit => rfl
    | register | grant => exact (congrArg Database.rateBuckets (registerAll_eq ..)).trans rfl
    | ack _ hack hrows hclose =>
      obtain ⟨hsnd, -, -, -, hbkts, -⟩ :=
        acknowledgeRows_eq_ok (h.admitClient hadm) hack.pending hrows
      rw [(closeLease_eq_ok hsnd hclose).2]
      exact hbkts

theorem transaction_sweep (hcl : call.request.client? = none)
    (hok : call.transaction V config db = .ok (db', response)) : db' = db.sweep call.now := by
  obtain ⟨-, hdb⟩ | ⟨_, _, _, hcl', -⟩ := transaction_eq_ok hok
  · exact hdb
  · cases hcl.symm.trans hcl'

/-- **The relay-wide bucket after a request**, refused or not: the client's own charge does not show
in it. -/
theorem Commits.relayBucket (h : Sound V config db) (hne : V.globalIndex ≠ V.clientIndex client)
    (hcall : Commits V config db call client db') :
    ∃ w n, currentWindow V (db.sweep call.now) V.globalIndex call.now = .ok (w, n) ∧
      (config.maxRequestsPerMinute ≤ n ∧ relayBucket V db' = relayBucket V (db.sweep call.now) ∨
        n < config.maxRequestsPerMinute ∧
          relayBucket V db' = some (rateRow V call.draws V.globalIndex w (saturatingSucc n))) := by
  obtain ⟨_, _, hadm, hbkts⟩ := hcall.admits h
  obtain ⟨_, hsweep, hrate⟩ := bind_eq_ok_iff.mp hadm
  obtain ⟨-, rfl⟩ := sweepOn_eq_ok_iff.mp hsweep
  obtain ⟨⟨_, _⟩, hglobal, hrest⟩ := bind_eq_ok_iff.mp hrate
  obtain ⟨w, n, hwindow, hchar⟩ := rateSubjectAllowedOn_eq_ok hglobal
  refine ⟨w, n, hwindow, ?_⟩
  rw [Mailbox.relayBucket, hbkts]
  dsimp only at hrest
  obtain ⟨hfull, rfl, rfl⟩ | ⟨hroom, rfl, rfl⟩ := hchar
  · cases hrest
    exact .inl ⟨hfull, rfl⟩
  -- The client is charged after the relay, in a bucket of its own.
  · have hself := @find?_upsert_self _ _ _ RateBucket.clientIdx
      (rateRow V call.draws V.globalIndex w (saturatingSucc n)) (db.sweep call.now).rateBuckets
    refine .inr ⟨hroom, ?_⟩
    rw [if_neg Bool.noConfusion] at hrest
    obtain ⟨_, _, -, ⟨-, rfl, -⟩ | ⟨-, rfl, -⟩⟩ := rateSubjectAllowedOn_eq_ok hrest
    · exact hself
    · rw [← hself]
      exact find?_upsert_of_ne hne

theorem Open.sweep (h : Sound V config db) (hopen : Open V db w n) (hin : InWindow w now) :
    Open V (db.sweep now) w n := by
  obtain ⟨bucket, hbkt, hw, hn⟩ := hopen
  exact ⟨bucket, (mem_relayBucket_sweep_iff h).mpr ⟨hbkt, hw ▸ hin.2⟩, hw, hn⟩

/-- The window of a request: the open one, or a new one that starts at the clock. -/
theorem currentWindow_eq_ok {w' n' : ℕ}
    (hwindow : currentWindow V db V.globalIndex now = .ok (w', n')) :
    (w' = now ∧ n' = 0 ∧ ∀ b ∈ relayBucket V db, now - b.windowStart ≥ rateWindowSecs) ∨
      ∃ b ∈ relayBucket V db, now - b.windowStart < rateWindowSecs ∧ w' = b.windowStart ∧
        n' = b.requests := by
  unfold currentWindow at hwindow
  split at hwindow
  · next hnone =>
    cases hwindow
    exact .inl ⟨rfl, rfl, fun b hb => nomatch hnone.symm.trans hb⟩
  · next bucket hfind =>
    obtain ⟨-, hpair⟩ := check_bind_eq_ok_iff.mp hwindow
    split_ifs at hpair with hlate <;> cases hpair
    · exact .inl ⟨rfl, rfl, fun b hb => some.inj (hfind.symm.trans hb) ▸ hlate⟩
    · exact .inr ⟨bucket, hfind, Nat.lt_of_not_le hlate, rfl, rfl⟩

/-- It has not run out, and counts the requests of its clock. -/
theorem relayRequests_of_currentWindow {w' n' : ℕ}
    (hwindow : currentWindow V db V.globalIndex now = .ok (w', n')) :
    now - w' < rateWindowSecs ∧ n' = relayRequests V db now := by
  unfold relayRequests
  obtain ⟨rfl, rfl, hlate⟩ | ⟨bucket, hbkt, hlt, rfl, rfl⟩ := currentWindow_eq_ok hwindow
  · refine ⟨by rw [Nat.sub_self]; decide, ?_⟩
    split
    · rfl
    · next bucket hbkt => rw [if_pos (hlate bucket hbkt)]
  · rw [mem_def.mp hbkt]
    exact ⟨hlt, (if_neg (Nat.not_le.mpr hlt)).symm⟩

/-! ### What is left for the others -/

/-- The counter of the relay-wide bucket is a `u32`. -/
def RelayFits (V : Vault Idx Sealed) (db : Database Idx Sealed) : Prop :=
  ∀ bucket ∈ relayBucket V db, bucket.requests < 2 ^ 32

theorem saturatingSucc_lt (n : ℕ) : saturatingSucc n < 2 ^ 32 := by
  unfold saturatingSucc
  omega

theorem RelayFits.sweep (h : Sound V config db) (hfits : RelayFits V db) :
    RelayFits V (db.sweep now) := by
  intro bucket hbkt
  exact hfits bucket ((mem_relayBucket_sweep_iff h).mp hbkt).1

theorem RelayFits.step (hne : ∀ client, V.globalIndex ≠ V.clientIndex client)
    (h : Sound V config db) (hfits : RelayFits V db) (call : Call Idx) :
    RelayFits V (call.run V config db).state := by
  refine Effect.ofExcept_state hfits fun db' response hok => ?_
  cases hcl : call.request.client? with
  | none =>
    rw [transaction_sweep hcl hok]
    exact hfits.sweep h
  | some client =>
    intro bucket hbkt
    obtain ⟨w, n, -, ⟨-, hsame⟩ | ⟨-, hnew⟩⟩ := Commits.relayBucket h (hne client) ⟨hcl, _, hok⟩
    · rw [hsame] at hbkt
      exact hfits.sweep h bucket hbkt
    · rw [hnew] at hbkt
      cases hbkt
      exact saturatingSucc_lt n

theorem relayFits_run (hne : ∀ client, V.globalIndex ≠ V.clientIndex client)
    (h : Sound V config db) (hfits : RelayFits V db) (calls : List (Call Idx)) :
    RelayFits V (run V config db calls) := by
  induction calls generalizing db with
  | nil => exact hfits
  | cons call calls ih => exact ih (sound_step h) (hfits.step hne h call)

/-- **What a request leaves of the budget.**  Its unit is gone, unless none was left or the counter
is at its end. -/
theorem Commits.budgetLeft_eq_iff (hne : V.globalIndex ≠ V.clientIndex client)
    (h : Sound V config db) (hcall : Commits V config db call client db') :
    let used := relayRequests V (db.sweep call.now) call.now
    budgetLeft V config db' call.now = budgetLeft V config (db.sweep call.now) call.now ↔
      config.maxRequestsPerMinute ≤ used ∨ used = 2 ^ 32 - 1 := by
  obtain ⟨w, n, hwindow, hchar⟩ := hcall.relayBucket h hne
  obtain ⟨hstart, rfl⟩ := relayRequests_of_currentWindow hwindow
  unfold budgetLeft
  obtain ⟨hfull, hsame⟩ | ⟨_, hnew⟩ := hchar
  · have hcnt : relayRequests V db' call.now = relayRequests V (db.sweep call.now) call.now := by
      rw [relayRequests, hsame, relayRequests]
    simp [hcnt, hfull]
  · have hcnt : relayRequests V db' call.now =
        saturatingSucc (relayRequests V (db.sweep call.now) call.now) := by
      rw [relayRequests, hnew]
      exact if_neg (Nat.not_le.mpr hstart)
    rw [hcnt, saturatingSucc]
    omega

/-! ### Runs in one window -/

section

variable {limit used : ℕ} {α : Type}

theorem withinBudget_of_spent (hused : used < 2 ^ 32) (hspent : limit ≤ used) (requests : List α) :
    withinBudget limit used requests = [] := by
  rw [withinBudget, if_pos (by omega), Nat.sub_eq_zero_of_le hspent, take_zero]

theorem withinBudget_cons (hroom : used < limit) (a : α) (requests : List α) :
    withinBudget limit used (a :: requests) =
      a :: withinBudget limit (saturatingSucc used) requests := by
  unfold withinBudget
  split_ifs with hlim
  · have hnext : limit - used = limit - saturatingSucc used + 1 := by
      unfold saturatingSucc
      omega
    rw [hnext, take_succ_cons]
  · rfl

end

theorem state_run_of_ok (hok : call.transaction V config db = .ok (db', response)) :
    (call.run V config db).state = db' := by
  rw [Call.run, hok]
  rfl

theorem Commits.state (hcall : Commits V config db call client db') :
    (call.run V config db).state = db' := by
  obtain ⟨-, _, hok⟩ := hcall
  exact state_run_of_ok hok

theorem Commits.committed (hcall : Commits V config db call client db') :
    committed V config db (call :: calls) = (client, call.now) :: committed V config db' calls := by
  obtain ⟨hcl, _, hok⟩ := hcall
  rw [Mailbox.committed, hcl, hok, state_run_of_ok hok]

section Idle

variable (hidle : ∀ client db', ¬ Commits V config db call client db')
include hidle

/-- A call that is no request, or that fails, leaves the database or only sweeps it. -/
theorem state_run_of_idle :
    (call.run V config db).state = db ∨ (call.run V config db).state = db.sweep call.now := by
  cases hres : call.transaction V config db with
  | error e =>
    rw [Call.run, hres]
    exact .inl rfl
  | ok result =>
    cases hcl : call.request.client? with
    | none =>
      rw [state_run_of_ok hres]
      exact .inr (transaction_sweep hcl hres)
    | some client => exact absurd ⟨hcl, _, hres⟩ (hidle client result.1)

theorem committed_of_idle :
    committed V config db (call :: calls) =
      committed V config (call.run V config db).state calls := by
  unfold committed
  split
  · next client result hcl hok => exact absurd ⟨hcl, _, hok⟩ (hidle client result.1)
  · cases calls <;> rfl

theorem charged_of_idle : charged V config db call = false := by
  unfold charged
  split
  · next client result _ _ hcl hok _ =>
    exact absurd ⟨hcl, _, hok⟩ (hidle client result.1)
  · rfl

end Idle

variable (h : Sound V config db) (hwin : OneWindow V config db (call :: calls) w n)
include h hwin

theorem OneWindow.idle (hidle : ∀ client db', ¬ Commits V config db call client db') :
    OneWindow V config (call.run V config db).state calls w n := by
  refine ⟨fun c hc => hwin.clocks c (.tail _ hc), ?_⟩
  obtain hopen | hopens := hwin.start
  · left
    obtain hsame | hsweep := state_run_of_idle hidle
    · rwa [hsame]
    · rw [hsweep]
      exact hopen.sweep h (hwin.clocks call (.head _))
  · right
    refine ⟨fun bucket hbkt c hc => ?_, ?_, hopens.unused⟩
    · refine hopens.stale bucket ?_ c (.tail _ hc)
      obtain hsame | hsweep := state_run_of_idle hidle
      · rwa [hsame] at hbkt
      · rw [hsweep] at hbkt
        exact ((mem_relayBucket_sweep_iff h).mp hbkt).1
    · rw [← committed_of_idle hidle]
      exact hopens.first

theorem OneWindow.currentWindow_eq {w' n' : ℕ} (hcall : Commits V config db call client db')
    (hwindow : currentWindow V (db.sweep call.now) V.globalIndex call.now = .ok (w', n')) :
    w' = w ∧ n' = n := by
  have hin := hwin.clocks call (.head _)
  obtain hopen | hopens := hwin.start
  · obtain ⟨bucket, hbkt, rfl, rfl⟩ := hopen.sweep h hin
    obtain ⟨-, -, hlate⟩ | ⟨_, hbkt', -, rfl, rfl⟩ := currentWindow_eq_ok hwindow
    · have hpos : 0 < rateWindowSecs := by decide
      have hlt := hin.1
      have hge := hlate bucket hbkt
      omega
    · cases some.inj (hbkt.symm.trans hbkt')
      exact ⟨rfl, rfl⟩
  · have hfst := hopens.first
    rw [hcall.committed] at hfst
    obtain ⟨rfl, rfl, -⟩ | ⟨bucket, hbkt, hlt, -⟩ := currentWindow_eq_ok hwindow
    · exact ⟨hfst _ rfl, hopens.unused.symm⟩
    · have hle := hopens.stale bucket ((mem_relayBucket_sweep_iff h).mp hbkt).1 call (.head _)
      omega

/-- **One request of a run**: it is charged as long as the budget has room. -/
theorem OneWindow.step (hne : V.globalIndex ≠ V.clientIndex client)
    (hpos : 0 < config.maxRequestsPerMinute) (hcall : Commits V config db call client db') :
    (charged V config db call = true ↔ n < config.maxRequestsPerMinute) ∧
      OneWindow V config db' calls w
        (if n < config.maxRequestsPerMinute then saturatingSucc n else n) := by
  obtain ⟨_, used, hwindow, hchar⟩ := hcall.relayBucket h hne
  obtain ⟨rfl, rfl⟩ := hwin.currentWindow_eq h hcall hwindow
  refine ⟨?_, fun c hc => hwin.clocks c (.tail _ hc), .inl ?_⟩
  · -- A request that commits is charged when the window it finds has room.
    obtain ⟨hcl, _, hok⟩ := hcall
    unfold charged rateSubjectAllowedOn
    rw [hcl, hok, hwindow, ok_bind]
    by_cases hfull : used ≥ config.maxRequestsPerMinute
    · simp only [if_pos hfull, Bool.false_eq_true, false_iff, Nat.not_lt]
      exact hfull
    · simp only [if_neg hfull, true_iff]
      exact Nat.lt_of_not_le hfull
  obtain ⟨hfull, hsame⟩ | ⟨hroom, hnew⟩ := hchar
  · rw [if_neg (Nat.not_lt.mpr hfull), Open, hsame]
    obtain hopen | hopens := hwin.start
    · exact hopen.sweep h (hwin.clocks call (.head _))
    · have hunused := hopens.unused
      omega
  · rw [if_pos hroom, Open, hnew]
    exact ⟨_, rfl, rfl, rfl⟩

omit h hwin

theorem units_eq_zero (hnone : config.maxRequestsPerMinute = 0) :
    units V config client db calls = 0 := by
  induction calls generalizing db with
  | nil => rfl
  | cons call calls ih =>
    have hfree : ¬ charged V config db call = true := by
      unfold charged
      split
      · next db' allowed _ _ hrate =>
        obtain ⟨_, _, -, ⟨-, -, rfl⟩ | ⟨_, -, -⟩⟩ := rateSubjectAllowedOn_eq_ok hrate
        · exact Bool.noConfusion
        · omega
      · exact Bool.noConfusion
    rw [units, ih, if_neg fun hboth => hfree hboth.2]

/-- **What a client takes from the relay-wide budget in one window**: a unit for each of its
requests among those that the budget has room for. -/
theorem units_eq (hne : ∀ client, V.globalIndex ≠ V.clientIndex client) (h : Sound V config db)
    (hn : n < 2 ^ 32) (hwin : OneWindow V config db calls w n) (client : Bytes) :
    units V config client db calls = ((withinBudget config.maxRequestsPerMinute n
      (committed V config db calls)).map Prod.fst).count client := by
  obtain hnone | hpos := Nat.eq_zero_or_pos config.maxRequestsPerMinute
  · rw [units_eq_zero hnone, withinBudget_of_spent hn (hnone ▸ Nat.zero_le n)]
    rfl
  -- Induction on the run: `n` counts the requests that were charged so far.
  induction calls generalizing db n with
  | nil => simp [units, committed, withinBudget]
  | cons call calls ih =>
    by_cases hidle : ∀ sender db', ¬ Commits V config db call sender db'
    · rw [units, charged_of_idle hidle, committed_of_idle hidle,
        ih (sound_step h) hn (hwin.idle h hidle), if_neg fun hboth => Bool.noConfusion hboth.2,
        Nat.zero_add]
    · push Not at hidle
      obtain ⟨sender, _, hcall⟩ := hidle
      obtain ⟨hchar, hnext⟩ := hwin.step h (hne sender) hpos hcall
      have hsnd := hcall.state ▸ sound_step h
      simp only [units, hcall.committed, hcall.state, hcall.1, hchar, some.injEq]
      by_cases hroom : n < config.maxRequestsPerMinute
      · rw [if_pos hroom] at hnext
        rw [withinBudget_cons hroom, map_cons, count_cons,
          ih hsnd (saturatingSucc_lt n) hnext, Nat.add_comm]
        simp [hroom]
      · rw [if_neg hroom] at hnext
        have hspent : ∀ requests : List (Bytes × ℕ),
            withinBudget config.maxRequestsPerMinute n requests = [] :=
          withinBudget_of_spent hn (Nat.le_of_not_lt hroom)
        rw [ih hsnd hn hnext, hspent, hspent, if_neg fun hboth => hroom hboth.2]
        rfl

theorem OneWindow.used_lt (hfits : RelayFits V db) (hwin : OneWindow V config db calls w n) :
    n < 2 ^ 32 := by
  obtain ⟨bucket, hbkt, -, rfl⟩ | hopen := hwin.start
  · exact hfits bucket hbkt
  · rw [hopen.unused]
    decide

/-- **A client's own limit does not bound its share of the relay-wide budget.**  In every window,
each client keeps to its limit exactly when no client has more requests than that among those the
budget has room for; and a request that the client's own limit refuses leaves the budget of the
others unchanged exactly when it was already spent. -/
theorem relay_budget_share (V : Vault Idx Sealed) (config : Config)
    (hne : ∀ client, V.globalIndex ≠ V.clientIndex client) (before : List (Call Idx)) :
    let db := run V config .empty before
    (∀ (calls : List (Call Idx)) (w n : ℕ), OneWindow V config db calls w n →
      ((∀ client, units V config client db calls ≤ config.maxRequestsPerClientPerMinute) ↔
        ∀ client, ((withinBudget config.maxRequestsPerMinute n
          (committed V config db calls)).map Prod.fst).count client ≤
            config.maxRequestsPerClientPerMinute)) ∧
    ∀ (call : Call Idx) (client : Bytes) (db' : Database Idx Sealed) (response : Response)
      (w n : ℕ), call.request.client? = some client →
      call.transaction V config db = .ok (db', response) →
      currentWindow V (db.sweep call.now) (V.clientIndex client) call.now = .ok (w, n) →
      config.maxRequestsPerClientPerMinute ≤ n →
        (budgetLeft V config db' call.now = budgetLeft V config (db.sweep call.now) call.now ↔
          config.maxRequestsPerMinute ≤ relayRequests V (db.sweep call.now) call.now ∨
            relayRequests V (db.sweep call.now) call.now = 2 ^ 32 - 1) := by
  intro db
  have hsnd : Sound V config db := sound_run .empty before
  have hfits : RelayFits V db := relayFits_run hne .empty nofun before
  refine ⟨fun calls w n hwin => forall_congr' fun client => ?_,
    fun call client db' response w n hcl hok _ _ =>
      Commits.budgetLeft_eq_iff (hne client) hsnd ⟨hcl, response, hok⟩⟩
  rw [units_eq hne hsnd (hwin.used_lt hfits) hwin client]

end

/-! ### A client that spends the budget of the others -/

namespace Sample

def greedy : Bytes := [1]
def patient : Bytes := [2]
def oneToken : Octets 32 := .replicate 32 7

/-- One request a minute for each client, three for all. -/
def tight : Config :=
  { Config.default with maxRequestsPerMinute := 3, maxRequestsPerClientPerMinute := 1 }

def callAt (request : Request) : Call Bytes :=
  ⟨request, 100, fun _ => .replicate 16 1, fun _ _ => .zero 24⟩

/-- Two deposits that fail to decode; the second is refused for the client's own limit. -/
def twice : List (Call Bytes) := List.replicate 2 (callAt (.refuseDeposit greedy))

/-- The first window of a new relay: the client takes two units where it may take one, and its
second, refused request takes the last but one. -/
theorem greedy_exceeds_share :
    ¬ (∀ client, units idealVault tight client .empty twice ≤ 1) ∧
      budgetLeft idealVault tight (run idealVault tight .empty twice) 100 ≠
        budgetLeft idealVault tight
          ((run idealVault tight .empty (twice.take 1)).sweep 100) 100 := by
  have hwindow : OneWindow idealVault tight .empty twice 100 0 :=
    ⟨by decide, .inr ⟨nofun, by decide +kernel, rfl⟩⟩
  have hshare := (relay_budget_share idealVault tight globalIndex_ideal_ne []).1 twice 100 0 hwindow
  obtain ⟨⟨db', response⟩, hok⟩ : Returns ((callAt (.refuseDeposit greedy)).transaction idealVault
      tight (run idealVault tight .empty (twice.take 1))) := by decide +kernel
  have hlast : run idealVault tight .empty twice = db' := state_run_of_ok hok
  have href := (relay_budget_share idealVault tight globalIndex_ideal_ne (twice.take 1)).2
    (callAt (.refuseDeposit greedy)) greedy db' response 100 1 rfl hok (by decide +kernel)
    (by decide)
  rw [hlast]
  refine ⟨fun h => ?_, fun h => ?_⟩
  · exact absurd (hshare.mp h greedy) (by decide +kernel)
  · exact absurd (href.mp h) (by decide +kernel)

/-- **One client locks out another.**  Three requests of one client, two of them refused for its own
limit, spend the budget: the first request of another client in the window is refused, while after
one request it is served. -/
theorem patient_locked_out :
    let thrice := List.replicate 3 (callAt (.refuseDeposit greedy))
    let once := List.replicate 1 (callAt (.refuseDeposit greedy))
    let served := fun before => ((callAt (.lease patient [oneToken])).transaction idealVault tight
      (run idealVault tight .empty before)).map Prod.snd
    units idealVault tight greedy .empty thrice = 3 ∧ served thrice = .ok (.lease none) ∧
      served once = .ok (.lease (some ⟨.replicate 16 1, 220, []⟩)) := by
  decide +kernel

end Sample

end Komms.Mailbox
