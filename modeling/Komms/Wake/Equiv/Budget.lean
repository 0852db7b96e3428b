import Komms.Wake.Equiv.Safety

/-!
# What a trigger beyond the limit of its capability costs others

A trigger is authorized before it is rated, and a fresh authorization writes a row to the replay
table that all capabilities share.  The row stays until the capability expires.

* `answers_eq_of_alike`: two systems that differ in expired rows only answer alike for ever.
* `along_unnoticed_iff`: a trigger goes unnoticed just when the gateway has no row for it.
* `Sample.crowded_out`: a fresh trigger of one capability turned away because of another's.
-/

namespace Komms.Wake

open List GatewayStateStore Keyed

/-! ### The database through its live rows -/

namespace GatewayStateStore

variable {store : GatewayStateStore} {now : ℕ}

def live (store : GatewayStateStore) (now : ℕ) : List Replay :=
  store.replays.rows.filter fun row => now < row.expiresAt

theorem length_live_le (store : GatewayStateStore) (now : ℕ) :
    (store.live now).length ≤ (store.purged now).replays.rows.length := by
  refine (monotone_filter_right store.replays.rows fun row hlive => ?_).length_le
  refine decide_eq_true fun hmem => ?_
  exact absurd (mem_expiredRows hmem).2 (Nat.not_le.mpr (of_decide_eq_true hlive))

theorem full_iff (hroom : store.replays.rows.length ≤ store.maxReplays) :
    store.maxReplays ≤ (store.purged now).replays.rows.length ↔
      store.maxReplays ≤ (store.live now).length := by
  constructor
  · intro hfull
    -- nothing was purged, so no row has expired
    have hlive : ∀ row ∈ store.replays.rows, decide (now < row.expiresAt) = true := by
      intro row hrow
      refine decide_eq_true (Nat.lt_of_not_le fun hexp => ?_)
      have hlt : (store.purged now).replays.rows.length < store.replays.rows.length :=
        length_purgeTable_lt hrow hexp
      omega
    have hlen : (store.purged now).replays.rows.length ≤ store.replays.rows.length :=
      length_purgeTable_le _
    rw [live, filter_eq_self.mpr hlive]
    omega
  · intro hfull
    exact Nat.le_trans hfull (length_live_le store now)

end GatewayStateStore

namespace System

variable {limits : GatewayLimits} {hmacSha256 : Octets 32 → Bytes → Octets 32} {g g' : System}
  {request : Request} {time : ℕ}

/-- An issued capability that is live has no expired row, so its nonce is inserted unless it is a
duplicate. -/
theorem Sound.key_not_mem (h : g.Sound) (hiss : request.payload ∈ g.payloads)
    (hlive : request.now < request.payload.expiresAt)
    (hunused : (g.durable.purged request.now).isDuplicate request.capabilityId request.requestNonce
      request.now ≠ true) :
    request.row.key ∉ (g.durable.purged request.now).replays.rows.map Replay.key := by
  intro hkey
  obtain ⟨row, hrow, hsame⟩ := mem_map.mp hkey
  have hmem : row ∈ g.durable.replays := mem_of_mem_purgeTable hrow
  obtain ⟨payload, hpay, hid, hexp⟩ := h.rows row hmem
  obtain rfl : payload = request.payload :=
    payload_eq h.ids hpay hiss (hid.trans (congrArg Prod.fst hsame))
  refine hunused (isDuplicate_purged_iff.mpr ⟨row, hmem, hsame, ?_⟩)
  rw [← hexp]
  exact hlive

/-! ### Systems that differ in expired rows -/

/-- The two systems agree but for rows that have expired by `time`. -/
structure Alike (time : ℕ) (g g' : System) : Prop where
  issued : g'.issued = g.issued
  secret : g'.destinationSecret = g.destinationSecret
  runtime : g'.runtime = g.runtime
  sound : g.Sound
  sound' : g'.Sound
  maxReplays : g'.durable.maxReplays = g.durable.maxReplays
  replays : ∀ row, time < row.expiresAt → (row ∈ g'.durable.replays ↔ row ∈ g.durable.replays)
  revocations : ∀ row, time < row.expiresAt →
    (row ∈ g'.durable.revocations ↔ row ∈ g.durable.revocations)

variable {now : ℕ} {durable : GatewayStateStore}

theorem Sound.alike_purged (h : g.Sound) (now : ℕ) :
    Alike now g { g with durable := g.durable.purged now } where
  issued := rfl
  secret := rfl
  runtime := rfl
  sound := h
  sound' := h.addsNone rfl (addsNone_purged _ _)
  maxReplays := rfl
  replays := fun _ hlive => ⟨mem_of_mem_purgeTable, fun hrow =>
    purgeTable_of_live hrow hlive⟩
  revocations := fun _ hlive => ⟨mem_of_mem_purgeTable, fun hrow =>
    purgeTable_of_live hrow hlive⟩

section

variable (h : Alike time g g')

include h

theorem Alike.payloads : g'.payloads = g.payloads := by
  rw [System.payloads, h.issued, System.payloads]

theorem Alike.isRevoked (htime : time ≤ request.now) :
    (g'.durable.purged request.now).isRevoked request.capabilityId request.now =
      (g.durable.purged request.now).isRevoked request.capabilityId request.now := by
  rw [Bool.eq_iff_iff, isRevoked_purged_iff, isRevoked_purged_iff]
  exact exists_congr fun row => and_congr_left fun hrow =>
    h.revocations row (Nat.lt_of_le_of_lt htime hrow.2)

theorem Alike.isDuplicate (htime : time ≤ request.now) :
    (g'.durable.purged request.now).isDuplicate request.capabilityId request.requestNonce
      request.now =
      (g.durable.purged request.now).isDuplicate request.capabilityId request.requestNonce
        request.now := by
  rw [Bool.eq_iff_iff, isDuplicate_purged_iff, isDuplicate_purged_iff]
  exact exists_congr fun row => and_congr_left fun hrow =>
    h.replays row (Nat.lt_of_le_of_lt htime hrow.2)

theorem Alike.full_iff (htime : time ≤ now) :
    (g'.durable.purged now).maxReplays ≤ (g'.durable.purged now).replays.rows.length ↔
      (g.durable.purged now).maxReplays ≤ (g.durable.purged now).replays.rows.length := by
  have hnd : ∀ g : System, (g.durable.live now).Nodup := fun g =>
    (List.Nodup.of_map _ g.durable.replays.nodup).filter _
  have hperm : (g'.durable.live now).Perm (g.durable.live now) := by
    rw [perm_ext_iff_of_nodup (hnd g') (hnd g)]
    intro row
    simp only [GatewayStateStore.live, mem_filter, decide_eq_true_eq]
    exact and_congr_left fun hlive => h.replays row (Nat.lt_of_le_of_lt htime hlive)
  show g'.durable.maxReplays ≤ _ ↔ g.durable.maxReplays ≤ _
  rw [GatewayStateStore.full_iff h.sound'.room, GatewayStateStore.full_iff h.sound.room,
    h.maxReplays, hperm.length_eq]

theorem Alike.symm : Alike time g' g :=
  ⟨h.issued.symm, h.secret.symm, h.runtime.symm, h.sound', h.sound, h.maxReplays.symm,
    fun row hlive => (h.replays row hlive).symm, fun row hlive => (h.revocations row hlive).symm⟩

theorem Alike.trans {g'' : System} (h' : Alike time g' g'') : Alike time g g'' :=
  ⟨h'.issued.trans h.issued, h'.secret.trans h.secret, h'.runtime.trans h.runtime, h.sound,
    h'.sound', h'.maxReplays.trans h.maxReplays,
    fun row hlive => (h'.replays row hlive).trans (h.replays row hlive),
    fun row hlive => (h'.revocations row hlive).trans (h.revocations row hlive)⟩

theorem Alike.of_le {time' : ℕ} (hle : time ≤ time') : Alike time' g g' :=
  { h with
    replays := fun row hlive => h.replays row (Nat.lt_of_le_of_lt hle hlive)
    revocations := fun row hlive => h.revocations row (Nat.lt_of_le_of_lt hle hlive) }

theorem Alike.purged (htime : time ≤ now) : Alike now { g with durable := g.durable.purged now }
      { g' with durable := g'.durable.purged now } :=
  (h.sound.alike_purged now).symm.trans ((h.of_le htime).trans (h.sound'.alike_purged now))

theorem Alike.with_runtime (runtime : RuntimeState) :
    Alike time { g with runtime := runtime } { g' with runtime := runtime } where
  issued := h.issued
  secret := h.secret
  runtime := rfl
  sound := ⟨h.sound.ids, h.sound.room, h.sound.rows⟩
  sound' := ⟨h.sound'.ids, h.sound'.room, h.sound'.rows⟩
  maxReplays := h.maxReplays
  replays := h.replays
  revocations := h.revocations

end

/-! ### Authorization -/

/-- The checks of an authorization that do not read the tables. -/
def authorizationChecks (request : Request) : Except WakeError Unit := do
  rejectIf (request.payload.isExpired request.now = true) (.invalid "wake capability expired")
  validateExpiry request.payload.expiresAt request.now
  rejectIf (request.capabilityId = .zero 16 ∨ request.requestNonce = .zero 16)
    (.invalid "zero wake state identifier")
  let _ ← asI64 request.now
  .ok ()

theorem ask_eq (g : System) (request : Request) :
    g.ask request = authorizationChecks request >>= fun _ =>
      (g.durable.purged request.now).decideAuthorization request.row request.now := by
  unfold ask GatewayStateStore.authorize GatewayStateStore.purgeExpired authorizationChecks
  unfold asI64 validateExpiry rejectIf
  split_ifs <;> rfl

theorem lt_of_authorizationChecks (h : authorizationChecks request = .ok ()) :
    request.now < request.payload.expiresAt := by
  rw [authorizationChecks, rejectIf_bind_eq_ok_iff] at h
  exact lt_of_not_isExpired h.1

/-- The decision over the tables when the request may be inserted. -/
theorem decideAuthorization_eq {store : GatewayStateStore} {row : Replay}
    (hrev : store.isRevoked row.capabilityId now = false)
    (hunused : store.isDuplicate row.capabilityId row.requestNonce now = false)
    (hroom : ¬ store.maxReplays ≤ store.replays.rows.length)
    (hkey : row.key ∉ store.replays.rows.map Replay.key) :
    store.decideAuthorization row now = asI64 row.expiresAt >>= fun _ =>
      .ok (.fresh, { store with replays := store.replays.put row }) := by
  unfold GatewayStateStore.decideAuthorization GatewayStateStore.insertReplay
  rw [if_neg (by simp [hrev]), if_neg (by simp [hunused]), if_neg hroom]
  cases asI64 row.expiresAt with
  | error e => rfl
  | ok value => rw [ok_bind, rejectIf_bind_of_not hkey, ok_bind, ok_bind]

theorem Alike.put (h : Alike time g g') (hiss : request.payload ∈ g.payloads)
    (hroom : ¬ g.durable.maxReplays ≤ g.durable.replays.rows.length)
    (hroom' : ¬ g'.durable.maxReplays ≤ g'.durable.replays.rows.length)
    (hkey : request.row.key ∉ g.durable.replays.rows.map Replay.key)
    (hkey' : request.row.key ∉ g'.durable.replays.rows.map Replay.key) :
    Alike time { g with durable := { g.durable with replays := g.durable.replays.put request.row } }
      { g' with durable := { g'.durable with replays := g'.durable.replays.put request.row } } := by
  have hput := h.sound.put hiss (Nat.not_le.mp hroom) hkey
  have hput' := h.sound'.put (h.payloads ▸ hiss) (Nat.not_le.mp hroom') hkey'
  refine ⟨h.issued, h.secret, h.runtime, hput, hput', h.maxReplays, fun row hlive => ?_,
    h.revocations⟩
  rw [mem_put_iff, mem_put_iff, h.replays row hlive]

/-- Alike gateways give one answer to a request and stay alike. -/
theorem Alike.ask (h : Alike time g g') (htime : time ≤ request.now)
    (hiss : request.payload ∈ g.payloads) :
    (∃ e, g.ask request = .error e ∧ g'.ask request = .error e) ∨
    ∃ answer durable durable', g.ask request = .ok (answer, durable) ∧
      g'.ask request = .ok (answer, durable') ∧
      Alike request.now { g with durable := durable } { g' with durable := durable' } := by
  rw [ask_eq, ask_eq]
  cases hcheck : authorizationChecks request with
  | error e => exact .inl ⟨e, rfl, rfl⟩
  | ok u =>
    have hlive := lt_of_authorizationChecks hcheck
    have hpur := h.purged htime
    have hrev := h.isRevoked htime
    have hdup := h.isDuplicate htime
    have hfull := h.full_iff htime
    -- The tests of the ledger, in their order; each gives one answer on both sides.
    by_cases hr : (g.durable.purged request.now).isRevoked request.capabilityId request.now = true
    · refine .inr ⟨.revoked, _, _, ?_, ?_, hpur⟩
      · exact if_pos hr
      · exact if_pos (hrev.trans hr)
    by_cases hd : (g.durable.purged request.now).isDuplicate request.capabilityId
        request.requestNonce request.now = true
    · refine .inr ⟨.duplicate, _, _, ?_, ?_, hpur⟩
      · exact (if_neg hr).trans (if_pos hd)
      · exact (if_neg (hrev ▸ hr)).trans (if_pos (hdup.trans hd))
    by_cases hf : (g.durable.purged request.now).maxReplays ≤
        (g.durable.purged request.now).replays.rows.length
    · refine .inr ⟨.full, _, _, ?_, ?_, hpur⟩
      · exact (if_neg hr).trans ((if_neg hd).trans (if_pos hf))
      · exact (if_neg (hrev ▸ hr)).trans ((if_neg (hdup ▸ hd)).trans (if_pos (hfull.mpr hf)))
    -- The row is new on both sides, so both insert it.
    have hf' := mt hfull.mp hf
    have hkey := h.sound.key_not_mem hiss hlive hd
    have hkey' := h.sound'.key_not_mem (h.payloads ▸ hiss) hlive (hdup ▸ hd)
    rw [decideAuthorization_eq (Bool.eq_false_iff.mpr hr) (Bool.eq_false_iff.mpr hd) hf hkey,
      decideAuthorization_eq (Bool.eq_false_iff.mpr (hrev ▸ hr))
        (Bool.eq_false_iff.mpr (hdup ▸ hd)) hf' hkey']
    cases asI64 request.row.expiresAt with
    | error e => exact .inl ⟨e, rfl, rfl⟩
    | ok value => exact .inr ⟨.fresh, _, _, rfl, rfl, hpur.put hiss hf hf' hkey hkey'⟩

/-! ### Answers -/

theorem Alike.rate (h : Alike time g g') :
    g'.rate limits hmacSha256 request = g.rate limits hmacSha256 request := by
  unfold System.rate
  rw [h.secret, h.runtime]

theorem Alike.serve (h : Alike time g g') (htime : time ≤ request.now)
    (hiss : request.payload ∈ g.payloads) :
    (g'.serve limits hmacSha256 request).1 = (g.serve limits hmacSha256 request).1 ∧
      Alike request.now (g.serve limits hmacSha256 request).2
        (g'.serve limits hmacSha256 request).2 := by
  unfold System.serve
  rw [h.rate]
  rcases h.ask htime hiss with ⟨e, he, he'⟩ | ⟨_, _, _, ha, ha', halike⟩
  · rw [he, he']
    exact ⟨rfl, h.of_le htime⟩
  · rw [ha, ha']
    dsimp only
    split_ifs
    · exact ⟨rfl, halike.with_runtime _⟩
    · exact ⟨rfl, halike⟩

theorem issued_serve (g : System) (request : Request) :
    (g.serve limits hmacSha256 request).2.issued = g.issued := by
  unfold System.serve
  cases g.ask request with
  | error e => rfl
  | ok outcome =>
    dsimp only
    split_ifs <;> rfl

/-- The answers to triggers served one after the other. -/
def answers (limits : GatewayLimits) (hmacSha256 : Octets 32 → Bytes → Octets 32) :
    System → List Request → List Answer
  | _, [] => []
  | g, request :: requests => (g.serve limits hmacSha256 request).1 ::
    answers limits hmacSha256 (g.serve limits hmacSha256 request).2 requests

theorem answers_eq_of_alike {requests : List Request} (h : Alike time g g')
    (hiss : ∀ r ∈ requests, r.payload ∈ g.payloads)
    (htime : requests.Pairwise fun a b => a.now ≤ b.now) (hfrom : ∀ r ∈ requests, time ≤ r.now) :
    answers limits hmacSha256 g' requests = answers limits hmacSha256 g requests := by
  induction requests generalizing g g' time with
  | nil => rfl
  | cons request requests ih =>
    rw [forall_mem_cons] at hiss hfrom
    rw [pairwise_cons] at htime
    obtain ⟨hans, halike⟩ := h.serve hfrom.1 hiss.1
    rw [answers, answers, hans, ih halike ?_ htime.2 htime.1]
    rw [payloads, issued_serve]
    exact hiss.2

/-! ### Triggers beyond the limit -/

/-- The capability has used up its triggers of the minute. -/
def OverLimit (limits : GatewayLimits) (g : System) (request : Request) : Prop :=
  limits.perCapabilityPerMinute ≤
    Window.hits (g.runtime.capability.lookup request.capabilityId) request.minute

/-- The trigger occupies no row of the replay table, and whatever triggers come later, of any
capabilities, they are answered as if it had not been made. -/
def Unnoticed (limits : GatewayLimits) (hmacSha256 : Octets 32 → Bytes → Octets 32) (g : System)
    (request : Request) : Prop :=
  (∀ row ∈ (g.serve limits hmacSha256 request).2.durable.replays, row ∈ g.durable.replays) ∧
  ∀ later : List Request, (∀ r ∈ later, r.payload ∈ g.payloads) →
    (request :: later).Pairwise (fun a b => a.now ≤ b.now) →
    answers limits hmacSha256 (g.serve limits hmacSha256 request).2 later =
      answers limits hmacSha256 g later

theorem ask_eq_ok {answer : Authorization} (h : g.ask request = .ok (answer, durable)) :
    request.now < request.payload.expiresAt ∧
      ((answer = .fresh ∧ (g.durable.purged request.now).Fresh request.row request.now durable) ∨
        (answer ≠ .fresh ∧ durable = g.durable.purged request.now)) := by
  rw [ask_eq, check_bind_eq_ok_iff] at h
  exact ⟨lt_of_authorizationChecks h.1, decideAuthorization_eq_ok h.2⟩

theorem authorization_serve : (g.serve limits hmacSha256 request).1.authorization =
    (g.ask request).map Prod.fst := by
  unfold System.serve
  cases g.ask request with
  | error e => rfl
  | ok outcome =>
    dsimp only
    split_ifs <;> rfl

theorem serve_of_not_fresh (h : (g.serve limits hmacSha256 request).1.authorization ≠ .ok .fresh) :
    (g.serve limits hmacSha256 request).2 = g ∨
      (g.serve limits hmacSha256 request).2 =
        { g with durable := g.durable.purged request.now } := by
  rw [authorization_serve] at h
  unfold System.serve
  cases hask : g.ask request with
  | error e => exact .inl rfl
  | ok outcome =>
    rw [hask] at h
    obtain ⟨hyes, -⟩ | ⟨hfr, hdurable⟩ := (ask_eq_ok hask).2
    · exact absurd (congrArg Except.ok hyes) h
    · dsimp only
      rw [if_neg hfr, hdurable]
      exact .inr rfl

theorem row_of_fresh (h : (g.serve limits hmacSha256 request).1.authorization = .ok .fresh) :
    request.row ∈ (g.serve limits hmacSha256 request).2.durable.replays ∧
      request.row ∉ g.durable.replays := by
  rw [authorization_serve] at h
  obtain ⟨⟨_, durable⟩, hask, rfl⟩ := map_eq_ok_iff.mp h
  obtain ⟨hlive, ⟨-, hins⟩ | ⟨hne, -⟩⟩ := ask_eq_ok hask
  · rw [System.serve, hask]
    refine ⟨hins.mem, fun hrow => ?_⟩
    have hdup := isDuplicate_purged_iff.mpr ⟨_, hrow, rfl, hlive⟩
    exact Bool.eq_false_iff.mp hins.unused hdup
  · exact absurd rfl hne

theorem Sound.alike_self (h : g.Sound) (time : ℕ) : Alike time g g :=
  ⟨rfl, rfl, rfl, h, h, rfl, fun _ _ => Iff.rfl, fun _ _ => Iff.rfl⟩

theorem Sound.unnoticed_iff (h : g.Sound) : g.Unnoticed limits hmacSha256 request ↔
      (g.serve limits hmacSha256 request).1.authorization ≠ .ok .fresh := by
  constructor
  · intro hunn hfr
    obtain ⟨hmem, hnot⟩ := row_of_fresh hfr
    exact hnot (hunn.1 _ hmem)
  · intro hfr
    have halike : Alike request.now g (g.serve limits hmacSha256 request).2 := by
      rcases serve_of_not_fresh hfr with heq | heq
      · rw [heq]
        exact h.alike_self _
      · rw [heq]
        exact h.alike_purged _
    refine ⟨fun row hrow => ?_, fun later hiss htime => ?_⟩
    · rcases serve_of_not_fresh hfr with heq | heq
      · rwa [heq] at hrow
      · rw [heq] at hrow
        exact mem_of_mem_purgeTable hrow
    · rw [pairwise_cons] at htime
      exact answers_eq_of_alike halike hiss htime.2 htime.1

/-! ### Fresh triggers -/

/-- The gateway has a row for the trigger: it is valid, its capability is not revoked, its nonce is
not in use, and the rows that have not expired leave room. -/
structure HasRow (g : System) (request : Request) : Prop where
  valid : authorizationChecks request = .ok () ∧ request.payload.expiresAt < 2 ^ 63
  unrevoked : ∀ row ∈ g.durable.revocations, row.capabilityId = request.capabilityId →
    row.expiresAt ≤ request.now
  unused : ∀ row ∈ g.durable.replays, row.key = (request.capabilityId, request.requestNonce) →
    row.expiresAt ≤ request.now
  room : (g.durable.live request.now).length < g.durable.maxReplays

/-- **When a trigger is found fresh.** -/
theorem Sound.fresh_iff (h : g.Sound) (hissued : request.payload ∈ g.payloads) :
    (g.serve limits hmacSha256 request).1.authorization = .ok .fresh ↔ g.HasRow request := by
  have hfull := @full_iff g.durable request.now h.room
  rw [authorization_serve, ask_eq]
  constructor
  · intro hfresh
    obtain ⟨⟨_, durable⟩, hok, rfl⟩ := map_eq_ok_iff.mp hfresh
    obtain ⟨hchecks, hdecide⟩ := check_bind_eq_ok_iff.mp hok
    obtain ⟨-, hins⟩ | ⟨hne, -⟩ := decideAuthorization_eq_ok hdecide
    swap
    · exact absurd rfl hne
    rw [decideAuthorization_eq hins.unrevoked hins.unused (Nat.not_le.mpr hins.room) hins.key]
      at hdecide
    obtain ⟨_, hsqlite, -⟩ := bind_eq_ok_iff.mp hdecide
    refine ⟨⟨hchecks, (asI64_eq_ok hsqlite).1⟩, fun row hrow hid => ?_, fun row hrow hkey => ?_,
      Nat.not_le.mp (mt hfull.mpr (Nat.not_le.mpr hins.room))⟩
    · refine Nat.not_lt.mp fun hlt => Bool.eq_false_iff.mp hins.unrevoked ?_
      exact isRevoked_purged_iff.mpr ⟨row, hrow, hid, hlt⟩
    · refine Nat.not_lt.mp fun hlt => Bool.eq_false_iff.mp hins.unused ?_
      exact isDuplicate_purged_iff.mpr ⟨row, hrow, hkey, hlt⟩
  · intro hrow
    have hrev : (g.durable.purged request.now).isRevoked request.capabilityId request.now ≠ true :=
      fun hrev => by
        obtain ⟨row, hmem, hid, hlt⟩ := isRevoked_purged_iff.mp hrev
        exact absurd (hrow.unrevoked row hmem hid) (Nat.not_le.mpr hlt)
    have hunused : (g.durable.purged request.now).isDuplicate request.capabilityId
        request.requestNonce request.now ≠ true := fun hused => by
      obtain ⟨row, hmem, hkey, hlt⟩ := isDuplicate_purged_iff.mp hused
      exact absurd (hrow.unused row hmem hkey) (Nat.not_le.mpr hlt)
    have hsqlite : ¬ 2 ^ 63 ≤ request.row.expiresAt := Nat.not_le.mpr hrow.valid.2
    have hkey := h.key_not_mem hissued (lt_of_authorizationChecks hrow.valid.1) hunused
    rw [hrow.valid.1, ok_bind, decideAuthorization_eq (Bool.eq_false_iff.mpr hrev)
      (Bool.eq_false_iff.mpr hunused) (mt hfull.mp (Nat.not_le.mpr hrow.room)) hkey, asI64,
      rejectIf_bind_of_not hsqlite]
    rfl

/-! ### Sequences of triggers -/

/-- A property of each trigger of a sequence, in the state in which it is served. -/
def Along (limits : GatewayLimits) (hmacSha256 : Octets 32 → Bytes → Octets 32)
    (P : System → Request → Prop) : System → List Request → Prop
  | _, [] => True
  | g, request :: requests =>
    P g request ∧ Along limits hmacSha256 P (g.serve limits hmacSha256 request).2 requests

theorem Sound.serve (h : g.Sound) (hiss : request.payload ∈ g.payloads) :
    (g.serve limits hmacSha256 request).2.Sound :=
  ((h.alike_self request.now).serve (Nat.le_refl _) hiss).2.sound

/-- **A trigger beyond the limit of its capability goes unnoticed just when the gateway has no row
for it**, for every trigger of every sequence. -/
theorem along_unnoticed_iff (hsound : g.Sound) {requests : List Request}
    (hissued : ∀ r ∈ requests, r.payload ∈ g.payloads) :
    Along limits hmacSha256 (fun g r => g.OverLimit limits r → g.Unnoticed limits hmacSha256 r) g
        requests ↔
      Along limits hmacSha256 (fun g r => g.OverLimit limits r → ¬ g.HasRow r) g requests := by
  induction requests generalizing g with
  | nil => exact Iff.rfl
  | cons request requests ih =>
    rw [forall_mem_cons] at hissued
    have hrest : ∀ r ∈ requests, r.payload ∈ (g.serve limits hmacSha256 request).2.payloads := by
      rw [payloads, issued_serve]
      exact hissued.2
    rw [Along, Along, hsound.unnoticed_iff, ne_eq, hsound.fresh_iff hissued.1,
      ih (hsound.serve hissued.1) hrest]

/-! Two devices, and a replay table with room for two rows. -/

namespace Sample

def roomy : GatewayLimits := { policy with globalPerMinute := 10 }

def small : System := start (.create 4 2) (.replicate 32 1)

/-- Both devices are registered, and the first capability is used once. -/
def spent : List Step :=
  [register 1 0, register 2 0, receive 1 10, .authorize (trigger 1 0 10),
    .rateAndCoalesce (trigger 1 0 10), .send (call 1 0 10) none]

/-- The first capability once more in the same minute, with another nonce. -/
def excess : Request := ⟨payload 1 0, .replicate 16 8, 20⟩

theorem run_spent : Run roomy digest InOrder small (spent.reverse ++ [])
    (small.play roomy digest spent) :=
  Run.start.play (by decide +kernel)

/-- A repeated nonce beyond the limit goes unnoticed. -/
theorem along_unnoticed_repeated :
    (small.play roomy digest spent).OverLimit roomy (trigger 1 0 20) ∧
      Along roomy digest (fun g r => g.OverLimit roomy r → g.Unnoticed roomy digest r)
        (small.play roomy digest spent) [trigger 1 0 20] := by
  refine ⟨by unfold OverLimit; decide +kernel, ?_⟩
  have hiss : ∀ r ∈ [trigger 1 0 20], r.payload ∈ (small.play roomy digest spent).payloads := by
    decide +kernel
  have hused : ∃ row ∈ (small.play roomy digest spent).durable.replays.rows,
      row.key = ((trigger 1 0 20).capabilityId, (trigger 1 0 20).requestNonce) ∧
        (trigger 1 0 20).now < row.expiresAt := by decide +kernel
  refine (along_unnoticed_iff (run_sound run_spent) hiss).mpr ⟨fun _ hrow => ?_, trivial⟩
  obtain ⟨row, hmem, hkey, hlive⟩ := hused
  exact absurd (hrow.unused row hmem hkey) (Nat.not_le.mpr hlive)

/-- A trigger beyond the limit takes the last row, and the fresh trigger of the other device is
turned away. -/
theorem crowded_out :
    (∃ steps, Run roomy digest InOrder small steps (small.play roomy digest spent)) ∧
    roomy.validate = .ok () ∧
    (small.play roomy digest spent).OverLimit roomy excess ∧
    ((small.play roomy digest spent).serve roomy digest (trigger 2 0 20)).1 = ⟨.ok .fresh, true⟩ ∧
    (((small.play roomy digest spent).serve roomy digest excess).2.serve roomy digest
      (trigger 2 0 20)).1 = ⟨.ok .full, false⟩ ∧
    ¬ (small.play roomy digest spent).Unnoticed roomy digest excess := by
  refine ⟨⟨_, run_spent⟩, by decide +kernel, by unfold OverLimit; decide +kernel, by decide +kernel,
    by decide +kernel, fun hunn => ?_⟩
  exact absurd ((run_sound run_spent).unnoticed_iff.mp hunn) (by decide +kernel)

end Sample

end System

end Komms.Wake
