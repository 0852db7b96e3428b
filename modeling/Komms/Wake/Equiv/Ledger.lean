import Komms.Wake.Equiv.State
import Komms.Wake.Run

/-!
# The database of the wake gateway over runs

`Effect` says all that a step can do to the database and to the requests; `step_effect` is the one
place where the steps are taken apart.  Three invariants follow from it.

* `Genuine`: every request carries a payload that was issued, under an identifier of its own.
* `Sound`: the replay rows are of issued capabilities and within their number.
* `Ledger`: a used nonce and a revoked capability have their row until the capability expires.  A
  row may be purged after that, and then the database can not tell them any more; so a trigger has
  to be authorized before any transaction at or after the expiry of its capability (`InOrder`).
-/

namespace Komms.Wake

open List GatewayStateStore

/-- The row that an authorization of the request writes. -/
def Request.row (request : Request) : Replay :=
  ⟨request.capabilityId, request.requestNonce, request.payload.expiresAt⟩

namespace System

/-- A trigger is authorized before any transaction at or after the expiry of its capability, and
rated before any trigger of a later time. -/
def InOrder (g : System) : Step → Prop
  | .authorize request => g.durableAt < request.payload.expiresAt
  | .rateAndCoalesce request => g.runtimeAt ≤ request.now
  | _ => True

instance decidableInOrder (g : System) : (s : Step) → Decidable (g.InOrder s)
  | .authorize request => inferInstanceAs (Decidable (g.durableAt < request.payload.expiresAt))
  | .rateAndCoalesce request => inferInstanceAs (Decidable (g.runtimeAt ≤ request.now))
  | .register _ _ _ _ | .receiveTrigger _ _ | .receiveRevoke _ _ | .send _ _ | .retire _ | .revoke _
  | .counts _ | .restart _ => .isTrue trivial

/-! ### Requests -/

def payloads (g : System) : List WakeCapabilityPayload := g.issued.map Prod.snd

/-- The requests that were authorized and not dropped since. -/
def used (g : System) : List Request :=
  g.authorized ++ (g.dispatched ++ g.calls).map Call.request

/-- All requests that the gateway still knows of. -/
def requests (g : System) : List Request :=
  g.received ++ (g.used ++ (g.invalid ++ g.revoking))

variable {limits : GatewayLimits} {hmacSha256 : Octets 32 → Bytes → Octets 32} {g g' : System}
  {request : Request}

theorem mem_requests_of_received (h : request ∈ g.received) : request ∈ g.requests :=
  mem_append_left _ h

theorem mem_requests_of_used (h : request ∈ g.used) : request ∈ g.requests :=
  mem_append_right _ (mem_append_left _ h)

theorem mem_requests_of_invalid (h : request ∈ g.invalid) : request ∈ g.requests :=
  mem_append_right _ (mem_append_right _ (mem_append_left _ h))

theorem mem_requests_of_revoking (h : request ∈ g.revoking) : request ∈ g.requests :=
  mem_append_right _ (mem_append_right _ (mem_append_right _ h))

theorem forall_requests {P : Request → Prop} (hrcv : ∀ r ∈ g.received, P r)
    (hused : ∀ r ∈ g.used, P r) (hinv : ∀ r ∈ g.invalid, P r)
    (hrev : ∀ r ∈ g.revoking, P r) : ∀ r ∈ g.requests, P r :=
  forall_mem_append.mpr ⟨hrcv, forall_mem_append.mpr ⟨hused, forall_mem_append.mpr ⟨hinv, hrev⟩⟩⟩

/-! ### What a step does -/

/-- A change that issues, authorizes and revokes nothing: requests are moved on or dropped, and rows
may expire. -/
structure Moves (g g' : System) : Prop where
  issued : g'.issued = g.issued
  requests : ∀ request ∈ g'.requests, request ∈ g.requests
  used : g'.used.Subperm g.used
  fresh : g'.fresh = g.fresh
  revoked : g'.revoked = g.revoked
  durableAt : g.durableAt ≤ g'.durableAt
  keeps : g.durable.Keeps g'.durableAt g'.durable
  addsNone : g.durable.AddsNone g'.durable

/-- The request is authorized, with its row in the database. -/
def join (g : System) (request : Request) (durable : GatewayStateStore) : System :=
  { g with
    durable := durable
    authorized := request :: g.authorized
    fresh := (request, g.revoked) :: g.fresh }

inductive Effect (g : System) : Step → System → Prop where
  | moves {s : Step} {g' : System} (h : Moves g g') : Effect g s g'
  | issues {s : Step} {g' : System} {capability : Bytes} {payload : WakeCapabilityPayload}
      (h : Moves g g')
      (hnew : payload.capabilityId ∉ g.issued.map fun entry => entry.2.capabilityId) :
      Effect g s { g' with issued := (capability, payload) :: g'.issued }
  | receives {s : Step} {g' : System} {request : Request} (h : Moves g g')
      (hissued : request.payload ∈ g.payloads) (hlive : request.now < request.payload.expiresAt) :
      Effect g s { g' with received := request :: g'.received }
  | receivesRevoke {s : Step} {g' : System} {request : Request} (h : Moves g g')
      (hissued : request.payload ∈ g.payloads) (hlive : request.now < request.payload.expiresAt) :
      Effect g s { g' with revoking := request :: g'.revoking }
  | authorizes {g' : System} {request : Request} {durable : GatewayStateStore}
      (hmem : request ∈ g.received) (h : Moves g g')
      (hpurged : g'.durable = g.durable.purged request.now)
      (hfresh : g'.durable.Fresh request.row request.now durable) :
      Effect g (.authorize request) (g'.join request durable)
  | revokes {s : Step} {g' : System} {request : Request} (hmem : request ∈ g.requests)
      (h : Moves g g')
      (hrow : ∃ row ∈ g'.durable.revocations, row.capabilityId = request.capabilityId ∧
        request.payload.expiresAt ≤ row.expiresAt) :
      Effect g s { g' with revoked := request.capabilityId :: g'.revoked }

/-! Moves. -/

theorem moves_of_durable (hiss : g'.issued = g.issued)
    (hreq : ∀ request ∈ g'.requests, request ∈ g.requests) (hused : g'.used.Subperm g.used)
    (hfresh : g'.fresh = g.fresh) (hrev : g'.revoked = g.revoked)
    (hat : g'.durableAt = g.durableAt) (hdurable : g'.durable = g.durable) : Moves g g' where
  issued := hiss
  requests := hreq
  used := hused
  fresh := hfresh
  revoked := hrev
  durableAt := Nat.le_of_eq hat.symm
  keeps := hdurable ▸ ⟨fun _ hrow _ => hrow, fun row hrow _ => ⟨row, hrow, rfl, Nat.le_refl _⟩⟩
  addsNone := hdurable ▸ ⟨fun _ hrow => hrow, Nat.le_refl _, rfl⟩

variable {now : ℕ} {draws : List (Octets 16 × Octets 24)} {payload : WakeCapabilityPayload}
  {s : Step} {capability : Bytes} {allowed : System → Step → Prop} {durable : GatewayStateStore}

theorem Moves.transaction (h : Moves g g') (hkeep : g.durable.Keeps now durable)
    (hnone : g.durable.AddsNone durable) :
    Moves g { g' with durable := durable, durableAt := max g.durableAt now } :=
  { h with
    durableAt := Nat.le_max_left _ _
    keeps := hkeep.of_le (Nat.le_max_right _ _)
    addsNone := hnone }

theorem moves_clock (g : System) (now : ℕ) : Moves g { g with clock := now } :=
  moves_of_durable rfl (fun _ hr => hr) (.refl _) rfl rfl rfl rfl

theorem moves_waiting {received invalid revoking : List Request}
    (hrcv : ∀ r ∈ received, r ∈ g.received) (hinv : ∀ r ∈ invalid, r ∈ g.invalid)
    (hrev : ∀ r ∈ revoking, r ∈ g.revoking) :
    Moves g { g with received := received, invalid := invalid, revoking := revoking } := by
  refine moves_of_durable rfl (forall_requests ?_ ?_ ?_ ?_) (.refl _) rfl rfl rfl rfl
  · exact fun r hr => mem_requests_of_received (hrcv r hr)
  · exact fun r hr => mem_requests_of_used hr
  · exact fun r hr => mem_requests_of_invalid (hinv r hr)
  · exact fun r hr => mem_requests_of_revoking (hrev r hr)

theorem moves_restart (g : System) (secret : Octets 32) : Moves g (g.restart secret) := by
  have hused : (g.restart secret).used.Subperm g.used := by
    show ([] ++ ([] ++ g.calls).map Call.request).Subperm g.used
    rw [nil_append, nil_append, System.used, map_append]
    exact (sublist_append_right _ _).subperm.trans (sublist_append_right _ _).subperm
  refine moves_of_durable rfl (forall_requests ?_ ?_ ?_ ?_) hused rfl rfl rfl rfl
  · exact nofun
  · exact fun _ hr => mem_requests_of_used (hused.subset hr)
  all_goals exact nofun

theorem moves_counts (g : System) (now : ℕ) : Moves g (({ g with clock := now }).counts now) := by
  unfold System.counts
  cases hcnt : g.durable.counts now with
  | error e => exact moves_clock g now
  | ok answer =>
    obtain ⟨answer, _⟩ := answer
    obtain ⟨_, hclean, hcnt⟩ := bind_eq_ok_iff.mp hcnt
    cases hcnt
    rw [purgeExpired_eq_ok hclean]
    exact (moves_clock g now).transaction (keeps_purged _ _) (addsNone_purged _ _)

theorem moves_used (hiss : g'.issued = g.issued) (hrcv : g'.received = g.received)
    (hused : g'.used.Subperm g.used) (hinv : ∀ r ∈ g'.invalid, r ∈ g.requests)
    (hrev : g'.revoking = g.revoking) (hfresh : g'.fresh = g.fresh)
    (hrevoked : g'.revoked = g.revoked) (hat : g'.durableAt = g.durableAt)
    (hdurable : g'.durable = g.durable) : Moves g g' := by
  refine moves_of_durable hiss (forall_requests ?_ ?_ hinv ?_) hused hfresh hrevoked hat hdurable
  · exact fun r hr => mem_requests_of_received (hrcv ▸ hr)
  · exact fun r hr => mem_requests_of_used (hused.subset hr)
  · exact fun r hr => mem_requests_of_revoking (hrev ▸ hr)

theorem moves_rateAndCoalesce (hmem : request ∈ g.authorized) :
    Moves g (g.rateAndCoalesce limits hmacSha256 request) := by
  have hdrop : ∀ rest : List Request, (g.authorized.erase request ++ rest).Subperm
      (g.authorized ++ rest) := fun rest =>
    (erase_sublist.append_right rest).subperm
  have hkept : ∀ destination, (g.authorized.erase request ++
      ((⟨request, destination⟩ :: g.dispatched) ++ g.calls).map Call.request).Perm g.used := by
    intro destination
    refine perm_middle.trans ?_
    exact (perm_cons_erase hmem).symm.append_right _
  have hinv : ∀ r ∈ g.invalid, r ∈ g.requests := fun _ => mem_requests_of_invalid
  dsimp only [System.rateAndCoalesce]
  cases destinationDigest hmacSha256 g.destinationSecret request.payload with
  | error e => exact moves_used rfl rfl (hdrop _) hinv rfl rfl rfl rfl rfl
  | ok destination =>
    dsimp only
    split_ifs
    · exact moves_used rfl rfl (hkept destination).subperm hinv rfl rfl rfl rfl rfl
    · exact moves_used rfl rfl (hdrop _) hinv rfl rfl rfl rfl rfl

theorem moves_send {call : Call} (hmem : call ∈ g.dispatched) (answer : Option ProviderErrorClass) :
    Moves g (g.send call answer) := by
  have hused : (g.authorized ++
      (g.dispatched.erase call ++ (call :: g.calls)).map Call.request).Perm g.used := by
    refine List.Perm.append_left _ (List.Perm.map _ ?_)
    refine perm_middle.trans ?_
    exact (perm_cons_erase hmem).symm.append_right g.calls
  have hcall : call.request ∈ g.requests := mem_requests_of_used
    (mem_append_right _ (mem_map_of_mem (mem_append_left _ hmem)))
  have hinv : ∀ r ∈ g.invalid, r ∈ g.requests := fun _ => mem_requests_of_invalid
  dsimp only [System.send]
  split_ifs
  · exact moves_used rfl rfl hused.subperm (forall_mem_cons.mpr ⟨hcall, hinv⟩) rfl rfl rfl rfl rfl
  · exact moves_used rfl rfl hused.subperm hinv rfl rfl rfl rfl rfl

/-! The other effects. -/

theorem register_effect {body : Option WakeRegisterRequest}
    (hnew : ∀ draw ∈ drawn draws, draw.1 ∉ g.issued.map fun entry => entry.2.capabilityId) :
    Effect g s (({ g with clock := now }).register limits body draws capability now) := by
  cases body with
  | none => exact .moves (moves_clock g now)
  | some body =>
    dsimp only [System.register]
    cases hreg : registered limits body draws now with
    | error e => exact .moves (moves_clock g now)
    | ok payload =>
      rw [registered, check_bind_eq_ok_iff, bind_eq_ok_iff] at hreg
      obtain ⟨-, draw, hdraw, hreg⟩ := hreg
      cases hreg
      exact .issues (moves_clock g now) (hnew draw (required_eq_ok_iff.mp hdraw))

theorem mem_payloads_of_open (h : g.openCapability capability = some payload) :
    payload ∈ g.payloads := by
  obtain ⟨_, hentry, rfl⟩ := Option.map_eq_some_iff.mp h
  exact mem_map_of_mem (mem_of_find?_eq_some hentry)

theorem lt_of_not_isExpired (h : ¬ payload.isExpired now = true) : now < payload.expiresAt := by
  by_contra hnot
  exact h (decide_eq_true (.inl (Nat.not_lt.mp hnot)))

theorem receive_effect (capability : Bytes) (nonce : Octets 16) (now : ℕ) :
    Effect g s (({ g with clock := now }).receiveTrigger capability nonce now) ∧
      Effect g s (({ g with clock := now }).receiveRevoke capability nonce now) := by
  have hclock := moves_clock g now
  unfold System.receiveTrigger System.receiveRevoke
  cases hopen : { g with clock := now }.openCapability capability with
  | none => exact ⟨.moves hclock, .moves hclock⟩
  | some payload =>
    have hiss := mem_payloads_of_open hopen
    dsimp only
    split_ifs with hexp
    · exact ⟨.moves hclock, .moves hclock⟩
    · have hlive := lt_of_not_isExpired hexp
      exact ⟨.receives hclock hiss hlive, .receivesRevoke hclock hiss hlive⟩

theorem authorize_effect (hmem : request ∈ g.received) :
    Effect g (.authorize request) (g.authorize request) := by
  have hdrop : Moves g { g with received := g.received.erase request } :=
    moves_waiting (fun _ => mem_of_mem_erase) (fun _ hr => hr) fun _ hr => hr
  have hpur := hdrop.transaction (keeps_purged g.durable request.now) (addsNone_purged _ _)
  dsimp only [System.authorize]
  cases hans : g.durable.authorize request.capabilityId request.requestNonce
      request.payload.expiresAt request.now with
  | error e => exact .moves hdrop
  | ok outcome =>
    obtain ⟨_, _⟩ := outcome
    dsimp only
    rw [GatewayStateStore.authorize, check_bind_eq_ok_iff, check_bind_eq_ok_iff,
      bind_eq_ok_iff] at hans
    obtain ⟨-, -, _, hclean, hans⟩ := hans
    rw [purgeExpired_eq_ok hclean] at hans
    rcases decideAuthorization_eq_ok hans with ⟨rfl, hfresh⟩ | ⟨hne, rfl⟩
    · rw [if_pos rfl]
      exact .authorizes hmem hpur rfl hfresh
    · rw [if_neg hne]
      exact .moves hpur

theorem revokeCapability_effect (hmem : request ∈ g.requests) (h : Moves g g')
    (hat : g'.durableAt = g.durableAt) (hdurable : g'.durable = g.durable) :
    Effect g s (g'.revokeCapability request) := by
  unfold System.revokeCapability
  rw [hdurable]
  cases hans : g.durable.revoke request.capabilityId request.payload.expiresAt request.now with
  | error e => exact .moves h
  | ok outcome =>
    obtain ⟨_, _⟩ := outcome
    have hmov := h.transaction (revoke_keeps hans) (revoke_addsNone hans)
    rw [hat]
    rcases revoke_eq_ok hans with ⟨rfl, rfl⟩ | ⟨rfl, rfl⟩
    · -- the revocation written holds at least as long as asked for
      refine .revokes hmem hmov ⟨_, Keyed.mem_put_iff.mpr (.inr rfl), rfl, ?_⟩
      cases (g.durable.purged request.now).revocations.get request.capabilityId with
      | none => exact Nat.le_refl _
      | some old => exact Nat.le_max_right _ _
    · exact .moves hmov

/-- **What a legal step does.** -/
theorem step_effect (hleg : g.Legal s) : Effect g s (g.step limits hmacSha256 s) := by
  -- A request that waits nowhere makes no step.
  have hstays : Effect g s g :=
    .moves (moves_of_durable rfl (fun _ hr => hr) (.refl _) rfl rfl rfl rfl)
  cases s with
  | register body draws capability now => exact register_effect hleg.2.2
  | receiveTrigger body now =>
    cases body with
    | none => exact .moves (moves_clock g now)
    | some body => exact (receive_effect body.1 body.2 now).1
  | receiveRevoke body now =>
    cases body with
    | none => exact .moves (moves_clock g now)
    | some body => exact (receive_effect body.1 body.2 now).2
  | authorize request =>
    dsimp only [System.step]
    split_ifs with hmem
    · exact authorize_effect hmem
    · exact hstays
  | rateAndCoalesce request =>
    dsimp only [System.step]
    split_ifs with hmem
    · exact .moves (moves_rateAndCoalesce hmem)
    · exact hstays
  | send call answer =>
    dsimp only [System.step]
    split_ifs with hmem
    · exact .moves (moves_send hmem answer)
    · exact hstays
  | retire request =>
    dsimp only [System.step]
    split_ifs with hmem
    -- The request leaves the list it waited in before the revocation is written.
    · have hdrop : Moves g { g with invalid := g.invalid.erase request } :=
        moves_waiting (fun _ hr => hr) (fun _ => mem_of_mem_erase) fun _ hr => hr
      exact revokeCapability_effect (mem_requests_of_invalid hmem) hdrop rfl rfl
    · exact hstays
  | revoke request =>
    dsimp only [System.step]
    split_ifs with hmem
    · have hdrop : Moves g { g with revoking := g.revoking.erase request } :=
        moves_waiting (fun _ hr => hr) (fun _ hr => hr) fun _ => mem_of_mem_erase
      exact revokeCapability_effect (mem_requests_of_revoking hmem) hdrop rfl rfl
    · exact hstays
  | counts now => exact .moves (moves_counts g now)
  | restart secret => exact .moves (moves_restart g secret)

/-! ### Requests are genuine -/

structure Genuine (g : System) : Prop where
  ids : (g.issued.map fun entry => entry.2.capabilityId).Nodup
  opened : ∀ request ∈ g.requests,
    request.payload ∈ g.payloads ∧ request.now < request.payload.expiresAt

theorem payload_eq (hids : (g.issued.map fun entry => entry.2.capabilityId).Nodup)
    {p p' : WakeCapabilityPayload} (hp : p ∈ g.payloads) (hp' : p' ∈ g.payloads)
    (hid : p.capabilityId = p'.capabilityId) : p = p' := by
  have hids' : (g.payloads.map WakeCapabilityPayload.capabilityId).Nodup := by
    rwa [payloads, map_map]
  exact inj_on_of_nodup_map hids' hp hp' hid

theorem Moves.payloads (h : Moves g g') : g'.payloads = g.payloads := by
  rw [System.payloads, h.issued, System.payloads]

theorem Genuine.moves (h : g.Genuine) (hmov : Moves g g') : g'.Genuine where
  ids := hmov.issued ▸ h.ids
  opened := fun r hr => hmov.payloads ▸ h.opened r (hmov.requests r hr)

/-- **A step keeps what is held genuine.** -/
theorem Genuine.step (h : g.Genuine) {s : Step} (heff : Effect g s g') : g'.Genuine := by
  cases heff with
  | moves hmov => exact h.moves hmov
  | @issues _ g' _ payload hmov hnew =>
    have hgenuine := h.moves hmov
    rw [← hmov.issued] at hnew
    exact ⟨nodup_cons.mpr ⟨hnew, hgenuine.ids⟩, fun r hr =>
      ⟨mem_cons_of_mem _ (hgenuine.opened r hr).1, (hgenuine.opened r hr).2⟩⟩
  | receives hmov hiss hlive =>
    have hgenuine := h.moves hmov
    rw [← hmov.payloads] at hiss
    refine ⟨hgenuine.ids, ?_⟩
    exact forall_mem_cons.mpr ⟨⟨hiss, hlive⟩, hgenuine.opened⟩
  | @receivesRevoke _ g' request hmov hiss hlive =>
    have hgenuine := h.moves hmov
    rw [← hmov.payloads] at hiss
    refine ⟨hgenuine.ids, fun r hr => ?_⟩
    refine (forall_mem_cons.mpr ⟨⟨hiss, hlive⟩, hgenuine.opened⟩ : ∀ r ∈ _ :: g'.requests, _) r ?_
    -- The request stands in the last of the lists.
    have hlast : (g'.used ++ (g'.invalid ++ request :: g'.revoking)).Perm (request :: _) :=
      (perm_middle.append_left _).trans perm_middle
    exact ((hlast.append_left _).trans perm_middle).subset hr
  | @authorizes g' _ _ hmem hmov _ _ =>
    have hgenuine := h.moves hmov
    have hopen := h.opened _ (mem_requests_of_received hmem)
    rw [← hmov.payloads] at hopen
    refine ⟨hgenuine.ids, fun r hr => ?_⟩
    refine (forall_mem_cons.mpr ⟨hopen, hgenuine.opened⟩ : ∀ r ∈ _ :: g'.requests, _) r ?_
    exact perm_middle.subset hr
  | revokes _ hmov _ => exact { h.moves hmov with }

/-! ### Rows of issued capabilities -/

structure Sound (g : System) : Prop where
  ids : (g.issued.map fun entry => entry.2.capabilityId).Nodup
  room : g.durable.replays.rows.length ≤ g.durable.maxReplays
  rows : ∀ row ∈ g.durable.replays, ∃ payload ∈ g.payloads,
    payload.capabilityId = row.capabilityId ∧ payload.expiresAt = row.expiresAt

theorem Sound.addsNone (h : g.Sound) (hiss : g'.issued = g.issued)
    (hnone : g.durable.AddsNone g'.durable) : g'.Sound where
  ids := hiss ▸ h.ids
  room := by
    rw [hnone.maxReplays]
    exact Nat.le_trans hnone.length h.room
  rows := fun row hrow => by
    rw [payloads, hiss]
    exact h.rows row (hnone.replays row hrow)

theorem Sound.moves (h : g.Sound) (hmov : Moves g g') : g'.Sound :=
  h.addsNone hmov.issued hmov.addsNone

theorem Sound.put (h : g.Sound) (hiss : request.payload ∈ g.payloads)
    (hroom : g.durable.replays.rows.length < g.durable.maxReplays)
    (hkey : request.row.key ∉ g.durable.replays.rows.map Replay.key) :
    Sound { g with durable := { g.durable with replays := g.durable.replays.put request.row }
      } := by
  refine ⟨h.ids, ?_, fun row hrow => ?_⟩
  · have hrows : (g.durable.replays.put request.row).rows = g.durable.replays.rows ++
        [request.row] :=
      Table.put_of_get_none (Table.get_eq_none_iff.mpr fun old hold hsame =>
        hkey (hsame ▸ mem_map_of_mem hold))
    rw [hrows, length_append]
    exact hroom
  · rcases Keyed.mem_put_iff.mp hrow with ⟨hold, -⟩ | rfl
    · exact h.rows row hold
    · exact ⟨request.payload, hiss, rfl, rfl⟩

theorem Sound.step (h : g.Sound) (hgenuine : g.Genuine) {s : Step} (heff : Effect g s g') :
    g'.Sound := by
  have hgen' := hgenuine.step heff
  cases heff with
  | moves hmov => exact h.moves hmov
  | issues hmov hnew =>
    have hsnd := h.moves hmov
    refine ⟨hgen'.ids, hsnd.room, fun row hrow => ?_⟩
    obtain ⟨payload, hpay, hrest⟩ := hsnd.rows row hrow
    exact ⟨payload, mem_cons_of_mem _ hpay, hrest⟩
  | receives hmov _ _ | receivesRevoke hmov _ _ => exact { h.moves hmov with }
  | authorizes hmem hmov _ hfresh =>
    have hsnd := h.moves hmov
    have hiss := (hgenuine.opened _ (mem_requests_of_received hmem)).1
    rw [← hmov.payloads] at hiss
    obtain ⟨-, -, hroom, hkey, rfl⟩ := hfresh
    exact { hsnd.put hiss hroom hkey with }
  | revokes _ hmov _ => exact { h.moves hmov with }

/-! ### Used nonces and revoked capabilities -/

structure Ledger (g : System) : Prop where
  once : (g.used.map Request.key).Nodup
  recorded : ∀ request ∈ g.used,
    request.row ∈ g.durable.replays ∨ request.payload.expiresAt ≤ g.durableAt
  unrevoked : ∀ request ∈ g.used, ∃ revoked, (request, revoked) ∈ g.fresh ∧
    request.capabilityId ∉ revoked
  revocations : ∀ capabilityId ∈ g.revoked, ∃ payload ∈ g.payloads,
    payload.capabilityId = capabilityId ∧
      ((∃ row ∈ g.durable.revocations, row.capabilityId = capabilityId ∧
        payload.expiresAt ≤ row.expiresAt) ∨ payload.expiresAt ≤ g.durableAt)

/-- A move keeps the ledger. -/
theorem Ledger.moves (h : g.Ledger) (hmov : Moves g g') : g'.Ledger where
  once := by
    obtain ⟨kept, hperm, hsub⟩ := hmov.used
    have hnd : (kept.map Request.key).Nodup := h.once.sublist (hsub.map _)
    exact (hperm.map Request.key).nodup_iff.mp hnd
  recorded := by
    intro request hreq
    rcases h.recorded request (hmov.used.subset hreq) with hrow | hover
    -- The purge drops only rows of payloads that have expired.
    · by_cases hlive : g'.durableAt < request.payload.expiresAt
      · exact .inl (hmov.keeps.replays _ hrow hlive)
      · exact .inr (Nat.not_lt.mp hlive)
    · exact .inr (Nat.le_trans hover hmov.durableAt)
  unrevoked := by
    intro request hreq
    rw [hmov.fresh]
    exact h.unrevoked request (hmov.used.subset hreq)
  revocations := by
    intro id hid
    rw [hmov.revoked] at hid
    obtain ⟨payload, hpay, heq, hrow⟩ := h.revocations id hid
    refine ⟨payload, hmov.payloads ▸ hpay, heq, ?_⟩
    rcases hrow with ⟨row, hrow, hrowi, hle⟩ | hover
    · by_cases hlive : g'.durableAt < payload.expiresAt
      · obtain ⟨row', hrow', hid', hle'⟩ :=
          hmov.keeps.revocations row hrow (Nat.lt_of_lt_of_le hlive hle)
        exact .inl ⟨row', hrow', hid'.trans hrowi, Nat.le_trans hle hle'⟩
      · exact .inr (Nat.not_lt.mp hlive)
    · exact .inr (Nat.le_trans hover hmov.durableAt)

section Authorized

variable (h : g.Ledger) (hgenuine : g.Genuine) (hmem : request ∈ g.received)
  (horder : g.durableAt < request.payload.expiresAt)
  (hfresh : (g.durable.purged request.now).Fresh request.row request.now durable)
include h hgenuine hmem horder hfresh

theorem Ledger.unused : request.key ∉ g.used.map Request.key := by
  intro hkey
  obtain ⟨old, hold, hsame⟩ := mem_map.mp hkey
  obtain ⟨hiss, hlive⟩ := hgenuine.opened request (mem_requests_of_received hmem)
  have hpay : old.payload = request.payload := payload_eq hgenuine.ids
    (hgenuine.opened old (mem_requests_of_used hold)).1 hiss (congrArg Prod.fst hsame)
  have hrow : old.row = request.row := by
    have hnon : old.requestNonce = request.requestNonce := congrArg Prod.snd hsame
    rw [Request.row, Request.row, Request.capabilityId, Request.capabilityId, hpay, hnon]
  rcases h.recorded old hold with hrec | hover
  · rw [hrow] at hrec
    have hdup := isDuplicate_purged_iff.mpr ⟨_, hrec, rfl, hlive⟩
    rw [hfresh.unused] at hdup
    cases hdup
  · rw [hpay] at hover
    omega

theorem Ledger.not_revoked : request.capabilityId ∉ g.revoked := by
  intro hrev
  obtain ⟨hiss, hlive⟩ := hgenuine.opened request (mem_requests_of_received hmem)
  obtain ⟨payload, hpay, hid, hrow⟩ := h.revocations _ hrev
  obtain rfl : payload = request.payload := payload_eq hgenuine.ids hpay hiss hid
  rcases hrow with ⟨_, hrow, hrowi, hle⟩ | _
  · have hfnd := isRevoked_purged_iff.mpr ⟨_, hrow, rfl, Nat.lt_of_lt_of_le hlive hle⟩
    rw [hrowi] at hfnd
    have hnot : (g.durable.purged request.now).isRevoked request.capabilityId request.now = false :=
      hfresh.unrevoked
    rw [hnot] at hfnd
    cases hfnd
  · omega

end Authorized

/-- **One step keeps the ledger**, when it is in order. -/
theorem Ledger.step (h : g.Ledger) (hgenuine : g.Genuine) {s : Step} (horder : g.InOrder s)
    (heff : Effect g s g') : g'.Ledger := by
  cases heff with
  | moves hmov => exact h.moves hmov
  | issues hmov hnew =>
    have hled := h.moves hmov
    refine { hled with revocations := fun id hid => ?_ }
    obtain ⟨payload, hpay, hrest⟩ := hled.revocations id hid
    exact ⟨payload, mem_cons_of_mem _ hpay, hrest⟩
  | receives hmov _ _ | receivesRevoke hmov _ _ => exact { h.moves hmov with }
  | @authorizes g' request durable hmem hmov hpur hfresh =>
    have hled := h.moves hmov
    rw [hpur] at hfresh
    -- A fresh answer means that the key was never used and the capability not revoked.
    have hkey : request.key ∉ g'.used.map Request.key := fun hmem' =>
      h.unused hgenuine hmem horder hfresh (map_subset _ hmov.used.subset hmem')
    have hrev : request.capabilityId ∉ g'.revoked :=
      hmov.revoked ▸ h.not_revoked hgenuine hmem horder hfresh
    rw [← hpur] at hfresh
    refine ⟨nodup_cons.mpr ⟨hkey, hled.once⟩, ?_, ?_, ?_⟩
    · refine forall_mem_cons.mpr ⟨.inl hfresh.mem, fun r hr => ?_⟩
      exact (hled.recorded r hr).imp_left hfresh.subset
    · refine forall_mem_cons.mpr ⟨⟨g'.revoked, .head _, hrev⟩, fun r hr => ?_⟩
      obtain ⟨revoked, hmem', hnot⟩ := hled.unrevoked r hr
      exact ⟨revoked, .tail _ hmem', hnot⟩
    · intro id hid
      obtain ⟨payload, hpay, heq, hrow⟩ := hled.revocations id hid
      refine ⟨payload, hpay, heq, ?_⟩
      show (∃ row ∈ durable.revocations, _) ∨ _
      rw [hfresh.revocations]
      exact hrow
  | @revokes _ g' request hmem hmov hrow =>
    have hled := h.moves hmov
    -- The revocation row is that of the payload the request was opened with.
    have hiss := (hgenuine.opened request hmem).1
    rw [← hmov.payloads] at hiss
    refine { hled with revocations := forall_mem_cons.mpr ⟨?_, hled.revocations⟩ }
    exact ⟨request.payload, hiss, rfl, .inl hrow⟩

/-! ### Runs -/

variable {durable : GatewayStateStore} {secret : Octets 32} {steps : List Step}

theorem run_genuine (h : Run limits hmacSha256 allowed (start durable secret) steps g) :
    g.Genuine := by
  induction h with
  | start => exact ⟨nodup_nil, nofun⟩
  | step _ hleg _ ih => exact ih.step (step_effect hleg)

theorem run_ledger (h : Run limits hmacSha256 InOrder (start durable secret) steps g) :
    g.Ledger := by
  induction h with
  | start => exact ⟨nodup_nil, nofun, nofun, nofun⟩
  | step hrun hleg horder ih => exact ih.step (run_genuine hrun) horder (step_effect hleg)

theorem run_sound {maxRevocations maxReplays : ℕ}
    (h : Run limits hmacSha256 allowed (start (.create maxRevocations maxReplays) secret) steps g) :
    g.Sound := by
  induction h with
  | start => exact ⟨nodup_nil, Nat.zero_le _, nofun⟩
  | step hrun hleg _ ih => exact ih.step (run_genuine hrun) (step_effect hleg)

end System

end Komms.Wake
