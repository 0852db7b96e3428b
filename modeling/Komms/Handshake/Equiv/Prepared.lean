import Komms.Handshake.Equiv.Commit
import Komms.Handshake.Equiv.Sessions

/-!
# What is prepared from a flight

A request that is prepared from a flight is staged, or dropped because the table of requests is
full, just when it fits (`returns_stageRequest_iff`).  The plan that is prepared from the handshake
of a contact is one made from the stored rows (`planSound_of_prepareReceive`), and preparing it
fails only on a group whose sender chain does not rotate (`prepareReceive_ne_fail_iff`).
-/

namespace Komms.Handshake

open List Except

variable {Session : Type} {E : Env Session} {s : Store Session} {node : Node Session}
  {f : Flight Session} {r : Received} {d : Draws}

/-! ### The vault -/

theorem filter_ne_self {α : Type} {p q : α → Bool} {a : α} {l : List α} (h : l.find? p = some a)
    (hq : p a = true → q a = false) : l.filter q ≠ l := fun hfil => by
  have hmem := mem_of_find?_eq_some h
  rw [← hfil, mem_filter, hq (find?_some h)] at hmem
  exact Bool.false_ne_true hmem.2

theorem candidateVault_ne (hread : Read E node r.now d.ratchetKey f) (h : f.vaultChanged = true) :
    f.candidateVault node.vault ≠ node.vault := by
  intro heq
  cases hid : f.opened.init.opkId with
  | some id =>
    obtain ⟨opk, hopk⟩ := Option.isSome_iff_exists.mp (hread.opk id hid)
    refine filter_ne_self hopk (q := fun o => o.id ≠ id) (by simp) ?_
    have hfields := congrArg PrekeyVault.opks heq
    simp only [Flight.candidateVault, hid, Option.map_some, Option.getD_some] at hfields
    cases hinv : f.invitation <;>
      simpa [hinv, PrekeyVault.removeInvitation, PrekeyVault.removeOpk] using hfields
  | none =>
    have hsome : f.invitation.isSome = true := by simpa [Flight.vaultChanged, hid] using h
    obtain ⟨digest, hdig⟩ := Option.isSome_iff_exists.mp hsome
    obtain ⟨_, hsec⟩ := Option.isSome_iff_exists.mp (hread.invitation digest hdig)
    obtain ⟨_, hfind, -⟩ := Option.map_eq_some_iff.mp hsec
    refine filter_ne_self hfind (q := fun i => i.bundleDigest ≠ digest) (by simp_all) ?_
    have hfields := congrArg PrekeyVault.invitations heq
    simpa [Flight.candidateVault, hid, hdig, PrekeyVault.removeInvitation] using hfields

theorem prekeys_ne (hE : Lawful E) (hread : Read E node r.now d.ratchetKey f) :
    ∀ t ∈ f.prekeys E node.vault, t.1 ≠ t.2 := by
  intro t ht
  unfold Flight.prekeys at ht
  split_ifs at ht with hchange
  · obtain rfl := Option.mem_some_iff.mp ht
    exact fun heq => candidateVault_ne hread hchange (hE.encodeVault_injective heq).symm
  · exact absurd ht (by simp)

/-! ### The envelope's own row -/

theorem validatePending_of_waiting (h : Waiting E s r) :
    validatePending E s (pendingDelete E r) = .ok () := by
  unfold pendingDelete
  cases hseq : r.pendingSequence with
  | none => rfl
  | some sequence =>
    simp [validatePending, h.pending sequence hseq, bind_eq_ok_iff]

theorem returns_commitTerminalInput (h : Waiting E node.store r) :
    Returns (commitTerminalInput E node r).result := by
  unfold commitTerminalInput
  rw [Effect.returns_ofExcept_iff, returns_bind_of_forall fun _ => returns_ok _,
    returns_mapError_iff, commitMaintenance, returns_check_bind_iff]
  exact ⟨⟨_, validatePending_of_waiting h⟩, returns_ok _⟩

theorem returns_stopped (h : Waiting E node.store r) (stop : Stop) :
    Returns (stopped E node r stop).result := by
  cases stop with
  | later => exact returns_ok _
  | terminal => exact returns_commitTerminalInput h

/-! ### Requests -/

theorem charBoundary_le (text : Bytes) (i : ℕ) : charBoundary text i ≤ i := by
  induction i with
  | zero => exact Nat.le_refl _
  | succ i ih =>
    rw [charBoundary]
    split_ifs
    · exact Nat.le_refl _
    · exact ih.trans (Nat.le_succ i)

theorem length_requestPreview_le {content preview : Bytes}
    (h : requestPreview E content = .ok preview) : preview.length ≤ maxProvisionalPreviewBytes := by
  unfold requestPreview at h
  split_ifs at h
  · cases h
    exact Nat.zero_le _
  · split at h
    any_goals
      cases h
      unfold boundedRequestPreview
      split_ifs with hlen
      · exact hlen
      · rw [length_take]
        exact (min_le_left _ _).trans (charBoundary_le _ _)
    · exact absurd h (by simp)

theorem toNat_requestExpiry (now : UInt64) :
    (requestExpiry now).toNat = min (now.toNat + maxProvisionalLifetimeSecs) (2 ^ 64 - 1) := by
  rw [requestExpiry, UInt64.toNat_ofNat']
  exact Nat.mod_eq_of_lt (by omega)

variable {now : UInt64} {plan : AdmissionStagePlan Session} {keepPrior : Bool}
  {changes : Changes Session} {peer : Octets 32}

/-- A request expires after it arrives, unless time has run out. -/
theorem requestExpiry_le_iff : requestExpiry now ≤ now ↔ now = .ofNat (2 ^ 64 - 1) := by
  have hlt := now.toNat_lt
  rw [UInt64.le_iff_toNat_le, toNat_requestExpiry, ← UInt64.toNat_inj, UInt64.toNat_ofNat']
  simp only [maxProvisionalLifetimeSecs]
  omega

/-- What a prepared request is. -/
structure RequestPrepared (E : Env Session) (node : Node Session) (f : Flight Session)
    (r : Received) (plan : AdmissionStagePlan Session) : Prop where
  requestId : plan.after.requestId = E.contentId r.envelope
  contentId : plan.contentId = E.contentId r.envelope
  account : plan.after.account = f.opened.peer
  device : plan.after.device = f.opened.peerDevice
  contact : plan.after.contact = f.contactRecord E
  devices : plan.after.devices = (endpoints E node.store f r.now).rows
  content_le : plan.after.firstContent.length ≤ maxProvisionalContentBytes
  preview_le : plan.after.preview.length ≤ maxProvisionalPreviewBytes
  safetyNumber : plan.after.safetyNumber = E.safetyNumber E.account f.opened.accountIdentity
  arrivedAt : plan.after.arrivedAt = r.now
  expiresAt : plan.after.expiresAt = requestExpiry r.now
  before : plan.before = node.store.getProvisionalRequest f.opened.peer
  later : ∀ prior ∈ plan.before, plan.after.laterThan prior
  prekeys : plan.prekeys = f.prekeys E node.vault
  sourcePending : plan.sourcePending = pendingDelete E r

theorem requestPrepared_of_prepareRequest (h : prepareRequest E node f r = .ok plan) :
    RequestPrepared E node f r plan := by
  simp only [prepareRequest, bind_eq_ok_iff, rejectIf_eq_ok_iff, ok.injEq] at h
  obtain ⟨_, -, _, -, _, hcon, _, hprev, _, hlate, rfl⟩ := h
  refine ⟨rfl, rfl, rfl, rfl, rfl, rfl, Nat.le_of_not_lt hcon, length_requestPreview_le hprev,
    rfl, rfl, rfl, rfl, ?_, rfl, rfl⟩
  intro prior hprior
  dsimp only at hprior
  rw [Option.mem_def.mp hprior] at hlate
  simpa using hlate

section

variable (hE : Lawful E) (hs : Sound E node.store) (hread : Read E node r.now d.ratchetKey f)
  (hcontact : f.contact = none)

include hE hs hread hcontact

/-- What a prepared request is refused for: too many devices, a zero key, a session that is too
large, or an arrival at the end of time. -/
theorem validateRequest_eq_ok_iff (h : RequestPrepared E node f r plan) :
    plan.after.validate E = .ok () ↔
      DevicesFit plan.after.devices ∧
        (E.sessionBytes plan.after.session).length ≤ maxProvisionalSessionBytes ∧
        plan.after.arrivedAt ≠ .ofNat (2 ^ 64 - 1) := by
  have hrows := rowsFit_endpoints hE hs hread r.now
  rw [← h.devices, ← h.account, ← h.device] at hrows
  obtain ⟨sender, hsnd, hdev⟩ := hrows.sender_mem
  -- The checks that hold by the preparation.
  have hne : plan.after.devices ≠ [] := ne_nil_of_mem hsnd
  have hacc : plan.after.devices.any (fun row => row.account ≠ plan.after.account) = false := by
    simpa using hrows.account_eq
  have hls : plan.after.devices.all (fun row => row.device ≠ plan.after.device) = false := by
    simp only [all_eq_false]
    exact ⟨sender, hsnd, by simp [hdev]⟩
  have hpeer : plan.after.contact.peer = plan.after.account ∧ plan.after.contact.name = [] ∧
      plan.after.contact.verified = false ∧
      plan.after.contact.identity = f.opened.accountIdentity := by
    rw [h.contact, h.account]
    simp [Flight.contactRecord, hcontact]
  have hsaf : plan.after.safetyNumber.wellFormed = true := by
    rw [h.safetyNumber]
    exact hE.safetyNumber_wellFormed _ _
  have hlifetime : ¬ plan.after.expiresAt.toNat - plan.after.arrivedAt.toNat >
      maxProvisionalLifetimeSecs := by
    rw [h.expiresAt, h.arrivedAt, toNat_requestExpiry]
    omega
  have hexp : plan.after.expiresAt ≤ plan.after.arrivedAt ↔
      plan.after.arrivedAt = .ofNat (2 ^ 64 - 1) := by
    rw [h.expiresAt, h.arrivedAt]
    exact requestExpiry_le_iff
  have hver : ¬ (plan.after.contact.identity.verify E.group.suite ≠ .ok ()) := by
    rw [hpeer.2.2.2, not_not]
    exact hread.accountIdentity_verify
  have hed : ¬ plan.after.contact.identity.ed ≠ plan.after.account := by
    rw [hpeer.2.2.2, h.account, not_not]
    rfl
  have hid : plan.after.requestId ≠ .zero 16 := h.requestId ▸ hE.contentId_ne _
  simp only [ProvisionalRequest.validate, rejectIf_bind_eq_ok_iff,
    forEach_eq_ok_iff, not_or, not_lt, hid, hpeer.1, hpeer.2.1, hpeer.2.2.1, hne, hacc, hls,
    hE.sessionBytes_ne, h.content_le, h.preview_le, hsaf, hlifetime, hexp, hver, hed, ne_eq,
    not_true_eq_false, not_false_eq_true, Bool.false_eq_true, Bool.true_eq_false, true_and,
    and_true, gt_iff_lt]
  constructor
  · rintro ⟨⟨-, -, hlen, hsession, hnow⟩, hval⟩
    refine ⟨⟨hlen, fun row hrow => ?_⟩, hsession, hnow⟩
    have hchk := hval row hrow
    simp only [validateContactDevice, rejectIf_eq_ok_iff, not_or] at hchk
    exact ⟨hchk.1, hchk.2.1⟩
  · rintro ⟨⟨hlen, hkeys⟩, hsession, hnow⟩
    -- The account and the device of the request are those of the row of the sender.
    obtain ⟨haccount, hsdev⟩ := hkeys sender hsnd
    rw [hrows.account_eq sender hsnd] at haccount
    rw [hdev] at hsdev
    exact ⟨⟨haccount, hsdev, hlen, hsession, hnow⟩, fun row hrow =>
      hrows.valid row hrow (hkeys row hrow).1 (hkeys row hrow).2⟩

/-- Of the checks of a staged request, only these can fail. -/
theorem validateAdmissionStage_eq_ok_iff [DecidableEq Session] (hwt : Waiting E node.store r)
    (h : RequestPrepared E node f r plan) :
    validateAdmissionStage E node.store plan = .ok () ↔ RequestFits E node.store plan := by
  -- The checks that hold by the reading and the preparation.
  have hcon' : node.store.contacts plan.after.account = none := by
    rw [h.account, ← hread.contact, hcontact]
  have hblock : node.store.blocked plan.after.account = false := by
    rw [h.account]
    exact hread.unblocked
  have hbef : node.store.getProvisionalRequest plan.after.account = plan.before := by
    rw [h.account, h.before]
  have huns : plan.contentId ∉ node.store.seen := h.contentId ▸ hwt.unseen
  have hzero : plan.contentId ≠ .zero 16 := h.contentId ▸ hE.contentId_ne _
  have hsame : plan.contentId = plan.after.requestId := h.contentId.trans h.requestId.symm
  have hlate : ¬ (plan.before.any fun before => ¬ plan.after.laterThan before) := by
    cases hprior : plan.before with
    | none => simp
    | some prior => simpa using h.later prior hprior
  have hprekey := @validatePrekeys_eq_ok_iff _ node.store plan.prekeys
    (h.prekeys ▸ prekeys_ne hE hread)
  have hpen : validatePending E node.store plan.sourcePending = .ok () :=
    h.sourcePending ▸ validatePending_of_waiting hwt
  have htombs : ¬ ((node.store.tombstones plan.contentId).any
      (fun expiresAt => expiresAt > plan.after.arrivedAt)) ↔
        ∀ expiresAt ∈ node.store.tombstones plan.contentId, expiresAt ≤ plan.after.arrivedAt := by
    cases node.store.tombstones plan.contentId with
    | none => simp
    | some expiresAt => simp
  have hreq := validateRequest_eq_ok_iff hE hs hread hcontact h
  simp only [validateAdmissionStage, check_bind_eq_ok_iff, rejectIf_eq_ok_iff, hreq, not_or,
    hcon', hblock, hbef, huns, hzero, ← hsame, hlate, hprekey, hpen, htombs,
    ne_eq, not_true_eq_false, not_false_eq_true, Bool.false_eq_true, Option.isSome_none, true_and,
    and_true, Bool.not_eq_true, Option.isSome_eq_false_iff, Option.isNone_iff_eq_none]
  constructor
  · rintro ⟨⟨hdev, hsession, hnow⟩, ⟨htombstone, hnone⟩, hfit⟩
    exact ⟨hdev, hsession, hnow, hnone, htombstone, hfit⟩
  · rintro ⟨hdev, hsession, hnow, hnone, htombstone, hfit⟩
    exact ⟨⟨hdev, hsession, hnow⟩, ⟨htombstone, hnone⟩, hfit⟩

end

theorem validateRequest_ne_quota (request : ProvisionalRequest Session) :
    request.validate E ≠ .error .admissionQuota := by
  refine bind_ne_error (rejectIf_ne_error (by decide)) fun _ => ?_
  refine bind_ne_error (rejectIf_ne_error (by decide)) fun _ => ?_
  refine bind_ne_error (rejectIf_ne_error (by decide)) fun _ => ?_
  exact forEach_ne_error fun _ => rejectIf_ne_error (by decide)

theorem validateAdmissionStage_ne_quota [DecidableEq Session] (plan : AdmissionStagePlan Session) :
    validateAdmissionStage E s plan ≠ .error .admissionQuota := by
  unfold validateAdmissionStage validatePrekeys validatePending
  refine bind_ne_error (validateRequest_ne_quota _) fun _ => ?_
  refine bind_ne_error (rejectIf_ne_error (by decide)) fun _ => ?_
  refine bind_ne_error (rejectIf_ne_error (by decide)) fun _ => ?_
  refine bind_ne_error ?_ fun _ => ?_
  · split
    · exact nofun
    · exact rejectIf_ne_error (by decide)
  · split
    · exact nofun
    · exact bind_ne_error (required_ne_error (by decide)) fun _ => rejectIf_ne_error (by decide)

/-- A request within its bounds is put, or the table is full. -/
theorem putProvisionalRequest_of_valid {request : ProvisionalRequest Session}
    (h : request.validate E = .ok ()) : Returns (putProvisionalRequest E s request) ∨
      putProvisionalRequest E s request = .error .admissionQuota := by
  have hquota : ∀ (c : Prop) [Decidable c], rejectIf c StoreError.admissionQuota = .ok () ∨
      rejectIf c StoreError.admissionQuota = .error .admissionQuota := fun c _ =>
    if hc : c then .inr (if_pos hc) else .inl (if_neg hc)
  unfold putProvisionalRequest
  rw [h, ok_bind]
  dsimp only
  rcases hquota ((s.getProvisionalRequest request.account).isNone ∧
    s.requests.length ≥ maxProvisionalRequests) with hrows | hrows
  · rw [hrows, ok_bind]
    rcases hquota (((s.requests.filter (fun old => old.account ≠ request.account) ++
      [request]).map E.requestSize).sum > maxProvisionalRequestBytes) with hbytes | hbytes
    · rw [hbytes]
      exact .inl (returns_ok _)
    · rw [hbytes]
      exact .inr rfl
  · rw [hrows]
    exact .inr rfl

/-- When the staging of a prepared request returns: when the request fits. -/
theorem returns_stageRequest_iff [DecidableEq Session] (hE : Lawful E) (hs : Sound E node.store)
    (hread : Read E node r.now d.ratchetKey f) (hcontact : f.contact = none)
    (hwt : Waiting E node.store r) : Returns (stageRequest E node f r).result ↔
      ∀ plan, prepareRequest E node f r = .ok plan → RequestFits E node.store plan := by
  unfold stageRequest
  cases hprep : prepareRequest E node f r with
  | error stop => simpa using returns_stopped hwt stop
  | ok plan =>
    have hprepare := requestPrepared_of_prepareRequest hprep
    have hval := validateAdmissionStage_eq_ok_iff hE hs hread hcontact hwt hprepare
    simp only [ok.injEq, forall_eq']
    rw [← hval]
    cases hchk : validateAdmissionStage E node.store plan with
    | error e =>
      -- Only the write reports a full quota, and then the flight is discarded.
      have hne : e ≠ .admissionQuota := fun he =>
        validateAdmissionStage_ne_quota plan (he ▸ hchk)
      have hcom : commitAdmissionStage E node.store plan = .error e := by
        rw [commitAdmissionStage, hchk]
        rfl
      cases e <;> simp_all
    | ok _ =>
      refine iff_of_true ?_ rfl
      have hreq : plan.after.validate E = .ok () := by
        simp only [validateAdmissionStage, check_bind_eq_ok_iff] at hchk
        exact hchk.1
      rcases putProvisionalRequest_of_valid hreq with ⟨_, hput⟩ | hput
      · have hcom : Returns (commitAdmissionStage E node.store plan) := by
          rw [commitAdmissionStage, hchk, ok_bind, hput]
          exact returns_ok _
        obtain ⟨_, hcom⟩ := hcom
        simp only [hcom]
        exact returns_ok _
      -- No room: the flight is discarded with its message.
      · have hcom : commitAdmissionStage E node.store plan = .error .admissionQuota := by
          rw [commitAdmissionStage, hchk, ok_bind, hput]
          rfl
        simp only [hcom]
        exact returns_commitTerminalInput hwt

/-! ### The session of a contact -/

theorem chooseSession_ne_fail (e : NodeError) : chooseSession E s f ≠ .error (.fail e) := by
  unfold chooseSession
  dsimp only
  split
  · simp
  · next hkeep =>
    cases hprior : s.sessions f.opened.peerDevice with
    | some prior => simp [required, bind, Except.bind]
    | none =>
      -- without a session there is none to keep
      rw [hprior] at hkeep
      cases hint : f.opened.intent <;> simp [decideInboundSession, hint] at hkeep
  · simp

variable {plan : HandshakeReceivePlan Session}

theorem sessionAfter_ne (hE : Lawful E) (hfr : Fresh E node.store d)
    (hread : Read E node r.now d.ratchetKey f) (h : prepareReceive E d node f r = .ok plan) :
    some plan.sessionAfter ≠ node.store.sessions f.opened.peerDevice := by
  obtain ⟨-, -, -, ⟨_, _, _, hprior, hafter⟩ | ⟨-, hnew⟩⟩ := prepareReceive_session hread h
  · -- A kept session has encrypted the receipt.
    rw [hprior, hafter]
    exact fun heq => hE.encrypt_ne _ _ _ (Option.some.inj heq)
  · -- A new one has the ratchet key drawn for it.
    obtain ⟨_, hagree⟩ := hread.session
    have hkey := Option.some.inj (hnew.ratchetKey hE)
    rw [hE.agree_ratchetKey hagree] at hkey
    exact fun heq => hfr.ratchetKey_ne heq.symm hkey

/-! ### The first payload of a contact -/

/-- What is received is for the peer and has new ids of its own. -/
theorem prepareInbound_fits (hfr : Fresh E s d) {body : Bytes} :
    validateNewMedia s (prepareInbound E s d peer body now).mediaTransfers
      (prepareInbound E s d peer body now).mediaObjects = .ok () ∧
      ∀ m ∈ (prepareInbound E s d peer body now).message, m.peer = peer := by
  unfold prepareInbound
  dsimp only
  split_ifs
  · exact ⟨by simp [validateNewMedia, PreparedInbound.empty], by simp [PreparedInbound.empty]⟩
  · split
    case h_5 primary preview _ =>
      refine ⟨?_, by simp⟩
      have htrs : s.mediaTransfers.all (fun old => old.localId ≠ d.transferId) = true := by
        simpa using hfr.transferId_ne
      have hobject : ∀ o ∈ s.mediaObjects, o.localId ≠ d.primaryId ∧ o.localId ≠ d.previewId :=
        hfr.objectId_ne
      cases preview with
      | none => simp_all [validateNewMedia]
      | some descriptor => simp_all [validateNewMedia, hfr.primaryId_ne]
    all_goals
      exact ⟨by simp [validateNewMedia, PreparedInbound.empty], by simp [PreparedInbound.empty]⟩

theorem firstInbound_fits (hfr : Fresh E s d) {now : UInt64} {inbound : Option PreparedInbound}
    (h : firstInbound E s d f now = inbound) :
    validateNewMedia s ((inbound.map PreparedInbound.mediaTransfers).getD [])
      ((inbound.map PreparedInbound.mediaObjects).getD []) = .ok () ∧
      ∀ m ∈ inbound.bind PreparedInbound.message, m.peer = f.opened.peer := by
  cases inbound with
  | none => exact ⟨by simp [validateNewMedia], by simp⟩
  | some prepared =>
    unfold firstInbound at h
    split at h
    · split_ifs at h
      cases h
      exact prepareInbound_fits hfr
    · exact absurd h (by simp)

/-! ### The plan of a contact's handshake -/

theorem prepareChanges_eq_ok (h : prepareChanges E s f now = .ok changes) :
    (changes.resets = ⟨[], [], [], []⟩ ∨
      prepareResets s f.opened.peer f.opened.peerDevice = .ok changes.resets) ∧
    (deletedQueue E s f changes.keepPrior now).length ≤ maxCommitQueueRows ∧
    changes.resets.messages.length ≤ maxCommitQueueRows ∧
    changes.resets.deliveries.length ≤ maxCommitQueueRows ∧
    changes.resets.groupMessages.length ≤ maxCommitQueueRows ∧
    changes.resets.groupDeliveries.length ≤ maxCommitQueueRows := by
  simp only [prepareChanges, bind_eq_ok_iff, rejectIf_eq_ok_iff, ok.injEq, not_or, not_lt] at h
  obtain ⟨⟨_, _⟩, -, _, hres, _, hbd, rfl⟩ := h
  refine ⟨?_, hbd⟩
  unfold changedResets at hres
  split_ifs at hres
  · exact .inr (mapError_eq_ok_iff.mp hres)
  · exact .inl (ok.inj hres).symm

/-- Stored rows give every change but too large ones. -/
theorem prepareChanges_ne_fail (hs : Sound E s) {now : UInt64} (e : NodeError) :
    prepareChanges E s f now ≠ .error (.fail e) := by
  refine bind_ne_error (chooseSession_ne_fail e) fun chosen => ?_
  refine bind_ne_error ?_ fun resets => ?_
  rotate_left
  · exact bind_ne_error (rejectIf_ne_error (by simp)) fun _ => by simp
  unfold changedResets
  split_ifs
  · obtain ⟨_, hres⟩ := @returns_prepareResets _ E s f.opened.peer f.opened.peerDevice hs
    rw [hres]
    exact nofun
  · exact nofun

theorem contactRecord_peer (hs : Sound E node.store) (hread : Read E node r.now d.ratchetKey f) :
    (f.contactRecord E).peer = f.opened.peer := by
  unfold Flight.contactRecord
  cases hcontact : f.contact with
  | none => rfl
  | some contact =>
    have hpeer : contact.peer = f.opened.peer := hs.contact_peer (hread.contact ▸ hcontact)
    split_ifs <;> exact hpeer

theorem prepareReceive_eq_ok (h : prepareReceive E d node f r = .ok plan) : ∃ changes groups,
      prepareChanges E node.store f r.now = .ok changes ∧
      (groups = [] ∨ prepareGroupsOnSessionEstablished E node.store d f.opened.peer = .ok groups) ∧
      plan = receivePlan E node f r changes groups (firstInbound E node.store d f r.now) ∧
      plan.mutationCount ≤ maxCommitMutations := by
  simp only [prepareReceive, bind_eq_ok_iff, rejectIf_eq_ok_iff, ok.injEq, not_lt] at h
  obtain ⟨changes, hchange, groups, hgrps, _, hmut, rfl⟩ := h
  refine ⟨changes, groups, hchange, ?_, rfl, hmut⟩
  unfold changedGroups at hgrps
  split_ifs at hgrps
  · exact .inl (ok.inj hgrps).symm
  · exact .inr (mapError_eq_ok_iff.mp hgrps)

/-- **A prepared plan is made from the stored rows.** -/
theorem planSound_of_prepareReceive (hE : Lawful E) (hs : Sound E node.store)
    (hfr : Fresh E node.store d) (hwt : Waiting E node.store r)
    (hread : Read E node r.now d.ratchetKey f) (h : prepareReceive E d node f r = .ok plan) :
    PlanSound E node.store plan := by
  have hsession := sessionAfter_ne hE hfr hread h
  obtain ⟨changes, groups, hchange, hgrps, rfl, hmut⟩ := prepareReceive_eq_ok h
  obtain ⟨hres, hqueue, hbd⟩ := prepareChanges_eq_ok hchange
  have hpeer := contactRecord_peer hs hread
  have hinb := @firstInbound_fits _ E node.store f d hfr r.now _ rfl
  -- A session that is kept takes nothing back.
  have hreset : ResetsFit node.store f.opened.peer f.opened.peerDevice changes.resets := by
    rcases hres with hnil | hres
    · rw [hnil]
      exact resetsFit_nil _ _ _
    · exact resetsFit_of_prepareResets hs hres
  have hclean : (cleanupDevices E node.store f r.now).Nodup :=
    (@pairwise_sortDedup _ _ _ id _).imp ne_of_lt
  refine
    { session_before := rfl
      session_ne := hsession
      contentId_ne := hE.contentId_ne _
      rows := hpeer ▸ rowsFit_endpoints hE hs hread r.now
      queue_le := ?queue_le
      deleteQueue_le := hqueue
      resetMessages_le := hbd.1
      resetDeliveries_le := hbd.2.1
      retireGroupMessages_le := hbd.2.2.1
      retireGroupDeliveries_le := hbd.2.2.2
      queue_items := ?queue_items
      mutations_le := hmut
      deleted := fun row hrow => hpeer ▸ mem_endpoints_deleted hrow
      deleteSessions_nodup := hclean.filter _
      deleteSessions := ?deleteSessions
      deleteQueue := ?deleteQueue
      resets := hpeer ▸ hreset
      prekeys_ne := prekeys_ne hE hread
      groups := ?groups
      message_peer := hpeer ▸ hinb.2
      pending := validatePending_of_waiting hwt
      media := hinb.1
      unseen := hwt.unseen
      queue_ne := ?queue_ne
      receipt := ?receipt }
  case queue_le =>
    simp only [receivePlan]
    split_ifs <;> simp [maxCommitQueueRows]
  case queue_items =>
    intro item hitem
    simp only [receivePlan] at hitem
    split_ifs at hitem
    · obtain rfl := mem_singleton.mp hitem
      exact ⟨rfl, rfl, rfl, rfl⟩
    · cases hitem
  -- The session of the sender is not among those that go.
  case deleteSessions =>
    intro device hdev
    obtain ⟨hmem, hsome⟩ := mem_filter.mp hdev
    exact ⟨ne_of_mem_cleanup hread (sortDedup_subset hmem), hsome⟩
  case deleteQueue =>
    intro row hrow
    obtain ⟨item, hitem, rfl⟩ := mem_map.mp hrow
    exact ⟨item, (mem_filter.mp hitem).1, rfl⟩
  case groups =>
    rcases hgrps with rfl | hgrps
    · rfl
    · exact validateGroups_of_prepareGroups hs hgrps
  case queue_ne =>
    intro htrue
    simp only [receivePlan] at htrue ⊢
    simp [htrue]
  -- What a flight brings is receipted.
  case receipt =>
    intro hrcv
    simp only [receivePlan] at hrcv ⊢
    cases hfst : firstInbound E node.store d f r.now with
    | some inbound => rfl
    | none => simp [hfst] at hrcv

theorem changedGroups_ne_fail_iff (hs : Sound E s) (hfr : Fresh E s d) :
    (∀ e, changedGroups E s d peer keepPrior ≠ .error (.fail e)) ↔
      (keepPrior = false → peer ≠ E.account.ed → GroupsRotate E s peer) := by
  cases keepPrior with
  | true => exact iff_of_true (fun e h => nomatch h) fun h => nomatch h
  | false =>
    rw [forall_prop_of_true rfl, ← returns_prepareGroups_iff hs hfr.chainKey_ne]
    cases hprep : prepareGroupsOnSessionEstablished E s d peer with
    | error e =>
      refine iff_of_false (fun h => h e ?_) (not_returns_error e)
      simp [changedGroups, hprep, Except.mapError]
    | ok groups =>
      refine iff_of_true (fun e => ?_) (returns_ok _)
      simp [changedGroups, hprep, Except.mapError]

/-- Preparing a plan fails only on a group that does not rotate. -/
theorem prepareReceive_ne_fail_iff (hs : Sound E node.store) (hfr : Fresh E node.store d) :
    (∀ e, prepareReceive E d node f r ≠ .error (.fail e)) ↔
      ∀ changes, prepareChanges E node.store f r.now = .ok changes → changes.keepPrior = false →
        f.opened.peer ≠ E.account.ed → GroupsRotate E node.store f.opened.peer := by
  unfold prepareReceive
  cases hchange : prepareChanges E node.store f r.now with
  | error exit =>
    refine iff_of_true (fun e => ?_) fun _ h => absurd h (by simp)
    have hne := @prepareChanges_ne_fail _ E node.store f hs r.now e
    rw [hchange, ne_eq, error.injEq] at hne
    rwa [error_bind, ne_eq, error.injEq]
  | ok changes =>
    simp only [ok_bind, ok.injEq, forall_eq', ← changedGroups_ne_fail_iff hs hfr]
    refine forall_congr' fun e => not_congr ?_
    cases hgrps : changedGroups E node.store d f.opened.peer changes.keepPrior with
    | error exit => rw [error_bind, error.injEq, error.injEq]
    | ok groups =>
      refine iff_of_false ?_ (by simp)
      rw [ok_bind]
      exact bind_ne_error (rejectIf_ne_error (by simp)) fun _ => by simp

/-- **Receiving the handshake of a contact.** -/
theorem returns_receiveHandshake_iff [DecidableEq Session] (hE : Lawful E) (hs : Sound E node.store)
    (hfr : Fresh E node.store d) (hwt : Waiting E node.store r)
    (hread : Read E node r.now d.ratchetKey f) :
    Returns (receiveHandshake E d node f r).result ↔
      (∀ changes, prepareChanges E node.store f r.now = .ok changes → changes.keepPrior = false →
        f.opened.peer ≠ E.account.ed → GroupsRotate E node.store f.opened.peer) ∧
      ∀ plan, prepareReceive E d node f r = .ok plan → ReceiptFits E node.store plan := by
  rw [← prepareReceive_ne_fail_iff hs hfr]
  unfold receiveHandshake
  cases hprep : prepareReceive E d node f r with
  | error exit =>
    cases exit with
    | stop stop => simpa using returns_stopped hwt stop
    | fail e => simp
  | ok plan =>
    have hplan := planSound_of_prepareReceive hE hs hfr hwt hread hprep
    have hcom := returns_commitHandshakeReceive_iff hs hplan
    simp only [ok.injEq, forall_eq', ← hcom, ne_eq, reduceCtorEq, not_false_eq_true,
      implies_true, true_and]
    cases hres : commitHandshakeReceive E node.store plan <;> simp

end Komms.Handshake
