import Komms.Handshake.Equiv.Endpoints

/-!
# What the receive path does to sessions

Of all that `consume` may do for a handshake, only the receipt of a contact's handshake that is
decided for replaces a session, the one of the sending device; and whatever flight is taken, its
envelope is marked seen and its one-time prekey is used up (`consumeHandshake_outcome`).  A
duplicate leaves each session, or encrypts a receipt with it (`consumeSeen_passes`).  What is marked
seen stays so.
-/

namespace Komms.Handshake

open List Except Effect Function

variable {Session : Type} {E : Env Session} {s s' : Store Session} {node : Node Session}
  {f : Flight Session} {r : Received} {d : Draws}

/-- The stored session is the same one, at most advanced by a message that it encrypted. -/
def Unreplaced (E : Env Session) (before after : Option Session) : Prop :=
  after = before ∨
    ∃ prior payload now, before = some prior ∧ after = some (E.encrypt prior payload now).1

theorem Unreplaced.refl (session : Option Session) : Unreplaced E session session := .inl rfl

variable {before : Option Session} {session : Session} {device : Octets 32}
  {plan : HandshakeReceivePlan Session} {contentId : Octets 16} {pending : Option (ℤ × Octets 16)}

/-- A session that is not replaced has its ratchet key. -/
theorem Unreplaced.ratchetKey (hE : Lawful E) {after : Option Session}
    (h : Unreplaced E before after) : after.map E.ratchetKey = before.map E.ratchetKey := by
  rcases h with rfl | ⟨prior, payload, now, rfl, rfl⟩
  · rfl
  · exact congrArg some (hE.encrypt_ratchetKey prior payload now)

/-! ### Writes -/

/-- The sessions and what is marked seen are as before. -/
def KeepsSessions (s s' : Store Session) : Prop := s'.sessions = s.sessions ∧ s'.seen = s.seen

theorem KeepsSessions.trans {a b c : Store Session} (hab : KeepsSessions a b)
    (hbc : KeepsSessions b c) : KeepsSessions a c :=
  ⟨hbc.1.trans hab.1, hbc.2.trans hab.2⟩

theorem foldlM_deleteSession {devices : List (Octets 32)} (hne : ∀ gone ∈ devices, gone ≠ device)
    (h : devices.foldlM deleteSession s = .ok s') :
    s'.sessions device = s.sessions device ∧ s'.seen = s.seen := by
  induction devices generalizing s with
  | nil =>
    cases h
    exact ⟨rfl, rfl⟩
  | cons gone devices ih =>
    rw [foldlM_cons, bind_eq_ok_iff] at h
    obtain ⟨_, hdel, h⟩ := h
    obtain ⟨_, _, -, rfl⟩ := deleteSession_eq_ok hdel
    obtain ⟨hrest, hres⟩ := ih (fun x hx => hne x (.tail _ hx)) h
    exact ⟨hrest.trans (update_of_ne (hne gone (.head _)).symm _ _), hres⟩

theorem writePrekeys_keeps (s : Store Session) (prekeys : Option PrekeyTransition) :
    KeepsSessions s (writePrekeys s prekeys) := by
  cases prekeys <;> exact ⟨rfl, rfl⟩

theorem foldl_queuePush_keeps (queue : List QueueItem) (s : Store Session) :
    KeepsSessions s (queue.foldl Store.queuePush s) := by
  induction queue generalizing s with
  | nil => exact ⟨rfl, rfl⟩
  | cons item queue ih =>
    have hpush : KeepsSessions s (s.queuePush item) := ⟨rfl, rfl⟩
    exact hpush.trans (ih _)

theorem writePeer_eq_ok (hne : ∀ gone ∈ plan.deleteSessions, gone ≠ plan.peerDevice)
    (h : plan.writePeer E s = .ok s') :
    s'.sessions plan.peerDevice = some plan.sessionAfter ∧ s'.seen = s.seen := by
  simp only [HandshakeReceivePlan.writePeer, bind_eq_ok_iff, ok.injEq] at h
  obtain ⟨_, hput, _, hdev, _, hdel, rfl⟩ := h
  obtain ⟨_, _, -, rfl⟩ := putSession_eq_ok hput
  obtain ⟨_, rfl⟩ := putContactDevices_eq_ok hdev
  obtain ⟨hsession, hseen⟩ := foldlM_deleteSession hne hdel
  exact ⟨hsession.trans (update_self ..), hseen.trans (writePrekeys_keeps s plan.prekeys).2⟩

theorem writeMessages_keeps (h : plan.writeMessages s = .ok s') : KeepsSessions s s' := by
  simp only [HandshakeReceivePlan.writeMessages, bind_eq_ok_iff, ok.injEq] at h
  obtain ⟨_, hres, _, hret, s₃, hmsg, rfl⟩ := h
  obtain ⟨_, rfl⟩ := putDeliveries_eq_ok hres
  obtain ⟨_, rfl⟩ := putDeliveries_eq_ok hret
  have hkeep : KeepsSessions s s₃ := by
    refine foldlM_invariant (I := KeepsSessions s) (fun _ _ _ h hkeep => ?_) hmsg ⟨rfl, rfl⟩
    simp only [putMessage, check_bind_eq_ok_iff, ok.injEq] at h
    obtain ⟨-, rfl⟩ := h
    exact hkeep
  have hpus : KeepsSessions s₃ (plan.queue.foldl Store.queuePush
    (s₃.putMedia plan.mediaTransfers plan.mediaObjects)) := foldl_queuePush_keeps plan.queue _
  split_ifs
  all_goals exact hkeep.trans hpus

/-! ### Commits -/

variable {plan : HandshakeReceivePlan Session} {after : Effect (Node Session) NodeError Consumed}
  {node' : Node Session}

theorem commitHandshakeReceive_eq_ok [DecidableEq Session]
    (hne : ∀ gone ∈ plan.deleteSessions, gone ≠ plan.peerDevice)
    (h : commitHandshakeReceive E s plan = .ok s') :
    s'.sessions plan.peerDevice = some plan.sessionAfter ∧
      s'.seen = s.seen ++ [plan.contentId] := by
  simp only [commitHandshakeReceive, bind_eq_ok_iff, ok.injEq] at h
  obtain ⟨_, -, _, hpeer, _, hmsgs, rfl⟩ := h
  obtain ⟨hsession, hseen⟩ := writePeer_eq_ok hne hpeer
  obtain ⟨hkeep, hkeepS⟩ := writeMessages_keeps hmsgs
  exact ⟨(congrFun hkeep _).trans hsession, by simp [deletePending, hkeepS, hseen]⟩

/-! ### Outcomes that install nothing -/

/-- The sessions are as before, what was seen is still seen, and no prekey was added. -/
structure Leaves (node node' : Node Session) : Prop where
  sessions : node'.store.sessions = node.store.sessions
  seen : node.store.seen ⊆ node'.store.seen
  opks : node'.vault.opks ⊆ node.vault.opks

theorem Leaves.refl (node : Node Session) : Leaves node node :=
  ⟨rfl, List.Subset.refl _, List.Subset.refl _⟩

theorem commitTerminalInput_leaves (E : Env Session) (node : Node Session) (r : Received) :
    Leaves node (commitTerminalInput E node r).state := by
  refine ofExcept_state (.refl node) fun node' _ h => ?_
  simp only [bind_eq_ok_iff, mapError_eq_ok_iff, commitMaintenance, ok.injEq, Prod.mk.injEq] at h
  obtain ⟨_, ⟨_, -, rfl⟩, rfl, -⟩ := h
  exact ⟨rfl, subset_append_left _ _, List.Subset.refl _⟩

theorem stopped_leaves (E : Env Session) (node : Node Session) (r : Received) (stop : Stop) :
    Leaves node (stopped E node r stop).state := by
  cases stop with
  | later => exact .refl node
  | terminal => exact commitTerminalInput_leaves E node r

theorem stopped_result_ne (E : Env Session) (node : Node Session) (r : Received) (stop : Stop) :
    (stopped E node r stop).result ≠ .ok .doneAtomic := by
  cases stop with
  | later => simp [stopped]
  | terminal =>
    rw [stopped, commitTerminalInput]
    cases (commitMaintenance E node.store (E.contentId r.envelope) (pendingDelete E r)) with
    | error e => exact nofun
    | ok s' => exact nofun

/-- The one-time prekey that a flight names is not in the vault after it. -/
theorem opk_ne_of_mem_vault {id : UInt32} (hid : f.opened.init.opkId = some id)
    {vault : PrekeyVault} {o : Opk}
    (ho : o ∈ (if f.vaultChanged then f.candidateVault vault else vault).opks) : o.id ≠ id := by
  have hchanged : f.vaultChanged = true := by
    rw [Flight.vaultChanged, hid]
    rfl
  rw [if_pos hchanged] at ho
  have hremoved : o ∈ (vault.removeOpk id).opks := by
    unfold Flight.candidateVault at ho
    rw [hid] at ho
    cases hinvitation : f.invitation with
    | none => simpa [hinvitation] using ho
    | some digest => simpa [hinvitation, PrekeyVault.removeInvitation] using ho
  simpa using (mem_filter.mp hremoved).2

theorem vault_opks_subset (f : Flight Session) (vault : PrekeyVault) :
    (if f.vaultChanged then f.candidateVault vault else vault).opks ⊆ vault.opks := by
  have hopk : ((f.opened.init.opkId.map vault.removeOpk).getD vault).opks ⊆ vault.opks := by
    cases f.opened.init.opkId with
    | none => exact List.Subset.refl _
    | some id => exact filter_sublist.subset
  split_ifs
  · unfold Flight.candidateVault
    cases f.invitation <;> exact hopk
  · exact List.Subset.refl _

theorem checkManifest_leaves (E : Env Session) (node : Node Session) (f : Flight Session)
    (r : Received) : Leaves node (checkManifest E node f r).state ∧
      (Returns (checkManifest E node f r).result → (checkManifest E node f r).state = node) := by
  unfold checkManifest
  split
  · rcases validateContactDeviceManifestVisible_cases r.now with ⟨-, h⟩ | ⟨-, hfail, _, _, h⟩
    · rw [h]
      exact ⟨.refl node, fun _ => rfl⟩
    · rw [h]
      exact ⟨⟨rfl, List.Subset.refl _, List.Subset.refl _⟩, fun hret => absurd hret hfail⟩
  · exact ⟨.refl node, fun _ => rfl⟩

/-! ### The handshake of a contact -/

def decision (E : Env Session) (s : Store Session) (f : Flight Session) :
    HandshakeSessionDecision :=
  decideInboundSession E.device.ed f.opened.peerDevice
    ((s.sessions f.opened.peerDevice).map E.sessionId) f.opened.intent

theorem chooseSession_eq_ok_iff {session : Session} {keepPrior : Bool} :
    chooseSession E s f = .ok (session, keepPrior) ↔
      decision E s f = .keepPrior ∧ keepPrior = true ∧
        s.sessions f.opened.peerDevice = some session ∨
      decision E s f = .acceptInbound ∧ keepPrior = false ∧ session = f.session := by
  unfold chooseSession decision
  dsimp only
  split
  · next h => simp [h]
  · next h =>
    simp only [h, bind_eq_ok_iff, required_eq_ok_iff, ok.injEq, Prod.mk.injEq]
    grind
  · next h => simp [h, and_comm, eq_comm]

/-- A prepared plan keeps the prior session and encrypts with it, or goes on with that of the
flight. -/
theorem prepareReceive_session (hread : Read E node r.now d.ratchetKey f)
    (h : prepareReceive E d node f r = .ok plan) :
    plan.peerDevice = f.opened.peerDevice ∧ plan.contentId = E.contentId r.envelope ∧
    (∀ gone ∈ plan.deleteSessions, gone ≠ f.opened.peerDevice) ∧
    ((∃ prior payload now, node.store.sessions f.opened.peerDevice = some prior ∧
        some plan.sessionAfter = some (E.encrypt prior payload now).1) ∨
      decision E node.store f = .acceptInbound ∧
        Unreplaced E (some f.session) (some plan.sessionAfter)) := by
  simp only [prepareReceive, prepareChanges, bind_eq_ok_iff, ok.injEq] at h
  obtain ⟨_, ⟨⟨session, _⟩, hchosen, _, -, _, -, rfl⟩, _, -, _, -, rfl⟩ := h
  refine ⟨rfl, rfl, ?_, ?_⟩
  · intro gone hgone
    exact ne_of_mem_cleanup hread (sortDedup_subset (mem_filter.mp hgone).1)
  · rcases chooseSession_eq_ok_iff.mp hchosen with ⟨-, rfl, hprior⟩ | ⟨haccept, rfl, rfl⟩
    · refine .inl ⟨session, E.encodeReceipt (E.contentId r.envelope), r.now, hprior, ?_⟩
      simp only [receivePlan, Bool.or_true, if_true, prepareControlQueue]
    · refine .inr ⟨haccept, ?_⟩
      simp only [receivePlan, prepareControlQueue]
      split_ifs
      · exact .inr ⟨_, _, _, rfl, rfl⟩
      · exact .refl _

/-- What a handshake leaves whose flight was read. -/
structure Received.Outcome (E : Env Session) (node : Node Session) (f : Flight Session)
    (r : Received) (after : Effect (Node Session) NodeError Consumed) : Prop where
  seen : node.store.seen ⊆ after.state.store.seen
  opks : after.state.vault.opks ⊆ node.vault.opks
  /-- Only the session of a contact that is decided for is installed. -/
  unreplaced : f.contact = none ∨ decision E node.store f ≠ .acceptInbound →
    Unreplaced E (node.store.sessions f.opened.peerDevice)
      (after.state.store.sessions f.opened.peerDevice)
  /-- A flight that is taken is marked seen, and its one-time prekey is gone. -/
  taken : after.result = .ok .doneAtomic → E.contentId r.envelope ∈ after.state.store.seen ∧
    ∀ id ∈ f.opened.init.opkId, ∀ o ∈ after.state.vault.opks, o.id ≠ id

theorem Leaves.outcome (h : Leaves node after.state) (hne : after.result ≠ .ok .doneAtomic) :
    Received.Outcome E node f r after where
  seen := h.seen
  opks := h.opks
  unreplaced := fun _ => .inl (congrFun h.sessions _)
  taken := fun hdone => absurd hdone hne

/-- A first-contact request has no session yet, and uses up its prekey when it is staged. -/
theorem stageRequest_outcome [DecidableEq Session] (E : Env Session) (node : Node Session)
    (f : Flight Session) (r : Received) :
    Received.Outcome E node f r (stageRequest E node f r) := by
  unfold stageRequest
  split
  · next stop _ => exact (stopped_leaves E node r stop).outcome (stopped_result_ne E node r stop)
  · next plan hplan =>
    split
    · next s' hcommit =>
      have hid : plan.contentId = E.contentId r.envelope := by
        simp only [prepareRequest, bind_eq_ok_iff, ok.injEq] at hplan
        obtain ⟨_, -, _, -, _, -, _, -, _, -, rfl⟩ := hplan
        rfl
      simp only [commitAdmissionStage, bind_eq_ok_iff, putProvisionalRequest, ok.injEq] at hcommit
      obtain ⟨_, -, _, ⟨_, -, _, -, _, -, rfl⟩, rfl⟩ := hcommit
      obtain ⟨hsessions, hseen⟩ := writePrekeys_keeps node.store plan.prekeys
      refine ⟨by simp [deletePending, hseen], vault_opks_subset f node.vault,
        fun _ => .inl (congrFun hsessions _), fun _ => ⟨?_, fun id hid o ho => ?_⟩⟩
      · simp [deletePending, hid]
      · exact opk_ne_of_mem_vault hid ho
    · exact (commitTerminalInput_leaves E node r).outcome (stopped_result_ne E node r .terminal)
    · exact (Leaves.refl node).outcome (by simp)

theorem receiveHandshake_outcome [DecidableEq Session]
    (hread : Read E node r.now d.ratchetKey f) (hcontact : f.contact ≠ none) :
    Received.Outcome E node f r (receiveHandshake E d node f r) := by
  unfold receiveHandshake
  split
  · next stop _ => exact (stopped_leaves E node r stop).outcome (stopped_result_ne E node r stop)
  · exact (Leaves.refl node).outcome nofun
  · next plan hplan =>
    split
    · next s' hcommit =>
      obtain ⟨hdevice, hid, hgone, hchosen⟩ := prepareReceive_session hread hplan
      obtain ⟨hafter, hseen⟩ := commitHandshakeReceive_eq_ok (hdevice ▸ hgone) hcommit
      rw [hdevice] at hafter
      refine ⟨?_, vault_opks_subset f node.vault, fun hne => ?_, fun _ => ⟨?_, ?_⟩⟩
      · rw [hseen]
        exact subset_append_left _ _
      · rw [hafter]
        rcases hchosen with hkept | ⟨haccept, -⟩
        · exact .inr hkept
        · exact absurd haccept (by simpa [hcontact] using hne)
      · rw [hseen, hid]
        exact mem_append_right _ (.head _)
      · exact fun id hid o ho => opk_ne_of_mem_vault hid ho
    · exact (Leaves.refl node).outcome nofun

theorem Received.Outcome.of_sameBut (hsame : SameBut node node')
    (h : Received.Outcome E node' f r after) : Received.Outcome E node f r after := by
  obtain ⟨_, rfl⟩ := hsame
  exact { h with }

theorem takeFlight_outcome [DecidableEq Session] (hread : Read E node r.now d.ratchetKey f) :
    Received.Outcome E node f r (takeFlight E d node f r) := by
  obtain ⟨hleaves, hsame⟩ := checkManifest_leaves E node f r
  unfold takeFlight Effect.andThen
  split
  · next hresult =>
    rw [hsame ⟨_, hresult⟩]
    split_ifs with hcontact
    · exact stageRequest_outcome E node f r
    · exact receiveHandshake_outcome hread fun h => hcontact (h ▸ rfl)
  · exact hleaves.outcome nofun

/-- The flight that `consume_handshake` reads. -/
abbrev readReceived (E : Env Session) (d : Draws) (node : Node Session) (r : Received) :
    Except Stop (Flight Session) :=
  (readFlight E node r.envelope r.transport r.late r.now d.ratchetKey).result

/-- **What a handshake does whose flight is read.** -/
theorem consumeHandshake_outcome [DecidableEq Session] (h : readReceived E d node r = .ok f) :
    Received.Outcome E node f r (consumeHandshake E d node r) := by
  have hsame : SameBut node _ := @readFlight_state _ E node r d.ratchetKey
  have hread : Read E node r.now d.ratchetKey f := readFlight_eq_ok h
  refine .of_sameBut hsame ?_
  simp only [consumeHandshake, h]
  obtain ⟨_, hst⟩ := hsame
  rw [hst]
  exact takeFlight_outcome { hread with }

theorem consumeHandshake_leaves [DecidableEq Session] {stop : Stop}
    (h : readReceived E d node r = .error stop) :
    Leaves node (consumeHandshake E d node r).state := by
  obtain ⟨budgets, hst⟩ := @readFlight_state _ E node r d.ratchetKey
  have hleave := stopped_leaves E { node with budgets } r stop
  simp only [consumeHandshake, h, hst]
  exact { hleave with }

/-! ### What was consumed before -/

/-- No session is replaced, nothing is unseen, and no prekey was added. -/
structure Passes (E : Env Session) (node node' : Node Session) : Prop where
  unreplaced : ∀ device, Unreplaced E (node.store.sessions device) (node'.store.sessions device)
  seen : node.store.seen ⊆ node'.store.seen
  opks : node'.vault.opks ⊆ node.vault.opks

theorem Leaves.passes (h : Leaves node node') : Passes E node node' :=
  ⟨fun _ => .inl (congrFun h.sessions _), h.seen, h.opks⟩

theorem dropDuplicate_leaves (E : Env Session) (node : Node Session) (r : Received) :
    Leaves node (dropDuplicate E node r).state := by
  unfold dropDuplicate
  split_ifs
  · exact commitTerminalInput_leaves E node r
  · exact .refl node

theorem replayReceipt_passes [DecidableEq Session] {peer : Octets 32} {before : Session}
    (hbef : node.store.sessions peer = some before) :
    Passes E node (replayReceipt E node r peer before).state := by
  refine ofExcept_state (Leaves.refl node).passes fun node' _ h => ?_
  simp only [commitReceiptReplay, bind_eq_ok_iff, mapError_eq_ok_iff, ok.injEq, Prod.mk.injEq] at h
  obtain ⟨_, ⟨_, -, _, -, _, -, _, hput, rfl⟩, rfl, -⟩ := h
  obtain ⟨_, _, -, rfl⟩ := putSession_eq_ok hput
  refine ⟨fun device => ?_, List.Subset.refl _, List.Subset.refl _⟩
  show Unreplaced E _ (Function.update node.store.sessions peer _ device)
  by_cases hdev : device = peer
  · subst hdev
    rw [update_self]
    exact .inr ⟨before, _, _, hbef, rfl⟩
  · rw [update_of_ne hdev]
    exact .refl _

theorem consumeSeen_passes [DecidableEq Session] (E : Env Session) (node : Node Session)
    (r : Received) :
    Passes E node (consumeSeen E node r).state := by
  unfold consumeSeen
  split
  · exact (dropDuplicate_leaves E node r).passes
  · split
    · exact (dropDuplicate_leaves E node r).passes
    · next hbef => exact replayReceipt_passes hbef

end Komms.Handshake
