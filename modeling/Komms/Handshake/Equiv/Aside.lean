import Komms.Handshake.Equiv.Sessions

/-!
# What the receive path reads of the envelope tables

Of the envelopes that were seen and of those that are pending, `consume` looks at its own one only,
and the budgets of first contacts matter only when they are used up.  So it does the same on two
nodes that differ in nothing else.
-/

namespace Komms.Handshake

open Protocol (Envelope)

variable {Session : Type} {E : Env Session} {s : Store Session} {node : Node Session}
  {f : Flight Session} {r : Received} {d : Draws} {seen : List (Octets 16)}
  {pending : List (ℤ × Envelope)} {budgets : Budgets}

/-- The store with other envelopes seen and pending. -/
def Store.aside (s : Store Session) (seen : List (Octets 16)) (pending : List (ℤ × Envelope)) :
    Store Session :=
  { s with seen, pending }

theorem Store.aside_seen : (s.aside seen pending).seen = seen := rfl

def Node.aside (node : Node Session) (seen : List (Octets 16)) (pending : List (ℤ × Envelope))
    (budgets : Budgets) : Node Session :=
  { node with store := node.store.aside seen pending, budgets }

theorem Node.aside_store :
    (node.aside seen pending budgets).store = node.store.aside seen pending := rfl

/-! ### Writes -/

/-- A write that does the same whatever was seen and is pending. -/
def Blind (write : Store Session → Except StoreError (Store Session)) : Prop :=
  ∀ s seen pending, write (s.aside seen pending) = (write s).map (·.aside seen pending)

/-- The same of a write that cannot fail. -/
def Apart (write : Store Session → Store Session) : Prop :=
  ∀ s seen pending, write (s.aside seen pending) = (write s).aside seen pending

namespace Blind

variable {f g : Store Session → Except StoreError (Store Session)}
  {k : Store Session → Store Session}

theorem ok (hk : Apart k) : Blind fun s => .ok (k s) :=
  fun s seen pending => congrArg Except.ok (hk s seen pending)

theorem bind (hf : Blind f) (hg : Blind g) : Blind fun s => f s >>= g := by
  intro s seen pending
  dsimp only
  rw [hf s seen pending]
  cases f s with
  | error e => rfl
  | ok s' => exact hg s' seen pending

theorem check {c : Store Session → Except StoreError Unit}
    (hc : ∀ s seen pending, c (s.aside seen pending) = c s) (hf : Blind f) :
    Blind fun s => c s >>= fun _ => f s := by
  intro s seen pending
  dsimp only
  rw [hc s seen pending]
  cases c s with
  | error e => rfl
  | ok _ => exact hf s seen pending

theorem comp (hf : Blind f) (hk : Apart k) : Blind fun s => f (k s) := by
  intro s seen pending
  dsimp only
  rw [hk s seen pending]
  exact hf (k s) seen pending

theorem foldlM {α : Type} {write : Store Session → α → Except StoreError (Store Session)}
    (hwr : ∀ a, Blind (write · a)) (xs : List α) : Blind fun s => xs.foldlM write s := by
  induction xs with
  | nil => exact .ok fun _ _ _ => rfl
  | cons a xs ih => exact .bind (hwr a) ih

end Blind

theorem blind_putContactDevice (row : ContactDeviceRecord) :
    Blind fun s : Store Session => putContactDevice s row :=
  .check (fun _ _ _ => rfl) (.check (fun _ _ _ => rfl) (.ok fun _ _ _ => rfl))

theorem blind_putMessage (message : MessageRecord) :
    Blind fun s : Store Session => putMessage s message :=
  .check (fun _ _ _ => rfl) (.ok fun _ _ _ => rfl)

theorem blind_putMessageDeviceDelivery (delivery : DeviceDelivery) :
    Blind fun s : Store Session => putMessageDeviceDelivery s delivery :=
  .check (fun _ _ _ => rfl) (.ok fun _ _ _ => rfl)

theorem blind_putSession (E : Env Session) (device : Octets 32) (session : Session) :
    Blind fun s => putSession E s device session := by
  refine .bind (fun s seen pending => ?_) (.ok fun _ _ _ => rfl)
  dsimp only [synchronizeWakeSession, Store.aside]
  cases s.wake device with
  | none => rfl
  | some current =>
    dsimp only
    split_ifs
    · rfl
    · cases enqueueIssuedWakeRevocations s.wakeRevocations current.issued <;> rfl

theorem blind_deleteSession (device : Octets 32) :
    Blind fun s : Store Session => deleteSession s device := by
  intro s seen pending
  dsimp only [deleteSession, Store.aside]
  cases enqueueIssuedWakeRevocations s.wakeRevocations
    (((s.wake device).map WakeServiceState.issued).getD []) <;> rfl

theorem writePrekeys_aside (prekeys : Option PrekeyTransition) :
    Apart fun s : Store Session => writePrekeys s prekeys := by
  cases prekeys <;> exact fun _ _ _ => rfl

theorem foldl_queuePush_aside (queue : List QueueItem) :
    Apart fun s : Store Session => queue.foldl Store.queuePush s := by
  induction queue with
  | nil => exact fun _ _ _ => rfl
  | cons item queue ih => exact fun s => ih (s.queuePush item)

theorem blind_writePeer (E : Env Session) (plan : HandshakeReceivePlan Session) :
    Blind (plan.writePeer E) :=
  .bind (.comp (blind_putSession E _ _) (writePrekeys_aside _))
    (.bind (.comp (.foldlM blind_putContactDevice _) fun _ _ _ => rfl)
      (.bind (.comp (.foldlM blind_deleteSession _) fun _ _ _ => rfl) (.ok fun _ _ _ => rfl)))

theorem blind_writeMessages (plan : HandshakeReceivePlan Session) : Blind plan.writeMessages := by
  refine .bind (.comp (.foldlM blind_putMessageDeviceDelivery _) fun _ _ _ => rfl)
    (.bind (.comp (.foldlM blind_putMessageDeviceDelivery _) fun _ _ _ => rfl)
      (.bind (.comp (.foldlM blind_putMessage _) fun _ _ _ => rfl) (.ok fun s seen pending => ?_)))
  have hqueue := foldl_queuePush_aside plan.queue (s.putMedia plan.mediaTransfers plan.mediaObjects)
    seen pending
  dsimp only at hqueue
  rw [show (s.aside seen pending).putMedia plan.mediaTransfers plan.mediaObjects =
    (s.putMedia plan.mediaTransfers plan.mediaObjects).aside seen pending from rfl, hqueue]
  split_ifs
  · rfl
  · rfl

/-! ### Commits -/

/-- The rest of the pending inbox. -/
def pendingAfter (pending : List (ℤ × Envelope)) (source : Option (ℤ × Octets 16)) :
    List (ℤ × Envelope) :=
  pending.filter fun row => some row.1 ≠ source.map Prod.fst

theorem blind_putProvisionalRequest (E : Env Session) (request : ProvisionalRequest Session) :
    Blind fun s => putProvisionalRequest E s request :=
  .check (fun _ _ _ => rfl) (.check (fun _ _ _ => rfl)
    (.check (fun _ _ _ => rfl) (.ok fun _ _ _ => rfl)))

variable {peer : Octets 32}

section

variable [DecidableEq Session]

theorem commitHandshakeReceive_aside {plan : HandshakeReceivePlan Session}
    (hseen : plan.contentId ∈ seen ↔ plan.contentId ∈ s.seen)
    (hpen : validatePending E (s.aside seen pending) plan.sourcePending =
      validatePending E s plan.sourcePending) :
    commitHandshakeReceive E (s.aside seen pending) plan = (commitHandshakeReceive E s plan).map
      (·.aside (seen ++ [plan.contentId]) (pendingAfter pending plan.sourcePending)) := by
  have hval : validateHandshakeReceive E (s.aside seen pending) plan =
      validateHandshakeReceive E s plan := by
    simp only [validateHandshakeReceive, hpen, Store.aside_seen, hseen]
    rfl
  have hpeer := blind_writePeer E plan s seen pending
  have hmsgs := fun s' => blind_writeMessages plan s' seen pending
  simp only [commitHandshakeReceive, hval, hpeer, hmsgs, bind_map, map_bind]
  rfl

theorem commitAdmissionStage_aside {plan : AdmissionStagePlan Session}
    (hseen : plan.contentId ∈ seen ↔ plan.contentId ∈ s.seen)
    (hpen : validatePending E (s.aside seen pending) plan.sourcePending =
      validatePending E s plan.sourcePending) :
    commitAdmissionStage E (s.aside seen pending) plan = (commitAdmissionStage E s plan).map
      (·.aside (seen ++ [plan.contentId]) (pendingAfter pending plan.sourcePending)) := by
  have hval : validateAdmissionStage E (s.aside seen pending) plan =
      validateAdmissionStage E s plan := by
    simp only [validateAdmissionStage, hpen, Store.aside_seen, hseen]
    rfl
  have hpre := writePrekeys_aside plan.prekeys s seen pending
  have hput := blind_putProvisionalRequest E plan.after (writePrekeys s plan.prekeys) seen pending
  simp only [commitAdmissionStage, hval, hpre, hput, bind_map, map_bind]
  rfl

end

/-! ### Two nodes -/

/-- Two nodes that differ at most in the envelopes seen and pending and in the budgets. -/
def Alike (a b : Node Session) : Prop := ∃ seen pending budgets, b = a.aside seen pending budgets

theorem Alike.refl (node : Node Session) : Alike node node :=
  ⟨node.store.seen, node.store.pending, node.budgets, rfl⟩

variable {a b : Node Session} {Mem : Type} {P : Peripherals Session Mem} {mem : Mem}

theorem Alike.symm (h : Alike a b) : Alike b a := by
  obtain ⟨_, _, _, rfl⟩ := h
  exact ⟨a.store.seen, a.store.pending, a.budgets, rfl⟩

theorem Alike.trans {c : Node Session} (hab : Alike a b) (hbc : Alike b c) : Alike a c := by
  obtain ⟨_, _, _, rfl⟩ := hab
  obtain ⟨seen, pending, budgets, rfl⟩ := hbc
  exact ⟨seen, pending, budgets, rfl⟩

structure Agree {α : Type} (x y : Effect (Node Session) NodeError α) : Prop where
  result : y.result = x.result
  state : Alike x.state y.state

/-- Two pairs of tables say the same about an envelope. -/
structure OwnRows (E : Env Session) (node : Node Session) (r : Received) (seen : List (Octets 16))
    (pending : List (ℤ × Envelope)) : Prop where
  seen : E.contentId r.envelope ∈ seen ↔ E.contentId r.envelope ∈ node.store.seen
  pending : ∀ sequence ∈ r.pendingSequence, pending.find? (fun row => row.1 = sequence) =
    node.store.pending.find? (fun row => row.1 = sequence)

variable (h : OwnRows E node r seen pending)
include h

theorem OwnRows.validatePending :
    validatePending E (node.store.aside seen pending) (pendingDelete E r) =
      validatePending E node.store (pendingDelete E r) := by
  cases hseq : r.pendingSequence with
  | none => simp [pendingDelete, hseq, Handshake.validatePending]
  | some sequence =>
    have hrow := h.pending sequence hseq
    simp only [pendingDelete, hseq, Option.map_some, Handshake.validatePending]
    rw [show (node.store.aside seen pending).pending = pending from rfl, hrow]

theorem commitTerminalInput_agree : Agree (commitTerminalInput E node r)
      (commitTerminalInput E (node.aside seen pending budgets) r) := by
  unfold commitTerminalInput commitMaintenance
  rw [Node.aside_store, h.validatePending]
  cases validatePending E node.store (pendingDelete E r) <;> exact ⟨rfl, _, _, _, rfl⟩

theorem stopped_agree (stop : Stop) :
    Agree (stopped E node r stop) (stopped E (node.aside seen pending budgets) r stop) := by
  cases stop with
  | later => exact ⟨rfl, _, _, _, rfl⟩
  | terminal => exact commitTerminalInput_agree h

theorem dropDuplicate_agree :
    Agree (dropDuplicate E node r) (dropDuplicate E (node.aside seen pending budgets) r) := by
  unfold dropDuplicate
  split_ifs
  · exact commitTerminalInput_agree h
  · exact ⟨rfl, _, _, _, rfl⟩

omit h

/-! ### Reading a flight -/

/-- The budgets of first contacts that one envelope of a transport needs. -/
structure Budgets.Ample (budgets : Budgets) (transport : AdmissionTransportClass) : Prop where
  carriers : budgets.carriers transport ≠ 0
  puzzles : budgets.puzzles ≠ 0
  kems : budgets.kems ≠ 0

/-- `admit` with budgets to spend. -/
def admitted (E : Env Session) (vault : PrekeyVault) (body : Bytes) (late : Bool) (now : UInt64) :
    Except Stop (Option AdmissionEnvelope) :=
  if AdmissionEnvelope.isEncoded body then
    if late then .error .later else (checkAdmission E vault body now).map some
  else .ok none

theorem admitFlight_result {body : Bytes} {transport : AdmissionTransportClass} {late : Bool}
    {now : UInt64} (h : node.budgets.Ample transport) :
    (admitFlight E node body transport late now).result = admitted E node.vault body late now ∧
      (admitFlight E node body transport late now).state.budgets.kems = node.budgets.kems := by
  unfold admitFlight admitted Node.reserveAdmissionCandidate
  by_cases hmag : AdmissionEnvelope.isEncoded body
  · cases late with
    | true => simp [hmag]
    | false => simp [hmag, h.carriers, h.puzzles]
  · simp [hmag]

/-- `meet_contact` with budgets to spend. -/
def met (s : Store Session) (admitted : Bool) (peer : Octets 32) :
    Except Stop (Option ContactRecord) :=
  match s.contacts peer with
  | some contact => if s.blocked peer then .error .terminal else .ok (some contact)
  | none =>
    if admitted = false ∨ s.blocked peer then .error .terminal
    else if (s.getProvisionalRequest peer).isNone ∧ s.requests.length ≥ maxProvisionalRequests then
      .error .terminal
    else .ok none

theorem meetContact_result {admitted : Bool} (h : node.budgets.kems ≠ 0) :
    (meetContact node admitted peer).result = met node.store admitted peer := by
  unfold meetContact met
  cases node.store.contacts peer
  all_goals
    dsimp only
    split_ifs <;> rfl

/-- A flight as it is read with budgets to spend. -/
def readAmply (E : Env Session) (s : Store Session) (vault : PrekeyVault) (env : Envelope)
    (late : Bool) (now : UInt64) (ratchetKey : Octets 32) : Except Stop (Flight Session) := do
  let admission ← admitted E vault env.body late now
  let opened ← openFlight E ((admission.map AdmissionEnvelope.sealedFlight).getD env.body) now
  let contact ← met s admission.isSome opened.peer
  let (session, payload) ← answer E vault opened.init now ratchetKey
  .ok { admission, opened, contact, session, payload }

theorem readFlight_result {env : Envelope} {transport : AdmissionTransportClass} {late : Bool}
    {now : UInt64} {key : Octets 32} (h : node.budgets.Ample transport) :
    (readFlight E node env transport late now key).result =
      readAmply E node.store node.vault env late now key := by
  obtain ⟨hadm, hkems⟩ := @admitFlight_result _ E node env.body transport late now h
  obtain ⟨_, hst⟩ := @admitFlight_state _ E node env.body transport late now
  simp only [readFlight, Effect.andThen_result, Effect.inspect, hadm, readAmply]
  refine bind_congr fun admission => bind_congr fun opened => ?_
  rw [meetContact_result (hkems ▸ h.kems), hst]
  obtain ⟨_, hmeet⟩ := @meetContact_state _ { node with budgets := _ } admission.isSome opened.peer
  rw [hmeet]

theorem readFlight_aside {key : Octets 32} (h : node.budgets.Ample r.transport)
    (hbudget : budgets.Ample r.transport) :
    ∃ b b', readFlight E node r.envelope r.transport r.late r.now key =
        ⟨{ node with budgets := b },
          readAmply E node.store node.vault r.envelope r.late r.now key⟩ ∧
      readFlight E (node.aside seen pending budgets) r.envelope r.transport r.late r.now key =
        ⟨node.aside seen pending b',
          readAmply E node.store node.vault r.envelope r.late r.now key⟩ := by
  obtain ⟨b, hb⟩ := @readFlight_state _ E node r key
  obtain ⟨b', hb'⟩ := @readFlight_state _ E (node.aside seen pending budgets) r key
  refine ⟨b, b', ?_, ?_⟩
  · rw [← hb, ← readFlight_result h]
  · have hres := @readFlight_result _ E (node.aside seen pending budgets) r.envelope r.transport
      r.late r.now key hbudget
    rw [show node.aside seen pending b' =
        { node.aside seen pending budgets with budgets := b' } from
      rfl, ← hb']
    exact congrArg (Effect.mk _) hres

/-! ### Consuming -/

theorem blind_recordContactAuthorityConflict (conflict : ContactAuthorityConflict) :
    Blind fun s : Store Session => recordContactAuthorityConflict s conflict := by
  intro s seen pending
  simp only [recordContactAuthorityConflict, bind_map]
  rfl

theorem reportConflict_agree {manifest : DeviceAuthority.Manifest} {observedAt : UInt64}
    {kind : DeviceAuthorityConflictKind} {conflict : DeviceAuthority.Relation} {e : NodeError} :
    Agree (reportConflict E node manifest observedAt kind conflict e)
      (reportConflict E (node.aside seen pending budgets) manifest observedAt kind conflict e) := by
  unfold reportConflict
  rw [Node.aside_store]
  simp only [blind_recordContactAuthorityConflict _ node.store seen pending]
  rw [show ∀ account, (node.store.aside seen pending).contactDevicesFor account =
    node.store.contactDevicesFor account from fun _ => rfl]
  cases conflictingState E manifest conflict _ with
  | error e => exact ⟨rfl, _, _, _, rfl⟩
  | ok acceptedState =>
    dsimp only [bind, Except.bind]
    cases recordContactAuthorityConflict node.store _ <;> exact ⟨rfl, _, _, _, rfl⟩

theorem checkManifest_agree : Agree (checkManifest E node f r)
    (checkManifest E (node.aside seen pending budgets) f r) := by
  unfold checkManifest
  cases f.opened.deviceBundle with
  | none => exact ⟨rfl, _, _, _, rfl⟩
  | some bundle =>
    dsimp only [validateContactDeviceManifestVisible]
    have hval : validateContactDeviceManifest E (node.aside seen pending budgets).store
      bundle.manifest = validateContactDeviceManifest E node.store bundle.manifest := rfl
    rw [hval]
    split
    · exact ⟨rfl, _, _, _, rfl⟩
    any_goals exact reportConflict_agree
    · exact ⟨rfl, _, _, _, rfl⟩

section

variable [DecidableEq Session] (h : OwnRows E node r seen pending)

include h

theorem stageRequest_agree :
    Agree (stageRequest E node f r) (stageRequest E (node.aside seen pending budgets) f r) := by
  have hprep : prepareRequest E (node.aside seen pending budgets) f r =
      prepareRequest E node f r := rfl
  unfold stageRequest
  rw [hprep]
  cases hplan : prepareRequest E node f r with
  | error stop => exact stopped_agree h stop
  | ok plan =>
    obtain ⟨hid, hsource⟩ : plan.contentId = E.contentId r.envelope ∧
        plan.sourcePending = pendingDelete E r := by
      simp only [prepareRequest, bind_eq_ok_iff, Except.ok.injEq] at hplan
      obtain ⟨_, -, _, -, _, -, _, -, _, -, rfl⟩ := hplan
      exact ⟨rfl, rfl⟩
    have hcom : commitAdmissionStage E (node.store.aside seen pending) plan = _ :=
      commitAdmissionStage_aside (hid ▸ h.seen) (hsource ▸ h.validatePending)
    dsimp only
    rw [Node.aside_store, hcom]
    cases commitAdmissionStage E node.store plan with
    | ok s' => exact ⟨rfl, _, _, _, rfl⟩
    | error e =>
      cases e with
      | admissionQuota => exact commitTerminalInput_agree h
      | _ => exact ⟨rfl, _, _, _, rfl⟩

theorem receiveHandshake_agree : Agree (receiveHandshake E d node f r)
      (receiveHandshake E d (node.aside seen pending budgets) f r) := by
  have hprep : prepareReceive E d (node.aside seen pending budgets) f r =
      prepareReceive E d node f r := rfl
  unfold receiveHandshake
  rw [hprep]
  cases hplan : prepareReceive E d node f r with
  | error exit =>
    cases exit with
    | stop stop => exact stopped_agree h stop
    | fail e => exact ⟨rfl, _, _, _, rfl⟩
  | ok plan =>
    obtain ⟨hid, hsource⟩ : plan.contentId = E.contentId r.envelope ∧
        plan.sourcePending = pendingDelete E r := by
      simp only [prepareReceive, bind_eq_ok_iff, Except.ok.injEq] at hplan
      obtain ⟨_, -, _, -, _, -, rfl⟩ := hplan
      exact ⟨rfl, rfl⟩
    have hcom : commitHandshakeReceive E (node.store.aside seen pending) plan = _ :=
      commitHandshakeReceive_aside (hid ▸ h.seen) (hsource ▸ h.validatePending)
    dsimp only
    rw [Node.aside_store, hcom]
    cases commitHandshakeReceive E node.store plan <;> exact ⟨rfl, _, _, _, rfl⟩

theorem takeFlight_agree :
    Agree (takeFlight E d node f r) (takeFlight E d (node.aside seen pending budgets) f r) := by
  have hchk := @checkManifest_agree _ E node f r seen pending budgets
  unfold takeFlight Effect.andThen
  rw [hchk.result]
  cases hres : (checkManifest E node f r).result with
  | error e => exact ⟨rfl, hchk.state⟩
  | ok _ =>
    rw [(checkManifest_leaves E node f r).2 ⟨_, hres⟩,
      (checkManifest_leaves E (node.aside seen pending budgets) f r).2 ⟨_, hchk.result.trans hres⟩]
    split_ifs
    · exact stageRequest_agree h
    · exact receiveHandshake_agree h

theorem consumeHandshake_agree (hnode : node.budgets.Ample r.transport)
    (hbudget : budgets.Ample r.transport) :
    Agree (consumeHandshake E d node r)
      (consumeHandshake E d (node.aside seen pending budgets) r) := by
  obtain ⟨b, _, hread, hread'⟩ := @readFlight_aside _ E node r seen pending budgets d.ratchetKey
    hnode hbudget
  have hrows : OwnRows E { node with budgets := b } r seen pending := ⟨h.seen, h.pending⟩
  unfold consumeHandshake
  rw [hread, hread']
  cases readAmply E node.store node.vault r.envelope r.late r.now d.ratchetKey with
  | error stop => exact stopped_agree hrows stop
  | ok f => exact takeFlight_agree hrows

theorem replayReceipt_agree {before : Session} : Agree (replayReceipt E node r peer before)
      (replayReceipt E (node.aside seen pending budgets) r peer before) := by
  have hcom : ∀ after receipt,
      commitReceiptReplay E (node.store.aside seen pending) peer before after
      receipt (E.contentId r.envelope) r.now (pendingDelete E r) =
        (commitReceiptReplay E node.store peer before after receipt (E.contentId r.envelope) r.now
          (pendingDelete E r)).map (·.aside seen (pendingAfter pending (pendingDelete E r))) := by
    intro after receipt
    have hput := blind_putSession E peer after node.store seen pending
    simp only [commitReceiptReplay, h.validatePending, hput, bind_map, map_bind]
    rfl
  unfold replayReceipt
  dsimp only
  rw [Node.aside_store, hcom]
  cases commitReceiptReplay E node.store peer before _ _ (E.contentId r.envelope) r.now
    (pendingDelete E r) <;>
    exact ⟨rfl, _, _, _, rfl⟩

theorem consumeSeen_agree :
    Agree (consumeSeen E node r) (consumeSeen E (node.aside seen pending budgets) r) := by
  unfold consumeSeen
  rw [show (node.aside seen pending budgets).store.receiptReplay =
    node.store.receiptReplay from rfl]
  split
  · exact dropDuplicate_agree h
  · next peer _ _ =>
    rw [show (node.aside seen pending budgets).store.sessions = node.store.sessions from rfl]
    split
    · exact dropDuplicate_agree h
    · exact replayReceipt_agree h

end

/-! ### Every kind of envelope -/

/-- The same result, the same memory, and nodes that are alike. -/
structure AgreeBeside {Mem : Type} (x y : Effect (Node Session × Mem) NodeError Consumed) :
    Prop where
  result : y.result = x.result
  node : Alike x.state.1 y.state.1
  mem : y.state.2 = x.state.2

theorem Agree.beside {x y : Effect (Node Session) NodeError Consumed} (h : Agree x y) (mem : Mem) :
    AgreeBeside (beside mem x) (beside mem y) :=
  ⟨h.result, h.state, rfl⟩

theorem consumeOther_agree (h : OwnRows E node r seen pending) :
    AgreeBeside (consumeOther E P d r (node, mem))
      (consumeOther E P d r (node.aside seen pending budgets, mem)) := by
  unfold consumeOther
  rw [show (node.aside seen pending budgets).blank = node.blank from rfl]
  rcases P.react d r.envelope r.now (node.blank, mem) with e | ⟨_ | _ | ⟨after, mem', result⟩⟩
  any_goals exact ⟨rfl, ⟨_, _, _, rfl⟩, rfl⟩
  · exact (commitTerminalInput_agree h).beside mem
  · have hcom : commitReaction E (node.aside seen pending budgets) after r =
        (commitReaction E node after r).map fun n =>
          n.aside (seen ++ [E.contentId r.envelope]) (pendingAfter pending (pendingDelete E r))
            budgets := by
      unfold commitReaction
      rw [Node.aside_store, h.validatePending]
      cases validatePending E node.store (pendingDelete E r) <;> rfl
    dsimp only
    rw [hcom]
    cases commitReaction E node after r <;> exact ⟨rfl, ⟨_, _, _, rfl⟩, rfl⟩

/-- **Consuming an envelope**, on two nodes that say the same about it. -/
theorem consumeWhole_agree [DecidableEq Session] (h : OwnRows E node r seen pending)
    (hnode : node.budgets.Ample r.transport) (hbudget : budgets.Ample r.transport) :
    AgreeBeside (consumeWhole E P d r (node, mem))
      (consumeWhole E P d r (node.aside seen pending budgets, mem)) := by
  have hiff : E.contentId r.envelope ∈ (node.aside seen pending budgets).store.seen ↔
    E.contentId r.envelope ∈ node.store.seen := h.seen
  unfold consumeWhole
  simp only [hiff]
  split_ifs
  · exact (consumeSeen_agree h).beside mem
  · split
    · exact (consumeHandshake_agree h hnode hbudget).beside mem
    · exact (commitTerminalInput_agree h).beside mem
    all_goals exact consumeOther_agree h

end Komms.Handshake
