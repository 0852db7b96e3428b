import Komms.Handshake.Equiv.Resets

/-!
# When the plan of a handshake commits

`returns_commitHandshakeReceive_iff`: a plan that was made from the stored rows commits just when
its device rows fit, its message has an unused id, the wake capabilities it retires fit into the
table of revocations, and the stored prekeys are the ones it replaces.
-/

namespace Komms.Handshake

open Table List

variable {Session : Type} {E : Env Session} {s s' : Store Session}

/-! ### Wake revocations -/

section Revocations

variable {rows rows' ids : List (Octets 32)} {id : Octets 32}

/-- A table of revocations: each once, and no more than it holds. -/
def RevocationTable (rows : List (Octets 32)) : Prop :=
  rows.Nodup ∧ rows.length ≤ maxWakeRevocationRows

/-- Ids are added to a table of revocations: the result has a table of the old and the new ones, and
there is a result if they fit. -/
structure Enqueues {σ : Type} (table : σ → List (Octets 32)) (rows ids : List (Octets 32))
    (x : Except StoreError σ) : Prop where
  eq_ok : ∀ t, x = .ok t → RevocationTable (table t) ∧ (table t).toFinset = (rows ++ ids).toFinset
  returns : (rows ++ ids).toFinset.card ≤ maxWakeRevocationRows → Returns x

namespace Enqueues

variable {σ τ : Type} {table : σ → List (Octets 32)} {table' : τ → List (Octets 32)}
  {x : Except StoreError σ} {f : σ → Except StoreError τ} {ids' : List (Octets 32)}

theorem returns_iff (h : Enqueues table rows ids x) :
    Returns x ↔ (rows ++ ids).toFinset.card ≤ maxWakeRevocationRows := by
  refine ⟨?_, h.returns⟩
  rintro ⟨t, ht⟩
  obtain ⟨⟨hnd, _⟩, hset⟩ := h.eq_ok t ht
  rwa [← hset, toFinset_card_of_nodup hnd]

theorem nil {t : σ} (h : RevocationTable rows) (ht : table t = rows) :
    Enqueues table rows [] (.ok t) where
  eq_ok t' ht' := by
    cases ht'
    rw [ht, append_nil]
    exact ⟨h, rfl⟩
  returns _ := returns_ok t

theorem bind (h : Enqueues table rows ids x)
    (hf : ∀ t, x = .ok t → Enqueues table' (table t) ids' (f t)) :
    Enqueues table' rows (ids ++ ids') (x >>= f) := by
  have hunion : ∀ t, x = .ok t →
      (table t ++ ids').toFinset = (rows ++ (ids ++ ids')).toFinset := by
    intro t ht
    rw [toFinset_append, (h.eq_ok t ht).2, ← toFinset_append, append_assoc]
  constructor
  · intro t' ht'
    obtain ⟨t, ht, ht'⟩ := bind_eq_ok_iff.mp ht'
    rw [← hunion t ht]
    exact (hf t ht).eq_ok t' ht'
  · intro hcard
    have hsubset : (rows ++ ids).toFinset ⊆ (rows ++ (ids ++ ids')).toFinset := by
      simp only [toFinset_append]
      exact Finset.union_subset_union_right Finset.subset_union_left
    obtain ⟨t, ht⟩ := h.returns ((Finset.card_le_card hsubset).trans hcard)
    refine returns_bind_iff.mpr ⟨t, ht, (hf t ht).returns ?_⟩
    rwa [hunion t ht]

theorem map {g : σ → τ} (h : Enqueues table rows ids x) (hg : ∀ t, table' (g t) = table t) :
    Enqueues table' rows ids (x >>= fun t => .ok (g t)) := by
  have hbind := h.bind fun t ht => nil (h.eq_ok t ht).1 (hg t)
  rwa [append_nil] at hbind

end Enqueues

theorem enqueueWakeRevocation_enqueues (id : Octets 32) (hrows : RevocationTable rows) :
    Enqueues (fun rows => rows) rows [id] (enqueueWakeRevocation rows id) := by
  unfold enqueueWakeRevocation
  by_cases hmem : id ∈ rows
  · rw [if_pos hmem]
    refine ⟨fun rows' h => ?_, fun _ => returns_ok _⟩
    cases h
    exact ⟨hrows, by simp [hmem]⟩
  · have hnd : (rows ++ [id]).Nodup := concat_eq_append ▸ hrows.1.concat hmem
    rw [if_neg hmem]
    refine ⟨fun rows' h => ?_, fun hcard => ?_⟩
    · split_ifs at h
      cases h
      refine ⟨⟨hnd, ?_⟩, rfl⟩
      rw [length_append, length_singleton]
      omega
    · rw [toFinset_card_of_nodup hnd, length_append, length_singleton] at hcard
      rw [if_neg (by omega)]
      exact returns_ok _

/-- **Room for revocations.** -/
theorem enqueueIssuedWakeRevocations_enqueues (hrows : RevocationTable rows) :
    Enqueues (fun rows => rows) rows ids (enqueueIssuedWakeRevocations rows ids) := by
  induction ids generalizing rows with
  | nil => exact .nil hrows rfl
  | cons id ids ih =>
    have hfst := enqueueWakeRevocation_enqueues id hrows
    exact hfst.bind fun rows₁ h₁ => ih (hfst.eq_ok rows₁ h₁).1

end Revocations

/-! ### Sessions -/

/-- What a session that takes the place of another one retires. -/
def replacedWake (E : Env Session) (s : Store Session) (device : Octets 32) (session : Session) :
    List (Octets 32) :=
  if (s.wake device).any (fun wake => wake.sessionId ≠ E.sessionId session) then s.issuedTo device
  else []

variable {device : Octets 32} {session : Session} {devices : List (Octets 32)}
  {rows : List ContactDeviceRecord} {s₁ s₂ : Store Session} {plan : HandshakeReceivePlan Session}

theorem putSession_enqueues (hrows : RevocationTable s.wakeRevocations) :
    Enqueues Store.wakeRevocations s.wakeRevocations (replacedWake E s device session)
      (putSession E s device session) := by
  refine Enqueues.map ?_ fun _ => rfl
  unfold synchronizeWakeSession replacedWake Store.issuedTo
  cases s.wake device with
  | none => exact .nil hrows rfl
  | some current =>
    by_cases hsame : current.sessionId = E.sessionId session
    · simpa [hsame] using Enqueues.nil hrows rfl
    · simpa [hsame] using (enqueueIssuedWakeRevocations_enqueues hrows).map fun _ => rfl

/-- Deleting the sessions of different devices retires what was issued under each. -/
theorem deleteSessions_enqueues (hnd : devices.Nodup) (hrows : RevocationTable s.wakeRevocations) :
    Enqueues Store.wakeRevocations s.wakeRevocations (devices.flatMap s.issuedTo)
      (devices.foldlM deleteSession s) := by
  induction devices generalizing s with
  | nil => exact .nil hrows rfl
  | cons device devices ih =>
    obtain ⟨hdev, hdevice⟩ := nodup_cons.mp hnd
    have hfst : Enqueues Store.wakeRevocations _ (s.issuedTo device) (deleteSession s device) :=
      (enqueueIssuedWakeRevocations_enqueues hrows).map fun _ => rfl
    rw [foldlM_cons, flatMap_cons]
    refine hfst.bind fun s' h => ?_
    -- The rest retires the same capabilities after the first deletion.
    have hiss : devices.flatMap s.issuedTo = devices.flatMap s'.issuedTo := by
      obtain ⟨_, _, hwake, rfl⟩ := deleteSession_eq_ok h
      refine flatMap_congr fun other hother => ?_
      rw [Store.issuedTo, ← hwake other fun heq => hdev (heq ▸ hother)]
      rfl
    rw [hiss]
    exact ih hdevice (hfst.eq_ok s' h).1

/-! ### Devices -/

/-- A device row that the store takes. -/
def RowAccepted (row : ContactDeviceRecord) : Prop :=
  validateContactDevice row = .ok () ∧
    IntroductionFits row.introductionCapability row.introductionGeneration

theorem returns_putContactDevice_iff {row : ContactDeviceRecord} :
    Returns (putContactDevice s row) ↔ RowAccepted row := by
  rw [putContactDevice, returns_check_bind_iff, returns_check_bind_iff, returns_rejectIf_iff,
    not_or, ne_eq, not_not, RowAccepted, IntroductionFits]
  constructor
  · rintro ⟨⟨⟨⟩, hval⟩, hintro, -⟩
    exact ⟨hval, hintro⟩
  · rintro ⟨hval, hintro⟩
    exact ⟨⟨(), hval⟩, hintro, returns_ok _⟩

theorem returns_putContactDevices_iff :
    Returns (rows.foldlM putContactDevice s) ↔ ∀ row ∈ rows, RowAccepted row :=
  returns_foldlM_iff fun s => @returns_putContactDevice_iff _ s

theorem RowsFit.accepted_iff {peer peerDevice : Octets 32} (h : RowsFit peer peerDevice rows) :
    (∀ row ∈ rows, RowAccepted row) ↔
      ∀ row ∈ rows, row.account ≠ .zero 32 ∧ row.device ≠ .zero 32 := by
  refine forall₂_congr fun row hrow => ⟨fun hrowA => ?_, fun hkeys => ?_⟩
  · have hval := hrowA.1
    simp only [validateContactDevice, rejectIf_eq_ok_iff, not_or] at hval
    exact ⟨hval.1, hval.2.1⟩
  · exact ⟨h.valid row hrow hkeys.1 hkeys.2, h.introduction row hrow⟩

/-! ### The writes -/

/-- The tables that the checks of later writes read. -/
structure Kept (s s' : Store Session) : Prop where
  wake : s'.wake = s.wake
  wakeRevocations : s'.wakeRevocations = s.wakeRevocations
  messages : s'.messages = s.messages

theorem kept_writePrekeys (prekeys : Option PrekeyTransition) :
    Kept s (writePrekeys s prekeys) := by
  cases prekeys <;> exact ⟨rfl, rfl, rfl⟩

theorem messages_deleteSessions (h : devices.foldlM deleteSession s = .ok s') :
    s'.messages = s.messages := by
  refine foldlM_invariant (I := fun s' => s'.messages = s.messages) (fun _ _ _ h₁ hkept => ?_) h rfl
  obtain ⟨_, _, -, rfl⟩ := deleteSession_eq_ok h₁
  exact hkept

/-- Nothing of them changes between writing the session and deleting others. -/
theorem kept_before_deletions (gone : List ContactDeviceRecord) {contact : ContactRecord}
    (h : rows.foldlM putContactDevice (s₁.putContact contact) = .ok s₂) :
    Kept s₁ (s₂.deleteContactDevices gone) := by
  obtain ⟨_, rfl⟩ := putContactDevices_eq_ok h
  exact ⟨rfl, rfl, rfl⟩

theorem returns_writePeer_iff {plan : HandshakeReceivePlan Session} (hs : Sound E s)
    (hnd : plan.deleteSessions.Nodup) (hpeer : plan.peerDevice ∉ plan.deleteSessions) :
    Returns (plan.writePeer E s) ↔ (∀ row ∈ plan.devices, RowAccepted row) ∧
      (s.wakeRevocations ++ retiredWake E s plan).toFinset.card ≤ maxWakeRevocationRows := by
  by_cases hrows : ∀ row ∈ plan.devices, RowAccepted row
  · have hprekey := @kept_writePrekeys _ s plan.prekeys
    have hput := @putSession_enqueues _ E (writePrekeys s plan.prekeys) plan.peerDevice
      plan.sessionAfter (hprekey.wakeRevocations ▸ ⟨hs.revocation_nodup, hs.revocation_le⟩)
    rw [hprekey.wakeRevocations, replacedWake, Store.issuedTo, hprekey.wake] at hput
    have hall : Enqueues Store.wakeRevocations s.wakeRevocations (retiredWake E s plan)
        (plan.writePeer E s) := by
      refine hput.bind fun s₁ h₁ => ?_
      obtain ⟨s₂, h₂⟩ :=
        returns_putContactDevices_iff (s := s₁.putContact plan.contact) |>.mpr hrows
      have hkept := kept_before_deletions plan.deleteDevices h₂
      -- The deletions retire what is left of the plan's capabilities.
      have hiss : plan.deleteSessions.flatMap s.issuedTo =
          plan.deleteSessions.flatMap (s₂.deleteContactDevices plan.deleteDevices).issuedTo := by
        refine flatMap_congr fun device hdev => ?_
        obtain ⟨_, _, hwake, rfl⟩ := putSession_eq_ok h₁
        rw [Store.issuedTo, Store.issuedTo, hkept.wake, ← hprekey.wake,
          ← hwake device fun heq => hpeer (heq ▸ hdev)]
      rw [h₂, ok_bind, hiss, ← hkept.wakeRevocations]
      exact (deleteSessions_enqueues hnd (hkept.wakeRevocations ▸ (hput.eq_ok s₁ h₁).1)).map
        fun _ => rfl
    rw [hall.returns_iff, and_iff_right hrows]
  · refine iff_of_false ?_ fun h => hrows h.1
    rintro ⟨_, h⟩
    simp only [HandshakeReceivePlan.writePeer, bind_eq_ok_iff] at h
    obtain ⟨_, -, _, h₂, -⟩ := h
    exact hrows (returns_putContactDevices_iff.mp ⟨_, h₂⟩)

theorem messages_writePeer (h : plan.writePeer E s = .ok s') : s'.messages = s.messages := by
  simp only [HandshakeReceivePlan.writePeer, bind_eq_ok_iff] at h
  obtain ⟨s₁, h₁, s₂, h₂, s₃, h₃, h⟩ := h
  cases h
  calc s₃.messages = (s₂.deleteContactDevices plan.deleteDevices).messages :=
        messages_deleteSessions h₃
    _ = s₁.messages := (kept_before_deletions _ h₂).messages
    _ = (writePrekeys s plan.prekeys).messages := by
        obtain ⟨_, _, -, rfl⟩ := putSession_eq_ok h₁
        rfl
    _ = s.messages := (kept_writePrekeys plan.prekeys).messages

def DeliveryNamed (d : DeviceDelivery) : Prop :=
  d.message ≠ .zero 16 ∧ d.account ≠ .zero 32 ∧ d.device ≠ .zero 32

theorem returns_putMessageDeviceDelivery_iff {d : DeviceDelivery} :
    Returns (putMessageDeviceDelivery s d) ↔ DeliveryNamed d := by
  rw [putMessageDeviceDelivery, returns_check_bind_iff, returns_rejectIf_iff, not_or, not_or]
  exact ⟨fun h => h.1, fun h => ⟨h, returns_ok _⟩⟩

theorem returns_putMessage_iff {message : Option MessageRecord} :
    Returns (message.toList.foldlM putMessage s) ↔
      ∀ m ∈ message, ∀ old ∈ s.messages, old.id ≠ m.id := by
  cases message with
  | none => simp [pure, Except.pure]
  | some m =>
    simp only [Option.toList_some, foldlM_cons, foldlM_nil, Option.mem_some_iff, forall_eq']
    rw [returns_bind_iff, putMessage]
    simp [check_bind_eq_ok_iff, pure, Except.pure]

/-- **Writing messages**: the id of a new one is not used. -/
theorem returns_writeMessages_iff (hids : ∀ t ∈ plan.resetMessages, t.2.id = t.1.id)
    (hname : ∀ t ∈ plan.resetDeliveries ++ plan.retireGroupDeliveries, DeliveryNamed t.2) :
    Returns (plan.writeMessages s) ↔ ∀ m ∈ plan.message, ∀ old ∈ s.messages, old.id ≠ m.id := by
  have hmap : (applyTransitions MessageRecord.id plan.resetMessages s.messages).map
      MessageRecord.id = s.messages.map MessageRecord.id :=
    map_applyTransitions fun t ht row _ hid => (hids t ht).trans hid
  -- The resets leave the ids of the messages as they are.
  have hold : ∀ id, (∀ old ∈ applyTransitions MessageRecord.id plan.resetMessages s.messages,
      old.id ≠ id) ↔ ∀ old ∈ s.messages, old.id ≠ id := by
    intro id
    have hmem := congrArg (id ∈ ·) hmap
    simp only [mem_map, eq_iff_iff] at hmem
    simpa using not_congr hmem
  have hdel : ∀ {s₁ : Store Session} {transitions : List (DeviceDelivery × DeviceDelivery)},
      (∀ t ∈ transitions, DeliveryNamed t.2) →
        Returns ((transitions.map Prod.snd).foldlM putMessageDeviceDelivery s₁) := by
    intro s₁ transitions h
    refine (returns_foldlM_iff fun s => @returns_putMessageDeviceDelivery_iff _ s).mpr
      fun d hd => ?_
    obtain ⟨t, ht, rfl⟩ := mem_map.mp hd
    exact h t ht
  unfold HandshakeReceivePlan.writeMessages
  obtain ⟨s₁, h₁⟩ := @hdel ((s.deleteQueue plan.deleteQueue).updateMessages plan.resetMessages) _
    fun t ht => hname t (mem_append_left _ ht)
  obtain ⟨s₂, h₂⟩ := @hdel (s₁.updateGroupMessages plan.retireGroupMessages) _
    fun t ht => hname t (mem_append_right _ ht)
  obtain ⟨_, rfl⟩ := putDeliveries_eq_ok h₁
  obtain ⟨_, rfl⟩ := putDeliveries_eq_ok h₂
  rw [h₁, ok_bind, h₂, ok_bind, returns_bind_of_forall fun _ => returns_ok _,
    returns_putMessage_iff]
  exact forall₂_congr fun m _ => hold m.id

/-! ### Validation -/

section Validation

variable {plan : HandshakeReceivePlan Session}

/-- What a plan made from the stored rows has by its making. -/
structure PlanSound (E : Env Session) (s : Store Session) (plan : HandshakeReceivePlan Session) :
    Prop where
  session_before : s.sessions plan.peerDevice = plan.sessionBefore
  session_ne : some plan.sessionAfter ≠ plan.sessionBefore
  contentId_ne : plan.contentId ≠ .zero 16
  rows : RowsFit plan.contact.peer plan.peerDevice plan.devices
  queue_le : plan.queue.length ≤ maxCommitQueueRows
  deleteQueue_le : plan.deleteQueue.length ≤ maxCommitQueueRows
  resetMessages_le : plan.resetMessages.length ≤ maxCommitQueueRows
  resetDeliveries_le : plan.resetDeliveries.length ≤ maxCommitQueueRows
  retireGroupMessages_le : plan.retireGroupMessages.length ≤ maxCommitQueueRows
  retireGroupDeliveries_le : plan.retireGroupDeliveries.length ≤ maxCommitQueueRows
  queue_items : ∀ item ∈ plan.queue, item.peer = plan.peerDevice ∧ item.msgId = none ∧
    item.groupMsgId = none ∧ item.envelope.kind = .receipt
  mutations_le : plan.mutationCount ≤ maxCommitMutations
  deleted : ∀ row ∈ plan.deleteDevices, row ∈ s.contactDevicesFor plan.contact.peer ∧
    ∀ new ∈ plan.devices, new.device ≠ row.device
  deleteSessions_nodup : plan.deleteSessions.Nodup
  deleteSessions : ∀ device ∈ plan.deleteSessions, device ≠ plan.peerDevice ∧
    (s.sessions device).isSome = true
  deleteQueue : ∀ row ∈ plan.deleteQueue, ∃ item ∈ s.queue,
    row = (item.1, E.contentId item.2.envelope)
  resets : ResetsFit s plan.contact.peer plan.peerDevice ⟨plan.resetMessages, plan.resetDeliveries,
    plan.retireGroupMessages, plan.retireGroupDeliveries⟩
  prekeys_ne : ∀ t ∈ plan.prekeys, t.1 ≠ t.2
  groups : validateGroups s plan.groups = .ok ()
  message_peer : ∀ m ∈ plan.message, m.peer = plan.contact.peer
  pending : validatePending E s plan.sourcePending = .ok ()
  media : validateNewMedia s plan.mediaTransfers plan.mediaObjects = .ok ()
  unseen : plan.contentId ∉ s.seen
  queue_ne : plan.receiptReplay = true → plan.queue ≠ []
  receipt : plan.message.isSome = true ∨ plan.mediaTransfers ≠ [] ∨ plan.mediaObjects ≠ [] →
    plan.receiptReplay = true

theorem validatePrekeys_eq_ok_iff {prekeys : Option PrekeyTransition}
    (hne : ∀ t ∈ prekeys, t.1 ≠ t.2) :
    validatePrekeys s prekeys = .ok () ↔ PrekeysFit s prekeys := by
  cases prekeys with
  | none => simp [validatePrekeys, PrekeysFit]
  | some t => simp [validatePrekeys, PrekeysFit, hne t rfl]

theorem find?_contactDevice (hs : Sound E s) {row : ContactDeviceRecord} {peer : Octets 32}
    (hrow : row ∈ s.contactDevicesFor peer) :
    (s.contactDevicesFor row.account).find? (fun current => current.device = row.device) =
      some row := by
  obtain ⟨hmem, rfl, _⟩ := mem_contactDevicesFor.mp hrow
  refine find?_eq_some_of_unique hrow (by simp) fun row' hrow' hdev => ?_
  obtain ⟨hmem', hacc, -⟩ := mem_contactDevicesFor.mp hrow'
  exact inj_on_of_nodup_map hs.device_nodup hmem' hmem (Prod.ext hacc (of_decide_eq_true hdev))

theorem find?_queue (hs : Sound E s) {item : ℤ × QueueItem} (hitem : item ∈ s.queue) :
    s.queue.find? (fun row => row.1 = item.1) = some item :=
  find?_eq_some_of_unique hitem (by simp) fun row hrow heq =>
    inj_on_of_nodup_map hs.queue_nodup hrow hitem (of_decide_eq_true heq)

/-- No message of the conversation has the id and the direction of the new one. -/
def MessageNew (s : Store Session) (message : Option MessageRecord) : Prop :=
  ∀ m ∈ message, ∀ old ∈ s.messagesWith m.peer, ¬ (old.id = m.id ∧ old.direction = m.direction)

/-- Of the checks of a plan made from the stored rows, only these can fail. -/
theorem validateHandshakeReceive_eq_ok_iff [DecidableEq Session] (hs : Sound E s)
    (h : PlanSound E s plan) : validateHandshakeReceive E s plan = .ok () ↔
      plan.devices.length ≤ maxPairwiseCommitDevices ∧ PrekeysFit s plan.prekeys ∧
        MessageNew s plan.message := by
  -- The other checks, in the order of the validator.
  have hne : plan.devices ≠ [] := by
    obtain ⟨row, hrow, -⟩ := h.rows.sender_mem
    exact ne_nil_of_mem hrow
  have hacc : plan.devices.any (fun row => row.account ≠ plan.contact.peer) = false := by
    simpa using h.rows.account_eq
  have hitems : plan.queue.any (fun item => item.peer ≠ plan.peerDevice || item.msgId.isSome ||
      item.groupMsgId.isSome || item.envelope.kind ≠ .receipt) = false := by
    rw [any_eq_false]
    intro item hitem
    obtain ⟨hpeer, hmsg, hgrp, hkind⟩ := h.queue_items item hitem
    simp [hpeer, hmsg, hgrp, hkind]
  have hdel : ∀ row ∈ plan.deleteDevices, rejectIf ((s.contactDevicesFor row.account).find?
      (fun current => current.device = row.device) ≠ some row) StoreError.invalidTransition =
        .ok () := by
    intro row hrow
    rw [rejectIf_eq_ok_iff, not_not]
    exact find?_contactDevice hs (h.deleted row hrow).1
  have hsession : ∀ device ∈ plan.deleteSessions, rejectIf (device = plan.peerDevice ∨
      (s.sessions device).isNone) StoreError.invalidTransition = .ok () := by
    intro device hdev
    obtain ⟨hne, hsome⟩ := h.deleteSessions device hdev
    rw [rejectIf_eq_ok_iff, not_or, ← Option.not_isSome, hsome]
    exact ⟨hne, by simp⟩
  have hqueue : ∀ row ∈ plan.deleteQueue, rejectIf ((s.queue.find? fun item => item.1 = row.1).map
      (fun item => E.contentId item.2.envelope) ≠ some row.2) StoreError.invalidTransition =
        .ok () := by
    intro row hrow
    obtain ⟨_, hitem, rfl⟩ := h.deleteQueue row hrow
    rw [rejectIf_eq_ok_iff, not_not, find?_queue hs hitem]
    rfl
  have hrows : ¬ (¬ (plan.devices.map ContactDeviceRecord.device).Nodup ∨ plan.deleteDevices.any
      (fun row => plan.devices.any fun new => new.device = row.device)) := by
    rw [not_or, not_not]
    refine ⟨h.rows.device_nodup, ?_⟩
    simpa using fun row hrow => (h.deleted row hrow).2
  -- What is left of the messages is whether the new one is new.
  have hmessage : ¬ (plan.message.any fun message => message.peer ≠ plan.contact.peer ||
      (s.messagesWith message.peer).any fun old => old.id = message.id &&
        old.direction = message.direction) ↔ MessageNew s plan.message := by
    cases hm : plan.message with
    | none => simp [MessageNew]
    | some m => simp [MessageNew, h.message_peer m hm]
  have hlast : ¬ (plan.contentId ∈ s.seen ∨ (plan.receiptReplay ∧ plan.queue = []) ∨
      ((plan.message.isSome ∨ plan.mediaTransfers ≠ [] ∨ plan.mediaObjects ≠ []) ∧
        (plan.receiptReplay = false ∨ plan.queue = []))) := by
    rintro (hseen | ⟨hrep, hnil⟩ | ⟨haccept, hrep⟩)
    · exact h.unseen hseen
    · exact h.queue_ne hrep hnil
    · have htrue := h.receipt haccept
      rcases hrep with hfal | hnil
      · exact absurd htrue (by simp [hfal])
      · exact h.queue_ne htrue hnil
  simp only [validateHandshakeReceive, check_bind_eq_ok_iff, rejectIf_eq_ok_iff,
    forEach_eq_ok_iff.mpr hdel, forEach_eq_ok_iff.mpr hsession, forEach_eq_ok_iff.mpr hqueue,
    hrows, h.resets.deliveries, h.resets.messages, h.resets.groupDeliveries,
    h.resets.groupMessages, h.groups, h.pending, h.media, hlast, hmessage,
    validatePrekeys_eq_ok_iff h.prekeys_ne, h.session_before, h.session_ne, ne_eq, not_or, not_lt,
    hacc, hitems, hne, h.contentId_ne, h.queue_le, h.deleteQueue_le, h.resetMessages_le,
    h.resetDeliveries_le, h.retireGroupMessages_le, h.retireGroupDeliveries_le, h.mutations_le,
    Bool.false_eq_true, not_true_eq_false, or_self, not_false_eq_true, true_and, and_true]

theorem returns_commitHandshakeReceive_iff [DecidableEq Session] (hs : Sound E s)
    (h : PlanSound E s plan) :
    Returns (commitHandshakeReceive E s plan) ↔ ReceiptFits E s plan := by
  have hpeer : plan.peerDevice ∉ plan.deleteSessions := fun hmem =>
    (h.deleteSessions _ hmem).1 rfl
  have hwr := @returns_writePeer_iff _ E s plan hs h.deleteSessions_nodup hpeer
  have hids : ∀ t ∈ plan.resetMessages, t.2.id = t.1.id := by
    intro t ht
    have hval := h.resets.messages
    rw [validateMessages, check_bind_eq_ok_iff, forEach_eq_ok_iff] at hval
    have hchk := hval.1 t ht
    simp only [rejectIf_eq_ok_iff, not_or, ne_eq, not_not] at hchk
    exact hchk.1.symm
  -- Deliveries are named because the keys of the contact are not all zeros.
  have hname : DevicesFit plan.devices →
      ∀ t ∈ plan.resetDeliveries ++ plan.retireGroupDeliveries, DeliveryNamed t.2 := by
    intro hfit t ht
    obtain ⟨hmsg, hacc, hdev⟩ := h.resets.message_ne t ht
    obtain ⟨row, hrow, hsnd⟩ := h.rows.sender_mem
    obtain ⟨hrowA, hrdev⟩ := hfit.key_ne row hrow
    rw [DeliveryNamed, hacc, hdev, ← hsnd, ← h.rows.account_eq row hrow]
    exact ⟨hmsg, hrowA, hrdev⟩
  have hcom : Returns (commitHandshakeReceive E s plan) ↔
      validateHandshakeReceive E s plan = .ok () ∧ ∃ s', plan.writePeer E s = .ok s' ∧
        Returns (plan.writeMessages s') := by
    rw [commitHandshakeReceive, returns_check_bind_iff, returns_bind_iff]
    refine and_congr ⟨?_, fun h => ⟨_, h⟩⟩ ?_
    · rintro ⟨_, h⟩
      exact h
    simp only [returns_bind_of_forall fun _ => returns_ok _]
  rw [hcom, validateHandshakeReceive_eq_ok_iff hs h]
  constructor
  · rintro ⟨⟨hlen, hprekey, -⟩, s', hpeerW, hmsgs⟩
    obtain ⟨haccept, hrevs⟩ := hwr.mp ⟨s', hpeerW⟩
    have hfit : DevicesFit plan.devices := ⟨hlen, h.rows.accepted_iff.mp haccept⟩
    refine ⟨hfit, ?_, hrevs, hprekey⟩
    rw [returns_writeMessages_iff hids (hname hfit), messages_writePeer hpeerW] at hmsgs
    exact hmsgs
  · rintro ⟨hfit, hmsg, hrevs, hprekey⟩
    obtain ⟨s', hpeerW⟩ := hwr.mpr ⟨h.rows.accepted_iff.mpr hfit.key_ne, hrevs⟩
    refine ⟨⟨hfit.length_le, hprekey, ?_⟩, s', hpeerW, ?_⟩
    · intro m hm old hold hsame
      exact hmsg m hm old (mem_filter.mp hold).1 hsame.1
    · rw [returns_writeMessages_iff hids (hname hfit), messages_writePeer hpeerW]
      exact hmsg

end Validation

end Komms.Handshake
