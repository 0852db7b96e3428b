import Komms.Handshake.Equiv.Endpoints

/-!
# What a replaced session takes back

The transitions of messages and deliveries that `consume_handshake` prepares are the ones the commit
plan validator recomputes from the stored rows, for pairwise and for group messages alike.

Preparing the groups shared with a peer succeeds just when their sender chains rotate
(`returns_prepareGroups_iff`), and the prepared records are ones the store takes
(`validateGroups_of_prepareGroups`).
-/

namespace Komms.Handshake

open Table List
open Komms.Group (GroupRecord ChainKeys)
open GroupAuthority (maxGroupAuthorityMembers)

variable {Session : Type} {E : Env Session} {s : Store Session}
  {peer peerDevice : Octets 32}

/-! ### Deliveries of a family of messages -/

theorem mem_messageDeviceDeliveries {id : Octets 16} {d : DeviceDelivery} :
    d ∈ s.messageDeviceDeliveries id ↔ d ∈ s.deliveries ∧ d.message = id := by
  simp [Store.messageDeviceDeliveries]

section Family

variable {α : Type} {idOf : α → Octets 16} {messages : List α} {p : DeviceDelivery → Bool}
  {change : DeviceDelivery → DeviceDelivery}

def familyTransitions (s : Store Session) (idOf : α → Octets 16) (messages : List α)
    (p : DeviceDelivery → Bool) (change : DeviceDelivery → DeviceDelivery) :
    List (DeviceDelivery × DeviceDelivery) :=
  messages.flatMap fun m => transitionsOf p change (s.messageDeviceDeliveries (idOf m))

theorem mem_familyTransitions {t : DeviceDelivery × DeviceDelivery} :
    t ∈ familyTransitions s idOf messages p change ↔
      (∃ m ∈ messages, t.1 ∈ s.messageDeviceDeliveries (idOf m)) ∧ p t.1 = true ∧
        t.2 = change t.1 := by
  simp only [familyTransitions, mem_flatMap, mem_transitionsOf]
  tauto

variable (hkeys : (s.deliveries.map DeviceDelivery.key).Nodup)
include hkeys

theorem nodup_familyTransitions (hids : (messages.map idOf).Nodup) :
    ((familyTransitions s idOf messages p change).map fun t => t.1.key).Nodup := by
  rw [familyTransitions, map_flatMap, nodup_flatMap]
  have hpart : ∀ m, (transitionsOf p change (s.messageDeviceDeliveries (idOf m))).map
      (fun t => t.1.key) = ((s.messageDeviceDeliveries (idOf m)).filter p).map DeviceDelivery.key :=
    fun m => by simp [transitionsOf, Function.comp_def]
  refine ⟨fun m _ => ?_, ?_⟩
  · rw [hpart]
    exact hkeys.sublist ((filter_sublist.trans filter_sublist).map _)
  · refine (pairwise_map.mp hids).imp fun {m m'} hne => ?_
    intro k hk hk'
    simp only [hpart, mem_map, mem_filter, mem_messageDeviceDeliveries] at hk hk'
    obtain ⟨d, ⟨⟨-, hd⟩, -⟩, rfl⟩ := hk
    obtain ⟨_, ⟨⟨-, hd'⟩, -⟩, heq⟩ := hk'
    exact hne (hd.symm.trans ((congrArg Prod.fst heq).symm.trans hd'))

/-- Applied to the deliveries of one of the messages, the transitions change those satisfying
`p`. -/
theorem applyTransitions_family {m : α} (hm : m ∈ messages) :
    applyTransitions DeviceDelivery.key (familyTransitions s idOf messages p change)
      (s.messageDeviceDeliveries (idOf m)) =
        changeWhere p change (s.messageDeviceDeliveries (idOf m)) := by
  refine applyTransitions_eq_map (fun t ht row hrow hkey => ?_) fun row hrow hp => ?_
  · obtain ⟨⟨_, -, hmem⟩, hp, hchange⟩ := mem_familyTransitions.mp ht
    obtain rfl := inj_on_of_nodup_map hkeys (mem_messageDeviceDeliveries.mp hmem).1
      (mem_messageDeviceDeliveries.mp hrow).1 hkey
    exact ⟨hp, hchange⟩
  · exact ⟨(row, change row), mem_familyTransitions.mpr ⟨⟨m, hm, hrow⟩, hp, rfl⟩, rfl⟩

theorem find?_delivery {d : DeviceDelivery} (hd : d ∈ s.deliveries) :
    (s.messageDeviceDeliveries d.message).find? (fun e => e.device = d.device) = some d := by
  refine find?_eq_some_of_unique (mem_messageDeviceDeliveries.mpr ⟨hd, rfl⟩) (by simp) ?_
  intro e he hdev
  obtain ⟨he, hmsg⟩ := mem_messageDeviceDeliveries.mp he
  exact inj_on_of_nodup_map hkeys he hd (Prod.ext hmsg (of_decide_eq_true hdev))

/-- **Transitions of deliveries are valid** when they touch deliveries to the peer's device that are
not final. -/
theorem validateDeliveries_family
    (hids : (messages.map idOf).Nodup) (hchange : ∀ d, (change d).message = d.message ∧
      (change d).account = d.account ∧ (change d).device = d.device)
    (hp : ∀ m ∈ messages, ∀ d ∈ s.messageDeviceDeliveries (idOf m), p d = true →
      d.account = peer ∧ d.device = peerDevice ∧ d.final = false) :
    validateDeliveries s change peer peerDevice (familyTransitions s idOf messages p change) =
      .ok () := by
  rw [validateDeliveries, check_bind_eq_ok_iff, forEach_eq_ok_iff, rejectIf_eq_ok_iff, not_not]
  refine ⟨fun t ht => ?_, nodup_familyTransitions hkeys hids⟩
  obtain ⟨⟨m, hm, hmem⟩, hpt, heq⟩ := mem_familyTransitions.mp ht
  obtain ⟨hacc, hdev, hfin⟩ := hp m hm t.1 hmem hpt
  obtain ⟨hmsg', hacc', hdev'⟩ := hchange t.1
  have hfind := find?_delivery hkeys (mem_messageDeviceDeliveries.mp hmem).1
  rw [rejectIf_eq_ok_iff, heq]
  simp only [not_or, ne_eq, not_not, Bool.not_eq_true]
  exact ⟨hmsg'.symm, hacc'.symm, hdev'.symm, hfind, hacc, hdev, trivial, hfin⟩

omit hkeys

end Family

/-! ### The prepared transitions -/

theorem mem_outboundTo {m : MessageRecord} :
    m ∈ s.outboundTo peer ↔ m ∈ s.messages ∧ m.peer = peer ∧ m.direction = .outbound := by
  simp only [Store.outboundTo, Store.messagesWith, mem_filter, decide_eq_true_eq, and_assoc]

theorem mem_outboundGroupMessages {m : GroupMessageRecord} :
    m ∈ s.outboundGroupMessages ↔ m ∈ s.groupMessages ∧ m.direction = .outbound := by
  simp [Store.outboundGroupMessages]

theorem nodup_outboundTo (hs : Sound E s) : ((s.outboundTo peer).map MessageRecord.id).Nodup :=
  hs.message_nodup.sublist ((filter_sublist.trans filter_sublist).map _)

theorem nodup_outboundGroupMessages (hs : Sound E s) :
    (s.outboundGroupMessages.map GroupMessageRecord.id).Nodup :=
  hs.groupMessage_nodup.sublist (filter_sublist.map _)

/-- What the commit validates of resets. -/
structure ResetsFit (s : Store Session) (peer peerDevice : Octets 32) (resets : Resets) :
    Prop where
  deliveries : validateDeliveries s .reset peer peerDevice resets.deliveries = .ok ()
  messages : validateMessages s peer resets.deliveries resets.messages = .ok ()
  groupDeliveries : validateDeliveries s .retired peer peerDevice resets.groupDeliveries = .ok ()
  groupMessages : validateGroupMessages s peer resets.groupDeliveries resets.groupMessages = .ok ()
  message_ne : ∀ t ∈ resets.deliveries ++ resets.groupDeliveries,
    t.2.message ≠ .zero 16 ∧ t.2.account = peer ∧ t.2.device = peerDevice

theorem resetsFit_nil (s : Store Session) (peer peerDevice : Octets 32) :
    ResetsFit s peer peerDevice ⟨[], [], [], []⟩ := by
  refine ⟨?_, ?_, ?_, ?_, by simp⟩ <;>
    simp [validateDeliveries, validateMessages, validateGroupMessages, forEach,
      check_bind_eq_ok_iff]

theorem resetMessage_eq_some {m : MessageRecord} {t : MessageRecord × MessageRecord}
    (h : resetMessage s peerDevice m = some t) :
    t = (m, m.withDeliveries (changeWhere (resettable peerDevice) .reset
      (s.messageDeviceDeliveries m.id))) := by
  unfold resetMessage at h
  dsimp only at h
  split_ifs at h
  exact (Option.some.inj h).symm

theorem retireGroupMessage_eq_ok {m : GroupMessageRecord}
    {t : GroupMessageRecord × GroupMessageRecord}
    (h : retireGroupMessage s peer peerDevice m = .ok (some t)) :
    t.1 = m ∧ m.withDeliveries peer (changeWhere (retirable peer peerDevice) .retired
      (s.messageDeviceDeliveries m.id)) = some t.2 := by
  unfold retireGroupMessage at h
  dsimp only at h
  split_ifs at h
  · simp only [bind_eq_ok_iff, required_eq_ok_iff, Except.ok.injEq] at h
    obtain ⟨_, haft, h⟩ := h
    split_ifs at h
    cases h
    exact ⟨rfl, haft⟩
  · simp at h

theorem validateMessages_resets (hs : Sound E s) :
    validateMessages s peer (familyTransitions s MessageRecord.id (s.outboundTo peer)
      (resettable peerDevice) .reset)
        ((s.outboundTo peer).filterMap (resetMessage s peerDevice)) = .ok () := by
  rw [validateMessages, check_bind_eq_ok_iff, forEach_eq_ok_iff, rejectIf_eq_ok_iff, not_not]
  refine ⟨fun t ht => ?_, ?_⟩
  · obtain ⟨m, hm, hres⟩ := mem_filterMap.mp ht
    obtain rfl := resetMessage_eq_some hres
    obtain ⟨hmem, hpeer, hdir⟩ := mem_outboundTo.mp hm
    have hfind : (s.messagesWith m.peer).find? (fun e => e.id = m.id) = some m := by
      refine find?_eq_some_of_unique ?_ (by simp) fun e he hid => ?_
      · simpa [Store.messagesWith] using hmem
      · exact inj_on_of_nodup_map hs.message_nodup (mem_filter.mp he).1 hmem (by simpa using hid)
    have happ := @applyTransitions_family _ s _ MessageRecord.id _ (resettable peerDevice)
      DeviceDelivery.reset hs.delivery_nodup _ hm
    rw [rejectIf_eq_ok_iff, happ]
    simp only [not_or, ne_eq, not_not]
    exact ⟨rfl, rfl, rfl, hfind, hpeer, hdir, trivial⟩
  · refine (nodup_outboundTo hs).sublist (map_filterMap_sublist (fun m t ht => ?_) _)
    rw [resetMessage_eq_some ht]

/-- The prepared group messages pass their own check. -/
theorem validateGroupMessages_resets (hs : Sound E s)
    {messages : List (GroupMessageRecord × GroupMessageRecord)}
    (h : collectEach (retireGroupMessage s peer peerDevice) s.outboundGroupMessages =
      .ok messages) :
    validateGroupMessages s peer (familyTransitions s GroupMessageRecord.id s.outboundGroupMessages
      (retirable peer peerDevice) .retired) messages = .ok () := by
  obtain ⟨-, rfl⟩ := collectEach_eq_ok_iff.mp h
  have hsome : ∀ m t, (retireGroupMessage s peer peerDevice m).toOption.join = some t →
      retireGroupMessage s peer peerDevice m = .ok (some t) := by
    intro m t ht
    cases hm : retireGroupMessage s peer peerDevice m with
    | error e => simp [hm, Except.toOption] at ht
    | ok o => simpa [hm, Except.toOption] using ht
  rw [validateGroupMessages, check_bind_eq_ok_iff, forEach_eq_ok_iff, rejectIf_eq_ok_iff, not_not]
  refine ⟨fun t ht => ?_, ?_⟩
  · obtain ⟨m, hm, hret⟩ := mem_filterMap.mp ht
    obtain ⟨rfl, haft⟩ := retireGroupMessage_eq_ok (hsome m t hret)
    obtain ⟨_, -, hdel⟩ := Option.map_eq_some_iff.mp haft
    obtain ⟨hmem, hout⟩ := mem_outboundGroupMessages.mp hm
    -- The message is found by its id, which is unique.
    have hfind : (s.groupMessagesIn t.1.group).find?
        (fun e => e.id = t.1.id && e.sender = t.1.sender) = some t.1 := by
      refine find?_eq_some_of_unique ?_ (by simp) fun e he hkey => ?_
      · simpa [Store.groupMessagesIn] using hmem
      · simp only [Bool.and_eq_true, decide_eq_true_eq] at hkey
        exact inj_on_of_nodup_map hs.groupMessage_nodup (mem_filter.mp he).1 hmem hkey.1
    have happ := @applyTransitions_family _ s _ GroupMessageRecord.id _ (retirable peer peerDevice)
      DeviceDelivery.retired hs.delivery_nodup _ hm
    rw [rejectIf_eq_ok_iff, happ]
    simp only [not_or, ne_eq, not_not]
    rw [← hdel] at haft ⊢
    exact ⟨rfl, rfl, rfl, rfl, hfind, hout, haft⟩
  · refine (nodup_outboundGroupMessages hs).sublist (map_filterMap_sublist (fun m t ht => ?_) _)
    rw [(retireGroupMessage_eq_ok (hsome m t ht)).1]

/-- **The prepared resets pass the checks of the commit.** -/
theorem resetsFit_of_prepareResets (hs : Sound E s) {resets : Resets}
    (h : prepareResets s peer peerDevice = .ok resets) : ResetsFit s peer peerDevice resets := by
  simp only [prepareResets, bind_eq_ok_iff, Except.ok.injEq] at h
  obtain ⟨_, hgrp, rfl⟩ := h
  -- Both predicates choose unfinished deliveries to the device.
  have hres : ∀ m ∈ s.outboundTo peer, ∀ d ∈ s.messageDeviceDeliveries m.id,
      resettable peerDevice d = true → d.account = peer ∧ d.device = peerDevice ∧
        d.final = false := by
    intro m hm d hd hp
    obtain ⟨hmem, hpeer, hdir⟩ := mem_outboundTo.mp hm
    simp only [resettable, Bool.and_eq_true, decide_eq_true_eq, Bool.not_eq_true'] at hp
    exact ⟨(hs.delivery_account m hmem hdir d hd).trans hpeer, hp.1.1, hp.1.2⟩
  have hret : ∀ m ∈ s.outboundGroupMessages, ∀ d ∈ s.messageDeviceDeliveries m.id,
      retirable peer peerDevice d = true → d.account = peer ∧ d.device = peerDevice ∧
        d.final = false := by
    intro m _ d _ hp
    simp only [retirable, Bool.and_eq_true, decide_eq_true_eq, Bool.not_eq_true'] at hp
    exact ⟨hp.1.1, hp.1.2, hp.2⟩
  refine ⟨?_, validateMessages_resets hs, ?_, validateGroupMessages_resets hs hgrp, ?_⟩
  · exact validateDeliveries_family hs.delivery_nodup (nodup_outboundTo hs)
      (fun _ => ⟨rfl, rfl, rfl⟩) hres
  · exact validateDeliveries_family hs.delivery_nodup (nodup_outboundGroupMessages hs)
      (fun _ => ⟨rfl, rfl, rfl⟩) hret
  · intro t ht
    rcases mem_append.mp ht with ht | ht
    all_goals
      obtain ⟨⟨m, hm, hmem⟩, hp, heq⟩ := mem_familyTransitions.mp ht
      rw [heq]
      refine ⟨hs.delivery_message_ne t.1 (mem_messageDeviceDeliveries.mp hmem).1, ?_⟩
    · obtain ⟨hacc, hdev, -⟩ := hres m hm t.1 hmem hp
      exact ⟨hacc, hdev⟩
    · obtain ⟨hacc, hdev, -⟩ := hret m hm t.1 hmem hp
      exact ⟨hacc, hdev⟩

/-- Preparing resets always succeeds: a group message lists the accounts of its deliveries. -/
theorem returns_prepareResets (hs : Sound E s) : Returns (prepareResets s peer peerDevice) := by
  unfold prepareResets
  rw [returns_bind_of_forall fun _ => returns_ok _]
  refine ⟨_, collectEach_eq_ok_iff.mpr ⟨fun m hm => ?_, rfl⟩⟩
  obtain ⟨hmem, hdir⟩ := mem_outboundGroupMessages.mp hm
  unfold retireGroupMessage
  dsimp only
  split_ifs with hany
  · rw [returns_bind_of_forall fun _ => returns_ok _, returns_required_iff,
      GroupMessageRecord.withDeliveries, Option.isSome_map, isSome_updateFirst_iff]
    obtain ⟨d, hd, hp⟩ := any_eq_true.mp hany
    obtain ⟨entry, hentry, hpeer⟩ := hs.groupDelivery_account m hmem hdir d hd
    simp only [retirable, Bool.and_eq_true, decide_eq_true_eq] at hp
    exact ⟨entry, hentry, decide_eq_true (hpeer.trans hp.1.1)⟩
  · exact returns_ok _

variable {d : Draws}

/-! ### One group -/

/-- What makes a record valid besides its pending announces. -/
structure ValidBut (g g' : GroupRecord) : Prop where
  id_eq : g'.id = g.id
  name_eq : g'.name = g.name
  members_eq : g'.members = g.members
  secret_eq : g'.secret = g.secret

variable {g g' : GroupRecord}

theorem validGroupRecord_of_pending (hsame : ValidBut g g') (hg : validGroupRecord g = true)
    (hnd : (g'.pending.map fun p => p.peer).Nodup)
    (hmem : ∀ p ∈ g'.pending, ∃ m ∈ g'.members, m.peer = p.peer) : validGroupRecord g' = true := by
  obtain ⟨hid, hname, hmember, hsec⟩ := hsame
  simp only [validGroupRecord, Bool.and_eq_true, decide_eq_true_eq] at hg ⊢
  obtain ⟨⟨⟨⟨⟨⟨⟨⟨⟨⟨hid', hname'⟩, hnames⟩, hne⟩, hlen⟩, hpeer⟩, hidentity⟩, hsec'⟩, -⟩, -⟩, -⟩ := hg
  have hsubset : (g'.pending.map fun p => p.peer) ⊆ g.members.map fun m => m.peer := by
    intro id hid
    obtain ⟨p, hp, rfl⟩ := mem_map.mp hid
    obtain ⟨m, hm, heq⟩ := hmem p hp
    rw [← heq]
    exact mem_map_of_mem (hmember ▸ hm)
  have hpen : g'.pending.length ≤ maxGroupAuthorityMembers := by
    have hle := (hnd.subperm hsubset).length_le
    rw [length_map, length_map] at hle
    exact hle.trans hlen
  rw [hid, hname, hmember, hsec]
  refine ⟨⟨⟨⟨⟨⟨⟨⟨⟨⟨hid', hname'⟩, hnames⟩, hne⟩, hlen⟩, hpeer⟩, hidentity⟩, hsec'⟩, hpen⟩, hnd⟩, ?_⟩
  rw [all_eq_true]
  intro p hp
  obtain ⟨m, hm, heq⟩ := hmem p hp
  exact any_eq_true.mpr ⟨m, hmember ▸ hm, decide_eq_true heq⟩

section

variable (hg : validGroupRecord g = true)
include hg

theorem pending_peers_of_valid :
    (g.pending.map fun p => p.peer).Nodup ∧ ∀ p ∈ g.pending, ∃ m ∈ g.members, m.peer = p.peer := by
  simp only [validGroupRecord, Bool.and_eq_true, decide_eq_true_eq, all_eq_true, any_eq_true] at hg
  exact ⟨hg.1.2, hg.2⟩

/-- An announce owed to a member keeps the record valid. -/
theorem validGroupRecord_owe {chain : ChainKeys} (hpeer : ∃ m ∈ g.members, m.peer = peer) :
    validGroupRecord (owe g peer chain) = true := by
  obtain ⟨hnd, hmem⟩ := pending_peers_of_valid hg
  -- The entry of the member is reset, or a new one is added last.
  have hpeers : ((owe g peer chain).pending.map fun p => p.peer) = (g.pending.map fun p => p.peer) ∨
      (owe g peer chain).pending = g.pending ++ [⟨peer, chain, none, 0⟩] ∧
        ∀ p ∈ g.pending, p.peer ≠ peer := by
    unfold owe
    cases hupd : updateFirst (fun entry : Group.PendingAnnounce => decide (entry.peer = peer))
        (fun entry => { entry with wireId := none, lastSent := 0 }) g.pending with
    | some pending => exact .inl (map_updateFirst hupd fun _ => rfl)
    | none =>
      refine .inr ⟨rfl, fun p hp heq => ?_⟩
      have hnone := isSome_updateFirst_iff.not.mp (by rw [hupd]; simp)
      exact hnone ⟨p, hp, decide_eq_true heq⟩
  refine validGroupRecord_of_pending (g := g) ⟨rfl, rfl, rfl, rfl⟩ hg ?_ ?_
  · rcases hpeers with hpeers | ⟨hpen, hfr⟩
    · rw [hpeers]
      exact hnd
    · rw [hpen]
      exact nodup_snoc hnd hfr
  · intro p hp
    rcases hpeers with hpeers | ⟨hpen, -⟩
    · have hp' : p.peer ∈ g.pending.map fun p => p.peer := hpeers ▸ mem_map_of_mem hp
      obtain ⟨p', hp', heq⟩ := mem_map.mp hp'
      exact heq ▸ hmem p' hp'
    · rw [hpen] at hp
      rcases mem_append.mp hp with hp | hp
      · exact hmem p hp
      · rw [mem_singleton.mp hp]
        exact hpeer

theorem validGroupRecord_rotateGroupOrigin {k : ℕ} {view : Group.Store}
    (h : Group.rotateGroupOrigin E.group view d.group k g = .ok g') :
    g'.id = g.id ∧ validGroupRecord g' = true := by
  simp only [Group.rotateGroupOrigin, bind_eq_ok_iff, Except.ok.injEq] at h
  obtain ⟨_, -, _, -, _, -, _, -, rfl⟩ := h
  exact ⟨rfl, validGroupRecord_of_pending (g := g) ⟨rfl, rfl, rfl, rfl⟩ hg (by simp) (by simp)⟩

end

variable {g : GroupRecord × ℕ}

theorem prepareGroup_eq_ok {t : GroupRecord × GroupRecord}
    (hg : validGroupRecord g.1 = true) (h : prepareGroup E s d peer g = .ok (some t)) :
    t.1 = g.1 ∧ t.2.id = g.1.id ∧ validGroupRecord t.2 = true := by
  unfold prepareGroup at h
  split_ifs at h with hmem
  · simp at h
  · simp only [all_eq_true, decide_eq_true_eq, not_forall, not_not, exists_prop, ne_eq] at hmem
    simp only [mapError_eq_ok_iff, bind_eq_ok_iff, Except.ok.injEq] at h
    obtain ⟨sender, -, _, haft, h⟩ := h
    split_ifs at h
    cases h
    refine ⟨rfl, ?_⟩
    cases sender with
    | origin state => exact validGroupRecord_rotateGroupOrigin hg haft
    | legacy chain =>
      cases haft
      exact ⟨rfl, validGroupRecord_owe hg hmem⟩

theorem returns_prepareGroup_iff (hdraw : ∀ k, d.group.chainKey k ≠ .zero 32)
    (hsnd : Returns (Group.checkSenderState g.1.senderChain)) :
    Returns (prepareGroup E s d peer g) ↔
      ((∃ m ∈ g.1.members, m.peer = peer) → ∀ state, g.1.senderChain = .origin state →
        Group.HasNextEpoch g.1.senderChain ∧ Group.EpochFits E.group s.groupView g.1.members) := by
  unfold prepareGroup
  split_ifs with hmem
  · simp only [all_eq_true, decide_eq_true_eq] at hmem
    refine iff_of_true (returns_ok _) fun ⟨m, hm, hpeer⟩ => absurd hpeer (hmem m hm)
  · simp only [all_eq_true, decide_eq_true_eq, not_forall, not_not, exists_prop, ne_eq] at hmem
    have hrot := @Group.returns_rotateGroupOrigin_iff E.group s.groupView d.group g.2 g.1 hdraw hsnd
    obtain ⟨_, hok⟩ := hsnd
    obtain rfl := Group.checkSenderState_eq_ok hok
    rw [forall_prop_of_true hmem, returns_mapError_iff, hok, ok_bind,
      returns_bind_of_forall fun _ => returns_ok _]
    cases hch : g.1.senderChain with
    | legacy chain => simp [renewGroup]
    | origin state =>
      rw [hch] at hrot
      simp [renewGroup, hrot]

/-! ### All groups -/

theorem mem_of_mem_zipIdx (h : g ∈ s.groups.zipIdx) : g.1 ∈ s.groups :=
  fst_mem_of_mem_zipIdx h

theorem returns_prepareGroups_iff (hs : Sound E s) (hdraw : ∀ k, d.group.chainKey k ≠ .zero 32) :
    Returns (prepareGroupsOnSessionEstablished E s d peer) ↔
      (peer ≠ E.account.ed → GroupsRotate E s peer) := by
  unfold prepareGroupsOnSessionEstablished
  split_ifs with hme
  · simp [hme]
  · have hall : Returns (collectEach (prepareGroup E s d peer) s.groups.zipIdx) ↔
        ∀ g ∈ s.groups.zipIdx, Returns (prepareGroup E s d peer g) :=
      ⟨fun ⟨ys, h⟩ => (collectEach_eq_ok_iff.mp h).1,
        fun h => ⟨_, collectEach_eq_ok_iff.mpr ⟨h, rfl⟩⟩⟩
    rw [hall, forall_prop_of_true hme]
    constructor
    · intro h g hg
      obtain ⟨k, _, rfl⟩ := mem_iff_getElem.mp hg
      have hmem : (s.groups[k], k) ∈ s.groups.zipIdx := by
        simp [mem_zipIdx_iff_getElem?]
      exact (returns_prepareGroup_iff hdraw (hs.group_sender _ hg)).mp (h _ hmem)
    · intro h g hg
      have hmem := mem_of_mem_zipIdx hg
      exact (returns_prepareGroup_iff hdraw (hs.group_sender _ hmem)).mpr (h g.1 hmem)

theorem validateGroups_of_prepareGroups (hs : Sound E s) {groups : List (GroupRecord × GroupRecord)}
    (h : prepareGroupsOnSessionEstablished E s d peer = .ok groups) :
    validateGroups s groups = .ok () := by
  rw [validateGroups, forEach_eq_ok_iff]
  intro t ht
  unfold prepareGroupsOnSessionEstablished at h
  split_ifs at h
  · cases h
    cases ht
  · obtain ⟨-, rfl⟩ := collectEach_eq_ok_iff.mp h
    obtain ⟨g, hg, hprep⟩ := mem_filterMap.mp ht
    have hmem := mem_of_mem_zipIdx hg
    cases hres : prepareGroup E s d peer g with
    | error e => simp [hres, Except.toOption] at hprep
    | ok o =>
      obtain rfl : o = some t := by simpa [hres, Except.toOption] using hprep
      obtain ⟨hbef, hid, hval⟩ := prepareGroup_eq_ok (hs.group_valid _ hmem) hres
      have hfind : s.getGroup t.1.id = some t.1 := by
        rw [hbef]
        refine find?_eq_some_of_unique hmem (by simp) fun g' hg' heq => ?_
        exact inj_on_of_nodup_map hs.group_nodup hg' hmem (by simpa using heq)
      rw [rejectIf_eq_ok_iff]
      simp only [not_or, ne_eq, not_not, Bool.not_eq_false]
      exact ⟨by rw [hid, hbef], hval, hfind⟩

end Komms.Handshake
