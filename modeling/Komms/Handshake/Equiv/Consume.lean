import Mathlib.Logic.Equiv.List
import Mathlib.Tactic.DeriveCountable
import Komms.DeviceAuthority.Equiv.Quorum
import Komms.Handshake.Equiv.Prepared
import Komms.Group.Equiv.Reachable

/-!
# When a handshake is consumed

`consume_handshake` is meant to drop what it cannot use: "dropped flights never wedge the queue".
The check of the sender's manifest and the commit escape this: their errors leave the function, and
the envelope stays in the pending inbox.  `consumeHandshake_returns_iff` is the exact condition.

An authenticated flight that arrives late is enough: its manifest is the one before the last change
of the sender's devices, and is refused as stale at every later pass
(`Sample.stale_manifest_wedges`).
-/

namespace Komms.Handshake

open DeviceAuthority List Option Except Effect

variable {Session : Type} {E : Env Session} {s : Store Session} {node : Node Session}
  {f : Flight Session} {r : Received} {d : Draws} {manifest : Manifest}

/-! ### The manifest -/

theorem decode_nil_ne_ok (S : Suite) (parse : Bytes → Option (Manifest × Bytes)) (m : Manifest) :
    Manifest.decode S parse [] ≠ .ok m := by
  have hmag : [].dropPrefix? authorityMagic = none := by decide
  simp [Manifest.decode, hmag, required, rejectIf, bind, Except.bind]

theorem relationError_eq_none_iff (relation : Relation) : relationError relation = none ↔
    relation = .same ∨ relation = .descendant ∨ relation = .recoverySupersedes := by
  cases relation <;> decide

theorem relationTo_eq_ok_iff {row : ContactDeviceRecord} {accepted : Manifest}
    {relation : Relation} : relationTo E manifest row = .ok (accepted, relation) ↔
      Manifest.decode E.group.suite E.group.postcard.manifest row.authority = .ok accepted ∧
        accepted.relation E.group.suite manifest = .ok relation := by
  simp only [relationTo, bind_eq_ok_iff, mapError_eq_ok_iff, ok.injEq, Prod.mk.injEq]
  constructor
  · rintro ⟨_, hdec, _, hrel, rfl, rfl⟩
    exact ⟨hdec, hrel⟩
  · rintro ⟨hdec, hrel⟩
    exact ⟨_, hdec, _, hrel, rfl, rfl⟩

theorem validateContactDeviceManifest_eq_ok_iff (hs : Sound E s)
    (hver : manifest.verify E.group.suite = .ok ()) :
    validateContactDeviceManifest E s manifest = .ok () ↔ Continues E s manifest := by
  simp only [validateContactDeviceManifest, check_bind_eq_ok_iff, mapError_eq_ok_iff, hver,
    true_and, forEach_eq_ok_iff, mem_filter, Bool.and_eq_true, decide_eq_true_eq, and_imp]
  refine forall_congr' fun row => forall_congr' fun hrow => forall_congr' fun hacc => ?_
  constructor
  · intro h accepted hdec
    have hauth : row.authority ≠ [] := fun hnil =>
      decode_nil_ne_ok _ _ _ (hnil ▸ hdec)
    obtain ⟨⟨accepted', relation⟩, hto, hok⟩ := bind_eq_ok_iff.mp (h hauth)
    obtain ⟨hdec', hrel⟩ := relationTo_eq_ok_iff.mp hto
    obtain rfl : accepted = accepted' := ok.inj (hdec.symm.trans hdec')
    refine ⟨relation, hrel, (relationError_eq_none_iff relation).mp ?_⟩
    cases herr : relationError relation with
    | none => rfl
    | some e => simp [herr] at hok
  · intro h hauth
    obtain ⟨accepted, hdec⟩ := hs.authority row hrow hauth
    obtain ⟨relation, hrel, hok⟩ := h accepted hdec
    rw [relationTo_eq_ok_iff.mpr ⟨hdec, hrel⟩, ok_bind]
    simp [(relationError_eq_none_iff relation).mpr hok]

theorem checkManifest_cases (hs : Sound E node.store) {key : Octets 32}
    (hread : Read E node r.now key f) :
    ((∀ bundle ∈ f.opened.deviceBundle, Continues E node.store bundle.manifest) ∧
      checkManifest E node f r = ⟨node, .ok ()⟩) ∨
    ((¬ ∀ bundle ∈ f.opened.deviceBundle, Continues E node.store bundle.manifest) ∧
      ¬ Returns (checkManifest E node f r).result ∧
      SameButConflicts node (checkManifest E node f r).state) := by
  unfold checkManifest
  cases hbundle : f.opened.deviceBundle with
  | none => exact .inl ⟨by simp, rfl⟩
  | some bundle =>
    have hver : bundle.manifest.verify E.group.suite = .ok () := by
      have hbundle := (hread.bundle bundle hbundle).1
      simp only [DevicePrekeyBundle.verify, Bool.and_eq_true, decide_eq_true_eq] at hbundle
      exact hbundle.1.1.1.1.1
    simp only [mem_def, some.injEq, forall_eq', ← validateContactDeviceManifest_eq_ok_iff hs hver]
    exact validateContactDeviceManifestVisible_cases r.now

/-! ### Consuming -/

section

variable [DecidableEq Session]

omit [DecidableEq Session] in
theorem stopped_state_of_not_returns {stop : Stop} (h : ¬ Returns (stopped E node r stop).result) :
    (stopped E node r stop).state = node := by
  cases stop with
  | later => exact absurd (returns_ok _) h
  | terminal => exact ofExcept_state_of_not_returns h

theorem stageRequest_state_of_not_returns (h : ¬ Returns (stageRequest E node f r).result) :
    (stageRequest E node f r).state = node := by
  revert h
  unfold stageRequest
  split
  · exact stopped_state_of_not_returns
  · split
    · exact fun h => absurd (returns_ok _) h
    · exact ofExcept_state_of_not_returns
    · exact fun _ => rfl

theorem receiveHandshake_state_of_not_returns
    (h : ¬ Returns (receiveHandshake E d node f r).result) :
    (receiveHandshake E d node f r).state = node := by
  revert h
  unfold receiveHandshake
  split
  · exact stopped_state_of_not_returns
  · exact fun _ => rfl
  · split
    · exact fun h => absurd (returns_ok _) h
    · exact fun _ => rfl

theorem takeFlight_of_checked (h : checkManifest E node f r = ⟨node, .ok ()⟩) :
    takeFlight E d node f r =
      if f.contact.isNone then stageRequest E node f r else receiveHandshake E d node f r := by
  rw [takeFlight, h]
  rfl

theorem returns_takeFlight_iff (hE : Lawful E) (hs : Sound E node.store)
    (hfr : Fresh E node.store d) (hwt : Waiting E node.store r)
    (hread : Read E node r.now d.ratchetKey f) :
    Returns (takeFlight E d node f r).result ↔ FlightFits E d node f r := by
  rcases checkManifest_cases hs hread with ⟨hman, hchk⟩ | ⟨hman, hchk, -⟩
  · rw [takeFlight_of_checked hchk]
    cases hcon : f.contact with
    | none =>
      simp only [isNone_none, if_true]
      rw [returns_stageRequest_iff hE hs hread hcon hwt]
      exact ⟨fun h => ⟨hman, fun _ => h, fun hne => absurd hcon hne,
        fun hne => absurd hcon hne⟩, fun h => h.request hcon⟩
    | some contact =>
      have hne : f.contact ≠ none := by simp [hcon]
      simp only [isNone_some, Bool.false_eq_true, if_false]
      rw [returns_receiveHandshake_iff hE hs hfr hwt hread]
      exact ⟨fun h => ⟨hman, fun hnone => absurd hnone hne, fun _ => h.1, fun _ => h.2⟩,
        fun h => ⟨h.groups hne, h.receipt hne⟩⟩
  · refine iff_of_false (fun h => ?_) fun h => hman h.manifest
    obtain ⟨value, hres, -⟩ := returns_andThen_iff.mp h
    exact hchk ⟨value, hres⟩

theorem takeFlight_pending_of_not_returns (hs : Sound E node.store) {key : Octets 32}
    (hread : Read E node r.now key f) (h : ¬ Returns (takeFlight E d node f r).result) :
    (takeFlight E d node f r).state.store.pending = node.store.pending := by
  rcases checkManifest_cases hs hread with ⟨-, hchk⟩ | ⟨-, hchk, _, _, hst⟩
  · revert h
    rw [takeFlight_of_checked hchk]
    split_ifs
    · exact fun h => by rw [stageRequest_state_of_not_returns h]
    · exact fun h => by rw [receiveHandshake_state_of_not_returns h]
  · unfold takeFlight Effect.andThen
    split
    · next value hres => exact absurd ⟨value, hres⟩ hchk
    · rw [hst]

/-- **When a handshake is consumed.**  From sound rows, `consume_handshake` returns exactly if the
envelope is receivable; otherwise it returns an error and the pending inbox is as before. -/
theorem consumeHandshake_returns_iff (E : Env Session) (d : Draws) (node : Node Session)
    (r : Received) (hE : Lawful E) (hs : Sound E node.store) (hfresh : Fresh E node.store d)
    (hwaiting : Waiting E node.store r) :
    (Returns (consumeHandshake E d node r).result ↔ Receivable E d node r) ∧
      (¬ Receivable E d node r →
        (consumeHandshake E d node r).state.store.pending = node.store.pending) := by
  unfold consumeHandshake Receivable
  dsimp only
  obtain ⟨budgets, hst⟩ := @readFlight_state _ E node r d.ratchetKey
  cases hres : (readFlight E node r.envelope r.transport r.late r.now d.ratchetKey).result with
  | error stop =>
    have hnone : ∀ f, Except.error stop = .ok f → FlightFits E d node f r := nofun
    refine ⟨iff_of_true ?_ hnone, fun h => absurd hnone h⟩
    have hwt' : Waiting E { node with budgets }.store r := hwaiting
    rw [hst]
    exact returns_stopped hwt' stop
  | ok f =>
    have hread := readFlight_eq_ok hres
    -- What was spent of the budgets is not read again.
    have hread' : Read E { node with budgets } r.now d.ratchetKey f := { hread with }
    have htake : Returns (takeFlight E d { node with budgets } f r).result ↔
        FlightFits E d { node with budgets } f r :=
      returns_takeFlight_iff hE hs hfresh hwaiting hread'
    have hfits : FlightFits E d { node with budgets } f r ↔ FlightFits E d node f r :=
      ⟨fun h => { h with }, fun h => { h with }⟩
    rw [hfits] at htake
    simp only [hst, ok.injEq, forall_eq']
    refine ⟨htake, fun h => ?_⟩
    rw [← htake] at h
    exact takeFlight_pending_of_not_returns hs hread' h

end

namespace Sample

open DeviceAuthority.Sample (keys certificate nameB genesis renamed)

/-- A byte that is not zero, so that what repeats it is not zero. -/
def nonZero (b : UInt8) : UInt8 := if b = 0 then 1 else b

/-- The generation of a transition is in byte 170 of its canonical form. -/
def hash (bytes : Bytes) : Octets 32 := .replicate 32 (nonZero (bytes.getD 170 0))

def suite : Suite := .ofSigned (fun _ _ => true) hash

/-- Account 1 with its device 2, before and after the device was renamed. -/
def manifestAt (generation : UInt8) : Manifest :=
  if generation = 1 then ⟨[genesis]⟩
  else ⟨[genesis, { renamed nameB with parentHash := .replicate 32 1 }]⟩

def groupEnv : Group.Env where
  suite := suite
  postcard :=
    { identity := fun _ => none
      manifest := fun bytes => bytes.head?.map fun b => (manifestAt b, bytes.tail) }
  control := fun _ => none
  encodeControl := fun _ => []
  me := .replicate 32 3
  deviceId := .replicate 32 4
  manifest := []
  sign := fun _ _ => .zero 64
  nextChainKey := id
  opensSession := fun _ _ _ => false
  admits := fun _ _ => true
  overflowChecks := false

instance countableUInt32 : Countable UInt32 :=
  Function.Injective.countable fun _ _ => UInt32.toNat_inj.mp

instance countableUInt64 : Countable UInt64 :=
  Function.Injective.countable fun _ _ => UInt64.toNat_inj.mp

instance countableUInt8 : Countable UInt8 :=
  Function.Injective.countable fun _ _ => UInt8.toNat_inj.mp

instance countableBytes : Countable Bytes := inferInstanceAs (Countable (List UInt8))

deriving instance Countable for Octets, Opk, Invitation, PrekeyVault

/-- Vaults can be encoded; how, does not matter here. -/
theorem exists_encodeVault : ∃ encode : PrekeyVault → Bytes, Function.Injective encode := by
  obtain ⟨code, hcode⟩ := exists_injective_nat PrekeyVault
  refine ⟨fun vault => List.replicate (code vault) 0, fun v w h => hcode ?_⟩
  simpa using congrArg List.length h

/-- Account 3 on device 4.  A session is its ratchet key and a count; the body of an envelope is the
generation of the manifest in it. -/
noncomputable def env : Env (Octets 32 × ℕ) where
  group := groupEnv
  account := Identity.toPublic keys ⟨3, 3⟩
  device := Identity.toPublic keys ⟨4, 4⟩
  account_eq := rfl
  device_eq := rfl
  contentId := fun envelope => .replicate 16 (nonZero (envelope.body.headD 0))
  decodeAdmission := fun _ => none
  decodePrekey := fun _ => none
  encodePrekey := fun _ => []
  verifyPrekey := fun _ _ => true
  verifyAdmission := fun _ _ => none
  verifyPuzzle := fun _ _ _ _ => false
  invitationProof := fun _ _ _ => .zero 32
  spkPublic := id
  openAnonymous := some
  decodeDeviceInitial := fun plain => some ⟨[], plain, .establish⟩
  decodeAccountInitial := fun _ => none
  decodeDeviceBundle := fun bytes => bytes.head?.map fun b =>
    ⟨certificate 2, manifestAt b, ⟨Identity.toPublic keys ⟨2, 2⟩, 0, .zero 32, 0, [], []⟩⟩
  decodeInitial := fun _ => some ⟨Identity.toPublic keys ⟨2, 2⟩, 0, 0, none, []⟩
  agree := fun _ _ _ _ key => some ((key, 0), [])
  sessionId := Prod.fst
  sessionBytes := fun _ => [0]
  ratchetKey := Prod.fst
  encrypt := fun session _ _ => ((session.1, session.2 + 1), [])
  deliveryToken := fun _ _ _ => .zero 32
  encodeReceipt := fun _ => []
  unpad := some
  decodeContent := fun _ => .malformed
  encodeVault := Classical.choose exists_encodeVault
  encodeManifest := fun m => authorityMagic ++ [m.generation.toUInt8]
  safetyNumber := fun _ _ => ⟨.replicate 30 0x30, .replicate 32 1⟩
  requestSize := fun _ => 0

theorem env_account : env.account.ed = env.group.me := rfl

theorem env_device : env.device.ed = env.group.deviceId := rfl

theorem replicate_nonZero_ne {n : ℕ} (b : UInt8) :
    Octets.replicate (n + 1) (nonZero b) ≠ .zero (n + 1) := by
  intro h
  have hbytes := congrArg Octets.toBytes h
  simp only [Octets.replicate, Octets.zero, replicate_succ, List.cons.injEq] at hbytes
  have hzero := hbytes.1
  unfold nonZero at hzero
  split_ifs at hzero with hb
  · exact absurd hzero (by decide)
  · exact hb hzero

theorem lawful_env : Lawful env where
  contentId_ne := fun _ => replicate_nonZero_ne _
  sha256_ne := fun _ => replicate_nonZero_ne _
  agree_ratchetKey := fun h => by
    simp only [env, some.injEq, Prod.mk.injEq] at h
    rw [← h.1]
    rfl
  encrypt_ratchetKey := fun _ _ _ => rfl
  encrypt_ne := fun session _ _ h => Nat.succ_ne_self session.2 (congrArg Prod.snd h)
  sessionBytes_ne := fun _ => cons_ne_nil _ _
  encodeVault_injective := Classical.choose_spec exists_encodeVault
  safetyNumber_wellFormed := fun _ _ => by
    simp only [env]
    decide

/-- A node that knows account 1 by its manifest at a generation, with a handshake in its inbox that
brings the manifest at another. -/
def store (known arrived : UInt8) : Store (Octets 32 × ℕ) where
  contacts := fun peer => if peer = .replicate 32 1 then
    some ⟨.replicate 32 1, Identity.toPublic keys ⟨1, 1⟩, [], [], [], false⟩ else none
  contactDevices :=
    [{ account := .replicate 32 1
       device := .replicate 32 2
       name := none
       certificate := some (certificate 2)
       authority := authorityMagic ++ [known]
       bundle := []
       hints := []
       introductionCapability := none
       introductionGeneration := 0
       manifestGeneration := .ofNat known.toNat
       manifestStateId := .replicate 32 known
       lastSeen := 10
       revokedAt := none
       revokedAfterCounter := none }]
  conflicts := []
  blocked := fun _ => false
  sessions := fun _ => none
  capabilities := fun _ => none
  requests := []
  tombstones := fun _ => none
  messages := []
  deliveries := []
  groupMessages := []
  ephemeral := fun _ _ => false
  mediaTransfers := []
  mediaObjects := []
  groups := []
  groupRows := Group.Sample.emptyStore
  queue := []
  seen := []
  receiptReplay := fun _ => none
  pending := [(7, .new .handshake (.zero 32) [arrived])]
  wake := fun _ => none
  wakeRevocations := []
  prekeys := none

def nodeWith (known arrived : UInt8) : Node (Octets 32 × ℕ) where
  store := store known arrived
  vault := ⟨0, .zero 32, 0, [], [], [], 0, []⟩
  budgets := ⟨fun _ => 0, 0, 0, 0⟩

def draws : Draws where
  ratchetKey := .replicate 32 9
  messageId := .replicate 16 1
  transferId := .replicate 16 2
  primaryId := .replicate 16 3
  previewId := .replicate 16 4
  group := { Group.Sample.draws with chainKey := fun _ => .replicate 32 7 }

/-- The handshake, taken from the pending inbox. -/
def received (arrived : UInt8) : Received where
  envelope := .new .handshake (.zero 32) [arrived]
  pendingSequence := some 7
  transport := .direct
  now := 20
  late := false

theorem sound_store {known arrived : UInt8} (h : known = 1 ∨ known = 2) :
    Sound env (store known arrived) where
  contact_peer := fun {peer contact} hcon => by
    simp only [store] at hcon
    split_ifs at hcon with hpeer
    · rw [← some.inj hcon, hpeer]
  device_nodup := nodup_singleton _
  introduction := fun row hrow => by
    obtain rfl := mem_singleton.mp hrow
    exact ⟨nofun, rfl⟩
  authority := fun row hrow _ => by
    obtain rfl := mem_singleton.mp hrow
    obtain rfl | rfl := h
    · exact ⟨manifestAt 1, by decide +kernel⟩
    · exact ⟨manifestAt 2, by decide +kernel⟩
  queue_nodup := nodup_nil
  message_nodup := nodup_nil
  delivery_nodup := nodup_nil
  delivery_message_ne := nofun
  delivery_account := nofun
  groupMessage_nodup := nodup_nil
  groupDelivery_account := nofun
  group_nodup := nodup_nil
  group_valid := nofun
  group_sender := nofun
  revocation_nodup := nodup_nil
  revocation_le := Nat.zero_le _

theorem fresh_draws (known arrived : UInt8) : Fresh env (store known arrived) draws where
  ratchetKey_ne := nofun
  transferId_ne := nofun
  objectId_ne := nofun
  primaryId_ne := by decide
  chainKey_ne := fun _ => by
    simp only [draws]
    decide

theorem waiting_received (known arrived : UInt8) :
    Waiting env (store known arrived) (received arrived) where
  unseen := nofun
  pending := fun sequence h => by
    obtain rfl : 7 = sequence := some.inj h
    simp [store, received]

/-- A handshake with the next manifest is consumed, and meets the condition. -/
theorem next_manifest_receivable :
    (consumeHandshake env draws (nodeWith 1 2) (received 2)).result = .ok .doneAtomic ∧
      Receivable env draws (nodeWith 1 2) (received 2) := by
  have hres : (consumeHandshake env draws (nodeWith 1 2) (received 2)).result =
      .ok .doneAtomic := by decide +kernel
  exact ⟨hres, (consumeHandshake_returns_iff env draws (nodeWith 1 2) (received 2) lawful_env
    (sound_store (.inl rfl)) (fresh_draws 1 2) (waiting_received 1 2)).1.mp ⟨_, hres⟩⟩

/-- A handshake with the manifest before the last one is an error at every pass: it stays in the
inbox, and the pass does not reach the envelope after it, which would be consumed. -/
theorem stale_manifest_wedges :
    Lawful env ∧ Sound env (nodeWith 2 1).store ∧ Fresh env (nodeWith 2 1).store draws ∧
    Waiting env (nodeWith 2 1).store (received 1) ∧
    (consumeHandshake env draws (nodeWith 2 1) (received 1)).result =
      .error .invalidDeviceManifest ∧
    (consumeHandshake env draws (nodeWith 2 1) (received 1)).state.store.pending =
      (nodeWith 2 1).store.pending ∧
    (consumeHandshake env draws (nodeWith 2 1) { received 2 with pendingSequence := none }).result =
      .ok .doneAtomic ∧
    let pass := receivePass env [(draws, received 1),
      (draws, { received 2 with pendingSequence := none })] (nodeWith 2 1)
    pass.result = .error .invalidDeviceManifest ∧
      pass.state.store.pending = (nodeWith 2 1).store.pending ∧ pass.state.store.seen = [] := by
  refine ⟨lawful_env, sound_store (.inr rfl), fresh_draws 2 1, waiting_received 2 1, ?_⟩
  decide +kernel

end Sample

end Komms.Handshake
