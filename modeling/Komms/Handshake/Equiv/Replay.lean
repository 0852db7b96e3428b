import Komms.Handshake.Equiv.Consume

/-!
# Replayed first flights

A sealed first flight can be delivered again in other envelopes: under another token, with its
admission wrapper rebuilt or without it (`carriedFlight`).  What stops it from installing its
session a second time is the set of content ids seen, the one-time prekey that it used, or the rule
for crossing handshakes (`Guarded`).

* `History.sound_of_run`: in every run a one-time prekey that a flight used never comes back.
* `redelivery_unreplaced`: a redelivery that one of the three stops leaves the session.
* `opk_used_once`: no two flights taken in a run used the same one-time prekey.
-/

namespace Komms.Handshake

open Protocol (Envelope)
open List Option Except

variable {Session : Type} {E : Env Session} {node : Node Session} {f : Flight Session}
  {r : Received} {d : Draws}

/-- The sealed flight in the body of a handshake, in an admission wrapper or bare. -/
def carriedFlight (E : Env Session) (body : Bytes) : Option Bytes :=
  if AdmissionEnvelope.isEncoded body then
    (E.decodeAdmission body).map AdmissionEnvelope.sealedFlight
  else some body

/-- **Ideal authenticated encryption.**  An initial message opens with the one-time prekey it was
sealed for and with no other. -/
def OneTime (E : Env Session) : Prop :=
  ∀ ⦃vault vault' : PrekeyVault⦄ ⦃o o' : Opk⦄ ⦃init : InitialMessage⦄ ⦃now now' : UInt64⦄
    ⦃key key' : Octets 32⦄, (E.agree vault (some o) init now key).isSome →
    (E.agree vault' (some o') init now' key').isSome → o.secret = o'.secret

/-! ### What is read from a flight -/

theorem admitFlight_carried {body : Bytes} {transport : AdmissionTransportClass} {late : Bool}
    {now : UInt64} {admission : Option AdmissionEnvelope}
    (h : (admitFlight E node body transport late now).result = .ok admission) :
    carriedFlight E body = some ((admission.map AdmissionEnvelope.sealedFlight).getD body) := by
  cases admission with
  | none =>
    have hbare : ¬ AdmissionEnvelope.isEncoded body := by
      intro hmag
      simp only [admitFlight, hmag, if_true] at h
      split at h
      · exact nomatch h
      · next node' _ =>
        split_ifs at h
        cases hchk : checkAdmission E node'.vault body now <;> simp [hchk, Except.map] at h
    rw [carriedFlight, if_neg hbare]
    rfl
  | some admission =>
    have hchk := admitFlight_eq_ok h
    simp only [checkAdmission, bind_eq_ok_iff, required_eq_ok_iff, ok.injEq] at hchk
    obtain ⟨_, hdec, _, -, _, -, _, -, _, -, _, -, rfl⟩ := hchk
    have hmag : AdmissionEnvelope.isEncoded body := by
      by_contra hbare
      simp [admitFlight, hbare] at h
    rw [carriedFlight, if_pos hmag, hdec]
    rfl

theorem openFlight_of_readReceived (h : readReceived E d node r = .ok f) {x : Bytes}
    (hx : carriedFlight E r.envelope.body = some x) : openFlight E x r.now = .ok f.opened := by
  simp only [readReceived, readFlight, Effect.andThen_result_eq_ok_iff, Effect.inspect,
    ok.injEq] at h
  obtain ⟨_, hadm, _, hopen, _, -, ⟨_, _⟩, -, rfl⟩ := h
  obtain rfl := some.inj ((admitFlight_carried hadm).symm.trans hx)
  exact hopen

theorem decodeFlight_unique {plain : Bytes} {now now' : UInt64} {a b}
    (ha : decodeFlight E plain now = .ok a) (hb : decodeFlight E plain now' = .ok b) : a = b := by
  unfold decodeFlight at ha hb
  cases hdev : E.decodeDeviceInitial plain with
  | some flight =>
    simp only [hdev, bind_eq_ok_iff, required_eq_ok_iff, ok.injEq] at ha hb
    obtain ⟨bundle, hbundle, _, -, rfl⟩ := ha
    obtain ⟨bundle', hbundle', _, -, rfl⟩ := hb
    rw [some.inj (hbundle.symm.trans hbundle')]
  | none =>
    cases hacc : E.decodeAccountInitial plain with
    | some flight =>
      simp only [hdev, hacc, bind_eq_ok_iff, required_eq_ok_iff, ok.injEq] at ha hb
      obtain ⟨_, hbundle, _, -, rfl⟩ := ha
      obtain ⟨_, hbundle', _, -, rfl⟩ := hb
      rw [some.inj (hbundle.symm.trans hbundle')]
    | none =>
      simp only [hdev, hacc, ok.injEq] at ha hb
      rw [← ha, ← hb]

theorem openFlight_unique {x : Bytes} {now now' : UInt64} {a b : Opened}
    (ha : openFlight E x now = .ok a) (hb : openFlight E x now' = .ok b) : a = b := by
  simp only [openFlight, bind_eq_ok_iff, required_eq_ok_iff, ok.injEq] at ha hb
  obtain ⟨_, hplain, ⟨_, _, _, _⟩, hflight, _, hinit, _, -, rfl⟩ := ha
  obtain ⟨_, hplain', ⟨_, _, _, _⟩, hflight', _, hinit', _, -,
    rfl⟩ := hb
  obtain rfl := some.inj (hplain.symm.trans hplain')
  obtain ⟨rfl, rfl, rfl, rfl⟩ := decodeFlight_unique hflight hflight'
  obtain rfl := some.inj (hinit.symm.trans hinit')
  rfl

/-- A flight that names a one-time prekey was opened with the one in the vault. -/
theorem opk_of_readReceived (h : readReceived E d node r = .ok f) {id : UInt32}
    (hid : f.opened.init.opkId = some id) : ∃ o ∈ node.vault.opks, o.id = id ∧
      (E.agree node.vault (some o) f.opened.init r.now d.ratchetKey).isSome := by
  simp only [readReceived, readFlight, Effect.andThen_result_eq_ok_iff, Effect.inspect,
    ok.injEq] at h
  obtain ⟨admission, -, opened, -, _, -, ⟨_, _⟩, hans, rfl⟩ := h
  obtain ⟨_, hst⟩ := (@admitFlight_state _ E node r.envelope.body r.transport r.late
    r.now).trans (meetContact_state admission.isSome opened.peer)
  rw [hst] at hans
  replace hid : opened.init.opkId = some id := hid
  simp only [answer, hid, bind_eq_ok_iff, required_eq_ok_iff] at hans
  obtain ⟨_, -, o, ho, hrsp⟩ := hans
  refine ⟨o, mem_of_find?_eq_some ho, by simpa using find?_some ho, ?_⟩
  rw [(respond_eq_some hrsp).2]
  rfl

/-! ### Runs -/

def PrekeyVault.secrets (vault : PrekeyVault) : List (Octets 32) := vault.opks.map Opk.secret

/-- No two one-time prekeys share a secret. -/
def PrekeyVault.Distinct (vault : PrekeyVault) : Prop :=
  ∀ o ∈ vault.opks, ∀ o' ∈ vault.opks, o.secret = o'.secret → o = o'

/-- A flight that was taken, with the device it is from and the envelope it came in. -/
structure Acceptance where
  sealedFlight : Bytes
  device : Octets 32
  contentId : Octets 16

/-- A run so far: the node, the one-time prekeys that it ever had, and the flights it took. -/
structure History (Session : Type) where
  node : Node Session
  issued : List (Octets 32)
  accepted : List Acceptance

theorem PrekeyVault.Distinct.mono {vault vault' : PrekeyVault} (h : vault.Distinct)
    (hopks : vault'.opks ⊆ vault.opks) : vault'.Distinct :=
  fun o ho o' ho' => h o (hopks ho) o' (hopks ho')

variable {h h' : History Session}

namespace History

/-- Nothing was taken so far. -/
structure Start (h : History Session) : Prop where
  accepted : h.accepted = []
  distinct : h.node.vault.Distinct
  issued : h.node.vault.secrets ⊆ h.issued

/-- The initial message was opened with a one-time prekey that is gone for ever. -/
def Spent (E : Env Session) (h : History Session) (init : InitialMessage) : Prop :=
  ∃ vault o now key, (E.agree vault (some o) init now key).isSome ∧ o.secret ∈ h.issued ∧
    o.secret ∉ h.node.vault.secrets

/-- What every run keeps: the envelope of a flight that was taken is marked seen, and the one-time
prekey that the flight named is gone. -/
structure Sound (E : Env Session) (h : History Session) : Prop where
  distinct : h.node.vault.Distinct
  issued : h.node.vault.secrets ⊆ h.issued
  seen : ∀ a ∈ h.accepted, a.contentId ∈ h.node.store.seen
  opened : ∀ a ∈ h.accepted, ∃ opened now, openFlight E a.sealedFlight now = .ok opened ∧
    opened.peerDevice = a.device ∧ (opened.init.opkId ≠ none → Spent E h opened.init)

theorem Sound.mono (hs : h.Sound E) (hacc : h'.accepted = h.accepted)
    (hdist : h'.node.vault.Distinct) (hmem : h'.node.vault.secrets ⊆ h'.issued)
    (hseen : h.node.store.seen ⊆ h'.node.store.seen) (hiss : h.issued ⊆ h'.issued)
    (hsec : ∀ secret ∈ h.issued, secret ∈ h'.node.vault.secrets →
      secret ∈ h.node.vault.secrets) : h'.Sound E where
  distinct := hdist
  issued := hmem
  seen := fun a ha => hseen (hs.seen a (hacc ▸ ha))
  opened := fun a ha => by
    obtain ⟨opened, now, hopen, hdev, hspent⟩ := hs.opened a (hacc ▸ ha)
    refine ⟨opened, now, hopen, hdev, fun hopk => ?_⟩
    obtain ⟨vault, o, now, key, hagr, ho, hgone⟩ := hspent hopk
    exact ⟨vault, o, now, key, hagr, hiss ho, fun hback => hgone (hsec _ ho hback)⟩

theorem Start.sound (hstart : h.Start) : h.Sound E where
  distinct := hstart.distinct
  issued := hstart.issued
  seen := fun _ ha => absurd (hstart.accepted ▸ ha) not_mem_nil
  opened := fun _ ha => absurd (hstart.accepted ▸ ha) not_mem_nil

/-- A flight that used a one-time prekey is not opened again. -/
theorem opkId_eq_none_of_readReceived (hone : OneTime E) (hs : h.Sound E) {a : Acceptance}
    (ha : a ∈ h.accepted) (hcar : carriedFlight E r.envelope.body = some a.sealedFlight)
    (hread : readReceived E d h.node r = .ok f) :
    f.opened.peerDevice = a.device ∧ f.opened.init.opkId = none := by
  obtain ⟨opened, _, hopen, hdev, hspent⟩ := hs.opened a ha
  obtain rfl := openFlight_unique hopen (openFlight_of_readReceived hread hcar)
  refine ⟨hdev, ?_⟩
  by_contra hopk
  obtain ⟨_, _, _, _, hagr, -, hgone⟩ := hspent hopk
  obtain ⟨_, hid⟩ := ne_none_iff_exists'.mp hopk
  obtain ⟨o, ho, -, hagain⟩ := opk_of_readReceived hread hid
  exact hgone (hone hagr hagain ▸ mem_map_of_mem ho)

end History

section

variable [DecidableEq Session]

/-- The flight of a handshake is taken.  For a contact its session is installed or the prior one is
kept, and a first contact is staged as a request. -/
structure Accepts (E : Env Session) (d : Draws) (node : Node Session) (r : Received)
    (f : Flight Session) : Prop where
  unseen : E.contentId r.envelope ∉ node.store.seen
  read : readReceived E d node r = .ok f
  committed : (consumeFlight E d node r).result = .ok .doneAtomic

namespace History

/-- One step: a handshake envelope is delivered, whichever it is, or the node does something else.
It never forgets what it has seen, and draws each one-time prekey anew. -/
inductive Next (E : Env Session) : History Session → History Session → Prop
  | accept {h : History Session} {d : Draws} {r : Received} {f : Flight Session} {x : Bytes} :
      Accepts E d h.node r f → carriedFlight E r.envelope.body = some x →
      Next E h { h with
        node := (consumeFlight E d h.node r).state
        accepted := ⟨x, f.opened.peerDevice, E.contentId r.envelope⟩ :: h.accepted }
  | deliver {h : History Session} {d : Draws} {r : Received} :
      (∀ f, ¬ Accepts E d h.node r f) →
      Next E h { h with node := (consumeFlight E d h.node r).state }
  | other {h : History Session} {node : Node Session} :
      h.node.store.seen ⊆ node.store.seen → node.vault.Distinct →
      (∀ secret ∈ node.vault.secrets, secret ∈ h.node.vault.secrets ∨ secret ∉ h.issued) →
      Next E h { h with node, issued := node.vault.secrets ++ h.issued }

end History

/-- Something stops a delivery at this state: its content id is in the seen set, or its flight
cannot be read, or the flight is not from a contact, or its session is not decided for. -/
def Guarded (E : Env Session) (d : Draws) (node : Node Session) (r : Received) : Prop :=
  E.contentId r.envelope ∈ node.store.seen ∨ ∀ f, readReceived E d node r = .ok f →
    f.contact = none ∨ decision E node.store f ≠ .acceptInbound

/-! ### One step -/

/-- Whatever is delivered, nothing is forgotten of what was seen, and no prekey is added. -/
theorem consumeFlight_seen_opks (E : Env Session) (d : Draws) (node : Node Session) (r : Received) :
    node.store.seen ⊆ (consumeFlight E d node r).state.store.seen ∧
      (consumeFlight E d node r).state.vault.opks ⊆ node.vault.opks := by
  unfold consumeFlight
  split_ifs
  · have hpasses := consumeSeen_passes E node r
    exact ⟨hpasses.seen, hpasses.opks⟩
  · cases hread : readReceived E d node r with
    | error stop =>
      have hleaves := consumeHandshake_leaves hread
      exact ⟨hleaves.seen, hleaves.opks⟩
    | ok f =>
      have houtcome := consumeHandshake_outcome hread
      exact ⟨houtcome.seen, houtcome.opks⟩

theorem Accepts.taken (h : Accepts E d node r f) :
    E.contentId r.envelope ∈ (consumeFlight E d node r).state.store.seen ∧
    ∀ id ∈ f.opened.init.opkId, ∀ o ∈ (consumeFlight E d node r).state.vault.opks, o.id ≠ id := by
  have hflight : consumeFlight E d node r = consumeHandshake E d node r := if_neg h.unseen
  rw [hflight]
  exact (consumeHandshake_outcome h.read).taken (hflight ▸ h.committed)

namespace History

theorem Sound.deliver (hs : h.Sound E) (d : Draws) (r : Received) :
    Sound E { h with node := (consumeFlight E d h.node r).state } := by
  obtain ⟨hseen, hopks⟩ := consumeFlight_seen_opks E d h.node r
  have hsec := map_subset Opk.secret hopks
  exact hs.mono rfl (hs.distinct.mono hopks) (fun _ hsecret => hs.issued (hsec hsecret)) hseen
    (List.Subset.refl _) fun _ _ hsecret => hsec hsecret

theorem spent_of_accepts (hs : h.Sound E) (hacc : Accepts E d h.node r f)
    (hopk : f.opened.init.opkId ≠ none) :
    Spent E { h with node := (consumeFlight E d h.node r).state } f.opened.init := by
  obtain ⟨_, hid⟩ := ne_none_iff_exists'.mp hopk
  obtain ⟨o, ho, rfl, hagr⟩ := opk_of_readReceived hacc.read hid
  obtain ⟨-, hgone⟩ := hacc.taken
  obtain ⟨-, hopks⟩ := consumeFlight_seen_opks E d h.node r
  refine ⟨h.node.vault, o, r.now, d.ratchetKey, hagr, hs.issued (mem_map_of_mem ho), ?_⟩
  intro hback
  obtain ⟨o', ho', hsec⟩ := mem_map.mp hback
  -- The row that is left would be the one that was removed.
  obtain rfl : o' = o := hs.distinct o' (hopks ho') o ho hsec
  exact hgone _ hid _ ho' rfl

theorem Sound.step (hs : h.Sound E) (hnext : Next E h h') : h'.Sound E := by
  cases hnext with
  | @accept d r f x hacc hcar =>
    have hdel := hs.deliver d r
    refine ⟨hdel.distinct, hdel.issued, fun a ha => ?_, fun a ha => ?_⟩
    · rcases mem_cons.mp ha with rfl | ha
      · exact hacc.taken.1
      · exact hdel.seen a ha
    · rcases mem_cons.mp ha with rfl | ha
      · exact ⟨f.opened, r.now, openFlight_of_readReceived hacc.read hcar, rfl,
          spent_of_accepts hs hacc⟩
      · exact hdel.opened a ha
  | deliver _ => exact hs.deliver _ _
  | other hseen hdist hsec =>
    refine hs.mono rfl hdist (subset_append_left _ _) hseen (subset_append_right _ _) ?_
    intro secret hiss hsecret
    exact (hsec secret hsecret).resolve_right (not_not_intro hiss)

/-- In every run a one-time prekey that a taken flight used is gone, and its envelope is seen. -/
theorem sound_of_run (hstart : h.Start) (hrun : Relation.ReflTransGen (Next E) h h') :
    h'.Sound E := by
  induction hrun with
  | refl => exact hstart.sound
  | tail _ hnext ih => exact ih.step hnext

end History

/-! ### A redelivery -/

/-- The flight names a one-time prekey. -/
def Acceptance.NamesOpk (E : Env Session) (a : Acceptance) : Prop :=
  ∃ opened now, openFlight E a.sealedFlight now = .ok opened ∧ opened.init.opkId ≠ none

/-- **A flight that was taken is delivered again**, at any later state and in any envelope that
carries it.  It leaves the session of its device, at most advanced by a receipt, if something guards
the node against it; its own envelope is guarded against, and so is a flight with a one-time
prekey. -/
theorem redelivery_unreplaced (E : Env Session) (hone : OneTime E) {start h : History Session}
    (hstart : start.Start) (hrun : Relation.ReflTransGen (History.Next E) start h) {a : Acceptance}
    (ha : a ∈ h.accepted) (d : Draws) (r : Received)
    (hcarried : carriedFlight E r.envelope.body = some a.sealedFlight) :
    (Guarded E d h.node r → Unreplaced E (h.node.store.sessions a.device)
      ((consumeFlight E d h.node r).state.store.sessions a.device)) ∧
    (E.contentId r.envelope = a.contentId ∨ a.NamesOpk E → Guarded E d h.node r) := by
  have hs := History.sound_of_run hstart hrun
  constructor
  · intro hguarded
    by_cases hseen : E.contentId r.envelope ∈ h.node.store.seen
    · rw [show consumeFlight E d h.node r = consumeSeen E h.node r from if_pos hseen]
      exact (consumeSeen_passes E h.node r).unreplaced a.device
    · rw [show consumeFlight E d h.node r = consumeHandshake E d h.node r from if_neg hseen]
      cases hread : readReceived E d h.node r with
      | error stop => exact .inl (congrFun (consumeHandshake_leaves hread).sessions _)
      | ok f =>
        obtain ⟨hdevice, -⟩ := History.opkId_eq_none_of_readReceived hone hs ha hcarried hread
        rw [← hdevice]
        exact (consumeHandshake_outcome hread).unreplaced (hguarded.resolve_left hseen f hread)
  · rintro (hid | ⟨opened, now, hopen, hopk⟩)
    · exact .inl (hid ▸ hs.seen a ha)
    · -- The one-time prekey is gone, so the flight is not opened again.
      refine .inr fun f hread => absurd ?_ hopk
      obtain rfl := openFlight_unique hopen (openFlight_of_readReceived hread hcarried)
      exact (History.opkId_eq_none_of_readReceived hone hs ha hcarried hread).2

/-! ### One-time prekeys -/

/-- A flight that was taken names a one-time prekey, and opens with this one. -/
def UsesOpk (E : Env Session) (a : Acceptance) (secret : Octets 32) : Prop :=
  ∃ opened now vault o now' key, openFlight E a.sealedFlight now = .ok opened ∧
    opened.init.opkId ≠ none ∧ (E.agree vault (some o) opened.init now' key).isSome ∧
    o.secret = secret

/-- **One-time prekeys are used once.**  In every run, whatever is delivered again, no envelope is
taken twice, and no two flights that were taken open with the same one-time prekey. -/
theorem opk_used_once (E : Env Session) (hone : OneTime E) {start h : History Session}
    (hstart : start.Start) (hrun : Relation.ReflTransGen (History.Next E) start h) :
    h.accepted.Pairwise fun a b => a.contentId ≠ b.contentId ∧
      ∀ secret, UsesOpk E a secret → ¬ UsesOpk E b secret := by
  induction hrun with
  | refl => rw [hstart.accepted]; exact .nil
  | tail hrun hnext ih =>
    have hs := History.sound_of_run hstart hrun
    cases hnext with
    | deliver _ | other _ _ _ => exact ih
    | accept hacc hcar =>
      refine pairwise_cons.mpr ⟨fun b hb => ⟨?_, ?_⟩, ih⟩
      · intro (hid : E.contentId _ = b.contentId)
        exact hacc.unseen (hid ▸ hs.seen b hb)
      · rintro _ ⟨opened, _, _, _, _, _, hopen, hopk, hagr, rfl⟩
          ⟨opened', _, _, _, _, _, hopen', hopk', hagr', hsec⟩
        -- The new flight was opened with a prekey in the vault, from which that of the other is
        -- gone.
        obtain rfl := openFlight_unique hopen (openFlight_of_readReceived hacc.read hcar)
        obtain ⟨_, hid⟩ := ne_none_iff_exists'.mp hopk
        obtain ⟨o, ho, -, hnew⟩ := opk_of_readReceived hacc.read hid
        obtain ⟨_, _, hold, -, hspent⟩ := hs.opened b hb
        obtain rfl := openFlight_unique hopen' hold
        obtain ⟨_, _, _, _, hused, -, hgone⟩ := hspent hopk'
        rw [hone hused hagr', hsec, hone hagr hnew] at hgone
        exact hgone (mem_map_of_mem ho)

/-- A flight that is taken is put on record. -/
theorem History.Next.of_taken (h : History Session) (d : Draws) (r : Received)
    (device : Octets 32) (x : Bytes) (hunseen : E.contentId r.envelope ∉ h.node.store.seen)
    (hread : (readReceived E d h.node r).toOption.any fun f => f.opened.peerDevice = device)
    (hdone : (consumeFlight E d h.node r).result = .ok .doneAtomic)
    (hcarried : carriedFlight E r.envelope.body = some x) :
    History.Next E h
      { h with
        node := (consumeFlight E d h.node r).state
        accepted := ⟨x, device, E.contentId r.envelope⟩ :: h.accepted } := by
  cases hflight : readReceived E d h.node r with
  | error stop => simp [hflight, Except.toOption] at hread
  | ok f =>
    obtain rfl : f.opened.peerDevice = device := by simpa [hflight, Except.toOption] using hread
    exact .accept ⟨hunseen, hflight, hdone⟩ hcarried

end

namespace Sample

open DeviceAuthority.Sample (keys)

/-- A hash that tells envelopes apart by the first byte of their token. -/
def tokenHash : Envelope.ContentHash where
  blake3 := fun bytes => .replicate 32 (nonZero (bytes.getD 2 0))
  verifiedContentId := fun _ => none

/-- A vault with one-time prekeys of these ids, each with its own secret. -/
def vaultOf (ids : List UInt8) : PrekeyVault :=
  ⟨0, .zero 32, 0, [], [], ids.map fun id => ⟨id.toUInt32, .replicate 32 id⟩, 0, []⟩

/-- The vaults of the runs below have codes of their own. -/
noncomputable def encodeVault (vault : PrekeyVault) : Bytes :=
  if vault = vaultOf [5, 6] then [0]
  else if vault = vaultOf [6] then [0, 0]
  else if vault = vaultOf [] then [0, 0, 0]
  else 1 :: env.encodeVault vault

theorem encodeVault_injective : Function.Injective encodeVault := by
  intro vault vault' h
  unfold encodeVault at h
  split_ifs at h with h₁ h₁' h₂ h₂ h₂' h₃ h₃ h₃'
  all_goals simp_all [lawful_env.encodeVault_injective.eq_iff]

/-- `env` with content ids of the envelope's bytes.  The second byte of a flight names a one-time
prekey, and an initial message opens with the one that is written in it. -/
noncomputable def replayEnv : Env (Octets 32 × ℕ) :=
  { env with
    contentId := Envelope.contentId tokenHash
    decodeDeviceInitial := fun plain => some ⟨plain.tail, plain, .establish⟩
    decodeInitial := fun initial => some ⟨Identity.toPublic keys ⟨2, 2⟩, 0, 0,
      initial.head?.map UInt8.toUInt32, initial.flatMap (List.replicate 32)⟩
    agree := fun _ opk init _ key =>
      if (opk.map fun o => o.secret.toBytes).getD [] = init.agreement then some ((key, 0), [])
      else none
    encodeVault := encodeVault }

theorem lawful_replayEnv : Lawful replayEnv := by
  refine { lawful_env with
    contentId_ne := fun envelope => ?_
    agree_ratchetKey := fun h => ?_
    encodeVault_injective := encodeVault_injective }
  · have hid : replayEnv.contentId envelope =
        .replicate 16 (nonZero (envelope.encode.getD 2 0)) := by
      apply Octets.ext
      simp [replayEnv, Envelope.contentId, tokenHash, Envelope.digestPrefix, Octets.replicate]
    rw [hid]
    exact replicate_nonZero_ne _
  · simp only [replayEnv] at h
    split_ifs at h
    simp only [some.injEq, Prod.mk.injEq] at h
    rw [← h.1]
    rfl

theorem oneTime_replayEnv : OneTime replayEnv := by
  intro vault vault' o o' init now now' key key' h h'
  simp only [replayEnv, map_some, getD_some, isSome_ite] at h h'
  exact Octets.ext (h.trans h'.symm)

/-- The handshake with the manifest of generation 2, under a token, with the one-time prekeys that
it names. -/
def flightUnder (token : UInt8) (opks : Bytes) : Received :=
  { received 2 with
    envelope := .new .handshake (.replicate 32 token) (2 :: opks)
    pendingSequence := none }

/-- What is on record of it. -/
def taken (token : UInt8) (opks : Bytes) : Acceptance :=
  ⟨2 :: opks, .replicate 32 2, .replicate 16 token⟩

noncomputable def beforeFlight : History (Octets 32 × ℕ) := ⟨nodeWith 1 2, [], []⟩

/-- The node that took the flight, which named no one-time prekey. -/
noncomputable def afterFlight : History (Octets 32 × ℕ) where
  node := (consumeFlight replayEnv draws (nodeWith 1 2) (flightUnder 1 [])).state
  issued := []
  accepted := [taken 1 []]

def laterDraws : Draws := { draws with ratchetKey := .replicate 32 8 }

theorem start_beforeFlight : beforeFlight.Start where
  accepted := rfl
  distinct := nofun
  issued := nofun

theorem run_afterFlight :
    Relation.ReflTransGen (History.Next replayEnv) beforeFlight afterFlight := by
  have hid : replayEnv.contentId (flightUnder 1 []).envelope = .replicate 16 1 := by decide +kernel
  have hnext := History.Next.of_taken (E := replayEnv) beforeFlight draws (flightUnder 1 [])
    (.replicate 32 2) [2] not_mem_nil (by decide +kernel) (by decide +kernel) (by decide +kernel)
  rw [hid] at hnext
  exact .single hnext

/-- The same envelope again leaves the session. -/
theorem same_envelope_unreplaced :
    Unreplaced replayEnv (afterFlight.node.store.sessions (.replicate 32 2))
      ((consumeFlight replayEnv laterDraws afterFlight.node (flightUnder 1 [])).state.store.sessions
        (.replicate 32 2)) := by
  obtain ⟨hkept, hguarded⟩ := redelivery_unreplaced replayEnv oneTime_replayEnv start_beforeFlight
    run_afterFlight (.head _) laterDraws (flightUnder 1 []) (by decide +kernel)
  exact hkept (hguarded (.inl (by decide +kernel)))

/-- Under another token the flight of the contact is taken a second time, and replaces the session
that it installed the first time. -/
theorem replayed_flight_installs_again :
    Lawful replayEnv ∧ OneTime replayEnv ∧ beforeFlight.Start ∧
    Relation.ReflTransGen (History.Next replayEnv) beforeFlight afterFlight ∧
    (beforeFlight.node.store.contacts (.replicate 32 1)).isSome ∧
    beforeFlight.node.store.sessions (.replicate 32 2) = none ∧
    (afterFlight.node.store.sessions (.replicate 32 2)).map replayEnv.ratchetKey =
      some draws.ratchetKey ∧
    taken 1 [] ∈ afterFlight.accepted ∧
    carriedFlight replayEnv (flightUnder 2 []).envelope.body = some (taken 1 []).sealedFlight ∧
    (consumeFlight replayEnv laterDraws afterFlight.node (flightUnder 2 [])).result =
      .ok .doneAtomic ∧
    ¬ Unreplaced replayEnv (afterFlight.node.store.sessions (.replicate 32 2))
      ((consumeFlight replayEnv laterDraws afterFlight.node (flightUnder 2 [])).state.store.sessions
        (.replicate 32 2)) := by
  refine ⟨lawful_replayEnv, oneTime_replayEnv, start_beforeFlight, run_afterFlight, rfl, rfl,
    by decide +kernel, .head _, by decide +kernel, by decide +kernel, fun h => ?_⟩
  have hkey := h.ratchetKey lawful_replayEnv
  revert hkey
  decide +kernel

/-! Two flights of the contact, each with a one-time prekey. -/

noncomputable def withOpks : History (Octets 32 × ℕ) where
  node := { nodeWith 1 2 with
    vault := vaultOf [5, 6]
    store := { store 1 2 with prekeys := some [0] } }
  issued := [.replicate 32 5, .replicate 32 6]
  accepted := []

noncomputable def oneFlight : History (Octets 32 × ℕ) :=
  { withOpks with
    node := (consumeFlight replayEnv draws withOpks.node (flightUnder 1 [5])).state
    accepted := [taken 1 [5]] }

noncomputable def twoFlights : History (Octets 32 × ℕ) :=
  { oneFlight with
    node := (consumeFlight replayEnv laterDraws oneFlight.node (flightUnder 2 [6])).state
    accepted := [taken 2 [6], taken 1 [5]] }

theorem start_withOpks : withOpks.Start where
  accepted := rfl
  distinct := by
    unfold PrekeyVault.Distinct
    decide +kernel
  issued := by decide +kernel

theorem run_twoFlights :
    Relation.ReflTransGen (History.Next replayEnv) withOpks twoFlights := by
  have hid : replayEnv.contentId (flightUnder 1 [5]).envelope = .replicate 16 1 := by decide +kernel
  have hid' : replayEnv.contentId (flightUnder 2 [6]).envelope = .replicate 16 2 := by
    decide +kernel
  have hnext := History.Next.of_taken (E := replayEnv) withOpks draws (flightUnder 1 [5])
    (.replicate 32 2) [2, 5] not_mem_nil (by decide +kernel) (by decide +kernel) (by decide +kernel)
  have hnext' := History.Next.of_taken (E := replayEnv) oneFlight laterDraws (flightUnder 2 [6])
    (.replicate 32 2) [2, 6] (by decide +kernel) (by decide +kernel) (by decide +kernel)
    (by decide +kernel)
  rw [hid] at hnext
  rw [hid'] at hnext'
  exact .tail (.single hnext) hnext'

theorem usesOpk_taken (token : UInt8) :
    UsesOpk replayEnv (taken token [6]) (.replicate 32 6) := by
  have hopen : (openFlight replayEnv [2, 6] 20).toOption.any (fun opened =>
      opened.init.opkId.isSome && (replayEnv.agree (vaultOf []) (some ⟨6, .replicate 32 6⟩)
        opened.init 20 (.zero 32)).isSome) = true := by decide +kernel
  cases hflight : openFlight replayEnv [2, 6] 20 with
  | error stop => simp [hflight, Except.toOption] at hopen
  | ok opened =>
    simp only [hflight, Except.toOption, any_some, Bool.and_eq_true] at hopen
    exact ⟨opened, 20, vaultOf [], ⟨6, .replicate 32 6⟩, 20, .zero 32, hflight,
      isSome_iff_ne_none.mp hopen.1, hopen.2, rfl⟩

/-- The first flight did not use the one-time prekey of the second. -/
theorem first_flight_other_opk : twoFlights.accepted = [taken 2 [6], taken 1 [5]] ∧
    UsesOpk replayEnv (taken 2 [6]) (.replicate 32 6) ∧
    ¬ UsesOpk replayEnv (taken 1 [5]) (.replicate 32 6) := by
  have honce := opk_used_once replayEnv oneTime_replayEnv start_withOpks run_twoFlights
  exact ⟨rfl, usesOpk_taken 2,
    ((pairwise_cons.mp honce).1 _ (.head _)).2 _ (usesOpk_taken 2)⟩

end Sample

end Komms.Handshake
