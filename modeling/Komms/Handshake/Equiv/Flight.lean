import Komms.DeviceAuthority.Equiv.History
import Komms.Handshake.Receivable

/-!
# What a flight that was read says

Reading a flight spends budgets and nothing else (`readFlight_state`).  A flight that was read was
opened, verified and answered against the state before (`readFlight_eq_ok`).
-/

namespace Komms.Handshake

open DeviceAuthority Option Except Effect Function

variable {Session : Type} {E : Env Session} {node : Node Session} {f : Flight Session}
  {r : Received} {key : Octets 32}

/-! ### Budgets -/

/-- Only the budgets of a node differ. -/
def SameBut (node node' : Node Session) : Prop := ∃ budgets, node' = { node with budgets }

theorem SameBut.trans {a b c : Node Session} (hab : SameBut a b) (hbc : SameBut b c) :
    SameBut a c := by
  obtain ⟨_, rfl⟩ := hab
  obtain ⟨budgets, rfl⟩ := hbc
  exact ⟨budgets, rfl⟩

variable {late : Bool} {transport : AdmissionTransportClass} {vault : PrekeyVault} {body : Bytes}
  {now : UInt64} {admission : AdmissionEnvelope} {init : InitialMessage}
  {answered : Session × Bytes}

/-- At most one of each budget was spent. -/
structure Budgets.Spends (before after : Budgets) : Prop where
  carriers : ∀ t, before.carriers t ≤ after.carriers t + 1
  puzzles : before.puzzles ≤ after.puzzles + 1
  kems : before.kems ≤ after.kems + 1

theorem Budgets.Spends.refl (budgets : Budgets) : budgets.Spends budgets :=
  ⟨fun _ => Nat.le_succ _, Nat.le_succ _, Nat.le_succ _⟩

/-- An admission spends one unit of its carrier at most, and no decapsulation. -/
theorem admitFlight_spends (body : Bytes) (transport : AdmissionTransportClass) (late : Bool)
    (now : UInt64) : ∃ budgets,
      (admitFlight E node body transport late now).state = { node with budgets } ∧
      node.budgets.Spends budgets ∧ budgets.kems = node.budgets.kems := by
  have hcar : ∀ t, node.budgets.carriers t ≤
      Function.update node.budgets.carriers transport
        (node.budgets.carriers transport - 1) t + 1 := by
    intro t
    by_cases ht : t = transport
    · subst ht
      rw [update_self]
      omega
    · rw [update_of_ne ht]
      omega
  unfold admitFlight
  split_ifs
  · cases hrsv : node.reserveAdmissionCandidate late transport with
    | none => exact ⟨node.budgets, rfl, .refl _, rfl⟩
    | some node' =>
      unfold Node.reserveAdmissionCandidate at hrsv
      split_ifs at hrsv
      cases hrsv
      dsimp only
      split_ifs
      · exact ⟨_, rfl, ⟨hcar, Nat.le_succ _, Nat.le_succ _⟩, rfl⟩
      · exact ⟨_, rfl, ⟨hcar, by dsimp only; omega, Nat.le_succ _⟩, rfl⟩
  · exact ⟨node.budgets, rfl, .refl _, rfl⟩

theorem meetContact_spends (admitted : Bool) (peer : Octets 32) : ∃ kems,
    (meetContact node admitted peer).state = { node with budgets := { node.budgets with kems } } ∧
      node.budgets.kems ≤ kems + 1 := by
  unfold meetContact
  split
  · split_ifs <;> exact ⟨node.budgets.kems, rfl, Nat.le_succ _⟩
  · split_ifs
    any_goals exact ⟨node.budgets.kems, rfl, Nat.le_succ _⟩
    · exact ⟨node.budgets.kems - 1, rfl, by omega⟩

theorem readFlight_spends {key : Octets 32} : ∃ budgets,
    (readFlight E node r.envelope r.transport r.late r.now key).state = { node with budgets } ∧
      node.budgets.Spends budgets := by
  obtain ⟨b, hadm, hspent, hkems⟩ :=
    @admitFlight_spends _ E node r.envelope.body r.transport r.late r.now
  let Spent (n : Node Session) : Prop :=
    ∃ budgets, n = { node with budgets } ∧ node.budgets.Spends budgets
  have hfst : Spent (admitFlight E node r.envelope.body r.transport r.late r.now).state :=
    ⟨b, hadm, hspent⟩
  have hsnd : ∀ admitted peer, Spent (meetContact
      (admitFlight E node r.envelope.body r.transport r.late r.now).state admitted peer).state := by
    intro admitted peer
    rw [hadm]
    obtain ⟨_, hmeet, hle⟩ := @meetContact_spends _ { node with budgets := b } admitted peer
    exact ⟨_, hmeet, hspent.carriers, hspent.puzzles, hkems ▸ hle⟩
  refine andThen_state hfst fun admission _ => ?_
  refine andThen_state hfst fun opened _ => ?_
  refine andThen_state (hsnd _ _) fun contact _ => ?_
  exact andThen_state (hsnd _ _) fun _ _ => hsnd _ _

theorem admitFlight_state (body : Bytes) (transport : AdmissionTransportClass) (late : Bool)
    (now : UInt64) : SameBut node (admitFlight E node body transport late now).state := by
  obtain ⟨budgets, h, -⟩ := @admitFlight_spends _ E node body transport late now
  exact ⟨budgets, h⟩

theorem meetContact_state (admitted : Bool) (peer : Octets 32) :
    SameBut node (meetContact node admitted peer).state := by
  obtain ⟨_, h, -⟩ := @meetContact_spends _ node admitted peer
  exact ⟨_, h⟩

theorem readFlight_state :
    SameBut node (readFlight E node r.envelope r.transport r.late r.now key).state := by
  obtain ⟨budgets, h, -⟩ := @readFlight_spends _ E node r key
  exact ⟨budgets, h⟩

/-! ### The manifest of a flight -/

variable {manifest : Manifest}

/-- Only the conflicts and the contacts differ. -/
def SameButConflicts (node node' : Node Session) : Prop :=
  ∃ conflicts contacts, node' = { node with store := { node.store with conflicts, contacts } }

theorem reportConflict_spec (observedAt : UInt64) (kind : DeviceAuthorityConflictKind)
    (conflict : Relation) (e : NodeError) :
    ¬ Returns (reportConflict E node manifest observedAt kind conflict e).result ∧
      SameButConflicts node (reportConflict E node manifest observedAt kind conflict e).state := by
  constructor
  · rintro ⟨_, h⟩
    obtain ⟨_, -, h⟩ := andThen_result_eq_ok_iff.mp h
    exact nomatch h
  · refine andThen_state ?_ fun _ h => ?_
    all_goals
      refine ofExcept_state ⟨_, _, rfl⟩ fun node' _ h => ?_
      simp only [bind_eq_ok_iff, mapError_eq_ok_iff, recordContactAuthorityConflict,
        ok.injEq, Prod.mk.injEq] at h
      obtain ⟨_, -, _, ⟨_, -, _, -, rfl⟩, rfl, -⟩ := h
      exact ⟨_, _, rfl⟩

theorem validateContactDeviceManifestVisible_cases (observedAt : UInt64) :
    (validateContactDeviceManifest E node.store manifest = .ok () ∧
      validateContactDeviceManifestVisible E node manifest observedAt = ⟨node, .ok ()⟩) ∨
    (validateContactDeviceManifest E node.store manifest ≠ .ok () ∧
      ¬ Returns (validateContactDeviceManifestVisible E node manifest observedAt).result ∧
      SameButConflicts node
        (validateContactDeviceManifestVisible E node manifest observedAt).state) := by
  unfold validateContactDeviceManifestVisible
  split
  · next h => exact .inl ⟨h, rfl⟩
  · next h => exact .inr ⟨by simp [h], reportConflict_spec _ _ _ _⟩
  · next h => exact .inr ⟨by simp [h], reportConflict_spec _ _ _ _⟩
  · next h => exact .inr ⟨by simp [h], not_returns_error _, _, _, rfl⟩

/-! ### The flight -/

/-- A flight that was read, against the state and the input it was read from. -/
structure Read (E : Env Session) (node : Node Session) (now : UInt64) (key : Octets 32)
    (f : Flight Session) : Prop where
  contact : f.contact = node.store.contacts f.opened.peer
  unblocked : node.store.blocked f.opened.peer = false
  bundle : ∀ b ∈ f.opened.deviceBundle, b.verify E now = true ∧
    b.prekey.identity = f.opened.init.initiator
  initiator : f.opened.init.initiator.verify E.group.suite = .ok ()
  opk : ∀ id ∈ f.opened.init.opkId, (node.vault.opk id).isSome = true
  invitation : ∀ digest ∈ f.invitation, (node.vault.invitation digest now).isSome = true
  session : ∃ opk, E.agree node.vault opk f.opened.init now key = some (f.session, f.payload)

theorem checkAdmission_eq_ok (h : checkAdmission E vault body now = .ok admission)
    (hkind : admission.proofKind = .invitation) :
    (vault.invitation admission.context.bundleDigest now).isSome = true := by
  simp only [checkAdmission, bind_eq_ok_iff, rejectIf_eq_ok_iff, ok.injEq] at h
  obtain ⟨admission, -, _, -, _, -, _, -, _, hproof, _, -, rfl⟩ := h
  simp only [proofValid, hkind, Bool.not_eq_false] at hproof
  cases hsec : vault.invitation admission.context.bundleDigest now with
  | none => simp [hsec] at hproof
  | some secret => rfl

theorem admitFlight_eq_ok
    (h : (admitFlight E node body transport late now).result = .ok (some admission)) :
    checkAdmission E node.vault body now = .ok admission := by
  unfold admitFlight at h
  split_ifs at h
  · cases hrsv : node.reserveAdmissionCandidate late transport with
    | none => simp [hrsv] at h
    | some node' =>
      obtain ⟨_, rfl⟩ : SameBut node node' := by
        unfold Node.reserveAdmissionCandidate at hrsv
        split_ifs at hrsv
        exact ⟨_, (some.inj hrsv).symm⟩
      simp only [hrsv] at h
      split_ifs at h
      cases hchk : checkAdmission E node.vault body now with
      | error e => simp [hchk, Except.map] at h
      | ok admission' =>
        simp only [hchk, Except.map, ok.injEq, some.injEq] at h
        rw [h]
  · simp at h

theorem openFlight_eq_ok {sealedFlight : Bytes} {opened : Opened}
    (h : openFlight E sealedFlight now = .ok opened) : ∀ b ∈ opened.deviceBundle,
      b.verify E now = true ∧ b.prekey.identity = opened.init.initiator := by
  simp only [openFlight, bind_eq_ok_iff, rejectIf_eq_ok_iff, ok.injEq] at h
  obtain ⟨_, -, ⟨_, _, _, _⟩, hflight, _, -, _, hinit, rfl⟩ := h
  rintro b rfl
  simp only [any_some, decide_eq_true_eq, not_or, ne_eq, not_not] at hinit
  refine ⟨?_, hinit.1⟩
  unfold decodeFlight at hflight
  split at hflight
  · next flight _ =>
    simp only [bind_eq_ok_iff, rejectIf_eq_ok_iff, ok.injEq, Prod.mk.injEq, some.injEq] at hflight
    obtain ⟨_, -, _, hver, -, rfl, -⟩ := hflight
    simpa using hver
  · split at hflight
    · simp [bind_eq_ok_iff] at hflight
    · simp at hflight

theorem meetContact_eq_ok {admitted : Bool} {peer : Octets 32} {contact : Option ContactRecord}
    (h : (meetContact node admitted peer).result = .ok contact) :
    contact = node.store.contacts peer ∧ node.store.blocked peer = false := by
  unfold meetContact at h
  cases hcon : node.store.contacts peer with
  | none =>
    simp only [hcon] at h
    split_ifs at h with hblock
    · simp only [ok.injEq] at h
      simp only [not_or, Bool.not_eq_true] at hblock
      exact ⟨h.symm, hblock.2⟩
  | some c =>
    simp only [hcon] at h
    split_ifs at h with hblock
    · simp only [ok.injEq] at h
      exact ⟨h.symm, by simpa using hblock⟩

theorem respond_eq_some {opk : Option Opk} (h : respond E vault opk init now key = some answered) :
    init.initiator.verify E.group.suite = .ok () ∧
      E.agree vault opk init now key = some answered := by
  unfold respond at h
  split_ifs at h with hver
  exact ⟨hver, h⟩

theorem answer_eq_ok (h : answer E vault init now key = .ok answered) :
    init.initiator.verify E.group.suite = .ok () ∧
      (∀ id ∈ init.opkId, (vault.opk id).isSome = true) ∧
      ∃ opk, E.agree vault opk init now key = some answered := by
  simp only [answer, check_bind_eq_ok_iff] at h
  obtain ⟨-, h⟩ := h
  cases hid : init.opkId with
  | none =>
    simp only [hid, required_eq_ok_iff] at h
    exact ⟨(respond_eq_some h).1, by simp, none, (respond_eq_some h).2⟩
  | some id =>
    simp only [hid, bind_eq_ok_iff, required_eq_ok_iff] at h
    obtain ⟨opk, hopk, h⟩ := h
    refine ⟨(respond_eq_some h).1, ?_, some opk, (respond_eq_some h).2⟩
    rintro _ ⟨⟩
    rw [hopk]
    rfl

theorem readFlight_eq_ok {env : Protocol.Envelope}
    (h : (readFlight E node env transport late now key).result = .ok f) :
    Read E node now key f := by
  simp only [readFlight, andThen_result_eq_ok_iff, Effect.inspect, ok.injEq] at h
  obtain ⟨admission, hadm, opened, hopen, _, hcon, ⟨_, _⟩, hans, rfl⟩ := h
  -- Reading so far has spent budgets only.
  have hadmitted : SameBut node (admitFlight E node env.body transport late now).state :=
    admitFlight_state _ _ _ _
  have hmeet := hadmitted.trans (meetContact_state admission.isSome opened.peer)
  obtain ⟨_, hadmitted⟩ := hadmitted
  obtain ⟨_, hmeet⟩ := hmeet
  obtain ⟨hcon, hblock⟩ := meetContact_eq_ok hcon
  obtain ⟨hini, hopk, hsession⟩ := answer_eq_ok hans
  rw [hadmitted] at hcon hblock
  rw [hmeet] at hopk hsession
  refine ⟨hcon, hblock, openFlight_eq_ok hopen, hini, hopk, ?_, hsession⟩
  intro digest hdig
  obtain ⟨_, hfil, rfl⟩ := map_eq_some_iff.mp hdig
  obtain ⟨rfl, hkind⟩ := filter_eq_some_iff.mp hfil
  exact checkAdmission_eq_ok (admitFlight_eq_ok hadm) (by simpa using hkind)

end Komms.Handshake
