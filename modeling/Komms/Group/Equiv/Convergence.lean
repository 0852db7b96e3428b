import Komms.Group.Equiv.TieBreak

/-!
# Convergence of the accepted state

What a replica accepts when the announces of one group arrive in any order: the announces of an
honest owner move it forward only, and once the greatest has arrived its payload is accepted
(`adoption_converges`).  An older announce changes nothing, unless it claims the accepted event id:
then it passes for the accepted one and its chain is installed (`older_announce_replaces_chain`).
-/

namespace Komms.Group

open GroupAuthority List Option Except Function

section Convergence

variable {E : Env} {s s' t : Store} {group owner : Octets 32} {verdict : Verdict}

/-! ### Deliveries -/

/-- An announce and the device it comes from. -/
structure SentAnnounce where
  sender : GroupSender
  announce : GroupAuthorityAnnounce

/-- The verified state of an announce that lists its sender. -/
def SentAnnounce.state? (E : Env) (m : SentAnnounce) : Option SignedState :=
  announcedState E m.sender.account m.announce

/-- One arrival of an announce, with what it came with and the draws of the call. -/
structure Delivery extends SentAnnounce where
  origin : Option GroupOriginMaterial
  control : DeferredControl
  accept : Bool
  draws : Draws

def Delivery.apply (E : Env) (s : Store) (x : Delivery) : Except NodeError (Store × Verdict) :=
  applyAuthorityAnnounce E s x.draws x.sender x.announce x.origin x.control x.accept

/-- Announces that arrived one after the other, each in a call that returned; a failed call leaves
the store as it is and its announce to arrive again. -/
inductive Delivered (E : Env) (s : Store) : List Delivery → Store → Prop where
  | nil : Delivered E s [] s
  | snoc {xs : List Delivery} {t t' : Store} {verdict : Verdict} (x : Delivery) :
      Delivered E s xs t → x.apply E t = .ok (t', verdict) → Delivered E s (xs ++ [x]) t'

/-! ### One step, whoever signed -/

def Accepts (s : Store) (group : Octets 32) (record : GroupAuthorityRecord) (state : SignedState) :
    Prop :=
  s.authorities group = some record ∧ decodeStored record = .ok state

variable {record : GroupAuthorityRecord} {state : SignedState}

theorem Accepts.unique {record' : GroupAuthorityRecord} {state' : SignedState}
    (h : Accepts s group record state) (h' : Accepts s group record' state') :
    record = record' ∧ state = state' := by
  obtain rfl := some.inj (h.1.symm.trans h'.1)
  exact ⟨rfl, ok.inj (h.2.symm.trans h'.2)⟩

theorem Accepts.congr (h : Accepts s group record state) (hsame : s'.authorities = s.authorities) :
    Accepts s' group record state :=
  ⟨hsame ▸ h.1, h.2⟩

theorem Accepts.currentState_eq (h : Accepts s group record state) :
    currentState s group = .ok (some (record, state)) := by
  rw [currentState, h.1]
  simp only [h.2, ok_bind]

theorem transferChainExtends_iff {old new : List OwnerTransfer} :
    transferChainExtends old new = true ↔ old <+: new := by
  simp only [transferChainExtends, Bool.and_eq_true, decide_eq_true_eq]
  rw [prefix_iff_eq_take, eq_comm]
  refine ⟨And.right, fun h => ⟨?_, h⟩⟩
  have := congrArg List.length h
  rw [length_take] at this
  omega

/-- What one announce may do to the accepted state of a group: nothing, or replace it by a state of
a greater generation that keeps its transfer chain, or by one of the same generation with a smaller
event id. -/
def Advances (s s' : Store) (group : Octets 32) : Prop :=
  ∀ record state, Accepts s group record state → ∃ record' state', Accepts s' group record' state' ∧
    (record' = record ∨
      (state.generation < state'.generation ∧ state.transfers <+: state'.transfers) ∨
      (state'.generation = state.generation ∧ record'.stateId < record.stateId))

theorem adoption_step {x : Delivery} (hok : x.apply E s = .ok (s', verdict)) (group : Octets 32) :
    Advances s s' group := by
  intro record state hacc
  obtain rfl | href | ⟨announced, current, hadopt⟩ := applyAuthorityAnnounce_cases hok
  · exact ⟨record, state, hacc, .inl rfl⟩
  · exact ⟨record, state, hacc.congr href.authorities, .inl rfl⟩
  by_cases hgrp : group = announced.group
  · subst hgrp
    -- The record that an adoption leaves is the announced one.
    have hdec := (announcedState_eq_some hadopt.admitted.announced).1
    refine ⟨_, announced, ⟨by rw [hadopt.authorities, update_self],
      decodeStored_eq_ok_iff.mpr ⟨hdec, rfl⟩⟩, .inr ?_⟩
    have hcur := hadopt.admitted.current_eq
    rw [hacc.currentState_eq] at hcur
    cases hcur
    have hfollows := hadopt.admitted.follows
    have hwins := hadopt.wins
    simp only [mayFollow, Bool.and_eq_true, decide_eq_true_eq, Bool.not_eq_true',
      Bool.and_eq_false_iff, decide_eq_false_iff_not, Bool.not_eq_false'] at hfollows
    simp only [adopts, Bool.or_eq_true, Bool.and_eq_true, decide_eq_true_eq] at hwins
    obtain hnew | ⟨hsame, hsmall⟩ := hwins
    · exact .inl ⟨hnew, transferChainExtends_iff.mp (hfollows.2.resolve_left (· hnew))⟩
    · exact .inr ⟨hsame, hsmall⟩
  · refine ⟨record, state, ⟨?_, hacc.2⟩, .inl rfl⟩
    rw [hadopt.authorities, update_of_ne hgrp]
    exact hacc.1

theorem Advances.generation_le (h : Advances s s' group) (hacc : Accepts s group record state) :
    ∃ record' state', Accepts s' group record' state' ∧ state.generation ≤ state'.generation := by
  obtain ⟨record', state', hacc', hcase⟩ := h record state hacc
  refine ⟨record', state', hacc', ?_⟩
  obtain rfl | ⟨hnew, -⟩ | ⟨hsame, -⟩ := hcase
  · exact UInt64.le_of_eq (congrArg _ (ok.inj (hacc.2.symm.trans hacc'.2)))
  · exact UInt64.le_of_lt hnew
  · exact UInt64.le_of_eq hsame.symm

/-! ### An honest owner -/

/-- The announces of one group under an owner who issues one state for each generation: valid, of
one original owner, listing the node and their sender, equal where the generations are, and with
transfer chains that only grow. -/
structure Honest (E : Env) (group owner : Octets 32) (family : Set SentAnnounce) : Prop where
  valid : ∀ m ∈ family, ∃ state, m.state? E = some state ∧ state.group = group ∧
    state.originalOwner = owner ∧ lists state E.me = true
  agree : ∀ m ∈ family, ∀ m' ∈ family, ∀ state state', m.state? E = some state →
    m'.state? E = some state' → state.generation = state'.generation →
    m.announce.statePayload = m'.announce.statePayload ∧ m.announce.stateId = m'.announce.stateId
  chain : ∀ m ∈ family, ∀ m' ∈ family, ∀ state state', m.state? E = some state →
    m'.state? E = some state' → state.generation < state'.generation →
    state.transfers <+: state'.transfers

def AcceptsFrom (E : Env) (s : Store) (group : Octets 32) (m : SentAnnounce)
    (record : GroupAuthorityRecord) (state : SignedState) : Prop :=
  Accepts s group record state ∧ m.state? E = some state ∧
    record.statePayload = m.announce.statePayload ∧ record.stateId = m.announce.stateId

/-- The node has joined the group: without a signed state yet and with the original owner as its
creator, or with a state of the family. -/
structure Joined (E : Env) (group owner : Octets 32) (family : Set SentAnnounce) (s : Store) :
    Prop where
  record : ∃ rec, s.groups group = some rec ∧ (s.authorities group = none → rec.creator = owner)
  accepted : ∀ record, s.authorities group = some record →
    ∃ m ∈ family, ∃ state, AcceptsFrom E s group m record state

variable {family : Set SentAnnounce} {x : Delivery} {state : SignedState}

theorem Joined.congr (h : Joined E group owner family s) (hgrps : s'.groups = s.groups)
    (hauth : s'.authorities = s.authorities) : Joined E group owner family s' where
  record := by
    rw [hgrps, hauth]
    exact h.record
  accepted := fun record hrec => by
    obtain ⟨m, hm, state, hacc, hrest⟩ := h.accepted record (hauth ▸ hrec)
    exact ⟨m, hm, state, hacc.congr hauth, hrest⟩

section

variable (hfamily : Honest E group owner family)

include hfamily

theorem Honest.of_state {m : SentAnnounce} (hm : m ∈ family) (hst : m.state? E = some state) :
    state.group = group ∧ state.originalOwner = owner ∧ lists state E.me = true := by
  obtain ⟨state', hst', hfields⟩ := hfamily.valid m hm
  obtain rfl : state = state' := some.inj (hst.symm.trans hst')
  exact hfields

variable (h : Joined E group owner family s) (hx : x.toSentAnnounce ∈ family)
include h hx

/-- The family's announces get past the checks of a node that follows the family. -/
theorem Joined.admitted (hst : x.state? E = some state) :
    ∃ current, Admitted E s x.sender x.announce state current := by
  obtain ⟨rfl, rfl, hls⟩ := hfamily.of_state hx hst
  obtain ⟨_, hrec, hcreate⟩ := h.record
  cases hrecord : s.authorities state.group with
  | none =>
    refine ⟨none, hst, hls, by rw [currentState, hrecord], ?_⟩
    simp [mayFollow, hrec, hcreate hrecord]
  | some record =>
    obtain ⟨m, hm, current, hacc, hcur, -⟩ := h.accepted record hrecord
    refine ⟨some (record, current), hst, hls, hacc.currentState_eq, ?_⟩
    simp only [mayFollow, (hfamily.of_state hm hcur).2.1, decide_true, Bool.true_and,
      Bool.not_eq_true', Bool.and_eq_false_iff, decide_eq_false_iff_not, Bool.not_eq_false',
      transferChainExtends_iff]
    by_cases hnew : current.generation < state.generation
    · exact .inr (hfamily.chain m hm _ hx _ _ hcur hst hnew)
    · exact .inl hnew

/-- Where an announce of the family leaves the accepted state: not behind its own. -/
theorem Joined.step (hst : x.state? E = some state) (hok : x.apply E s = .ok (s', verdict)) :
    Joined E group owner family s' ∧
      ∃ record current, Accepts s' group record current ∧
        state.generation ≤ current.generation := by
  obtain ⟨current, hadm⟩ := h.admitted hfamily hx hst
  obtain ⟨rfl, -⟩ := hfamily.of_state hx hst
  obtain ⟨_, hrec, -⟩ := h.record
  rw [Delivery.apply, applyAuthorityAnnounce_of_admitted hadm hrec] at hok
  split_ifs at hok with hadopts hwin
  · -- Adopted: the accepted record is now that of this announce.
    obtain ⟨⟨after, -, hgrps⟩, hauth⟩ := adoptAnnounce_eq_ok hok
    have hadopt : Accepts s' state.group (adoptedRecord x.announce state current) state :=
      ⟨by rw [hauth, update_self],
        decodeStored_eq_ok_iff.mpr ⟨(announcedState_eq_some hst).1, rfl⟩⟩
    refine ⟨⟨⟨after, by rw [hgrps, update_self], fun hnone => ?_⟩, fun record hrecord => ?_⟩,
      _, state, hadopt, UInt64.le_refl _⟩
    · rw [hadopt.1] at hnone
      cases hnone
    · obtain rfl := some.inj (hadopt.1.symm.trans hrecord)
      exact ⟨_, hx, state, hadopt, hst, rfl, rfl⟩
  all_goals
    -- Not adopted: the accepted state is not older, and stays.
    obtain ⟨record, accepted, rfl⟩ : ∃ record accepted, current = some (record, accepted) := by
      cases current with
      | none => exact absurd rfl hadopts
      | some pair => exact ⟨pair.1, pair.2, rfl⟩
    have hacc := currentState_eq_some hadm.current_eq
    have hle : state.generation ≤ accepted.generation := by
      simp only [adopts, Bool.or_eq_true, decide_eq_true_eq, not_or] at hadopts
      exact UInt64.not_lt.mp hadopts.1
  · obtain ⟨hgrps, hauth⟩ := refreshChain_eq_ok hok
    exact ⟨h.congr hgrps hauth, record, accepted, Accepts.congr hacc hauth, hle⟩
  · obtain ⟨rfl, -⟩ := Prod.mk.inj (ok.inj hok)
    exact ⟨h, record, accepted, hacc, hle⟩

/-- An announce of an older generation changes nothing, unless it claims the accepted event id. -/
theorem Joined.older_unchanged
    (hst : x.state? E = some state) (hok : x.apply E s = .ok (s', verdict))
    {accepted : SignedState} (hacc : Accepts s group record accepted)
    (holder : state.generation < accepted.generation) (hid : x.announce.stateId ≠ record.stateId) :
    s' = s := by
  obtain ⟨_, hadm⟩ := h.admitted hfamily hx hst
  obtain ⟨rfl, -⟩ := hfamily.of_state hx hst
  obtain ⟨_, hrec, -⟩ := h.record
  obtain rfl := ok.inj (hacc.currentState_eq.symm.trans hadm.current_eq)
  have hadopts : adopts state x.announce.stateId (some (record, accepted)) = false := by
    have hne : state.generation ≠ accepted.generation := UInt64.ne_of_lt holder
    simp [adopts, UInt64.le_of_lt holder, hne]
  have hwin : isCurrentWinner x.announce.stateId (some (record, accepted)) = false := by
    simpa [isCurrentWinner] using hid.symm
  rw [Delivery.apply, applyAuthorityAnnounce_of_admitted hadm hrec, hadopts, hwin] at hok
  exact (Prod.mk.inj (ok.inj hok)).1.symm

omit h hx

/-! ### Any order of arrival -/

theorem Joined.delivered (h₀ : Joined E group owner family s) {xs : List Delivery}
    (hrun : Delivered E s xs t) (hxs : ∀ x ∈ xs, x.toSentAnnounce ∈ family) :
    Joined E group owner family t ∧ ∀ x ∈ xs, ∀ state, x.state? E = some state →
      ∃ record current, Accepts t group record current ∧ state.generation ≤ current.generation := by
  induction hrun with
  | nil => exact ⟨h₀, nofun⟩
  | @snoc xs t t' _ x _ hok ih =>
    obtain ⟨hjoin, hbeh⟩ := ih fun y hy => hxs y (mem_append_left _ hy)
    have hx := hxs x (mem_append_right _ (mem_singleton_self x))
    obtain ⟨state, hst, -⟩ := hfamily.valid _ hx
    obtain ⟨hjoin', hnew⟩ := hjoin.step hfamily hx hst hok
    refine ⟨hjoin', fun y hy statey hstate => ?_⟩
    rcases mem_append.mp hy with hy | hy
    · obtain ⟨_, _, hacc, hle⟩ := hbeh y hy statey hstate
      obtain ⟨record', current', hacc', hle'⟩ := (adoption_step hok group).generation_le hacc
      exact ⟨record', current', hacc', UInt64.le_trans hle hle'⟩
    · obtain rfl := mem_singleton.mp hy
      obtain rfl : state = statey := some.inj (hst.symm.trans hstate)
      exact hnew

end

/-- The announce has the greatest generation of the family. -/
def Greatest (E : Env) (family : Set SentAnnounce) (m : SentAnnounce) : Prop :=
  ∀ m' ∈ family, ∀ state state', m.state? E = some state → m'.state? E = some state' →
    state'.generation ≤ state.generation

/-- **Convergence**: let the announces of an honest owner arrive in any order, any number of times.
At every point the next one moves the accepted generation forward only, and changes nothing at all
when it is older and does not claim the accepted event id; and once the greatest has arrived, it is
the one accepted.  Whatever the owner signs, a new accepted state is of a greater generation and
keeps the transfer chain, or has the smaller event id. -/
theorem adoption_converges (hfamily : Honest E group owner family)
    (h₀ : Joined E group owner family s) {xs : List Delivery}
    (hxs : ∀ x ∈ xs, x.toSentAnnounce ∈ family) (hrun : Delivered E s xs t) :
    (∀ x : Delivery, x.toSentAnnounce ∈ family → ∀ t' verdict, x.apply E t = .ok (t', verdict) →
      ∀ record accepted, Accepts t group record accepted →
        (∃ record' accepted', Accepts t' group record' accepted' ∧
          accepted.generation ≤ accepted'.generation) ∧
        ∀ state, x.state? E = some state → state.generation < accepted.generation →
          x.announce.stateId ≠ record.stateId → t' = t) ∧
    (∀ x ∈ xs, Greatest E family x.toSentAnnounce → ∃ record, t.authorities group = some record ∧
      record.statePayload = x.announce.statePayload ∧ record.stateId = x.announce.stateId) ∧
    ∀ (u u' : Store) (x : Delivery) (verdict : Verdict), x.apply E u = .ok (u', verdict) →
      ∀ other, Advances u u' other := by
  obtain ⟨hjoin, hbeh⟩ := h₀.delivered hfamily hrun hxs
  refine ⟨fun x hx t' _ hok record accepted hacc => ⟨?_, ?_⟩, fun x hx hgreat => ?_,
    fun _ _ _ _ => adoption_step⟩
  · exact (adoption_step hok group).generation_le hacc
  · exact fun state hst => hjoin.older_unchanged hfamily hx hst hok hacc
  · -- The accepted state comes from the family and is not behind the greatest one.
    obtain ⟨state, hst, -⟩ := hfamily.valid _ (hxs x hx)
    obtain ⟨record, current, hacc, hle⟩ := hbeh x hx state hst
    obtain ⟨m, hm, _, hacc', hcur, hpay, hid⟩ := hjoin.accepted record hacc.1
    obtain ⟨-, rfl⟩ := hacc.unique hacc'
    have hge : current.generation ≤ state.generation := hgreat m hm state current hst hcur
    obtain ⟨hsam, hsame⟩ := hfamily.agree m hm _ (hxs x hx) current state hcur hst
      (UInt64.le_antisymm hge hle)
    exact ⟨record, hacc.1, hpay.trans hsam, hid.trans hsame⟩

end Convergence

namespace Sample

open GroupAuthority.Sample (peer)

def node : Env := env 1 payloads

def stateAt (generation : UInt64) : SignedState := { state with generation }

def payloadAt (generation : UInt64) : Bytes :=
  [state.version, opState, 0, 0] ++ (stateAt generation).fieldBytes ++ (Octets.zero 64).toBytes

/-- Member 3 announces the state of a generation with a chain for it.  Generations 6 and 7 have the
same event id. -/
def announcedAt (generation : UInt64) : SentAnnounce where
  sender := ⟨peer 3, peer 103⟩
  announce := { announce (if generation = 8 then 9 else 8) with
    statePayload := payloadAt generation
    chain := ⟨.replicate 16 (37 - generation.toUInt8), peer (37 - generation.toUInt8), 0⟩ }

def family : Set SentAnnounce := {m | ∃ generation ∈ [6, 7, 8], m = announcedAt generation}

def arrival (generation : UInt64) : Delivery :=
  { announcedAt generation with
    origin := none, control := controlFrom 3 0, accept := false, draws := draws }

def receive (s : Store) (generation : UInt64) : Store :=
  (Effect.ofExcept s ((arrival generation).apply node s)).state

theorem announcedAt_state : ∀ generation ∈ [6, 7, 8],
    (announcedAt generation).state? node = some (stateAt generation) := by
  simp only [forall_mem_cons, not_mem_nil, false_implies, implies_true, and_true]
  decide +kernel

theorem arrival_mem_family {generation : UInt64} (h : generation ∈ [6, 7, 8]) :
    (arrival generation).toSentAnnounce ∈ family :=
  ⟨generation, h, by simp only [arrival]⟩

theorem honest_family : Honest node (peer 9) (peer 1) family where
  valid := by
    rintro m ⟨generation, hmem, rfl⟩
    exact ⟨stateAt generation, announcedAt_state generation hmem, rfl, rfl,
      show lists state (peer 1) = true by decide⟩
  agree := by
    rintro m ⟨generation, hmem, rfl⟩ m' ⟨generation', hmem', rfl⟩ st st' hst hst' hgen
    obtain rfl := some.inj ((announcedAt_state generation hmem).symm.trans hst)
    obtain rfl := some.inj ((announcedAt_state generation' hmem').symm.trans hst')
    obtain rfl : generation = generation' := hgen
    exact ⟨rfl, rfl⟩
  chain := by
    -- No state has a transfer.
    rintro m ⟨generation, hmem, rfl⟩ m' _ st st' hst _ _
    obtain rfl := some.inj ((announcedAt_state generation hmem).symm.trans hst)
    exact nil_prefix

theorem joined_family : Joined node (peer 9) (peer 1) family joined where
  record := ⟨joinedRow, joined_rows.2, fun _ => rfl⟩
  accepted := fun record hrec => by
    obtain rfl := some.inj (joined_rows.1.symm.trans hrec)
    exact ⟨announcedAt 7, ⟨7, by decide, rfl⟩, state, ⟨joined_rows.1, decodeStored_stale⟩,
      announcedAt_state 7 (by decide), by decide +kernel, by decide +kernel⟩

theorem greatest_announcedAt_eight : Greatest node family (announcedAt 8) := by
  rintro m ⟨generation, hmem, rfl⟩ st st' hst hst'
  obtain rfl := some.inj ((announcedAt_state 8 (by decide)).symm.trans hst)
  obtain rfl := some.inj ((announcedAt_state generation hmem).symm.trans hst')
  have hle : ∀ generation ∈ [6, 7, 8], generation ≤ (8 : UInt64) := by simp
  exact hle generation hmem

theorem delivered_receive {xs : List Delivery} {t : Store} (generation : UInt64)
    (h : Delivered node joined xs t)
    (hok : ((arrival generation).apply node t).toOption.isSome = true) :
    Delivered node joined (xs ++ [arrival generation]) (receive t generation) := by
  rw [receive]
  cases hresult : (arrival generation).apply node t with
  | error e => simp [hresult, Except.toOption] at hok
  | ok result => exact .snoc _ h hresult

/-- Generation 8 arrives between an older announce and the one that was accepted before. -/
theorem newest_accepted : ∃ t, Delivered node joined [arrival 6, arrival 8, arrival 7] t ∧
    ∃ record, t.authorities (peer 9) = some record ∧ record.statePayload = payloadAt 8 := by
  have hrun : Delivered node joined [arrival 6, arrival 8, arrival 7]
      (receive (receive (receive joined 6) 8) 7) := by
    refine delivered_receive 7 (delivered_receive 8 (delivered_receive 6 .nil ?_) ?_) ?_
    all_goals decide +kernel
  have hfamily : ∀ x ∈ [arrival 6, arrival 8, arrival 7], x.toSentAnnounce ∈ family := by
    simp only [forall_mem_cons, not_mem_nil, false_implies, implies_true, and_true]
    exact ⟨arrival_mem_family (by decide), arrival_mem_family (by decide),
      arrival_mem_family (by decide)⟩
  obtain ⟨record, hrecord, hpayload, -⟩ :=
    (adoption_converges honest_family joined_family hfamily hrun).2.1 (arrival 8) (by simp)
      greatest_announcedAt_eight
  exact ⟨_, hrun, record, hrecord, hpayload⟩

/-- The older state of the family claims the accepted event id, and member 3's chain is replaced. -/
theorem older_announce_replaces_chain : Honest node (peer 9) (peer 1) family ∧
      Joined node (peer 9) (peer 1) family joined ∧
      (stateAt 6).generation < (stateAt 7).generation ∧
      (receive joined 7).authorities (peer 9) = some stale ∧
      ((receive joined 7).chains (peer 9) (peer 3)).map (·.map DeviceChain.chain) =
        some [(announcedAt 7).announce.chain] ∧
      ((receive (receive joined 7) 6).chains (peer 9) (peer 3)).map (·.map DeviceChain.chain) =
        some [(announcedAt 6).announce.chain] ∧
      (announcedAt 7).announce.chain ≠ (announcedAt 6).announce.chain :=
  ⟨honest_family, joined_family, by decide, by decide +kernel, by decide +kernel,
    by decide +kernel, by decide⟩

end Sample

end Komms.Group
