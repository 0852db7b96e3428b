import Komms.Calls.Node

/-!
# What an operation may do to the calls

Every operation removes rows and moves rows along (`Evolves`), or it does that and then creates one
ringing row where no call is live and there is room for it (`Progress`).  A row that moves along
keeps its responder, stays ended once it is, and stays well formed (`Follows`).
-/

namespace Komms.Calls

open HashMap Option Effect AList

variable {Stream Media : Type} {around : Surroundings Stream Media}
  {calls calls' calls'' : CallTable Media} {call call' : ActiveCall Media} {id : Octets 16}
  {now : ℕ}

/-! ### Rows -/

/-- What the phase of a row says about its other fields. -/
structure WellFormed (call : ActiveCall Media) : Prop where
  unanswered : call.info.phase = .ringing → call.info.responderDevice = none
  answered : call.info.phase = .connecting ∨ call.info.phase = .active →
    call.info.responderDevice.isSome
  erased : call.info.phase = .ended →
    call.masterSecret = none ∧ call.media = none ∧ call.info.endReason.isSome
  unended : call.info.phase ≠ .ended → call.info.endReason = none

/-- What becomes of a row. -/
structure Follows (call call' : ActiveCall Media) : Prop where
  wellFormed : WellFormed call → WellFormed call'
  responder : WellFormed call → ∀ device, call.info.responderDevice = some device →
    call'.info.responderDevice = some device
  final : call.info.phase = .ended → call'.info.phase = .ended

theorem Follows.refl (call : ActiveCall Media) : Follows call call := ⟨id, fun _ _ => id, id⟩

theorem Follows.trans {call'' : ActiveCall Media} (h : Follows call call')
    (h' : Follows call' call'') : Follows call call'' :=
  ⟨fun hw => h'.wellFormed (h.wellFormed hw),
    fun hw d hd => h'.responder (h.wellFormed hw) d (h.responder hw d hd),
    fun he => h'.final (h.final he)⟩

/-- A change of the private part that stores nothing in an ended row. -/
theorem Follows.of_info (hinfo : call'.info = call.info)
    (herase : WellFormed call → call.info.phase = .ended →
      call'.masterSecret = none ∧ call'.media = none) : Follows call call' := by
  cases call'
  cases hinfo
  refine ⟨fun hw => ⟨hw.unanswered, hw.answered, fun hend => ?_, hw.unended⟩, fun _ _ => id, id⟩
  obtain ⟨hsec, hmed⟩ := herase hw hend
  exact ⟨hsec, hmed, (hw.erased hend).2.2⟩

theorem follows_connecting (hrin : call.info.phase = .ringing) (responder : Octets 32) :
    Follows call (call.connecting responder now) where
  wellFormed hw :=
    { unanswered := nofun
      answered := fun _ => rfl
      erased := nofun
      unended := fun _ => hw.unended (by rw [hrin]; decide) }
  responder hw d hd := by
    rw [hw.unanswered hrin] at hd
    cases hd
  final h := by
    rw [hrin] at h
    cases h

theorem follows_active (hcon : call.info.phase = .connecting)
    (hinfo : call'.info = { call.info with phase := .active }) : Follows call call' := by
  cases call'
  cases hinfo
  refine ⟨fun hw => ⟨nofun, fun _ => hw.answered (.inl hcon), nofun, fun _ => ?_⟩, fun _ _ => id,
    fun h => ?_⟩
  · exact hw.unended (by rw [hcon]; decide)
  · rw [hcon] at h
    cases h

theorem wellFormed_offered {info : CallInfo} (hphase : info.phase = .ringing)
    (hrsp : info.responderDevice = none) (hreason : info.endReason = none)
    (secret : Octets 32) (devices : List (Octets 32)) :
    WellFormed (ActiveCall.offered info secret devices now : ActiveCall Media) where
  unanswered _ := hrsp
  answered h := by
    rw [ActiveCall.offered, hphase] at h
    exact h.elim (fun h => nomatch h) fun h => nomatch h
  erased h := by
    rw [ActiveCall.offered, hphase] at h
    cases h
  unended _ := hreason

/-! ### Maps -/

/-- Rows are removed or move along. -/
structure Evolves (calls calls' : CallTable Media) : Prop where
  rows : ∀ id call', calls'.lookup id = some call' →
    ∃ call, calls.lookup id = some call ∧ Follows call call'
  len_le : len calls' ≤ len calls

namespace Evolves

theorem refl (calls : CallTable Media) : Evolves calls calls :=
  ⟨fun _ call h => ⟨call, h, .refl call⟩, Nat.le_refl _⟩

theorem trans (h : Evolves calls calls') (h' : Evolves calls' calls'') : Evolves calls calls'' := by
  refine ⟨fun id call'' hcall'' => ?_, h'.len_le.trans h.len_le⟩
  obtain ⟨call', hcall', hfollows'⟩ := h'.rows id call'' hcall''
  obtain ⟨call, hcall, hfollows⟩ := h.rows id call' hcall'
  exact ⟨call, hcall, hfollows.trans hfollows'⟩

theorem insert (hcall : calls.lookup id = some call) (hfollows : Follows call call') :
    Evolves calls (calls.insert id call') := by
  have hmem : id ∈ calls := lookup_isSome.mp (by rw [hcall]; rfl)
  refine ⟨fun other found hfnd => ?_, ?_⟩
  · by_cases hid : other = id
    · subst hid
      rw [lookup_insert] at hfnd
      cases hfnd
      exact ⟨call, hcall, hfollows⟩
    · rw [lookup_insert_ne hid] at hfnd
      exact ⟨found, hfnd, .refl found⟩
  · rw [len_insert, if_pos hmem]

theorem retain (p : Octets 16 → ActiveCall Media → Bool) : Evolves calls (retain p calls) := by
  refine ⟨fun id call hcall => ?_, len_retain_le p calls⟩
  rw [lookup_retain, filter_eq_some_iff] at hcall
  exact ⟨call, hcall.1, .refl call⟩

theorem erase (id : Octets 16) : Evolves calls (calls.erase id) := by
  refine ⟨fun other call hcall => ?_, len_erase_le id calls⟩
  have hid : other ≠ id := by
    rintro rfl
    rw [lookup_erase] at hcall
    cases hcall
  rw [lookup_erase_ne hid] at hcall
  exact ⟨call, hcall, .refl call⟩

theorem mapValues {f : Octets 16 → ActiveCall Media → ActiveCall Media}
    (h : ∀ id call, Follows call (f id call)) : Evolves calls (mapValues f calls) := by
  refine ⟨fun id call' hcall' => ?_, Nat.le_of_eq (List.length_map _)⟩
  rw [lookup_mapValues, map_eq_some_iff] at hcall'
  obtain ⟨call, hcall, rfl⟩ := hcall'
  exact ⟨call, hcall, h id call⟩

end Evolves

/-! ### Ending and trimming -/

theorem evolves_endCall (id : Octets 16) (reason : CallEndReason) (now : ℕ)
    (calls : CallTable Media) : Evolves calls (endCall id reason now calls).state := by
  unfold endCall
  split
  · exact .refl calls
  · next call hcall =>
    split_ifs with hend
    · exact .refl calls
    · refine .insert hcall ⟨fun _ => ⟨nofun, ?_, fun _ => ⟨rfl, rfl, rfl⟩, fun h => absurd rfl h⟩,
        fun _ _ hres => hres, fun h => absurd h hend⟩
      exact fun h => h.elim (fun h => nomatch h) fun h => nomatch h

theorem evolves_dropExcess (order : Order (Entry Media)) (rounds : ℕ) (calls : CallTable Media) :
    Evolves calls (dropExcess order rounds calls).state := by
  induction rounds generalizing calls with
  | zero => exact .refl calls
  | succ rounds ih =>
    unfold dropExcess
    split_ifs
    · exact .refl calls
    · split
      · exact .refl calls
      · next oldest _ => exact (Evolves.erase oldest).trans (ih _)

theorem evolves_trimCalls (order : Order (Entry Media)) (now : ℕ) (calls : CallTable Media) :
    Evolves calls (trimCalls order now calls).state :=
  (Evolves.retain _).trans (evolves_dropExcess order _ _)

variable {order : Order (Entry Media)}

theorem oldestEnded_eq_some (h : oldestEnded order calls = some id) :
    ∃ call, calls.lookup id = some call ∧ call.info.phase = .ended := by
  obtain ⟨⟨_, call⟩, hentry, rfl⟩ := map_eq_some_iff.mp h
  obtain ⟨harr, hend⟩ := List.mem_filter.mp (List.argmin_mem hentry)
  exact ⟨call, mem_lookup_iff.mpr ((order.perm _).subset harr), of_decide_eq_true hend⟩

theorem len_dropExcess_lt {rounds : ℕ} (hround : len calls ≤ rounds)
    (hok : (dropExcess order rounds calls).result = .ok ()) :
    len (dropExcess order rounds calls).state < maxTransientCalls := by
  induction rounds generalizing calls with
  | zero => exact lt_of_le_of_lt hround (by decide)
  | succ rounds ih =>
    unfold dropExcess at hok ⊢
    split_ifs at hok ⊢ with hroom
    · exact hroom
    · split at hok
      · cases hok
      · next oldest holder =>
        obtain ⟨_, hcall, -⟩ := oldestEnded_eq_some holder
        have hmem : oldest ∈ calls := lookup_isSome.mp (by rw [hcall]; rfl)
        have hlt := len_erase_lt hmem
        exact ih (by omega) hok

theorem len_trimCalls_lt (hok : (trimCalls order now calls).result = .ok ()) :
    len (trimCalls order now calls).state < maxTransientCalls :=
  len_dropExcess_lt (Nat.le_refl _) hok

/-! ### Local operations -/

theorem evolves_answerCall : Evolves calls (answerCall around id now calls).state := by
  unfold answerCall
  split
  · exact .refl calls
  · next call hcall =>
    split_ifs with hans
    · split
      · exact .refl calls
      · exact .insert hcall (follows_connecting hans.2.1 _)
    · exact .refl calls

theorem evolves_sendAndEnd {devices : List (Octets 32)} {control : CallControl}
    {reason : CallEndReason} :
    Evolves calls (sendAndEnd around id call devices control reason now calls).state := by
  unfold sendAndEnd
  split
  · exact .refl calls
  · exact evolves_endCall id reason now calls

theorem evolves_declineCall : Evolves calls (declineCall around id now calls).state := by
  unfold declineCall
  split
  · exact .refl calls
  · split_ifs
    · exact evolves_sendAndEnd
    · exact .refl calls

theorem evolves_cancelCall : Evolves calls (cancelCall around id now calls).state := by
  unfold cancelCall
  split
  · exact .refl calls
  · split_ifs
    · exact .refl calls
    · exact evolves_sendAndEnd

theorem evolves_hangupCall : Evolves calls (hangupCall around id now calls).state := by
  unfold hangupCall
  split
  · exact .refl calls
  · split_ifs
    · exact .refl calls
    · split
      · exact .refl calls
      · exact evolves_sendAndEnd

theorem evolves_markCallActive : Evolves calls (markCallActive id now calls).state := by
  unfold markCallActive
  split
  · exact .refl calls
  · next call hcall =>
    split_ifs with hphase
    · exact .refl calls
    · rw [not_or, not_ne_iff] at hphase
      exact .insert hcall (follows_active hphase.1 rfl)

/-! ### The media pump -/

theorem evolves_installCallStream {stream : Stream} :
    Evolves calls (installCallStream around id stream calls).state := by
  unfold installCallStream
  split
  · exact .refl calls
  · next call hcall =>
    split
    · exact .refl calls
    · next media hmed =>
      obtain ⟨hchk, -⟩ := check_bind_eq_ok_iff.mp hmed
      have hphase : call.info.phase = .connecting := by
        have hnot := rejectIf_eq_ok_iff.mp hchk
        rw [not_or, not_ne_iff] at hnot
        exact hnot.1
      refine .insert hcall (.of_info rfl fun _ hend => ?_)
      rw [hphase] at hend
      cases hend

theorem evolves_acceptStream {arrival : Except CallError Stream} :
    Evolves calls (acceptStream around arrival calls).state := by
  unfold acceptStream
  split
  · exact .refl calls
  · split
    · exact .refl calls
    · exact evolves_installCallStream

theorem evolves_openOutgoingCallStream :
    Evolves calls (openOutgoingCallStream around now id calls).state := by
  unfold openOutgoingCallStream
  split
  · exact .refl calls
  · split
    · exact .refl calls
    · exact evolves_installCallStream
    · exact evolves_endCall _ _ _ _

theorem follows_pumpCall (id : Octets 16) (call : ActiveCall Media) :
    Follows call (pumpCall around now id call).1 := by
  unfold pumpCall
  split
  · exact .refl call
  · next media hmed =>
    have hpum : ∀ call' : ActiveCall Media, call'.info = call.info → Follows call call' :=
      fun call' hinfo => .of_info hinfo fun hw hend => by
        rw [(hw.erased hend).2.1] at hmed
        cases hmed
    dsimp only
    split
    · split_ifs with hread
      · exact follows_active hread.2 rfl
      · exact hpum _ rfl
    · split_ifs
      all_goals exact hpum _ rfl

theorem evolves_modifyCall {f : ActiveCall Media → ActiveCall Media}
    (h : ∀ call, Follows call (f call)) : Evolves calls (modifyCall f id calls).state := by
  unfold modifyCall
  split
  · exact .refl calls
  · next call hcall => exact .insert hcall (h call)

theorem evolves_forEach {β : Type} {f : β → CallTable Media → CallEffect Media Unit}
    (h : ∀ b calls, Evolves calls (f b calls).state) (bs : List β) :
    Evolves calls (Effect.forEach f bs calls).state :=
  forEach_state (.refl calls) fun b s hs => hs.trans (h b s)

theorem evolves_andThen {α β : Type} {x : CallEffect Media α}
    {f : CallTable Media → α → CallEffect Media β} (hx : Evolves calls x.state)
    (hf : ∀ calls a, Evolves calls (f calls a).state) : Evolves calls (x.andThen f).state :=
  andThen_state hx fun a _ => hx.trans (hf _ a)

theorem evolves_pumpStreams : Evolves calls (pumpStreams around now calls).state := by
  have hpum : Evolves calls (mapValues (fun id call => (pumpCall around now id call).1) calls) :=
    .mapValues follows_pumpCall
  have hret : ∀ call : ActiveCall Media, Follows call { call with media := none } :=
    fun call => .of_info rfl fun hw hend => ⟨(hw.erased hend).1, rfl⟩
  have hlost : ∀ call : ActiveCall Media,
      Follows call { call with media := none, mediaLostAt := some now, updatedAt := now } :=
    fun call => .of_info rfl fun hw hend => ⟨(hw.erased hend).1, rfl⟩
  refine hpum.trans (evolves_andThen (evolves_forEach (fun _ _ => evolves_modifyCall hret) _)
    fun _ _ => evolves_andThen (evolves_forEach (fun _ _ => evolves_modifyCall hlost) _)
      fun _ _ => evolves_forEach (fun id _ => evolves_endCall id _ _ _) _)

theorem evolves_pumpCallMedia : Evolves calls (pumpCallMedia around now calls).state :=
  evolves_andThen (evolves_forEach (fun _ _ => evolves_acceptStream) _) fun _ _ =>
    evolves_andThen (evolves_forEach (fun _ _ => evolves_openOutgoingCallStream) _)
      fun _ _ => evolves_pumpStreams

theorem evolves_sweepCalls : Evolves calls (sweepCalls around now calls).state := by
  refine evolves_andThen (evolves_forEach (fun id _ => evolves_endCall id _ _ _) _) fun calls _ =>
    evolves_andThen (evolves_forEach (fun id _ => evolves_endCall id _ _ _) _) fun calls _ => ?_
  split
  · exact .refl calls
  · exact evolves_trimCalls _ _ calls

/-! ### Controls -/

section

variable {peer peerDevice initiator responder : Octets 32} {expiresAt : ℕ}

theorem evolves_applyAnswer : Evolves calls
    (applyAnswer peer peerDevice id initiator responder expiresAt now calls).state := by
  unfold applyAnswer
  split_ifs
  · exact .refl calls
  · split
    · exact .refl calls
    · next call hcall =>
      split_ifs with hmat hrin
      · exact .insert hcall (follows_connecting hrin.1 _)
      all_goals exact .refl calls

theorem evolves_applyNegative {isDecline : Bool} : Evolves calls
    (applyNegative isDecline peer peerDevice id initiator responder expiresAt now calls).state := by
  unfold applyNegative
  split_ifs
  · exact .refl calls
  · split
    · exact .refl calls
    · next call hcall =>
      have hnot : Evolves calls (calls.insert id { call with
          negativeResponses := insert responder call.negativeResponses
          sawDecline := call.sawDecline || isDecline }) :=
        .insert hcall (.of_info rfl fun hw hend =>
          ⟨(hw.erased hend).1, (hw.erased hend).2.1⟩)
      dsimp only
      split_ifs
      · exact .refl calls
      any_goals exact hnot.trans (evolves_endCall _ _ _ _)
      · exact hnot
      · exact .refl calls

theorem evolves_applyCancel : Evolves calls
    (applyCancel peer peerDevice id initiator expiresAt now calls).state := by
  unfold applyCancel
  split_ifs
  · exact .refl calls
  · split
    · exact .refl calls
    · split_ifs
      any_goals exact .refl calls
      · exact evolves_endCall _ _ _ _

theorem evolves_applyHangup {reason : CallHangupReason} : Evolves calls
    (applyHangup around peer peerDevice id initiator responder expiresAt reason
      now calls).state := by
  unfold applyHangup
  split
  · exact .refl calls
  · split_ifs
    any_goals exact .refl calls
    · exact evolves_endCall _ _ _ _

end

/-! ### Every operation -/

/-- Rows move along, and a new call may ring where none is live: under an id that the operation
drew, or that no row has. -/
inductive Progress (drawn : Option (Octets 16)) (calls : CallTable Media) : CallTable Media → Prop
  | evolved {calls' : CallTable Media} (h : Evolves calls calls') : Progress drawn calls calls'
  | created {before : CallTable Media} {id : Octets 16} {call : ActiveCall Media}
    (h : Evolves calls before) (hnone : hasLiveCall calls = false)
    (hroom : len before < maxTransientCalls) (hcall : WellFormed call)
    (hid : drawn = some id ∨ calls.lookup id = none) : Progress drawn calls (before.insert id call)

theorem progress_startCall {peer : Octets 32} {callId : Nonzero 16} {masterSecret : Nonzero 32} :
    Progress (some callId.value) calls
      (startCall around peer callId masterSecret now calls).state := by
  unfold startCall
  split
  · exact .evolved (.refl calls)
  · exact .evolved (.refl calls)
  · next hav =>
    have hnone : hasLiveCall calls = false := by
      obtain ⟨_, -, hrest⟩ := bind_eq_ok_iff.mp hav
      obtain ⟨-, hrest⟩ := check_bind_eq_ok_iff.mp hrest
      split_ifs at hrest with hlive
      · cases hrest
      · simpa using hlive
    have htrim := evolves_trimCalls around.order now calls
    refine andThen_state (.evolved htrim) fun _ hok => ?_
    refine ofExcept_state (.evolved htrim) fun calls' _ hoff => ?_
    simp only [prepareOffer, bind_eq_ok_iff, Except.ok.injEq] at hoff
    obtain ⟨_, -, _, -, _, -, heq⟩ := hoff
    cases heq
    exact .created htrim hnone (len_trimCalls_lt hok) (wellFormed_offered rfl rfl rfl _ _)
      (.inl rfl)

theorem progress_applyOffer {drawn : Option (Octets 16)} {peer peerDevice initiator : Octets 32}
    {expiresAt : ℕ} {masterSecret : Octets 32} : Progress drawn calls
      (applyOffer around peer peerDevice id initiator expiresAt masterSecret now calls).state := by
  unfold applyOffer
  split_ifs with hshape hknow hlive
  · exact .evolved (.refl calls)
  · exact .evolved (.refl calls)
  · exact .evolved (.refl calls)
  · have htrim := evolves_trimCalls around.order now calls
    refine andThen_state (.evolved htrim) fun _ hok => ?_
    exact .created htrim (by simpa using hlive) (len_trimCalls_lt hok)
      (wellFormed_offered rfl rfl rfl _ _) (.inr (lookup_eq_none.mpr hknow))

theorem progress_applyCallControl {drawn : Option (Octets 16)} {peer peerDevice : Octets 32}
    {control : CallControl} :
    Progress drawn calls (applyCallControl around peer peerDevice control now calls).state := by
  unfold applyCallControl
  split
  · exact .evolved (.refl calls)
  · split_ifs
    · exact .evolved (.refl calls)
    · cases control with
      | offer => exact progress_applyOffer
      | answer => exact .evolved evolves_applyAnswer
      | decline | busy => exact .evolved evolves_applyNegative
      | cancel => exact .evolved evolves_applyCancel
      | hangup => exact .evolved evolves_applyHangup

/-- The id that an operation draws for a new call. -/
def Operation.drawn : Operation → Option (Octets 16)
  | .start _ callId _ => some callId.value
  | _ => none

/-- **What an operation may do to the calls**, whether it succeeds or not. -/
theorem progress_perform (step : Step Stream Media) :
    Progress step.operation.drawn calls (step.perform calls).state := by
  unfold Step.perform
  split
  · next h =>
    rw [h]
    exact progress_startCall
  · exact .evolved evolves_answerCall
  · exact .evolved evolves_declineCall
  · exact .evolved evolves_cancelCall
  · exact .evolved evolves_hangupCall
  · exact .evolved evolves_markCallActive
  · exact .evolved evolves_pumpCallMedia
  · exact progress_applyCallControl
  · exact .evolved evolves_sweepCalls

end Komms.Calls
