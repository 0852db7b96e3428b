import Komms.Handshake.Equiv.Admission
import Komms.Handshake.Equiv.Aside
import Komms.Handshake.Equiv.Consume

/-!
# Rejected copies

An envelope that is rejected is marked seen under its content id.  What is consumed after it comes
to the same as before, unless it has that id: an admission wrapper of the same flight for the same
target (`rejected_copy_harmless_iff`).
-/

namespace Komms.Handshake

open Protocol (Envelope)
open List Option Function

variable {Session Mem : Type} {E : Env Session} {node : Node Session} {f : Flight Session}
  {r : Received} {d : Draws}

/-! ### Budgets -/

/-- Two of each budget are left, for any transport. -/
structure Budgets.Twice (budgets : Budgets) : Prop where
  carriers : ∀ t, 2 ≤ budgets.carriers t
  puzzles : 2 ≤ budgets.puzzles
  kems : 2 ≤ budgets.kems

variable {budgets : Budgets}

theorem Budgets.Twice.ample_of_spends {before after : Budgets} (h : before.Twice)
    (hspent : before.Spends after) (transport : AdmissionTransportClass) :
    after.Ample transport := by
  have := h.carriers transport
  have := hspent.carriers transport
  have := h.puzzles
  have := hspent.puzzles
  have := h.kems
  have := hspent.kems
  exact ⟨by omega, by omega, by omega⟩

theorem Budgets.Twice.ample (h : budgets.Twice) (transport : AdmissionTransportClass) :
    budgets.Ample transport :=
  h.ample_of_spends (.refl budgets) transport

/-! ### What a rejection leaves -/

def Node.rejected (E : Env Session) (node : Node Session) (r : Received) (budgets : Budgets) :
    Node Session :=
  node.aside (node.store.seen ++ [E.contentId r.envelope])
    (pendingAfter node.store.pending (pendingDelete E r)) budgets

/-- If an envelope was rejected then nothing else happened; and it was not a duplicate. -/
structure Rejects (E : Env Session) (node : Node Session) (r : Received)
    (x : Effect (Node Session) NodeError Consumed) : Prop where
  state : x.result = .ok .rejectedAtomic → x.state = node.rejected E r node.budgets
  ne_done : x.result ≠ .ok .done

theorem commitTerminalInput_rejects (E : Env Session) (node : Node Session) (r : Received) :
    Rejects E node r (commitTerminalInput E node r) := by
  unfold commitTerminalInput commitMaintenance
  cases validatePending E node.store (pendingDelete E r) with
  | error e => exact ⟨nofun, nofun⟩
  | ok _ => exact ⟨fun _ => rfl, nofun⟩

theorem stopped_rejects (stop : Stop) : Rejects E node r (stopped E node r stop) := by
  cases stop with
  | later => exact ⟨nofun, nofun⟩
  | terminal => exact commitTerminalInput_rejects E node r

/-! ### Dropping -/

/-- What is dropped leaves the node, or rejects the envelope. -/
def Drops (E : Env Session) (node : Node Session) (r : Received)
    (x : Effect (Node Session) NodeError Consumed) : Prop :=
  (x.result = .ok .done → x.state = node) ∧
    (x.result = .ok .rejectedAtomic → ∃ budgets, node.budgets.Spends budgets ∧
      x.state = node.rejected E r budgets)

variable {x : Effect (Node Session) NodeError Consumed} {P : Peripherals Session Mem}
  {n : Node Session × Mem} {depth : ℕ} {w r' : Received} {mem : Mem}

theorem Rejects.drops (hspent : node.budgets.Spends budgets)
    (h : Rejects E { node with budgets } r x) : Drops E node r x :=
  ⟨fun hdone => absurd hdone h.ne_done, fun hreject => ⟨budgets, hspent, h.state hreject⟩⟩

/-- The same beside a memory, which stays. -/
def DropsBeside (E : Env Session) (n : Node Session × Mem) (r : Received)
    (x : Effect (Node Session × Mem) NodeError Consumed) : Prop :=
  (x.result = .ok .done → x.state = n) ∧
    (x.result = .ok .rejectedAtomic → ∃ budgets, n.1.budgets.Spends budgets ∧
      x.state = (n.1.rejected E r budgets, n.2))

theorem Drops.beside (h : Drops E n.1 r x) : DropsBeside E n r (beside n.2 x) := by
  refine ⟨fun hdone => congrArg (·, n.2) (h.1 hdone), fun hreject => ?_⟩
  obtain ⟨budgets, hspent, hst⟩ := h.2 hreject
  exact ⟨budgets, hspent, congrArg (·, n.2) hst⟩

theorem consumeOther_drops : DropsBeside E n r (consumeOther E P d r n) := by
  unfold consumeOther
  rcases P.react d r.envelope r.now (n.1.blank, n.2) with e | ⟨_ | _ | ⟨after, mem, result⟩⟩
  · exact ⟨nofun, nofun⟩
  · exact ⟨nofun, nofun⟩
  · exact ((commitTerminalInput_rejects E n.1 r).drops (.refl _)).beside
  · dsimp only
    cases commitReaction E n.1 after r with
    | error e => exact ⟨nofun, nofun⟩
    | ok node => cases result <;> exact ⟨nofun, nofun⟩

/-! ### What is consumed as a whole -/

/-- The envelope that is consumed as a whole, a fragment's when it completes one, and the memory at
that point. -/
def target (E : Env Session) (P : Peripherals Session Mem) (depth : ℕ) (r : Received)
    (n : Node Session × Mem) : Option Received × Mem :=
  if inserts E depth r n then (completed P r n.2, (P.insert n.2 r.envelope r.now).1)
  else (some r, n.2)

/-- What is consumed as a whole is the delivery itself, or completed by it and without a row. -/
theorem target_eq_some (h : target E P depth r n = (some w, mem)) :
    w = r ∨ completed P r n.2 = some w ∧ w.pendingSequence = none := by
  unfold target at h
  split_ifs at h
  · have hcom := (Prod.mk.inj h).1
    obtain ⟨_, -, rfl⟩ := map_eq_some_iff.mp hcom
    exact .inr ⟨hcom, rfl⟩
  · exact .inl (some.inj (Prod.mk.inj h).1).symm

theorem target_rejected
    (hne : r.envelope.kind = .fragment → E.contentId r.envelope ≠ E.contentId r'.envelope) :
    target E P depth r (n.1.rejected E r' budgets, n.2) = target E P depth r n := by
  have hins : inserts E depth r (n.1.rejected E r' budgets, n.2) ↔ inserts E depth r n := by
    refine and_congr_left fun h => not_congr ?_
    simp only [Node.rejected, Node.aside, Store.aside, mem_append, mem_singleton]
    exact or_iff_left (hne h.1)
  simp only [target, hins]

/-- The pending row that an envelope was taken from is its own. -/
def HoldsRow (s : Store Session) (r : Received) : Prop :=
  ∀ sequence ∈ r.pendingSequence,
    s.pending.find? (fun row => row.1 = sequence) = some (sequence, r.envelope)

theorem find?_pendingAfter {pending : List (ℤ × Envelope)} {source : Option (ℤ × Octets 16)}
    {sequence : ℤ} (hne : source.map Prod.fst ≠ some sequence) :
    (pendingAfter pending source).find? (fun row => row.1 = sequence) =
      pending.find? (fun row => row.1 = sequence) := by
  rw [pendingAfter, find?_filter]
  congr 1
  funext row
  by_cases hrow : row.1 = sequence
  · simp [hrow, hne.symm]
  · simp [hrow]

theorem HoldsRow.pendingDelete_ne {s : Store Session} (hw : HoldsRow s w)
    (hr' : HoldsRow s r') (hne : w.pendingSequence = none ∨ w.envelope ≠ r'.envelope) :
    ∀ sequence ∈ w.pendingSequence, (pendingDelete E r').map Prod.fst ≠ some sequence := by
  intro sequence hseq hsource
  have hseq' : r'.pendingSequence = some sequence := by
    simpa [pendingDelete] using hsource
  have hrow := (hw sequence hseq).symm.trans (hr' sequence hseq')
  rcases hne with hnone | hne
  · cases hnone.symm.trans hseq
  · exact hne (Prod.mk.inj (some.inj hrow)).2

theorem ownRows_rejected (hw : HoldsRow n.1.store w) (hr' : HoldsRow n.1.store r')
    (hne : w.pendingSequence = none ∨ w.envelope ≠ r'.envelope)
    (hid : E.contentId w.envelope ≠ E.contentId r'.envelope ∨
      E.contentId r'.envelope ∈ n.1.store.seen) :
    OwnRows E n.1 w (n.1.store.seen ++ [E.contentId r'.envelope])
      (pendingAfter n.1.store.pending (pendingDelete E r')) where
  seen := by
    rw [mem_append, mem_singleton, or_iff_left_iff_imp]
    intro heq
    rcases hid with hid | hid
    · exact absurd heq hid
    · exact heq ▸ hid
  pending := fun sequence hseq =>
    find?_pendingAfter (hw.pendingDelete_ne hr' hne sequence hseq)

section

variable [DecidableEq Session]

theorem stageRequest_rejects : Rejects E node r (stageRequest E node f r) := by
  unfold stageRequest
  split
  · exact stopped_rejects _
  · split
    · exact ⟨nofun, nofun⟩
    · exact commitTerminalInput_rejects E node r
    · exact ⟨nofun, nofun⟩

theorem receiveHandshake_rejects : Rejects E node r (receiveHandshake E d node f r) := by
  unfold receiveHandshake
  split
  · exact stopped_rejects _
  · exact ⟨nofun, nofun⟩
  · split
    all_goals exact ⟨nofun, nofun⟩

theorem takeFlight_rejects : Rejects E node r (takeFlight E d node f r) := by
  unfold takeFlight Effect.andThen
  split
  · next hres =>
    rw [(checkManifest_leaves E node f r).2 ⟨_, hres⟩]
    split_ifs
    · exact stageRequest_rejects
    · exact receiveHandshake_rejects
  · exact ⟨nofun, nofun⟩

/-- Reading the flight may have spent budgets. -/
theorem consumeHandshake_rejects : ∃ budgets, node.budgets.Spends budgets ∧
    Rejects E { node with budgets } r (consumeHandshake E d node r) := by
  obtain ⟨budgets, hst, hspent⟩ := @readFlight_spends _ E node r d.ratchetKey
  refine ⟨budgets, hspent, ?_⟩
  unfold consumeHandshake
  dsimp only
  rw [hst]
  split
  · exact stopped_rejects _
  · exact takeFlight_rejects

theorem consumeSeen_drops : Drops E node r (consumeSeen E node r) := by
  have hdrop : Drops E node r (dropDuplicate E node r) := by
    unfold dropDuplicate
    split_ifs
    · exact (commitTerminalInput_rejects E node r).drops (.refl _)
    · exact ⟨fun _ => rfl, nofun⟩
  unfold consumeSeen
  split
  · exact hdrop
  · split
    · exact hdrop
    · unfold replayReceipt
      dsimp only
      cases commitReceiptReplay E node.store _ _ _ _ (E.contentId r.envelope) r.now
        (pendingDelete E r) <;> exact ⟨nofun, nofun⟩

theorem consumeWhole_drops : DropsBeside E n r (consumeWhole E P d r n) := by
  unfold consumeWhole
  split_ifs
  · exact consumeSeen_drops.beside
  · split
    · obtain ⟨_, hspent, hreject⟩ := @consumeHandshake_rejects _ E n.1 r d _
      exact (hreject.drops hspent).beside
    · exact ((commitTerminalInput_rejects E n.1 r).drops (.refl _)).beside
    all_goals exact consumeOther_drops

/-- **All that a rejection leaves**: the id is marked seen, the pending row is gone, and at most one
of each budget is spent. -/
theorem rejected_state {n : Node Session × Mem} {depth : ℕ}
    (h : (consume E P d depth r n).result = .ok .rejectedAtomic) :
    ∃ budgets, n.1.budgets.Spends budgets ∧
      (consume E P d depth r n).state = (n.1.rejected E r budgets, n.2) := by
  unfold consume at h ⊢
  split_ifs at h ⊢
  · -- A fragment is never rejected.
    refine absurd h ?_
    unfold consumeFragment
    dsimp only
    split
    · exact nofun
    · unfold consumeInner Effect.andThen
      split
      · next outcome _ => cases outcome <;> exact nofun
      · exact nofun
  · exact consumeWhole_drops.2 h

/-! ### What becomes of a delivery -/

inductive Fate where
  | buffered
  | accepted
  | deferred
  | dropped
  | failed (e : NodeError)
  deriving DecidableEq

def Fate.ofResult : Except NodeError Consumed → Fate
  | .ok .doneAtomic => .accepted
  | .ok .later => .deferred
  | .ok .rejectedAtomic | .ok .done => .dropped
  | .error e => .failed e

def fate (E : Env Session) (P : Peripherals Session Mem) (d : Draws) (depth : ℕ) (r : Received)
    (n : Node Session × Mem) : Fate :=
  match target E P depth r n with
  | (none, _) => .buffered
  | (some w, mem) => .ofResult (consumeWhole E P d w (n.1, mem)).result

/-- A delivery comes to the same at two states: it has the same fate, and the states after it are
the same apart from the envelopes seen and pending and the budgets. -/
structure SameOutcome (E : Env Session) (P : Peripherals Session Mem) (d : Draws) (depth : ℕ)
    (r : Received) (n n' : Node Session × Mem) : Prop where
  fate : fate E P d depth r n' = fate E P d depth r n
  node : Alike (consume E P d depth r n).state.1 (consume E P d depth r n').state.1
  mem : (consume E P d depth r n').state.2 = (consume E P d depth r n).state.2

theorem fate_of_target_none (h : target E P depth r n = (none, mem)) :
    fate E P d depth r n = .buffered := by
  rw [fate, h]

theorem fate_of_target_some (h : target E P depth r n = (some w, mem)) :
    fate E P d depth r n = .ofResult (consumeWhole E P d w (n.1, mem)).result := by
  rw [fate, h]

theorem consume_of_target_none (h : target E P depth r n = (none, mem)) :
    (consume E P d depth r n).state = (n.1, mem) := by
  unfold target at h
  split_ifs at h with hins
  · obtain ⟨hcom, hmem⟩ := Prod.mk.inj h
    rw [consume, if_pos hins, consumeFragment, hcom]
    exact congrArg (n.1, ·) hmem
  · exact nomatch (Prod.mk.inj h).1

/-- What is consumed as a whole makes the state, but for the row of an envelope that waits. -/
theorem consume_of_target_some (h : target E P depth r n = (some w, mem)) :
    Alike (consumeWhole E P d w (n.1, mem)).state.1 (consume E P d depth r n).state.1 ∧
      (consume E P d depth r n).state.2 = (consumeWhole E P d w (n.1, mem)).state.2 := by
  unfold target at h
  split_ifs at h with hins
  · obtain ⟨hcom, rfl⟩ := Prod.mk.inj h
    rw [consume, if_pos hins, consumeFragment, hcom]
    dsimp only
    unfold consumeInner Effect.andThen
    split
    · next outcome _ => cases outcome <;> exact ⟨⟨_, _, _, rfl⟩, rfl⟩
    · exact ⟨.refl _, rfl⟩
  · obtain ⟨hw, rfl⟩ := Prod.mk.inj h
    cases hw
    rw [consume, if_neg hins]
    exact ⟨.refl _, rfl⟩

/-- What is dropped leaves nothing but a mark. -/
theorem alike_of_dropped (h : Fate.ofResult (consumeWhole E P d w n).result = .dropped) :
    Alike n.1 (consumeWhole E P d w n).state.1 ∧ (consumeWhole E P d w n).state.2 = n.2 := by
  have hdrop := @consumeWhole_drops _ _ E w d P n _
  cases hres : (consumeWhole E P d w n).result with
  | error e =>
    rw [hres] at h
    exact nomatch h
  | ok outcome =>
    rw [hres] at h
    cases outcome with
    | done =>
      rw [hdrop.1 hres]
      exact ⟨.refl _, rfl⟩
    | rejectedAtomic =>
      obtain ⟨_, -, hst⟩ := hdrop.2 hres
      rw [hst]
      exact ⟨⟨_, _, _, rfl⟩, rfl⟩
    | doneAtomic | later => exact nomatch h

/-! ### After a rejection -/

/-- **Two deliveries**, of different envelopes, to a node with budgets to spend. -/
structure Race (E : Env Session) (blake3 : Bytes → Octets 32) (P : Peripherals Session Mem)
    (n : Node Session × Mem) (r r' : Received) : Prop where
  encode_ne : r.envelope.encode ≠ r'.envelope.encode
  collisionFree : CollisionFree E blake3
    (r.envelope :: r'.envelope :: ((completed P r n.2).map Received.envelope).toList)
  budgets : n.1.budgets.Twice
  /-- Receipts are sent again only for what was seen. -/
  replay_seen : ∀ id, n.1.store.receiptReplay id ≠ none → id ∈ n.1.store.seen
  row : HoldsRow n.1.store r
  row' : HoldsRow n.1.store r'

theorem dropped_of_rejected (hw : HoldsRow n.1.store w)
    (hr' : HoldsRow n.1.store r') (hne : w.pendingSequence = none ∨ w.envelope ≠ r'.envelope)
    (hid : E.contentId w.envelope = E.contentId r'.envelope)
    (hrep : n.1.store.receiptReplay (E.contentId r'.envelope) = none) :
    Fate.ofResult (consumeWhole E P d w (n.1.rejected E r' budgets, mem)).result = .dropped := by
  have hseen : E.contentId w.envelope ∈ (n.1.rejected E r' budgets).store.seen := by
    rw [hid]
    exact mem_append_right _ (.head _)
  rw [consumeWhole, if_pos hseen]
  have hnone : (n.1.rejected E r' budgets).store.receiptReplay (E.contentId w.envelope) = none := by
    rw [hid]
    exact hrep
  have hcon : consumeSeen E (n.1.rejected E r' budgets) w =
      dropDuplicate E (n.1.rejected E r' budgets) w := by
    rw [consumeSeen, hnone]
  dsimp only [beside]
  rw [hcon]
  unfold dropDuplicate
  cases hseq : w.pendingSequence with
  | none => rfl
  | some sequence =>
    have hrow : (n.1.rejected E r' budgets).store.pending.find? (fun row => row.1 = sequence) =
        some (sequence, w.envelope) :=
      (find?_pendingAfter (hw.pendingDelete_ne hr' hne sequence hseq)).trans (hw sequence hseq)
    simp [commitTerminalInput, commitMaintenance, pendingDelete, hseq, validatePending, hrow,
      required, rejectIf, bind, Except.bind, Except.mapError, Fate.ofResult]

/-- Deliveries with one target come to the same where consuming that target does. -/
theorem sameOutcome_of_target {n' : Node Session × Mem} (h : target E P depth r n = (some w, mem))
    (h' : target E P depth r n' = (some w, mem))
    (hfate : Fate.ofResult (consumeWhole E P d w (n'.1, mem)).result =
      Fate.ofResult (consumeWhole E P d w (n.1, mem)).result)
    (hnode : Alike (consumeWhole E P d w (n.1, mem)).state.1
      (consumeWhole E P d w (n'.1, mem)).state.1)
    (hmem : (consumeWhole E P d w (n'.1, mem)).state.2 =
      (consumeWhole E P d w (n.1, mem)).state.2) : SameOutcome E P d depth r n n' where
  fate := by rw [fate_of_target_some h, fate_of_target_some h', hfate]
  node := (consume_of_target_some h).1.symm.trans (hnode.trans (consume_of_target_some h').1)
  mem := by rw [(consume_of_target_some h).2, (consume_of_target_some h').2, hmem]

/-- **A rejected copy**, and a delivery after it.  The delivery comes to what it would have come to
before it, exactly when it brings neither the copy again nor a wrapper of the same flight for the
same target, or was seen, or is dropped in any case. -/
theorem rejected_copy_harmless_iff (E : Env Session) {blake3 : Bytes → Octets 32}
    (hE : Wired E blake3) (P : Peripherals Session Mem) (n : Node Session × Mem) (d d' : Draws)
    (depth depth' : ℕ) (r r' : Received) (hrace : Race E blake3 P n r r')
    (hrejected : (consume E P d' depth' r' n).result = .ok .rejectedAtomic) :
    SameOutcome E P d depth r n (consume E P d' depth' r' n).state ↔
      ∀ w ∈ (target E P depth r n).1,
        w.envelope = r'.envelope ∨ SameIntroduction E w.envelope r'.envelope →
          E.contentId w.envelope ∈ n.1.store.seen ∨ fate E P d depth r n = .dropped := by
  obtain ⟨budgets, hspent, hst⟩ := rejected_state hrejected
  rw [hst]
  have hr'_mem : r'.envelope ∈ r.envelope :: r'.envelope ::
    ((completed P r n.2).map Received.envelope).toList := .tail _ (.head _)
  have hne : r.envelope ≠ r'.envelope := fun h => hrace.encode_ne (congrArg Envelope.encode h)
  have hfragment : r.envelope.kind = .fragment →
      E.contentId r.envelope ≠ E.contentId r'.envelope := by
    intro hkind hid
    rcases (contentId_eq_iff hE hrace.collisionFree (.head _) hr'_mem).mp hid with
      heq | ⟨x, hx, -⟩
    · exact hne heq
    · simp [introduction, hkind] at hx
  rcases htgt : target E P depth r n with ⟨_ | w, mem⟩
  · -- Nothing to consume: the node is not looked at.
    have htgt' : target E P depth r (n.1.rejected E r' budgets, n.2) = (none, mem) :=
      (target_rejected hfragment).trans htgt
    refine iff_of_true ⟨?_, ?_, ?_⟩ (fun w hw => absurd hw (not_mem_none w))
    · rw [fate_of_target_none htgt, fate_of_target_none htgt']
    · rw [consume_of_target_none htgt, consume_of_target_none htgt']
      exact ⟨_, _, _, rfl⟩
    · rw [consume_of_target_none htgt, consume_of_target_none htgt']
  · have htgt' : target E P depth r (n.1.rejected E r' budgets, n.2) = (some w, mem) :=
      (target_rejected hfragment).trans htgt
    have hw : HoldsRow n.1.store w ∧ (w.pendingSequence = none ∨ w.envelope ≠ r'.envelope) ∧
        w.envelope ∈ r.envelope :: r'.envelope ::
          ((completed P r n.2).map Received.envelope).toList := by
      rcases target_eq_some htgt with rfl | ⟨hcom, hnone⟩
      · exact ⟨hrace.row, .inr hne, .head _⟩
      · refine ⟨fun sequence hseq => ?_, .inl hnone, ?_⟩
        · cases hnone.symm.trans hseq
        · rw [hcom]
          exact .tail _ (.tail _ (.head _))
    obtain ⟨hrow, hrow_ne, hmem⟩ := hw
    have hid_iff := contentId_eq_iff hE hrace.collisionFree hmem hr'_mem
    have hcon : (∀ w' ∈ (some w, mem).1,
        w'.envelope = r'.envelope ∨ SameIntroduction E w'.envelope r'.envelope →
          E.contentId w'.envelope ∈ n.1.store.seen ∨ fate E P d depth r n = .dropped) ↔
        (E.contentId w.envelope = E.contentId r'.envelope →
          E.contentId w.envelope ∈ n.1.store.seen ∨ fate E P d depth r n = .dropped) := by
      rw [hid_iff]
      simp
    rw [hcon]
    by_cases hsup : E.contentId w.envelope = E.contentId r'.envelope ∧
        E.contentId r'.envelope ∉ n.1.store.seen
    · -- The id was marked by the rejection only.
      obtain ⟨hid, huns⟩ := hsup
      have hrep : n.1.store.receiptReplay (E.contentId r'.envelope) = none := by
        by_contra hrep
        exact huns (hrace.replay_seen _ hrep)
      have hdrop : Fate.ofResult
          (consumeWhole E P d w (n.1.rejected E r' budgets, mem)).result = .dropped :=
        dropped_of_rejected hrow hrace.row' hrow_ne hid hrep
      constructor
      · intro hsame _
        refine .inr ?_
        rw [← hsame.fate, fate_of_target_some htgt']
        exact hdrop
      · intro hcond
        rcases hcond hid with hseen | hfate
        · exact absurd (hid ▸ hseen) huns
        · rw [fate_of_target_some htgt] at hfate
          obtain ⟨hnode, hmemory⟩ := alike_of_dropped hfate
          obtain ⟨hnode', hmem'⟩ := alike_of_dropped hdrop
          have hreject : Alike n.1 (n.1.rejected E r' budgets) := ⟨_, _, _, rfl⟩
          exact sameOutcome_of_target htgt htgt' (hdrop.trans hfate.symm)
            (hnode.symm.trans (hreject.trans hnode')) (hmem'.trans hmemory.symm)
    · -- The tables say the same about it as before.
      have hid : E.contentId w.envelope ≠ E.contentId r'.envelope ∨
          E.contentId r'.envelope ∈ n.1.store.seen := by
        rw [not_and_or, not_not] at hsup
        exact hsup
      have hagr : AgreeBeside (consumeWhole E P d w (n.1, mem))
          (consumeWhole E P d w (n.1.rejected E r' budgets, mem)) :=
        consumeWhole_agree (ownRows_rejected hrow hrace.row' hrow_ne hid)
          (hrace.budgets.ample w.transport) (hrace.budgets.ample_of_spends hspent w.transport)
      refine iff_of_true (sameOutcome_of_target htgt htgt' (congrArg _ hagr.result)
        hagr.node hagr.mem) fun heq => ?_
      rcases hid with hid | hseen
      · exact absurd heq hid
      · exact .inl (heq ▸ hseen)

end

namespace Sample

open DeviceAuthority.Sample (keys)

/-- A hash that tells envelopes with a wrapper apart by the first byte of their proof. -/
def proofHash (bytes : Bytes) : Octets 32 := .replicate 32 (bytes.getD 162 7)

/-- `env` with the ids and wrappers of the codecs, where a proof is fives. -/
noncomputable def raceEnv : Env (Octets 32 × ℕ) :=
  { env with
    contentId := Envelope.contentId ⟨proofHash, AdmissionEnvelope.verifiedContentId hash⟩
    decodeAdmission := fun body => (AdmissionEnvelope.decode hash body).toOption
    decodePrekey := fun _ => some ⟨Identity.toPublic keys ⟨4, 4⟩, 0, .zero 32, 0, [], []⟩
    verifyAdmission := fun _ _ => some ⟨.replicate 32 6, 0, 1024, 0⟩
    verifyPuzzle := fun _ _ proof _ => proof = .replicate 32 5
    account_eq := env_account
    device_eq := env_device }

theorem wired_raceEnv : Wired raceEnv proofHash := ⟨fun _ => rfl, fun _ => rfl⟩

/-- The flight with the manifest of generation 2, wrapped for device 4 with a proof. -/
def wrapper (proof : UInt8) : Bytes :=
  ((AdmissionEnvelope.encode hash
    ⟨⟨.replicate 32 3, .replicate 32 4, .replicate 32 6, 0⟩, .replicate 16 1, .puzzle,
      .replicate 32 proof, [1], [2]⟩).toOption).getD []

def wrapped (proof : UInt8) : Received :=
  { received 2 with
    envelope := .new .handshake (.zero 32) (wrapper proof)
    pendingSequence := none }

/-- Fragments and messages play no part. -/
def peripherals : Peripherals (Octets 32 × ℕ) Unit where
  insert := fun mem _ _ => (mem, none)
  react := fun _ _ _ _ => .ok .later
  stash := fun pending _ => pending

def raceNode : Node (Octets 32 × ℕ) × Unit :=
  ({ nodeWith 1 2 with budgets := ⟨fun _ => 2, 2, 2, 0⟩ }, ())

theorem wrapped_rejected :
    (consume raceEnv peripherals draws 0 (wrapped 6) raceNode).result = .ok .rejectedAtomic := by
  decide +kernel

/-- The same flight without a wrapper has another id. -/
def bare : Received := { received 2 with pendingSequence := none }

theorem race_wrapped {r : Received} (h : r = bare ∨ r = wrapped 5) :
    Race raceEnv proofHash peripherals raceNode r (wrapped 6) := by
  rcases h with rfl | rfl
  all_goals
    refine ⟨by decide +kernel, ?_, ⟨fun _ => le_rfl, le_rfl, le_rfl⟩, fun _ h => absurd rfl h,
      nofun, nofun⟩
    exact ⟨by decide +kernel, by decide +kernel, by decide +kernel, by decide +kernel⟩

/-- A wrapper with a broken proof does not matter to the bare flight. -/
theorem bare_flight_unharmed : fate raceEnv peripherals draws 0 bare raceNode = .accepted ∧
    SameOutcome raceEnv peripherals draws 0 bare raceNode
      (consume raceEnv peripherals draws 0 (wrapped 6) raceNode).state := by
  refine ⟨by decide +kernel, ?_⟩
  refine (rejected_copy_harmless_iff raceEnv wired_raceEnv peripherals raceNode draws draws 0 0 bare
    (wrapped 6) (race_wrapped (.inl rfl)) wrapped_rejected).mpr fun w hw h => ?_
  have hbare : ∀ w ∈ (target raceEnv peripherals 0 bare raceNode).1,
      w.envelope ≠ (wrapped 6).envelope ∧ introduction raceEnv w.envelope = none := by
    decide +kernel
  rcases h with heq | ⟨x, hx, -⟩
  · exact absurd heq (hbare w hw).1
  · exact nomatch (hbare w hw).2.symm.trans hx

/-- The same wrapper with a broken proof arrives first: the one with the right proof, which would be
accepted, is dropped. -/
theorem broken_proof_suppresses :
    Wired raceEnv proofHash ∧ Race raceEnv proofHash peripherals raceNode (wrapped 5) (wrapped 6) ∧
    (consume raceEnv peripherals draws 0 (wrapped 6) raceNode).result = .ok .rejectedAtomic ∧
    fate raceEnv peripherals draws 0 (wrapped 5) raceNode = .accepted ∧
    fate raceEnv peripherals draws 0 (wrapped 5)
      (consume raceEnv peripherals draws 0 (wrapped 6) raceNode).state = .dropped ∧
    ¬ SameOutcome raceEnv peripherals draws 0 (wrapped 5) raceNode
      (consume raceEnv peripherals draws 0 (wrapped 6) raceNode).state := by
  have hbef : fate raceEnv peripherals draws 0 (wrapped 5) raceNode = .accepted := by
    decide +kernel
  have haft : fate raceEnv peripherals draws 0 (wrapped 5)
      (consume raceEnv peripherals draws 0 (wrapped 6) raceNode).state = .dropped := by
    decide +kernel
  refine ⟨wired_raceEnv, race_wrapped (.inr rfl), wrapped_rejected, hbef, haft, fun h => ?_⟩
  exact nomatch haft.symm.trans (h.fate.trans hbef)

end Sample

end Komms.Handshake
