import Komms.Handshake.Consume

/-!
# Consuming an envelope

`consume` of `kult-node/src/lib.rs`.  It drops what was consumed before, with its receipt sent again
if it had one.  Otherwise the kind decides: handshakes go to `consume_handshake`, fragments to the
reassembler, which may complete an envelope, and the rest to handlers that are parameters here
(`Peripherals`).
-/

namespace Komms.Handshake

open Protocol (Envelope)

variable {Session Mem : Type} [DecidableEq Session] (E : Env Session)

/-! ### What was consumed before -/

/-- `PairwiseReceive` with a receipt and nothing else, for an envelope that is marked seen. -/
def commitReceiptReplay (s : Store Session) (peer : Octets 32) (before after : Session)
    (receipt : QueueItem) (contentId : Octets 16) (receivedAt : UInt64)
    (pending : Option (ℤ × Octets 16)) : Except StoreError (Store Session) := do
  rejectIf (s.sessions peer ≠ some before ∨ after = before) .invalidTransition
  rejectIf (contentId = .zero 16 ∨ receipt.peer ≠ peer ∨ receipt.msgId.isSome ∨
    receipt.groupMsgId.isSome ∨ receipt.envelope.kind ≠ .receipt) .invalidTransition
  validatePending E s pending
  let s ← putSession E s peer after
  .ok (deletePending ((s.queuePush receipt).putReceiptReplay contentId peer receivedAt) pending)

variable (node : Node Session)

/-- A duplicate without a receipt: its pending row goes, if it has one. -/
def dropDuplicate (r : Received) : Effect (Node Session) NodeError Consumed :=
  if r.pendingSequence.isSome then commitTerminalInput E node r else ⟨node, .ok .done⟩

/-- Send the receipt again over the session of today. -/
def replayReceipt (r : Received) (peer : Octets 32) (before : Session) :
    Effect (Node Session) NodeError Consumed :=
  let (after, receipt) :=
    prepareControlQueue E before peer (E.encodeReceipt (E.contentId r.envelope)) r.now
  .ofExcept node do
    let store ← (commitReceiptReplay E node.store peer before after receipt (E.contentId r.envelope)
      r.now (pendingDelete E r)).mapError .store
    .ok ({ node with store }, .doneAtomic)

def consumeSeen (r : Received) : Effect (Node Session) NodeError Consumed :=
  match node.store.receiptReplay (E.contentId r.envelope) with
  | none => dropDuplicate E node r
  | some (peer, _) =>
    match node.store.sessions peer with
    | none => dropDuplicate E node r
    | some before => replayReceipt E node r peer before

/-- A whole handshake envelope. -/
def consumeFlight (d : Draws) (node : Node Session) (r : Received) :
    Effect (Node Session) NodeError Consumed :=
  if E.contentId r.envelope ∈ node.store.seen then consumeSeen E node r
  else consumeHandshake E d node r

/-! ### Every kind of envelope -/

/-- What `consume_ratchet` and `consume_group_message` come to. -/
inductive Reaction (Session Mem : Type) where
  | later
  | terminal
  /-- A commit with the envelope marked seen, and the result of what follows it. -/
  | commit (node : Node Session) (mem : Mem) (result : Except NodeError Unit)

/-- The handlers of other kinds, and the memory that they and the reassembler use. -/
structure Peripherals (Session Mem : Type) where
  /-- Insert a fragment: the memory after it, and the envelope that is complete now. -/
  insert : Mem → Envelope → UInt64 → Mem × Option Envelope
  /-- `consume_ratchet` and `consume_group_message` up to their commit. -/
  react : Draws → Envelope → UInt64 → Node Session × Mem → Except NodeError (Reaction Session Mem)
  /-- The pending inbox with a deferred envelope, or as it was when it is full. -/
  stash : List (ℤ × Envelope) → Envelope → List (ℤ × Envelope)

/-- What the handlers of other kinds look at: not what was seen, nor the pending inbox, nor the
budgets of first contacts. -/
def Node.blank : Node Session :=
  { node with
    store := { node.store with seen := [], pending := [] }
    budgets := ⟨fun _ => 0, 0, 0, 0⟩ }

/-- A computation on the node beside a memory. -/
def beside (mem : Mem) (e : Effect (Node Session) NodeError Consumed) :
    Effect (Node Session × Mem) NodeError Consumed :=
  ⟨(e.state, mem), e.result⟩

/-- The commit of another kind: its pending row goes and it is marked seen. -/
def commitReaction (after : Node Session) (r : Received) : Except NodeError (Node Session) := do
  (validatePending E node.store (pendingDelete E r)).mapError .store
  .ok { after with
    store := deletePending { after.store with
      seen := node.store.seen ++ [E.contentId r.envelope]
      pending := node.store.pending } (pendingDelete E r)
    budgets := node.budgets }

variable (P : Peripherals Session Mem)

def consumeOther (d : Draws) (r : Received) (n : Node Session × Mem) :
    Effect (Node Session × Mem) NodeError Consumed :=
  match P.react d r.envelope r.now (n.1.blank, n.2) with
  | .error e => ⟨n, .error e⟩
  | .ok .later => ⟨n, .ok .later⟩
  | .ok .terminal => beside n.2 (commitTerminalInput E n.1 r)
  | .ok (.commit after mem result) =>
    match commitReaction E n.1 after r with
    | .error e => ⟨n, .error e⟩
    | .ok node => ⟨(node, mem), result.map fun _ => .doneAtomic⟩

/-- An envelope that is not a fragment to insert: nested fragments are malformed. -/
def consumeWhole (d : Draws) (r : Received) (n : Node Session × Mem) :
    Effect (Node Session × Mem) NodeError Consumed :=
  if E.contentId r.envelope ∈ n.1.store.seen then beside n.2 (consumeSeen E n.1 r)
  else match r.envelope.kind with
    | .handshake => beside n.2 (consumeHandshake E d n.1 r)
    | .fragment => beside n.2 (commitTerminalInput E n.1 r)
    | .message | .receipt | .groupControl | .groupMessage => consumeOther E P d r n

/-- An envelope that was reassembled, which is kept if it has to wait. -/
def consumeInner (d : Draws) (r : Received) (n : Node Session × Mem) :
    Effect (Node Session × Mem) NodeError Consumed :=
  (consumeWhole E P d r n).andThen fun n outcome =>
    match outcome with
    | .later => ⟨({ n.1 with store := { n.1.store with
        pending := P.stash n.1.store.pending r.envelope } }, n.2), .ok .done⟩
    | .done | .doneAtomic | .rejectedAtomic => ⟨n, .ok .done⟩

/-- Fragments are inserted at depth 0 only, and are never marked seen. -/
def inserts (depth : ℕ) (r : Received) (n : Node Session × Mem) : Prop :=
  E.contentId r.envelope ∉ n.1.store.seen ∧ r.envelope.kind = .fragment ∧ depth = 0

instance (depth : ℕ) (r : Received) (n : Node Session × Mem) : Decidable (inserts E depth r n) := by
  unfold inserts
  infer_instance

/-- The envelope that a fragment completes, without a row in the pending inbox. -/
def completed (r : Received) (mem : Mem) : Option Received :=
  (P.insert mem r.envelope r.now).2.map fun inner =>
    { r with envelope := inner, pendingSequence := none }

/-- Insert a fragment, and consume what it completes. -/
def consumeFragment (d : Draws) (r : Received) (n : Node Session × Mem) :
    Effect (Node Session × Mem) NodeError Consumed :=
  let mem := (P.insert n.2 r.envelope r.now).1
  match completed P r n.2 with
  | none => ⟨(n.1, mem), .ok .done⟩
  | some inner => consumeInner E P d inner (n.1, mem)

def consume (d : Draws) (depth : ℕ) (r : Received) (n : Node Session × Mem) :
    Effect (Node Session × Mem) NodeError Consumed :=
  if inserts E depth r n then consumeFragment E P d r n else consumeWhole E P d r n

end Komms.Handshake
