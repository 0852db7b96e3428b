import Komms.Ratchet.Conversation
import Komms.Ratchet.Equiv.View

/-!
# The simulation invariant of a conversation

`Ghost` is an abstract conversation: the ratchet private keys drawn so far, the length of every
chain, a view for each side, the message each `encrypt` call made and the messages accepted so
far, all named by (chain, index).  `Inv` says that a world is such a conversation realized with
the keys of the schedule:

* `Shape`: the two sides are one DH step apart and agree on the lengths of chains;
* `Log`: every box sealed so far belongs to exactly one message of one chain;
* `Stock`: no message key is both stored and used, and both lie in the receiver's past;
* `History`: every accepted plaintext is accounted for by the message whose key opened it.

`Complete` is the part of the invariant that needs the delivery bounds: nothing the receiver has
passed is lost.  The operations `decrypt` is made of are shown to keep both.
-/

namespace Komms.Ratchet

variable {Key Box : Type}

def senderOf (k : ℕ) : Side := if k % 2 = 0 then .initiator else .responder

theorem senderOf_add_two (k : ℕ) : senderOf (k + 2) = senderOf k := by
  simp [senderOf]

theorem senderOf_succ (k : ℕ) : senderOf (k + 1) = (senderOf k).other := by
  unfold senderOf
  rcases Nat.mod_two_eq_zero_or_one k with h | h
  · rw [if_neg (by omega), if_pos h]
    rfl
  · rw [if_pos (by omega), if_neg (by omega)]
    rfl

structure Ghost (Key : Type) where
  /-- Ratchet private keys, one for each DH step. -/
  q : ℕ → Key
  /-- Messages sent so far on each chain. -/
  len : ℕ → ℕ
  view : Side → View
  /-- The message (chain, index) of each `encrypt` call, in order. -/
  tags : List (ℕ × ℕ)
  /-- The message whose key opened each accepted plaintext, in order. -/
  consumed : List (ℕ × ℕ)

/-- The view has passed message `t`: it waits for a later one. -/
def View.Past (v : View) (t : ℕ × ℕ) : Prop :=
  t.1 + 2 < v.epoch ∨ t.1 + 2 = v.epoch ∧ t.2 < v.pos

/-- The length of the chain that the sender of chain `k` used before it. -/
def prevLen (len : ℕ → ℕ) (k : ℕ) : ℕ := if 2 ≤ k then len (k - 2) else 0

/-! ### The parts of the invariant -/

structure Shape (g : Ghost Key) : Prop where
  parity : ∀ X, senderOf (g.view X).epoch = X.other
  adjacent : ∀ X, (g.view X.other).epoch ≤ (g.view X).epoch + 1
  sent_eq : ∀ X k, (g.view X).epoch = k + 1 → (g.view X).sent = g.len k
  sent_zero : ∀ X, (g.view X).epoch = 0 → (g.view X).sent = 0
  prev_eq : ∀ X k, (g.view X).epoch = k + 1 → (g.view X).prevSent = prevLen g.len k
  len_zero : ∀ k, (∀ X, (g.view X).epoch ≤ k) → g.len k = 0
  pos_zero : ∀ X, (g.view X).epoch < 2 → (g.view X).pos = 0

section Parts

variable (P : Primitives Key Box) (r : Roots Key) (sid : Octets 32)

/-- The emission is message `t` of the conversation. -/
def Emitted (g : Ghost Key) (em : Emission Box) (t : ℕ × ℕ) : Prop :=
  em.side = senderOf t.1 ∧ t.1 < (g.view em.side).epoch ∧
    ∃ hdrNonce nonce, em.msg =
      messageOf P r sid g.q t.1 t.2 (prevLen g.len t.1) hdrNonce nonce em.plaintext em.userAd

/-- The sealing is the header of message `t`. -/
def HeaderSealing (g : Ghost Key) (sl : Aead.Sealing Key Nonce (Ad Box)) (t : ℕ × ℕ) : Prop :=
  sl.key = headerKey P r g.q t.1 ∧
    sl.plaintext = (headerOf P g.q t.1 t.2 (prevLen g.len t.1)).encode

/-- The sealing is the body of message `t`. -/
def BodySealing (g : Ghost Key) (sl : Aead.Sealing Key Nonce (Ad Box)) (em : Emission Box)
    (t : ℕ × ℕ) : Prop :=
  sl = ⟨messageKey P r g.q t.1 t.2, em.msg.nonce, payloadAdOf sid em.msg.encHeader em.userAd,
    em.plaintext⟩

structure Log (g : Ghost Key) (w : World Key Box) : Prop where
  emitted : List.Forall₂ (Emitted P r sid g) w.sent g.tags
  tags_nodup : g.tags.Nodup
  tag_lt : ∀ t ∈ g.tags, t.2 < g.len t.1
  sealed : ∀ sl ∈ w.sealed, (∃ t ∈ g.tags, HeaderSealing P r g sl t) ∨
    ∃ p ∈ w.sent.zip g.tags, BodySealing P r sid g sl p.1 p.2

end Parts

structure Stock (g : Ghost Key) : Prop where
  slot_past : ∀ X, ∀ sl ∈ (g.view X).stored,
    (g.view X).Past sl.tag ∧ senderOf sl.chain = X.other
  slot_nodup : ∀ X, ((g.view X).stored.map Slot.tag).Nodup
  used_past : ∀ t ∈ g.consumed, (g.view (senderOf t.1).other).Past t
  used_not_stored : ∀ t ∈ g.consumed, ∀ X, t ∉ (g.view X).stored.map Slot.tag
  used_nodup : g.consumed.Nodup

/-- The acceptance is accounted for by an earlier emission of message `t` on the other side. -/
def Accounts (g : Ghost Key) (w : World Key Box) (a : Acceptance Box) (t : ℕ × ℕ) : Prop :=
  ∃ j em, w.sent[j]? = some em ∧ g.tags[j]? = some t ∧ j < a.sentBefore ∧
    em.side = a.side.other ∧ em.plaintext = a.plaintext ∧ em.userAd = a.userAd ∧ em.msg = a.msg

structure History (g : Ghost Key) (w : World Key Box) : Prop where
  accounts : List.Forall₂ (Accounts g w) w.accepted g.consumed
  presented : ∀ a ∈ w.accepted, (⟨a.side, a.msg, a.userAd⟩ : Presentation Box) ∈ w.presented

/-- **The simulation invariant**: the world is the abstract conversation `g`. -/
structure Inv (P : Primitives Key Box) (r : Roots Key) (sid : Octets 32) (g : Ghost Key)
    (w : World Key Box) : Prop where
  session : ∀ X, w.session X = realize P r sid g.q (g.view X)
  shape : Shape g
  log : Log P r sid g w
  stock : Stock g
  history : History g w

/-- **Completeness**: every message the receiver has passed was accepted or its key is stored. -/
structure Complete (g : Ghost Key) : Prop where
  len_lt : ∀ k, g.len k < 2 ^ 32
  pos_le : ∀ X k, (g.view X).epoch = k + 2 → (g.view X).pos ≤ g.len k
  slot_lt : ∀ X, ∀ sl ∈ (g.view X).stored, sl.index < g.len sl.chain
  kept : ∀ X t, senderOf t.1 = X.other → t.2 < g.len t.1 → (g.view X).Past t →
    t ∈ (g.view X).stored.map Slot.tag ∨ t ∈ g.consumed

/-! ### The start of a conversation -/

/-- The abstract conversation right after the handshake. -/
def Ghost.start (spk privBytes : Key) : Ghost Key :=
  { q := fun i => if i = 0 then spk else privBytes,
    len := fun _ => 0,
    view := fun
      | .initiator => ⟨1, 0, 0, 0, []⟩
      | .responder => ⟨0, 0, 0, 0, []⟩,
    tags := [], consumed := [] }

theorem inv_start (P : Primitives Key Box) (r : Roots Key) (sid : Octets 32) (spk privBytes : Key) :
    Inv P r sid (Ghost.start spk privBytes) (World.start P sid r spk privBytes) where
  session X := by cases X <;> rfl
  shape :=
    { parity := fun X => by cases X <;> rfl
      adjacent := fun X => by cases X <;> simp [Ghost.start, Side.other]
      sent_eq := fun X k _ => by cases X <;> rfl
      sent_zero := fun X _ => by cases X <;> rfl
      prev_eq := fun X k _ => by cases X <;> simp [Ghost.start, prevLen]
      len_zero := fun _ _ => rfl
      pos_zero := fun X _ => by cases X <;> rfl }
  log :=
    { emitted := List.Forall₂.nil
      tags_nodup := List.nodup_nil
      tag_lt := nofun
      sealed := nofun }
  stock :=
    { slot_past := fun X sl hsl => by cases X <;> simp [Ghost.start] at hsl
      slot_nodup := fun X => by cases X <;> simp [Ghost.start]
      used_past := nofun
      used_not_stored := nofun
      used_nodup := List.nodup_nil }
  history :=
    { accounts := List.Forall₂.nil
      presented := nofun }

theorem complete_start (spk privBytes : Key) : Complete (Ghost.start spk privBytes) where
  len_lt _ := by simp [Ghost.start]
  pos_le X k h := by cases X <;> simp [Ghost.start] at h
  slot_lt X sl hsl := by cases X <;> simp [Ghost.start] at hsl
  kept _ t _ h _ := absurd h (by simp [Ghost.start])

end Komms.Ratchet
