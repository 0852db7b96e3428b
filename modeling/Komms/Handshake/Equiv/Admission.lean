import Komms.Handshake.Flight
import Komms.Protocol.Equiv.Envelope

/-!
# Content ids of handshakes

The content id of a handshake in a valid admission wrapper is a digest of the context and the
flight; any other envelope is known by a digest of its encoding.  Where the hashes have no
collisions, two envelopes share an id exactly when they are equal or wrap the same flight for the
same target (`contentId_eq_iff`).
-/

namespace Komms.Handshake

open Protocol (Envelope)
open Protocol.Envelope (digestPrefix)
open List Option AdmissionEnvelope Octets

variable {Session : Type} {E : Env Session} {sha256 blake3 : Bytes → Octets 32}

/-! ### What is hashed -/

theorem introductionBytes_inj {a b : AdmissionContext} {x y : Octets 32} :
    introductionBytes a x = introductionBytes b y ↔ a = b ∧ x = y := by
  obtain ⟨_, _, _, _⟩ := a
  obtain ⟨_, _, _, _⟩ := b
  simp only [introductionBytes, AdmissionContext.toBytes, append_cancel_left_eq, cons.injEq,
    append_assoc, append_inj_iff, u64_append_inj_iff, ← Octets.ext_iff, AdmissionContext.mk.injEq,
    true_and, and_assoc]

theorem AdmissionEnvelope.verifiedContentId_eq (bytes : Bytes) :
    AdmissionEnvelope.verifiedContentId sha256 bytes =
      (AdmissionEnvelope.decode sha256 bytes).toOption.map AdmissionEnvelope.contentId := by
  unfold AdmissionEnvelope.verifiedContentId AdmissionEnvelope.decode
  cases AdmissionEnvelope.parse bytes with
  | error e => rfl
  | ok a =>
    by_cases hid : a.contentId = introductionContentId sha256 a.context a.sealedFlight
    · simp [Except.toOption, ← hid, rejectIf, bind, Except.bind]
    · simp [Except.toOption, hid, Ne.symm hid, rejectIf, bind, Except.bind]

/-! ### Envelopes -/

/-- The content ids and the wrappers of an environment are those of the codecs. -/
structure Wired (E : Env Session) (blake3 : Bytes → Octets 32) : Prop where
  contentId : ∀ e, E.contentId e = Envelope.contentId
    ⟨blake3, AdmissionEnvelope.verifiedContentId E.group.suite.sha256⟩ e
  decodeAdmission : ∀ body, E.decodeAdmission body =
    (AdmissionEnvelope.decode E.group.suite.sha256 body).toOption

/-- The valid admission wrapper of a handshake. -/
def introduction (E : Env Session) (e : Envelope) : Option AdmissionEnvelope :=
  if e.kind = .handshake then E.decodeAdmission e.body else none

/-- Two handshakes wrap the same flight for the same target, under whichever token, proof and
bundle. -/
def SameIntroduction (E : Env Session) (a b : Envelope) : Prop :=
  ∃ x ∈ introduction E a, ∃ y ∈ introduction E b,
    x.context = y.context ∧ x.sealedFlight = y.sealedFlight

/-- **No collisions** among what the ids of some envelopes are digests of. -/
structure CollisionFree (E : Env Session) (blake3 : Bytes → Octets 32) (es : List Envelope) :
    Prop where
  encoding : ∀ a ∈ es, ∀ b ∈ es,
    digestPrefix (blake3 a.encode) = digestPrefix (blake3 b.encode) → a.encode = b.encode
  flight : ∀ a ∈ es, ∀ b ∈ es, ∀ x ∈ introduction E a, ∀ y ∈ introduction E b,
    E.group.suite.sha256 x.sealedFlight = E.group.suite.sha256 y.sealedFlight →
      x.sealedFlight = y.sealedFlight
  context : ∀ a ∈ es, ∀ b ∈ es, ∀ x ∈ introduction E a, ∀ y ∈ introduction E b,
    introductionContentId E.group.suite.sha256 x.context x.sealedFlight =
      introductionContentId E.group.suite.sha256 y.context y.sealedFlight →
    introductionBytes x.context (E.group.suite.sha256 x.sealedFlight) =
      introductionBytes y.context (E.group.suite.sha256 y.sealedFlight)
  apart : ∀ a ∈ es, ∀ b ∈ es, ∀ x ∈ introduction E a, x.contentId ≠ digestPrefix (blake3 b.encode)

theorem Wired.contentId_eq (hE : Wired E blake3) (e : Envelope) :
    E.contentId e = ((introduction E e).map AdmissionEnvelope.contentId).getD
      (digestPrefix (blake3 e.encode)) := by
  rw [hE.contentId, Envelope.contentId, introduction]
  simp only [verifiedContentId_eq, ← hE.decodeAdmission]
  cases e.kind <;> cases E.decodeAdmission e.body <;> rfl

theorem Wired.introduction_contentId (hE : Wired E blake3) {e : Envelope} {x : AdmissionEnvelope}
    (hx : x ∈ introduction E e) :
    x.contentId = introductionContentId E.group.suite.sha256 x.context x.sealedFlight := by
  unfold introduction at hx
  split_ifs at hx
  · rw [hE.decodeAdmission] at hx
    cases hdec : AdmissionEnvelope.decode E.group.suite.sha256 e.body with
    | error error => simp [hdec, Except.toOption] at hx
    | ok a =>
      obtain rfl : a = x := by simpa [hdec, Except.toOption] using hx
      simp only [AdmissionEnvelope.decode, bind_eq_ok_iff, rejectIf_eq_ok_iff, Except.ok.injEq,
        ne_eq, not_not] at hdec
      obtain ⟨_, -, _, hid, rfl⟩ := hdec
      exact hid.symm
  · cases hx

/-- **When two envelopes share an id.** -/
theorem contentId_eq_iff (hE : Wired E blake3) {es : List Envelope}
    (hfree : CollisionFree E blake3 es) {a b : Envelope} (ha : a ∈ es) (hb : b ∈ es) :
    E.contentId a = E.contentId b ↔ a = b ∨ SameIntroduction E a b := by
  constructor
  · intro h
    rw [hE.contentId_eq, hE.contentId_eq] at h
    -- An envelope is hashed with its context if it introduces, as it is encoded if not.
    cases hx : introduction E a with
    | none =>
      cases hy : introduction E b with
      | none =>
        rw [hx, hy] at h
        exact .inl (Envelope.encode_injective (hfree.encoding a ha b hb h))
      | some y =>
        rw [hx, hy] at h
        exact absurd h.symm (hfree.apart b hb a ha y hy)
    | some x =>
      cases hy : introduction E b with
      | none =>
        rw [hx, hy] at h
        exact absurd h (hfree.apart a ha b hb x hx)
      | some y =>
        rw [hx, hy] at h
        simp only [map_some, getD_some] at h
        rw [hE.introduction_contentId hx, hE.introduction_contentId hy] at h
        obtain ⟨hcon, hdig⟩ := introductionBytes_inj.mp (hfree.context a ha b hb x hx y hy h)
        exact .inr ⟨x, hx, y, hy, hcon, hfree.flight a ha b hb x hx y hy hdig⟩
  · rintro (rfl | ⟨x, hx, y, hy, hcon, hflight⟩)
    · rfl
    · rw [hE.contentId_eq, hE.contentId_eq, mem_def.mp hx, mem_def.mp hy]
      simp only [map_some, getD_some]
      rw [hE.introduction_contentId hx, hE.introduction_contentId hy, hcon, hflight]

end Komms.Handshake
