import Komms.DeviceAuthority.Equiv.Quorum

/-!
# The bytes of a transition

`Transition.canonical` says one transition, up to its authorization, and where its bytes end, as
long as the lengths it writes in four bytes fit in them (`canonical_append_inj`).  A name of four
gigabytes is written with the length of an empty one (`Sample.names_run_together`).
-/

namespace Komms.DeviceAuthority

open List

variable {r s : Bytes} {t u : Transition}

/-! ### Rows -/

theorem identity_append_inj_iff {a b : IdentityPublic} :
    a.canonical ++ r = b.canonical ++ s ↔ a = b ∧ r = s := by
  obtain ⟨_, _, _⟩ := a
  obtain ⟨_, _, _⟩ := b
  simp only [IdentityPublic.canonical, append_assoc, Octets.append_inj_iff, IdentityPublic.mk.injEq,
    and_assoc]

theorem certificate_append_inj {a b : Certificate}
    (h : leBytes 4 a.canonical.length ++ (a.canonical ++ (a.deviceSignature.toBytes ++ r)) =
      leBytes 4 b.canonical.length ++ (b.canonical ++ (b.deviceSignature.toBytes ++ s))) :
    a = b ∧ r = s := by
  obtain ⟨-, h⟩ := append_inj h (by simp)
  obtain ⟨_, _, _, _, _⟩ := a
  obtain ⟨_, _, _, _, _⟩ := b
  simpa only [Certificate.canonical, append_assoc, append_cancel_left_eq, identity_append_inj_iff,
    Octets.append_inj_iff, u64_append_inj_iff, Certificate.mk.injEq, and_assoc] using h

theorem entry_append_inj {a b : Entry} (ha : a.name.bytes.length < 256 ^ 4)
    (hb : b.name.bytes.length < 256 ^ 4) (h : a.canonical ++ r = b.canonical ++ s) :
    a = b ∧ r = s := by
  simp only [Entry.canonical, append_assoc] at h
  obtain ⟨hcert, h⟩ := certificate_append_inj h
  obtain ⟨hname, h⟩ := lengthPrefixed_inj ha hb h
  obtain ⟨hseen, h⟩ := u64_append_inj_iff.mp h
  have hopt (x y : UInt64) {r s : Bytes} := (@u64_append_inj_iff r s x y).mp
  obtain ⟨hrev, h⟩ := presence_inj rfl (fun _ => rfl) (fun x _ y _ => hopt x y) h
  obtain ⟨hcount, hrest⟩ := presence_inj rfl (fun _ => rfl) (fun x _ y _ => hopt x y) h
  exact ⟨(Entry.mk.injEq ..).mpr ⟨hcert, (Utf8.mk.injEq ..).mpr hname, hseen, hrev, hcount⟩, hrest⟩

/-! ### Transitions -/

/-- The lengths of the transition fit in the four bytes they are written in. -/
structure Transition.Sized (t : Transition) : Prop where
  devices : t.devices.length < 256 ^ 4
  newCertificates : t.newCertificates.length < 256 ^ 4
  names : ∀ e ∈ t.devices, e.name.bytes.length < 256 ^ 4

def Transition.authorizedAs (t u : Transition) : Transition :=
  { t with authorization := u.authorization }

/-- **The bytes of a transition say it**, and where they end. -/
theorem canonical_append_inj (ht : t.Sized) (hu : u.Sized)
    (h : t.canonical ++ r = u.canonical ++ s) : t.authorizedAs u = u ∧ r = s := by
  have hkinds : Function.Injective TransitionKind.code := by
    intro a b
    cases a <;> cases b <;> decide
  simp only [Transition.canonical, append_assoc, identity_append_inj_iff, Octets.append_inj_iff,
    u64_append_inj_iff, leBytes_append_inj_iff (w := 2) t.version.toNat_lt u.version.toNat_lt] at h
  obtain ⟨hver, hacc, hpar, hpgen, hgen, hepo, hid, h⟩ := h
  have hrid : t.recoveryId = u.recoveryId := by
    cases ht' : t.recoveryId <;> cases hu' : u.recoveryId <;>
      simp [ht', hu', Octets.append_inj_iff] at h ⊢
    exact h.1
  rw [hrid] at h
  replace h := append_cancel_left h
  obtain ⟨hkind, h⟩ := cons.inj h
  obtain ⟨hlen, h⟩ := (leBytes_append_inj_iff ht.devices hu.devices).mp h
  obtain ⟨hdev, h⟩ := flatMap_inj (fun a ha b hb => entry_append_inj (ht.names a ha)
    (hu.names b hb)) hlen h
  obtain ⟨hlen, h⟩ := (leBytes_append_inj_iff ht.newCertificates hu.newCertificates).mp h
  obtain ⟨hcert, hrest⟩ := flatMap_inj (fun a _ b _ _ _ h => certificate_append_inj (by
    simpa only [append_assoc] using h)) hlen h
  exact ⟨(Transition.mk.injEq ..).mpr ⟨UInt16.toNat_inj.mp hver, hacc, hpar, hpgen, hgen, hepo, hid,
    hrid, hkinds hkind, hdev, hcert, rfl⟩, hrest⟩

/-- What is hashed behind the canonical bytes. -/
def Authorization.bytes : Authorization → Bytes
  | .devices signatures =>
    1 :: leBytes 4 signatures.length ++
      signatures.flatMap fun s => s.signer.toBytes ++ s.signature.toBytes
  | .root signature => 2 :: signature.toBytes

theorem authorization_bytes_inj {a b : Authorization} (h : a.bytes = b.bytes) : a = b := by
  cases a with
  | devices as =>
    cases b with
    | devices bs =>
      obtain ⟨-, h⟩ := append_inj (cons.inj h).2 (by simp)
      have hlen := congrArg length h
      simp only [length_flatMap, length_append, Octets.length_toBytes, map_const',
        sum_replicate_nat] at hlen
      have hcount : as.length = bs.length := by omega
      refine congrArg _ (flatMap_inj (r := []) (s := []) (fun a _ b _ _ _ h => ?_) hcount
        (by simpa only [append_nil] using h)).1
      simp only [append_assoc, Octets.append_inj_iff] at h
      exact ⟨(Approval.mk.injEq ..).mpr ⟨h.1, h.2.1⟩, h.2.2⟩
    | root => cases (cons.inj h).1
  | root signature =>
    cases b with
    | devices => cases (cons.inj h).1
    | root => rw [Octets.ext (cons.inj h).2]

variable {S : Suite} {log : Octets 32 → SignatureDomain → Bytes → Prop} {B : Set Bytes}

/-- **A transition is bound by its bytes, its hash and its signatures**: two transitions whose
lengths fit in four bytes have the same canonical bytes only if they agree up to their
authorization, the same hash only if they are equal, and a key that signed nothing but the one has
no signature for another. -/
theorem transition_bound (hsha : B.InjOn S.sha256) (hS : S.Unforgeable log) (ht : t.Sized)
    (hu : u.Sized) :
    (t.canonical = u.canonical → t.authorizedAs u = u) ∧
    (t.canonical ++ t.authorization.bytes ∈ B → u.canonical ++ u.authorization.bytes ∈ B →
      t.transitionHash S = u.transitionHash S → t = u) ∧
    ∀ key domain signature, (∀ message, log key domain message → message = u.canonical) →
      verifyPeerDomain S key domain t.canonical signature = .ok () → t.authorizedAs u = u := by
  have hsay (h : t.canonical = u.canonical) : t.authorizedAs u = u :=
    (canonical_append_inj (r := []) (s := []) ht hu (by rw [h])).1
  refine ⟨hsay, fun htB huB h => ?_, fun key domain signature hlog hver => ?_⟩
  · have hbytes : t.canonical ++ t.authorization.bytes = u.canonical ++ u.authorization.bytes :=
      hsha htB huB h
    obtain ⟨hsame, haut⟩ := canonical_append_inj ht hu hbytes
    rw [← hsame, Transition.authorizedAs, ← authorization_bytes_inj haut]
  · exact hsay (hlog _ (log_of_verifyPeerDomain hS hver))

namespace Sample

/-- The genesis without a root signature. -/
def unsigned : Transition := { genesis with authorization := .devices [] }

/-- The root key of account 1 has signed the genesis, and the digest is the length. -/
def lengthSuite : Suite :=
  .ofLog [(genesis.account.ed, .authorityRootTransition, genesis.canonical)] fun bytes =>
    .replicate 32 (.ofNat bytes.length)

/-- The signature of the genesis is one of its bytes under either authorization, and the hashes
differ. -/
theorem transition_bound_genesis :
    verifyPeerDomain lengthSuite genesis.account.ed .authorityRootTransition unsigned.canonical
      (.zero 64) = .ok () ∧ unsigned.authorizedAs genesis = genesis ∧
    unsigned.transitionHash lengthSuite ≠ genesis.transitionHash lengthSuite := by
  have hsized : genesis.Sized := ⟨by decide, by decide, by decide⟩
  have hsized' : unsigned.Sized := ⟨hsized.devices, hsized.newCertificates, hsized.names⟩
  have hsigned : verifyPeerDomain lengthSuite genesis.account.ed .authorityRootTransition
      unsigned.canonical (.zero 64) = .ok () := by decide +kernel
  -- The two byte strings that are hashed have different lengths.
  have hinj : Set.InjOn lengthSuite.sha256 {unsigned.canonical ++ unsigned.authorization.bytes,
      genesis.canonical ++ genesis.authorization.bytes} := by
    have hne : lengthSuite.sha256 (unsigned.canonical ++ unsigned.authorization.bytes) ≠
        lengthSuite.sha256 (genesis.canonical ++ genesis.authorization.bytes) := by decide +kernel
    rw [Set.injOn_pair]
    exact fun h => absurd h hne
  obtain ⟨-, hhash, hbound⟩ := transition_bound hinj
    (Suite.ofLog_unforgeable _ fun bytes => .replicate 32 (.ofNat bytes.length)) hsized' hsized
  refine ⟨hsigned, hbound _ _ _ (fun message hlog => ?_) hsigned, fun h => ?_⟩
  · simpa using hlog
  · exact absurd (hhash (.inl rfl) (.inr rfl) h) (by decide)

/-- What stands between the names of two rows of device 2. -/
def gap : Bytes :=
  leBytes 8 10 ++ [0, 0] ++ leBytes 4 (certificate 2).canonical.length ++
    (certificate 2).canonical ++ (certificate 2).deviceSignature.toBytes ++ leBytes 4 0

theorem validUtf8_of_ascii {bs : Bytes} (h : ∀ b ∈ bs, b < 0x80) : validUtf8 bs = true := by
  induction bs with
  | nil => rfl
  | cons b bs ih =>
    unfold validUtf8
    rw [if_pos (h b mem_cons_self)]
    exact ih fun c hc => h c (.tail _ hc)

def twoRows (name name' : Utf8) : Transition :=
  { genesis with devices := [row 2 name, row 2 name'] }

/-- Names that take the bytes between two rows in. -/
theorem canonical_twoRows {z : Bytes} (hlen : (gap ++ z).length = 256 ^ 4)
    (h : validUtf8 (gap ++ z) = true) (h' : validUtf8 (z ++ gap) = true) :
    (twoRows ⟨gap ++ z, h⟩ ⟨[], rfl⟩).canonical = (twoRows ⟨[], rfl⟩ ⟨z ++ gap, h'⟩).canonical := by
  have hlen' : (z ++ gap).length = 256 ^ 4 := by
    rw [length_append, Nat.add_comm, ← length_append, hlen]
  have hzero : leBytes 4 (256 ^ 4) = leBytes 4 0 := by decide
  simp only [twoRows, Transition.canonical, flatMap_cons, flatMap_nil, Entry.canonical, row,
    Entry.fresh, Entry.optionalBytes, hlen, hlen', hzero, length_nil]
  simp [gap]

/-- **Rows run together**: two rows whose names are of four gigabytes and of no byte. -/
theorem names_run_together : ∃ t u : Transition,
    t.canonical = u.canonical ∧ t.devices.map (·.name) ≠ u.devices.map (·.name) := by
  have hgap : gap.length = 364 := by
    simp [gap, Certificate.canonical, IdentityPublic.canonical]
  have hlen : (gap ++ replicate (256 ^ 4 - 364) 0).length = 256 ^ 4 := by
    rw [length_append, hgap, length_replicate, Nat.add_sub_of_le (by decide)]
  have hascii : ∀ b ∈ gap, b < 0x80 := by decide +kernel
  have hzero : ∀ b ∈ replicate (256 ^ 4 - 364) (0 : UInt8), b < 0x80 := by
    intro b hb
    rw [eq_of_mem_replicate hb]
    decide
  refine ⟨_, _, canonical_twoRows hlen (validUtf8_of_ascii ?_) (validUtf8_of_ascii ?_), ?_⟩
  · exact forall_mem_append.mpr ⟨hascii, hzero⟩
  · exact forall_mem_append.mpr ⟨hzero, hascii⟩
  · intro h
    have hname : (gap ++ replicate (256 ^ 4 - 364) 0).length = 0 :=
      congrArg (fun name => name.bytes.length) (cons.inj h).1
    rw [hlen] at hname
    exact absurd hname (by decide)

end Sample

end Komms.DeviceAuthority
