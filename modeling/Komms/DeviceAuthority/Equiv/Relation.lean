import Mathlib.Data.List.Zip
import Komms.DeviceAuthority.Equiv.Quorum

/-!
# The relation of manifests is coherent

What `Manifest.relation` answers for two verified manifests of one account, when the hash tells the
transitions that they are made of apart: the answer in one direction determines the answer in the
other, and a descendant is a longer history of the same recovery epoch.  At a fork the root
key has signed one of the two sides, or one active device both (`forkSigned_of_fork`).
-/

namespace Komms.DeviceAuthority

open List Option Except

section Coherent

variable {S : Suite} {T : Set Transition} {account : Option IdentityPublic} {a b c m : Manifest}

/-- A verified manifest of an account, made of transitions of `T`. -/
structure Known (S : Suite) (T : Set Transition) (account : Option IdentityPublic) (m : Manifest) :
    Prop where
  verified : m.verify S = .ok ()
  account_eq : m.account? = account
  mem : ∀ t ∈ m.transitions, t ∈ T

theorem Known.exists_current (h : Known S T account m) :
    ∃ t ∈ T, m.current? = some t ∧ t.generation.toNat = m.transitions.length := by
  obtain ⟨hlast, hcur⟩ := current?_of_verify h.verified
  refine ⟨_, h.mem _ (getElem_mem hlast), hcur, ?_⟩
  rw [(history_of_verify h.verified).generation _ hlast]
  omega

/-- What `relation` asks of two manifests before it compares them. -/
theorem Known.checked (ha : Known S T account a) (hb : Known S T account b)
    {r : Except CryptoError Relation} : (do
      a.verify S
      b.verify S
      rejectIf (a.account? ≠ b.account?) .invalidKey
      r) = r := by
  rw [ha.verified, hb.verified, ha.account_eq, hb.account_eq, ok_bind, ok_bind,
    rejectIf_bind_of_not (not_not.mpr rfl)]

/-! ### Recovery anchors -/

theorem exists_recovery (h : m.verify S = .ok ()) (i : ℕ) (hi : i < m.transitions.length)
    (hpos : m.transitions[i].recoveryEpoch ≠ 0) : ∃ t ∈ m.transitions,
      t.recoveryEpoch = m.transitions[i].recoveryEpoch ∧ t.kind = .recovery := by
  induction i with
  | zero =>
    obtain ⟨-, ⟨g, hg, hgen⟩, -⟩ := verify_eq_ok_iff.mp h
    obtain rfl := mem_unique (getElem_zero_mem_head? hi) hg
    exact absurd (verifyGenesis_eq_ok hgen).2.2 hpos
  | succ i ih =>
    by_cases hk : m.transitions[i + 1].kind = .recovery
    · exact ⟨_, getElem_mem hi, rfl, hk⟩
    · rw [(history_of_verify h).ordinary i hi hk] at hpos ⊢
      exact ih (by omega) hpos

theorem recoveryAnchor_of_isPrefix (ha : Known S T account a)
    (hp : a.transitions <+: b.transitions) (hpos : a.recoveryEpoch ≠ 0) :
    recoveryAnchor S a a.recoveryEpoch = recoveryAnchor S b a.recoveryEpoch := by
  obtain ⟨t, -, hcur, -⟩ := ha.exists_current
  have hepo : a.recoveryEpoch = t.recoveryEpoch := by simp [Manifest.recoveryEpoch, hcur]
  obtain ⟨i, hi, rfl⟩ := mem_iff_getElem.mp (mem_of_getLast? hcur)
  rw [hepo] at hpos ⊢
  obtain ⟨u, hu, hrec⟩ := exists_recovery ha.verified i hi hpos
  have hsome : (a.transitions.find? fun t =>
      t.recoveryEpoch = a.transitions[i].recoveryEpoch ∧ t.kind = .recovery).isSome :=
    find?_isSome.mpr ⟨u, hu, decide_eq_true hrec⟩
  obtain ⟨v, hv⟩ := isSome_iff_exists.mp hsome
  simp only [recoveryAnchor, if_neg hpos, hv, hp.find?_eq_some hv]

/-! ### Common prefixes -/

theorem length_takeWhile_zip_eq_iff {α β : Type} [DecidableEq β] {f : α → β} {l r : List α}
    (hf : ∀ x ∈ l, ∀ y ∈ r, f x = f y → x = y) :
    ((l.zip r).takeWhile fun p => f p.1 = f p.2).length = l.length ↔ l <+: r := by
  induction l generalizing r with
  | nil => simp
  | cons x l ih =>
    cases r with
    | nil => simp
    | cons y r =>
      have hrest := ih fun u hu v hv => hf u (.tail _ hu) v (.tail _ hv)
      rw [zip_cons_cons, takeWhile_cons, cons_prefix_cons, ← hrest]
      by_cases h : f x = f y
      · simp [hf x (.head _) y (.head _) h]
      · have hxy : x ≠ y := fun he => h (congrArg f he)
        simp [h, hxy]

theorem commonPrefixLen_comm : commonPrefixLen S a b = commonPrefixLen S b a := by
  unfold commonPrefixLen
  rw [← zip_swap, takeWhile_map, length_map]
  simp only [Function.comp_def, Prod.fst_swap, Prod.snd_swap, eq_comm]

/-! ### Both directions -/

/-- The answer that the other side gets. -/
def Relation.dual : Relation → Relation
  | .descendant => .stale
  | .stale => .descendant
  | .recoverySupersedes => .oldEpoch
  | .oldEpoch => .recoverySupersedes
  | r => r

variable (hT : T.InjOn (Transition.transitionHash S)) (ha : Known S T account a)
  (hb : Known S T account b)
include hT ha hb

theorem commonPrefixLen_eq_iff : commonPrefixLen S a b = a.transitions.length ↔
    a.transitions <+: b.transitions :=
  length_takeWhile_zip_eq_iff fun s hs t ht h => hT (ha.mem s hs) (hb.mem t ht) h

theorem stateId_eq_iff : a.stateId S = b.stateId S ↔ a.current? = b.current? := by
  obtain ⟨s, hs, hca, -⟩ := ha.exists_current
  obtain ⟨t, ht, hcb, -⟩ := hb.exists_current
  simp only [Manifest.stateId, hca, hcb, map_some, getD_some, hT.eq_iff hs ht, some.injEq]

theorem stateId_eq_iff_of_isPrefix (hp : a.transitions <+: b.transitions) :
    a.stateId S = b.stateId S ↔ a.transitions.length = b.transitions.length := by
  rw [stateId_eq_iff hT ha hb]
  constructor
  · intro hcur
    obtain ⟨s, -, hca, hla⟩ := ha.exists_current
    obtain ⟨t, -, hcb, hlb⟩ := hb.exists_current
    rw [hca, hcb, some.injEq] at hcur
    rw [← hla, ← hlb, hcur]
  · intro hlen
    rw [Manifest.current?, Manifest.current?, hp.eq_of_length hlen]

theorem relation_dual {r : Relation} (h : a.relation S b = .ok r) :
    b.relation S a = .ok r.dual := by
  have hsame (hl : commonPrefixLen S a b = a.transitions.length)
      (hr : commonPrefixLen S a b = b.transitions.length) : a.stateId S = b.stateId S :=
    (stateId_eq_iff_of_isPrefix hT ha hb ((commonPrefixLen_eq_iff hT ha hb).mp hl)).mpr
      (hl.symm.trans hr)
  rw [Manifest.relation, ha.checked hb, ok.injEq] at h
  rw [Manifest.relation, hb.checked ha]
  rw [commonPrefixLen_comm, ← h]
  grind [Relation.dual]

/-- A descendant is a strictly longer history within the epoch. -/
theorem relation_eq_descendant_iff : a.relation S b = .ok .descendant ↔
    a.transitions <+: b.transitions ∧ a.transitions.length < b.transitions.length ∧
      a.recoveryEpoch = b.recoveryEpoch := by
  have hpre := commonPrefixLen_eq_iff hT ha hb
  rw [Manifest.relation, ha.checked hb, ok.injEq]
  constructor
  · intro h
    split_ifs at h with hid hgt hlt hanc hcom
    have hp := hpre.mp hcom
    refine ⟨hp, lt_of_le_of_ne hp.length_le ?_, UInt64.le_antisymm
      (UInt64.not_lt.mp hlt) (UInt64.not_lt.mp hgt)⟩
    exact mt (stateId_eq_iff_of_isPrefix hT ha hb hp).mpr hid
  · rintro ⟨hp, hlen, hepo⟩
    have hid := mt (stateId_eq_iff_of_isPrefix hT ha hb hp).mp hlen.ne
    have hanc : ¬ (a.recoveryEpoch > 0 ∧ recoveryAnchor S a a.recoveryEpoch ≠
        recoveryAnchor S b b.recoveryEpoch) := by
      rintro ⟨hpos, hne⟩
      rw [← hepo] at hne
      exact hne (recoveryAnchor_of_isPrefix ha hp (UInt64.ne_of_lt hpos).symm)
    rw [if_neg hid, if_neg (hepo ▸ UInt64.lt_irrefl _), if_neg (hepo ▸ UInt64.lt_irrefl _),
      if_neg hanc, if_pos (hpre.mpr hp)]

theorem relation_eq_same_iff : a.relation S b = .ok .same ↔ a.current? = b.current? := by
  rw [← stateId_eq_iff hT ha hb]
  rw [Manifest.relation, ha.checked hb, ok.injEq]
  split_ifs <;> simp_all

omit hT in
theorem existsUnique_relation : ∃! r, a.relation S b = .ok r := by
  rw [Manifest.relation, ha.checked hb]
  simp only [ok.injEq, existsUnique_eq']

omit ha hb in
/-- **The relation is coherent.** For verified manifests of one account whose transitions the hash
tells apart: one relation holds; it is `same` for those that end in one transition, and `descendant`
for a strict extension within the epoch; the other direction is the dual; and descendants of
descendants are descendants. -/
theorem relation_coherent :
    (∀ a b : Manifest, Known S T account a → Known S T account b →
      (∃! r, a.relation S b = .ok r) ∧
      (a.relation S b = .ok .same ↔ a.current? = b.current?) ∧
      (a.relation S b = .ok .descendant ↔ b.relation S a = .ok .stale) ∧
      (a.relation S b = .ok .descendant ↔ a.transitions <+: b.transitions ∧
        a.transitions.length < b.transitions.length ∧ a.recoveryEpoch = b.recoveryEpoch) ∧
      (a.relation S b = .ok .recoverySupersedes ↔ b.relation S a = .ok .oldEpoch) ∧
      (a.relation S b = .ok .fork ↔ b.relation S a = .ok .fork) ∧
      (a.relation S b = .ok .recoveryConflict ↔ b.relation S a = .ok .recoveryConflict)) ∧
    ∀ a b c : Manifest, Known S T account a → Known S T account b → Known S T account c →
      a.relation S b = .ok .descendant → b.relation S c = .ok .descendant →
        a.relation S c = .ok .descendant := by
  constructor
  · intro a b ha hb
    exact ⟨existsUnique_relation ha hb, relation_eq_same_iff hT ha hb,
      ⟨relation_dual hT ha hb, relation_dual hT hb ha⟩, relation_eq_descendant_iff hT ha hb,
      ⟨relation_dual hT ha hb, relation_dual hT hb ha⟩,
      ⟨relation_dual hT ha hb, relation_dual hT hb ha⟩,
      ⟨relation_dual hT ha hb, relation_dual hT hb ha⟩⟩
  · intro a b c ha hb hc hab hbc
    obtain ⟨hp, hlen, hepo⟩ := (relation_eq_descendant_iff hT ha hb).mp hab
    obtain ⟨hp', hlen', hepo'⟩ := (relation_eq_descendant_iff hT hb hc).mp hbc
    exact (relation_eq_descendant_iff hT ha hc).mpr
      ⟨hp.trans hp', hlen.trans hlen', hepo.trans hepo'⟩

end Coherent

/-! ### Forks -/

section Forks

variable {S : Suite} {T : Set Transition} {account : Option IdentityPublic} {a b m : Manifest}
  {t : Transition} {log : Octets 32 → SignatureDomain → Bytes → Prop}

/-- The root key of the account has signed the transition. -/
def RootSigned (log : Octets 32 → SignatureDomain → Bytes → Prop) (t : Transition) : Prop :=
  log t.account.ed .authorityRootTransition t.canonical

theorem rootSigned_of_authorization (hS : S.Unforgeable log)
    (h : (match t.authorization with
      | .root signature => t.account.verifyDomain S .authorityRootTransition t.canonical signature
      | .devices _ => .error .invalidMessage) = .ok ()) : RootSigned log t := by
  split at h
  · exact log_of_verifyPeerDomain hS h
  · cases h

/-- Every transition of a verified manifest has been signed by the root or approved by devices. -/
theorem rootSigned_or_approved (hS : S.Unforgeable log) (hm : m.verify S = .ok ())
    {p l : List Transition} (hcut : m.transitions = p ++ t :: l) :
    RootSigned log t ∨ ∃ parent ∈ p.getLast?, Approved S parent t := by
  obtain ⟨-, ⟨g, hg, hgen⟩, hchain⟩ := verify_eq_ok_iff.mp hm
  rw [hcut] at hg hchain
  obtain rfl | ⟨q, parent, rfl⟩ := eq_nil_or_concat' p
  · cases hg
    simp only [verifyGenesis, check_bind_eq_ok_iff] at hgen
    exact .inl (rootSigned_of_authorization hS hgen.2.2)
  · rw [append_assoc, isChain_append] at hchain
    have hver := (isChain_cons_cons.mp hchain.2.1).1
    obtain ⟨-, hrec⟩ | ⟨hk, -⟩ := verifyTransition_eq_ok hver
    · simp only [verifyRecovery, check_bind_eq_ok_iff] at hrec
      exact .inl (rootSigned_of_authorization hS hrec.2.2)
    · exact .inr ⟨parent, getLast?_concat, approved_of_verifyTransition hver hk⟩

theorem exists_first_difference {α : Type} {l r : List α} (hl : ¬ l <+: r) (hr : ¬ r <+: l) :
    ∃ p x y l' r', l = p ++ x :: l' ∧ r = p ++ y :: r' ∧ x ≠ y := by
  induction l generalizing r with
  | nil => exact absurd nil_prefix hl
  | cons x l ih =>
    cases r with
    | nil => exact absurd nil_prefix hr
    | cons y r =>
      by_cases h : x = y
      · rw [h, prefix_cons_inj] at hl hr
        obtain ⟨p, u, v, l', r', rfl, rfl, hne⟩ := ih hl hr
        exact ⟨y :: p, u, v, l', r', by rw [h]; rfl, rfl, hne⟩
      · exact ⟨[], x, y, l, r, rfl, rfl, h⟩

/-- Where two histories part, the root key has signed one side, or a device that is active in the
last state they share has signed both: two changes, or one under two sets of approvals. -/
def ForkSigned (log : Octets 32 → SignatureDomain → Bytes → Prop) (a b : Manifest) : Prop :=
  ∃ p t u l r, a.transitions = p ++ t :: l ∧ b.transitions = p ++ u :: r ∧ t ≠ u ∧
    (RootSigned log t ∨ RootSigned log u ∨ ∃ parent ∈ p.getLast?,
      ∃ id ∈ activeIds parent.devices, log id .authorityTransition t.canonical ∧
        log id .authorityTransition u.canonical)

/-- **Every fork has a signer.** -/
theorem forkSigned_of_fork (hS : S.Unforgeable log) (hT : T.InjOn (Transition.transitionHash S))
    (ha : Known S T account a) (hb : Known S T account b) (h : a.relation S b = .ok .fork) :
    ForkSigned log a b := by
  rw [Manifest.relation, ha.checked hb, ok.injEq] at h
  split_ifs at h with _ _ _ _ hl hr
  rw [commonPrefixLen_eq_iff hT ha hb] at hl
  rw [commonPrefixLen_comm, commonPrefixLen_eq_iff hT hb ha] at hr
  obtain ⟨p, t, u, l, r, hta, hub, hne⟩ := exists_first_difference hl hr
  refine ⟨p, t, u, l, r, hta, hub, hne, ?_⟩
  obtain hroot | ⟨parent, hpar, h₁⟩ := rootSigned_or_approved hS ha.verified hta
  · exact .inl hroot
  obtain hroot | ⟨_, hpar', h₂⟩ := rootSigned_or_approved hS hb.verified hub
  · exact .inr (.inl hroot)
  obtain rfl := mem_unique hpar hpar'
  obtain ⟨id, hid₁, hid₂⟩ := exists_common_signer h₁ h₂
  obtain ⟨_, hsig₁⟩ := h₁.signed id hid₁
  obtain ⟨_, hsig₂⟩ := h₂.signed id hid₂
  exact .inr (.inr ⟨parent, hpar, id, h₁.active id hid₁, log_of_verifyPeerDomain hS hsig₁,
    log_of_verifyPeerDomain hS hsig₂⟩)

end Forks

namespace Sample

/-- A suite that accepts every signature and hashes to the length. -/
def measuring : Suite :=
  .ofSigned (fun _ _ => true) fun bytes => .replicate 32 (.ofNat bytes.length)

/-- The rename, on the hash of its parent. -/
def measured : Transition := { renamed nameB with parentHash := genesis.transitionHash measuring }

/-- The account before its rename has the account after it as a descendant, and is stale for it. -/
theorem relation_coherent_renamed :
    Manifest.relation measuring ⟨[genesis]⟩ ⟨[genesis, measured]⟩ = .ok .descendant ∧
    Manifest.relation measuring ⟨[genesis, measured]⟩ ⟨[genesis]⟩ = .ok .stale := by
  have hT : Set.InjOn (Transition.transitionHash measuring) {genesis, measured} := by
    rw [Set.injOn_pair]
    exact fun h => absurd h (by decide +kernel)
  have ha : Known measuring {genesis, measured} (some genesis.account) ⟨[genesis]⟩ :=
    ⟨by decide +kernel, rfl, by simp⟩
  have hb : Known measuring {genesis, measured} (some genesis.account) ⟨[genesis, measured]⟩ :=
    ⟨by decide +kernel, rfl, by simp⟩
  obtain ⟨-, -, hstale, hdescriptor, -⟩ := (relation_coherent hT).1 _ _ ha hb
  have h := hdescriptor.mpr ⟨⟨[measured], rfl⟩, by decide, by decide +kernel⟩
  exact ⟨h, hstale.mp h⟩

/-- What the keys have signed, hashed to the letter that is in the name. -/
def spelling : Suite := .ofLog signatures fun bytes => .replicate 32 (bytes.getD 562 0 - 0x61)

/-- Device 2 has signed both of its new names. -/
theorem renames_forkSigned :
    ForkSigned (fun key domain message => (key, domain, message) ∈ signatures)
    ⟨[genesis, renamed nameB]⟩ ⟨[genesis, renamed nameC]⟩ := by
  let all := [genesis, renamed nameB, renamed nameC]
  have hT : ∀ t ∈ all, ∀ u ∈ all, t.transitionHash spelling = u.transitionHash spelling →
      t = u := by
    decide +kernel
  exact forkSigned_of_fork (T := {t | t ∈ all})
    (Suite.ofLog_unforgeable signatures _) (fun t ht u hu => hT t ht u hu)
    ⟨by decide +kernel, rfl, by simp [all]⟩ ⟨by decide +kernel, rfl, by simp [all]⟩
    (by decide +kernel)

end Sample

end Komms.DeviceAuthority
