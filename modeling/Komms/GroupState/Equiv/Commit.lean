import Mathlib.Data.List.Dedup
import Komms.GroupState.Plan

/-!
# Group rows stay consistent

A store is `Sound` when its receiver chains and authority records belong to groups it holds, chains
to members, its group records are valid, and there are not too many groups.

* `Accepted`: what a plan that passed the validator says about the store.
* `Accepted.sound`: writing such a plan keeps the store sound, for every mix of changes.
* `writeGroupState_eq_ok_iff`: when the writer goes through with an accepted plan.  The writer
  refuses a new group in a full profile at each write, the validator counts the groups after all of
  them; so an accepted plan that deletes a group after it creates one can be refused (`Writable`).
-/

namespace Komms.GroupState

open Komms.Group (GroupAuthorityRecord)
open List Except Change

variable {C : Codec} {s s' : Store} {plan : GroupStatePlan} {tx : Octets 16}

/-- The rows about groups fit together. -/
structure Sound (s : Store) : Prop where
  valid : ∀ id group, s.groups.lookup id = some group → group.Valid
  chain : ∀ id peer blob, s.chains.lookup (id, peer) = some blob →
    ∃ group, s.groups.lookup id = some group ∧ group.listed peer
  authority : ∀ id authority, s.authorities.lookup id = some authority →
    ∃ group, s.groups.lookup id = some group
  count : HashMap.len s.groups ≤ maxProfileGroups

/-- Every row the plan names held its value before and holds its value after; no other row
changed. -/
structure Exact (plan : GroupStatePlan) (tx : Octets 16) (s s' : Store) : Prop where
  groups : Change.Applied plan.groupChanges s.groups s'.groups
  chains : Change.Applied plan.chainChanges s.chains s'.chains
  contacts : Change.Applied plan.contactChanges s.contacts s'.contacts
  authorities : Change.Applied plan.authorityChanges s.authorities s'.authorities
  controls : Change.Applied plan.controlChanges s.controls s'.controls
  presentationMarker : s'.presentationMarker =
    if plan.presentationChanged then some tx else s.presentationMarker

/-! ### What the validator has checked -/

theorem RowTransition.key?_eq_ok {α : Type} [DecidableEq α] {key : α → Octets 32}
    {t : RowTransition α} {k : Octets 32} (h : t.key? key = .ok k) :
    t.key key = k ∧ (∀ a ∈ t.before, key a = k) ∧ (∀ a ∈ t.after, key a = k) ∧
      t.before ≠ t.after := by
  obtain ⟨_ | b, _ | a⟩ := t
  · cases h
  · cases h
    simp [RowTransition.key]
  · cases h
    simp [RowTransition.key]
  · simp only [key?, check_bind_eq_ok_iff, rejectIf_eq_ok_iff, not_or, ne_eq, not_not] at h
    obtain ⟨⟨hne, hkey⟩, h⟩ := h
    cases h
    simp [RowTransition.key, hne, hkey]

/-- What a validated plan says about the store. -/
structure Accepted (s : Store) (plan : GroupStatePlan) : Prop where
  nonempty : plan.groups ≠ [] ∨ plan.chains ≠ [] ∨ plan.contacts ≠ [] ∨ plan.authorities ≠ [] ∨
    plan.deleteControls ≠ []
  groupKeys : (plan.groups.map (RowTransition.key GroupRecord.id)).Nodup
  groups : ∀ t ∈ plan.groups, (t.key? GroupRecord.id = .ok (t.key GroupRecord.id)) ∧
    s.groups.lookup (t.key GroupRecord.id) = t.before ∧ ∀ group ∈ t.after, group.Valid
  limit : HashMap.len s.groups + plan.groups.countP (fun t => t.before.isNone && t.after.isSome) -
    plan.groups.countP (fun t => t.before.isSome && t.after.isNone) ≤ maxProfileGroups
  chainKeys : (plan.chains.map fun t => (t.group, t.peer)).Nodup
  chains : ∀ t ∈ plan.chains, t.before ≠ t.after ∧ s.chains.lookup (t.group, t.peer) = t.before
  contactKeys : (plan.contacts.map fun t => t.after.peer).Nodup
  contacts : ∀ t ∈ plan.contacts, t.before ≠ some t.after ∧
    s.contacts.lookup t.after.peer = t.before
  authorityKeys : (plan.authorities.map (RowTransition.key GroupAuthorityRecord.group)).Nodup
  authorities : ∀ t ∈ plan.authorities,
    (t.key? GroupAuthorityRecord.group = .ok (t.key GroupAuthorityRecord.group)) ∧
    s.authorities.lookup (t.key GroupAuthorityRecord.group) = t.before
  controlKeys : (plan.deleteControls.map DeferredControlRecord.contentId).Nodup
  controls : ∀ control ∈ plan.deleteControls,
    s.controls.lookup control.contentId = some control
  finalGroups : ∀ t ∈ plan.groups, checkFinalGroup s plan t = .ok ()
  finalChains : ∀ t ∈ plan.chains, checkFinalChain s plan t = .ok ()
  finalAuthorities : ∀ t ∈ plan.authorities, checkFinalAuthority s plan t = .ok ()

/-- What an accepted plan fulfils. -/
theorem validateGroupState_eq_ok (h : validateGroupState s plan = .ok ()) : Accepted s plan := by
  simp only [validateGroupState, check_bind_eq_ok_iff, rejectIf_eq_ok_iff, forEach_eq_ok_iff] at h
  obtain ⟨hcnt, hgrps, hlim, hchain, hcon, hauth, hcont, hfg, hfc, hfa⟩ := h
  obtain ⟨hgrps, hgk⟩ :=
    forEachDistinct_eq_ok (fun _ _ h => (RowTransition.key?_eq_ok h).1) hgrps
  obtain ⟨hchain, hchainK⟩ :=
    forEachDistinct_eq_ok (fun _ _ => ok.inj) hchain
  obtain ⟨hcon, hcontact⟩ :=
    forEachDistinct_eq_ok (fun _ _ => ok.inj) hcon
  obtain ⟨hauth, haut⟩ :=
    forEachDistinct_eq_ok (fun _ _ h => (RowTransition.key?_eq_ok h).1) hauth
  simp only [checkGroupLimit, check_bind_eq_ok_iff, rejectIf_eq_ok_iff, not_lt] at hlim
  simp only [checkControls, check_bind_eq_ok_iff, rejectIf_eq_ok_iff, not_not, ne_eq,
    forEach_eq_ok_iff] at hcont
  simp only [decide_eq_false_iff_not, not_or, ne_eq, not_not, not_exists, not_and]
    at hgrps hchain hcon hauth
  refine ⟨?_, hgk, fun t ht => ?_, hlim.2, hchainK, fun t ht => ?_, hcontact, fun t ht => ?_, haut,
    fun t ht => ?_, hcont.1, hcont.2, hfg, hfc, hfa⟩
  -- A plan that changes nothing is refused by its count.
  · by_contra hnone
    simp only [ne_eq, not_or, not_not] at hnone
    obtain ⟨h1, h2, h3, h4, h5⟩ := hnone
    exact hcnt (.inl (by simp [h1, h2, h3, h4, h5]))
  · obtain ⟨hkey, ⟨hlk, hval⟩, -⟩ := hgrps t ht
    exact ⟨hkey, hlk, hval⟩
  · obtain ⟨-, ⟨-, hne, -, -, hlk⟩, -⟩ := hchain t ht
    exact ⟨hne, hlk⟩
  · obtain ⟨-, ⟨hne, -, -, -, hlk⟩, -⟩ := hcon t ht
    exact ⟨hne, hlk⟩
  · obtain ⟨hkey, ⟨hlk, -⟩, -⟩ := hauth t ht
    exact ⟨hkey, hlk⟩

/-! ### The checks across tables -/

theorem mem_chainPeers {id peer : Octets 32} {blob : Bytes}
    (h : s.chains.lookup (id, peer) = some blob) : peer ∈ s.chainPeers id := by
  have hentry : ⟨(id, peer), blob⟩ ∈ s.chains.entries :=
    AList.mem_lookup_iff.mp h
  exact mem_map.mpr ⟨_, mem_filter.mpr ⟨hentry, decide_eq_true rfl⟩, rfl⟩

variable {t : GroupStateTransition}

theorem checkFinalGroup_some {final : GroupRecord} (h : checkFinalGroup s plan t = .ok ())
    (haft : t.after = some final) :
    ∀ peer ∈ s.chainPeers (t.key GroupRecord.id),
      removesChain plan (t.key GroupRecord.id) peer ∨ final.listed peer := by
  simp only [checkFinalGroup, haft, forEach_eq_ok_iff, rejectIf_eq_ok_iff, not_and, not_not] at h
  intro peer hpeer
  by_cases hrem : removesChain plan (t.key GroupRecord.id) peer
  · exact .inl hrem
  · exact .inr (h peer hpeer hrem)

theorem checkFinalGroup_none (h : checkFinalGroup s plan t = .ok ()) (haft : t.after = none) :
    (∀ peer ∈ s.chainPeers (t.key GroupRecord.id), removesChain plan (t.key GroupRecord.id) peer) ∧
    (∀ c ∈ plan.chains, c.group = t.key GroupRecord.id → c.after = none) ∧
    ((s.authorities.lookup (t.key GroupRecord.id)).isSome = true → ∃ a ∈ plan.authorities,
      a.key GroupAuthorityRecord.group = t.key GroupRecord.id ∧ a.after = none) := by
  simp only [checkFinalGroup, haft, check_bind_eq_ok_iff, rejectIf_eq_ok_iff, not_or, ne_eq,
    not_not, not_exists, not_and] at h
  obtain ⟨⟨-, hpeers, hchain⟩, hauth⟩ := h
  refine ⟨fun peer hpeer => ?_, hchain, fun hsome => ?_⟩
  · obtain ⟨c, hc, rfl⟩ := mem_map.mp (mem_dedup.mp (hpeers peer hpeer))
    obtain ⟨hmem, hcond⟩ := mem_filter.mp hc
    obtain ⟨hgrp, hnone⟩ := of_decide_eq_true hcond
    exact ⟨c, hmem, hgrp, rfl, hnone⟩
  · rw [hauth, find?_isSome] at hsome
    obtain ⟨a, ha, hcond⟩ := hsome
    obtain ⟨⟨_, hbef, hgrp⟩, hnone⟩ := of_decide_eq_true hcond
    rw [Option.mem_def] at hbef
    refine ⟨a, ha, ?_, hnone⟩
    simp only [RowTransition.key, hbef, Option.some_or, Option.map_some, Option.getD_some, hgrp]

theorem Accepted.key_eq (h : Accepted s plan) (ht : t ∈ plan.groups) {group : GroupRecord}
    (haft : t.after = some group) : t.key GroupRecord.id = group.id :=
  ((RowTransition.key?_eq_ok (h.groups t ht).1).2.2.1 group haft).symm

/-! ### The store after the plan -/

/-- The store with every change of the plan written. -/
def written (plan : GroupStatePlan) (tx : Octets 16) (s : Store) : Store where
  groups := Change.writeAll plan.groupChanges s.groups
  chains := Change.writeAll plan.chainChanges s.chains
  contacts := Change.writeAll plan.contactChanges s.contacts
  authorities := Change.writeAll plan.authorityChanges s.authorities
  controls := Change.writeAll plan.controlChanges s.controls
  presentationMarker := if plan.presentationChanged then some tx else s.presentationMarker

section Keys

variable (h : Accepted s plan)
include h

theorem Accepted.planned_groups : Change.Planned plan.groupChanges s.groups :=
  .of_map h.groupKeys fun t ht => ⟨(RowTransition.key?_eq_ok (h.groups t ht).1).2.2.2,
    (h.groups t ht).2.1⟩

theorem Accepted.planned_chains : Change.Planned plan.chainChanges s.chains :=
  .of_map h.chainKeys h.chains

theorem Accepted.planned_contacts : Change.Planned plan.contactChanges s.contacts :=
  .of_map h.contactKeys h.contacts

theorem Accepted.planned_authorities : Change.Planned plan.authorityChanges s.authorities :=
  .of_map h.authorityKeys fun t ht => ⟨(RowTransition.key?_eq_ok (h.authorities t ht).1).2.2.2,
    (h.authorities t ht).2⟩

theorem Accepted.planned_controls : Change.Planned plan.controlChanges s.controls :=
  .of_map h.controlKeys fun c hc => ⟨Option.some_ne_none c, h.controls c hc⟩

/-- **An accepted plan finds what it expects and leaves what it says.** -/
theorem Accepted.exact : Exact plan tx s (written plan tx s) where
  groups := applied_writeAll h.planned_groups
  chains := applied_writeAll h.planned_chains
  contacts := applied_writeAll h.planned_contacts
  authorities := applied_writeAll h.planned_authorities
  controls := applied_writeAll h.planned_controls
  presentationMarker := rfl

end Keys

section Preservation

variable (h : Accepted s plan) (hs : Sound s) (he : Exact plan tx s s')

include he in
theorem Exact.group_cases (id : Octets 32) :
    (∃ t ∈ plan.groups, t.key GroupRecord.id = id ∧ s.groups.lookup id = t.before ∧
      s'.groups.lookup id = t.after) ∨
    (∀ t ∈ plan.groups, t.key GroupRecord.id ≠ id) ∧
      s'.groups.lookup id = s.groups.lookup id := by
  rcases he.groups.cases id with ⟨c, hc, hrest⟩ | ⟨hnone, hsame⟩
  · obtain ⟨t, ht, rfl⟩ := mem_map.mp hc
    exact .inl ⟨t, ht, hrest⟩
  · exact .inr ⟨fun t ht => hnone _ (mem_map_of_mem ht), hsame⟩

include h hs he

theorem Accepted.chain_sound (id peer : Octets 32) (blob : Bytes)
    (hblob : s'.chains.lookup (id, peer) = some blob) :
    ∃ group, s'.groups.lookup id = some group ∧ group.listed peer := by
  rcases he.chains.cases (id, peer) with ⟨c, hc, hkey, -, haft⟩ | ⟨hnone, hsame⟩
  · -- The plan writes this chain, for a member of the final group.
    obtain ⟨t, ht, rfl⟩ := mem_map.mp hc
    cases hkey
    have hwr : t.after = some blob := haft.symm.trans hblob
    have hfin := h.finalChains t ht
    simp only [checkFinalChain, hwr, bind_eq_ok_iff, required_eq_ok_iff, rejectIf_eq_ok_iff,
      not_not] at hfin
    obtain ⟨group, hgrp, hls⟩ := hfin
    refine ⟨group, ?_, hls⟩
    unfold finalGroup at hgrp
    cases hplan : plan.groups.findSome? fun u => u.after.filter fun g => g.id = t.group with
    | some g =>
      rw [hplan, Option.some_or] at hgrp
      cases hgrp
      obtain ⟨u, hu, hfil⟩ := exists_of_findSome?_eq_some hplan
      obtain ⟨haft', hid⟩ := Option.filter_eq_some_iff.mp hfil
      have hkey' : u.key GroupRecord.id = t.group :=
        (h.key_eq hu haft').trans (of_decide_eq_true hid)
      rw [← hkey', ← haft']
      exact he.groups.after _ (mem_map_of_mem hu)
    | none =>
      rw [hplan, Option.none_or] at hgrp
      rcases he.group_cases t.group with ⟨u, hu, hukey, -, hlk⟩ | ⟨-, hlk⟩
      · cases hua : u.after with
        | some g =>
          have hid : g.id = t.group := (h.key_eq hu hua).symm.trans hukey
          have hnone := findSome?_eq_none_iff.mp hplan u hu
          rw [hua, Option.filter_some, if_pos (decide_eq_true hid)] at hnone
          cases hnone
        | none =>
          -- A deleted group gets no chain.
          have hno := (checkFinalGroup_none (h.finalGroups u hu) hua).2.1 t ht hukey.symm
          rw [hno] at hwr
          cases hwr
      · rw [hlk, hgrp]
  · -- A chain that stays.
    rw [hsame] at hblob
    obtain ⟨group, hgrp, hls⟩ := hs.chain id peer blob hblob
    have hkept : ¬ removesChain plan id peer := by
      rintro ⟨c, hc, rfl, rfl, -⟩
      exact hnone _ (mem_map_of_mem hc) rfl
    rcases he.group_cases id with ⟨u, hu, rfl, -, hlk⟩ | ⟨-, hlk⟩
    · cases hua : u.after with
      | some final =>
        have hmem := checkFinalGroup_some (h.finalGroups u hu) hua peer (mem_chainPeers hblob)
        exact ⟨final, hlk.trans hua, hmem.resolve_left hkept⟩
      | none =>
        exact absurd ((checkFinalGroup_none (h.finalGroups u hu) hua).1 peer (mem_chainPeers hblob))
          hkept
    · exact ⟨group, hlk.trans hgrp, hls⟩

/-- After a commit every authority row has its group row. -/
theorem Accepted.authority_sound (id : Octets 32) (authority : GroupAuthorityRecord)
    (hauth : s'.authorities.lookup id = some authority) :
    ∃ group, s'.groups.lookup id = some group := by
  rcases he.authorities.cases id with ⟨c, hc, hkey, -, haft⟩ | ⟨hnone, hsame⟩
  · obtain ⟨t, ht, rfl⟩ := mem_map.mp hc
    have hwr : t.after = some authority := haft.symm.trans hauth
    have hid : authority.group = id :=
      ((RowTransition.key?_eq_ok (h.authorities t ht).1).2.2.1 authority hwr).trans hkey
    subst hid
    have hfin := h.finalAuthorities t ht
    simp only [checkFinalAuthority, hwr, rejectIf_eq_ok_iff, not_not] at hfin
    -- A written authority: its group is written with it, or is there and untouched.
    rcases hfin with ⟨u, hu, group, hgrp, hgid⟩ | ⟨hall, hsome⟩
    · have hukey : u.key GroupRecord.id = authority.group := (h.key_eq hu hgrp).trans hgid
      refine ⟨group, ?_⟩
      rw [← hukey, ← Option.mem_def.mp hgrp]
      exact he.groups.after _ (mem_map_of_mem hu)
    · obtain ⟨group, hgrp⟩ := Option.isSome_iff_exists.mp hsome
      rcases he.group_cases authority.group with ⟨u, hu, hukey, hbef, -⟩ | ⟨-, hlk⟩
      · have hub : u.before = some group := hbef.symm.trans hgrp
        exact absurd (((RowTransition.key?_eq_ok (h.groups u hu).1).2.1 group hub).trans hukey)
          (hall u hu group hub)
      · exact ⟨group, hlk.trans hgrp⟩
  -- An untouched authority: its group cannot go without it.
  · rw [hsame] at hauth
    obtain ⟨group, hgrp⟩ := hs.authority id authority hauth
    rcases he.group_cases id with ⟨u, hu, rfl, -, hlk⟩ | ⟨-, hlk⟩
    · cases hua : u.after with
      | some final => exact ⟨final, hlk.trans hua⟩
      | none =>
        obtain ⟨a, ha, hakey, -⟩ := (checkFinalGroup_none (h.finalGroups u hu) hua).2.2
          (by rw [hauth]; rfl)
        exact absurd hakey (hnone _ (mem_map_of_mem ha))
    · exact ⟨group, hlk.trans hgrp⟩

theorem Accepted.valid_sound (id : Octets 32) (group : GroupRecord)
    (hgrp : s'.groups.lookup id = some group) : group.Valid := by
  rcases he.group_cases id with ⟨t, ht, -, -, hlk⟩ | ⟨-, hlk⟩
  · exact (h.groups t ht).2.2 group (hlk.symm.trans hgrp)
  · exact hs.valid id group (hlk.symm.trans hgrp)

end Preservation

/-- **The store stays sound**, whatever mix of changes an accepted plan makes. -/
theorem Accepted.sound (h : Accepted s plan) (hs : Sound s) : Sound (written plan tx s) where
  valid := h.valid_sound hs h.exact
  chain := h.chain_sound hs h.exact
  authority := h.authority_sound hs h.exact
  count := by
    have hlen := len_writeAll h.planned_groups
    have hlim := h.limit
    rw [GroupStatePlan.groupChanges, countP_map, countP_map] at hlen
    simp only [written, GroupStatePlan.groupChanges]
    have hdel : (Change.deletes ∘ fun t : GroupStateTransition =>
        ⟨t.key GroupRecord.id, t.before, t.after⟩) =
        fun t => t.before.isSome && t.after.isNone := rfl
    have hcreate : (Change.creates ∘ fun t : GroupStateTransition =>
        ⟨t.key GroupRecord.id, t.before, t.after⟩) =
        fun t => t.before.isNone && t.after.isSome := rfl
    rw [hdel, hcreate] at hlen
    omega

/-! ### The writer -/

section Writer

variable {κ α : Type} [DecidableEq κ] {len : α → ℕ} {cs : List (Change κ α)} {m m' : HashMap κ α}

def Fits (len : α → ℕ) (c : Change κ α) : Prop := ∀ row ∈ c.after, len row ≤ maxRecordBytes

instance (len : α → ℕ) (c : Change κ α) : Decidable (Fits len c) :=
  inferInstanceAs (Decidable (∀ row ∈ c.after, len row ≤ maxRecordBytes))

theorem writeRow_eq_ok_iff {c : Change κ α} : writeRow len m c = .ok m' ↔
      (Fits len c ∧ (c.after = none → m.lookup c.key ≠ none)) ∧ m' = Change.write m c := by
  unfold writeRow Change.write
  cases haft : c.after with
  | some row =>
    simp only [putEquality, check_bind_eq_ok_iff, rejectIf_eq_ok_iff, not_lt, Fits, haft,
      Option.mem_some_iff, forall_eq', reduceCtorEq, false_implies, and_true]
    refine and_congr_right fun _ => ?_
    exact ⟨fun h => (ok.inj h).symm, fun h => h ▸ rfl⟩
  | none =>
    simp only [deleteEquality, check_bind_eq_ok_iff, rejectIf_eq_ok_iff, Fits, haft, ne_eq,
      Option.not_mem_none, false_implies, implies_true, true_and, true_implies]
    refine and_congr_right fun _ => ?_
    exact ⟨fun h => (ok.inj h).symm, fun h => h ▸ rfl⟩

theorem admits_present (h : Change.Planned cs m) :
    Change.Admits (fun m c => Fits len c ∧ (c.after = none → m.lookup c.key ≠ none)) cs m ↔
      ∀ c ∈ cs, Fits len c := by
  rw [admits_iff_forall (fun m m' c h hc => ⟨hc.1, h ▸ hc.2⟩) h.nodup]
  refine forall₂_congr fun c hc => ⟨And.left, fun hfits => ⟨hfits, fun hnone => ?_⟩⟩
  rw [h.before c hc]
  exact fun hb => h.ne c hc (hb.trans hnone.symm)

theorem foldlM_writeRow_eq_ok_iff (h : Change.Planned cs m) :
    cs.foldlM (writeRow len) m = .ok m' ↔ (∀ c ∈ cs, Fits len c) ∧ m' = Change.writeAll cs m := by
  rw [foldlM_write_eq_ok_iff fun _ _ _ => writeRow_eq_ok_iff, admits_present h]

end Writer

theorem writeGroup_eq_ok_iff {m m' : HashMap (Octets 32) GroupRecord}
    {c : Change (Octets 32) GroupRecord} :
    writeGroup C m c = .ok m' ↔
      ((m.lookup c.key = none → c.after ≠ none → HashMap.len m < maxProfileGroups) ∧
        Fits (groupLen C) c ∧ (c.after = none → m.lookup c.key ≠ none)) ∧
      m' = Change.write m c := by
  rw [writeGroup, check_bind_eq_ok_iff, rejectIf_eq_ok_iff, writeRow_eq_ok_iff, ← and_assoc]
  refine and_congr_left fun _ => and_congr_left fun _ => ?_
  rw [not_and, not_and, Nat.not_le]
  exact ⟨fun h hlk haft => h haft hlk, fun h haft hlk => h hlk haft⟩

/-- The writer goes through: every row fits into a record, and no group is created in a full
profile, the changes being made in the order of the plan. -/
structure Writable (C : Codec) (s : Store) (plan : GroupStatePlan) : Prop where
  contacts : ∀ c ∈ plan.contactChanges, Fits (contactLen C) c
  groups : ∀ c ∈ plan.groupChanges, Fits (groupLen C) c
  chains : ∀ c ∈ plan.chainChanges, Fits chainLen c
  authorities : ∀ c ∈ plan.authorityChanges, Fits (authorityLen C) c
  room : Change.Room maxProfileGroups (HashMap.len s.groups) plan.groupChanges

/-- **When the writer goes through with an accepted plan.** -/
theorem writeGroupState_eq_ok_iff (h : Accepted s plan) :
    writeGroupState C plan tx s = .ok s' ↔ Writable C s plan ∧ s' = written plan tx s := by
  have hgrps {m'} : plan.groupChanges.foldlM (writeGroup C) s.groups = .ok m' ↔
      (Change.Room maxProfileGroups (HashMap.len s.groups) plan.groupChanges ∧
        ∀ c ∈ plan.groupChanges, Fits (groupLen C) c) ∧
      m' = Change.writeAll plan.groupChanges s.groups := by
    rw [foldlM_write_eq_ok_iff fun _ _ _ => writeGroup_eq_ok_iff, admits_and,
      admits_room_iff h.planned_groups, admits_present h.planned_groups]
  have hnoR : ∀ c ∈ plan.controlChanges, Fits (fun _ => 0) c :=
    fun c _ row _ => Nat.zero_le _
  simp only [writeGroupState, bind_eq_ok_iff, hgrps, foldlM_writeRow_eq_ok_iff h.planned_chains,
    foldlM_writeRow_eq_ok_iff h.planned_contacts, foldlM_writeRow_eq_ok_iff h.planned_authorities,
    foldlM_writeRow_eq_ok_iff h.planned_controls]
  constructor
  · rintro ⟨_, ⟨hc, rfl⟩, _, ⟨⟨hroom, hg⟩, rfl⟩, _, ⟨hch, rfl⟩, _, ⟨ha, rfl⟩, _, ⟨-, rfl⟩, heq⟩
    exact ⟨⟨hc, hg, hch, ha, hroom⟩, (ok.inj heq).symm⟩
  · rintro ⟨⟨hc, hg, hch, ha, hroom⟩, rfl⟩
    exact ⟨_, ⟨hc, rfl⟩, _, ⟨⟨hroom, hg⟩, rfl⟩, _, ⟨hch, rfl⟩, _, ⟨ha, rfl⟩, _, ⟨hnoR, rfl⟩, rfl⟩

/-! ### The commit -/

theorem Accepted.not_exact_self (h : Accepted s plan) : ¬ Exact plan tx s s := by
  intro he
  rcases h.nonempty with hne | hne | hne | hne | hne
  · exact hne (map_eq_nil_iff.mp (h.planned_groups.eq_nil he.groups))
  · exact hne (map_eq_nil_iff.mp (h.planned_chains.eq_nil he.chains))
  · exact hne (map_eq_nil_iff.mp (h.planned_contacts.eq_nil he.contacts))
  · exact hne (map_eq_nil_iff.mp (h.planned_authorities.eq_nil he.authorities))
  · exact hne (map_eq_nil_iff.mp (h.planned_controls.eq_nil he.controls))

/-- An accepted plan is written exactly and leaves the store sound; a rejected one leaves the store
as it was. -/
def Consistent (C : Codec) (plan : GroupStatePlan) (tx : Octets 16) (s : Store) : Prop :=
  (validateGroupState s plan = .ok () →
    Sound (commitPlan C plan tx s).1 ∧ Exact plan tx s (commitPlan C plan tx s).1) ∧
  (validateGroupState s plan ≠ .ok () → (commitPlan C plan tx s).1 = s)

/-- What a commit leaves: the plan written, or the store as it was. -/
theorem commitPlan_cases : (∃ e, commitPlan C plan tx s = (s, .error e)) ∨
    Accepted s plan ∧ Writable C s plan ∧ commitPlan C plan tx s = (written plan tx s, .ok ()) := by
  unfold commitPlan
  cases hval : validateGroupState s plan with
  | error e => exact .inl ⟨e, rfl⟩
  | ok _ =>
    cases hwr : writeGroupState C plan tx s with
    | error e =>
      refine .inl ⟨e, ?_⟩
      simp only [Except.bind]
    | ok s' =>
      have h := validateGroupState_eq_ok hval
      obtain ⟨hwrite, rfl⟩ := (writeGroupState_eq_ok_iff h).mp hwr
      refine .inr ⟨h, hwrite, ?_⟩
      simp only [Except.bind]

/-- **Group-state commits keep the rows consistent.**  From a sound store every commit ends in a
sound store, and one that fails changes nothing.  An accepted plan is written exactly if and only if
its rows fit into records and it creates no group while the profile is full, in the order in which
it lists its groups. -/
theorem group_state_consistent_iff (hs : Sound s) (C : Codec) (plan : GroupStatePlan)
    (tx : Octets 16) :
    Sound (commitPlan C plan tx s).1 ∧
    ((commitPlan C plan tx s).2 ≠ .ok () → (commitPlan C plan tx s).1 = s) ∧
    (Consistent C plan tx s ↔ (validateGroupState s plan = .ok () → Writable C s plan)) := by
  rcases @commitPlan_cases C s plan tx with
    ⟨e, hcom⟩ | ⟨h, hwrite, hcom⟩
  · rw [Consistent, hcom]
    refine ⟨hs, fun _ => rfl, fun hcons hval => ?_, fun hcond => ⟨fun hval => ?_, fun _ => rfl⟩⟩
    · exact absurd (hcons.1 hval).2 (validateGroupState_eq_ok hval).not_exact_self
    · have hwr := (@writeGroupState_eq_ok_iff C _ _ _ tx (validateGroupState_eq_ok hval)).mpr
        ⟨hcond hval, rfl⟩
      simp [commitPlan, hval, Except.bind, hwr] at hcom
  · rw [Consistent, hcom]
    refine ⟨h.sound hs, fun hne => absurd rfl hne, fun _ _ => hwrite, fun _ => ⟨fun _ => ?_, ?_⟩⟩
    · exact ⟨h.sound hs, h.exact⟩
    · intro hreject
      unfold commitPlan at hcom
      cases hval : validateGroupState s plan with
      | ok u => exact absurd hval hreject
      | error e => simp [hval, Except.bind] at hcom

/-! ### A new group, and a full profile -/

namespace Sample

def codec : Codec := ⟨fun _ => [], fun _ => [], fun _ => []⟩

def ident (i : ℕ) : Octets 32 := ⟨leBytes 32 (i + 1), length_leBytes 32 (i + 1)⟩

def group (i : ℕ) : GroupRecord where
  id := ident i
  name := ⟨[103], rfl⟩
  creator := ident 0
  members := [⟨ident 0, [1]⟩]
  secret := .replicate 32 1
  prevSecret := none
  generation := 0
  senderChain := [1]
  sentSinceRotation := 0
  pending := []

def emptyStore : Store := ⟨∅, ∅, ∅, ∅, ∅, none⟩

theorem sound_emptyStore : Sound emptyStore where
  valid _ _ h := by cases h
  chain _ _ _ h := by cases h
  authority _ _ h := by cases h
  count := Nat.zero_le _

def authority : GroupAuthorityRecord := ⟨ident 3, .replicate 16 1, [1], []⟩

/-- A group with a chain and an authority record. -/
def createGroup : GroupStatePlan where
  groups := [⟨none, some (group 3)⟩]
  chains := [⟨ident 3, ident 0, none, some [7]⟩]
  contacts := []
  authorities := [⟨none, some authority⟩]
  deleteControls := []
  presentationChanged := true

/-- A new group is stored with its chain and its authority record. -/
theorem group_state_consistent_create : validateGroupState emptyStore createGroup = .ok () ∧
    Consistent codec createGroup (.zero 16) emptyStore := by
  have hsnd : Sound emptyStore := sound_emptyStore
  have hwrite : Writable codec emptyStore createGroup :=
    ⟨by decide, by decide, by decide, by decide, by decide⟩
  refine ⟨by decide +kernel, ?_⟩
  exact (group_state_consistent_iff hsnd codec createGroup (.zero 16)).2.2.mpr fun _ => hwrite

theorem ident_inj {i j : ℕ} (hi : i < 10000) (hj : j < 10000) (h : ident i = ident j) : i = j := by
  have hbytes : leBytes 32 (i + 1) = leBytes 32 (j + 1) := congrArg Octets.toBytes h
  have := leBytes_inj (by omega) (by omega) hbytes
  omega

theorem ident_ne_zero {i : ℕ} (hi : i < 10000) : ident i ≠ .zero 32 := by
  intro h
  have hbytes : leBytes 32 (i + 1) = leBytes 32 0 := congrArg Octets.toBytes h
  have := leBytes_inj (by omega) (by omega) hbytes
  omega

theorem group_valid {i : ℕ} (hi : i < 10000) : (group i).Valid := by
  have hzero : (group 0).Valid := by decide
  exact ⟨ident_ne_zero hi, hzero.2⟩

/-- A profile with a number of groups. -/
def profile (n : ℕ) (hn : n < 10000) : Store where
  groups := ⟨(List.range n).map fun i => ⟨ident i, group i⟩, by
    rw [List.nodupKeys_iff_pairwise, List.pairwise_map]
    refine List.Pairwise.imp_of_mem (fun hi hj hne heq => ?_) List.nodup_range
    exact hne (ident_inj ((List.mem_range.mp hi).trans hn) ((List.mem_range.mp hj).trans hn) heq)⟩
  chains := ∅
  contacts := ∅
  authorities := ∅
  controls := ∅
  presentationMarker := none

variable {n : ℕ} {hn : n < 10000}

theorem len_profile : HashMap.len (profile n hn).groups = n :=
  (length_map _).trans length_range

theorem lookup_profile {id : Octets 32} {g : GroupRecord} :
    (profile n hn).groups.lookup id = some g ↔ ∃ i < n, id = ident i ∧ g = group i := by
  rw [← Option.mem_def, AList.mem_lookup_iff]
  show _ ∈ List.map _ _ ↔ _
  simp only [mem_map, mem_range, Sigma.mk.injEq, heq_eq_eq, eq_comm]

theorem sound_profile (hlim : n ≤ maxProfileGroups) : Sound (profile n hn) where
  valid id g h := by
    obtain ⟨i, hi, -, rfl⟩ := lookup_profile.mp h
    exact group_valid (hi.trans hn)
  chain _ _ _ h := by cases h
  authority _ _ h := by cases h
  count := len_profile.trans_le hlim

/-- One group goes and another comes, and the plan lists the new one first. -/
def replaceGroup : GroupStatePlan where
  groups := [⟨none, some (group 5000)⟩, ⟨some (group 0), none⟩]
  chains := []
  contacts := []
  authorities := []
  deleteControls := []
  presentationChanged := false

theorem lookup_new (hlim : n ≤ maxProfileGroups) :
    (profile n hn).groups.lookup (group 5000).id = none := by
  rw [Option.eq_none_iff_forall_ne_some]
  intro g hg
  obtain ⟨i, _, hid, -⟩ := lookup_profile.mp hg
  have hmax : maxProfileGroups = 4094 := rfl
  have := ident_inj (by decide) (by omega) hid
  omega

theorem lookup_old (hpos : 0 < n) : (profile n hn).groups.lookup (group 0).id = some (group 0) :=
  lookup_profile.mpr ⟨0, hpos, rfl, rfl⟩

theorem validate_replaceGroup (hpos : 0 < n) (hlim : n ≤ maxProfileGroups) :
    validateGroupState (profile n hn) replaceGroup = .ok () := by
  have hne : (group 0).id ≠ (group 5000).id :=
    fun h => absurd (ident_inj (by decide) (by decide) h) (by decide)
  have hval : (group 5000).Valid := group_valid (by decide)
  have hgrps : checkGroups (profile n hn) replaceGroup = .ok () := by
    simp [checkGroups, replaceGroup, forEachDistinct, RowTransition.key?, rejectIf, ok_bind,
      lookup_new hlim, lookup_old hpos, hval, hne]
  have hcnt : checkGroupLimit (profile n hn) replaceGroup = .ok () := by
    simp [checkGroupLimit, replaceGroup, len_profile, rejectIf, ok_bind, hlim]
  have hfin : forEach (checkFinalGroup (profile n hn) replaceGroup) replaceGroup.groups = .ok () :=
    rfl
  simp only [validateGroupState, hgrps, hcnt, ok_bind, hfin]
  rfl

theorem write_replaceGroup {hn : maxProfileGroups < 10000} :
    writeGroupState codec replaceGroup (.zero 16) (profile maxProfileGroups hn) =
      .error .groupLimit := by
  have hfst : writeGroup codec (profile maxProfileGroups hn).groups
      ⟨(group 5000).id, none, some (group 5000)⟩ = .error .groupLimit := by
    simp only [writeGroup, rejectIf, len_profile, lookup_new le_rfl, ne_eq, reduceCtorEq,
      not_false_eq_true, le_refl, and_self, if_true, error_bind]
  have hgrps : replaceGroup.groupChanges.foldlM (writeGroup codec)
      (profile maxProfileGroups hn).groups = .error .groupLimit := by
    show (writeGroup codec _ ⟨(group 5000).id, none, some (group 5000)⟩ >>= _) = _
    rw [hfst, error_bind]
  have hcon : replaceGroup.contactChanges = [] := rfl
  simp only [writeGroupState, hcon, foldlM_nil, pure_bind, hgrps, error_bind]

/-- In a full profile the plan is accepted and then refused, and nothing is written. -/
theorem replace_in_full_profile : ∃ s, Sound s ∧ validateGroupState s replaceGroup = .ok () ∧
    commitPlan codec replaceGroup (.zero 16) s = (s, .error .groupLimit) ∧
    ¬ Consistent codec replaceGroup (.zero 16) s := by
  have hn : maxProfileGroups < 10000 := by decide
  have hval : validateGroupState (profile _ hn) replaceGroup = .ok () :=
    validate_replaceGroup (by decide) le_rfl
  have hcom : commitPlan codec replaceGroup (.zero 16) (profile _ hn) =
      (profile _ hn, .error .groupLimit) := by
    simp only [commitPlan, hval, Except.bind, write_replaceGroup]
  refine ⟨profile _ hn, sound_profile le_rfl, hval, hcom, fun hcons => ?_⟩
  have hexact := (hcons.1 hval).2
  rw [hcom] at hexact
  exact (validateGroupState_eq_ok hval).not_exact_self hexact

end Sample

end Komms.GroupState
