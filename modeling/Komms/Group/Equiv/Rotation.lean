import Komms.Group.Equiv.Rows

/-!
# When sending chains rotate

The exact condition under which this device's sending chain is rotated into a next epoch
(`returns_rotateGroupOrigin_iff`): the epoch can be counted up, and the routes of the roster fit one
row.
-/

namespace Komms.Group

open List Except

variable {E : Env} {s : Store} {d : Draws} {k : ℕ} {rec : GroupRecord} {members : List GroupMember}

/-! ### A fresh epoch -/

/-- An origin epoch can be made for a roster: it has no more routes than a row may hold, and no
authorized route is all zeros. -/
def EpochFits (E : Env) (s : Store) (members : List GroupMember) : Prop :=
  ∃ routes, groupRouteDevices E s members = .ok routes ∧
    ∀ r ∈ routes, r.authorized = true → r.account ≠ .zero 32 ∧ r.device ≠ .zero 32

variable {routes : List Route} {sender : SenderState}

theorem groupRouteDevices_eq_ok (h : groupRouteDevices E s members = .ok routes) :
    routes.length ≤ maxGroupOriginRoutes ∧ routes.Pairwise fun a b => a.key < b.key := by
  simp only [groupRouteDevices, bind_eq_ok_iff, rejectIf_eq_ok_iff, ok.injEq] at h
  obtain ⟨_, hbd, rfl⟩ := h
  exact ⟨Nat.le_of_not_lt hbd, pairwise_sortDedup _⟩

/-- When a new origin epoch can start. -/
theorem returns_newOriginSenderState_iff {chain : ChainKeys} {originGeneration : UInt64}
    (hgen : originGeneration ≠ 0) (hch : chain.chainKey ≠ .zero 32) :
    Returns (newOriginSenderState E s d k members chain originGeneration) ↔
      EpochFits E s members := by
  rw [newOriginSenderState, returns_check_bind_iff, returns_rejectIf_iff, returns_bind_iff]
  constructor
  · rintro ⟨-, routes, hroute, hval⟩
    rw [returns_check_bind_iff, validateSenderOrigins, returns_rejectIf_iff] at hval
    refine ⟨routes, hroute, fun r hr hauth => ?_⟩
    have hentry := hval.1
    simp only [not_or, Bool.not_eq_true, any_eq_false] at hentry
    have hr' := hentry.2.2.2 (Route.origin d k chain r)
      (mem_map_of_mem (mem_filter.mpr ⟨hr, hauth⟩))
    simp only [Route.origin, Bool.or_eq_false_iff] at hr'
    exact ⟨of_decide_eq_false hr'.1.1.1.1.1, of_decide_eq_false hr'.1.1.1.1.2⟩
  · rintro ⟨routes, hroute, hzero⟩
    -- The routes are bounded and sorted, so only a zero id can be refused.
    obtain ⟨hbd, hsorted⟩ := groupRouteDevices_eq_ok hroute
    refine ⟨hgen, routes, hroute, ?_⟩
    rw [returns_check_bind_iff, validateSenderOrigins, returns_rejectIf_iff]
    refine ⟨?_, returns_ok _⟩
    simp only [not_or, not_not, Bool.not_eq_true, any_eq_false, length_map]
    refine ⟨hgen, ?_, pairwise_map.mpr (hsorted.filter _), ?_⟩
    · exact Nat.not_lt.mpr ((length_filter_le _ _).trans hbd)
    · intro o ho
      obtain ⟨r, hr, rfl⟩ := mem_map.mp ho
      obtain ⟨hr, hauth⟩ := mem_filter.mp hr
      simp [Route.origin, hzero r hr hauth, hch, d.originKey_ne]

/-! ### Rotation -/

def HasNextEpoch : SenderState → Prop
  | .legacy _ => True
  | .origin state => (checkedSucc state.originGeneration).isSome = true

theorem checkSenderState_eq_ok {sender' : SenderState} (h : checkSenderState sender = .ok sender') :
    sender' = sender := by
  cases sender with
  | legacy chain => exact (ok.inj h).symm
  | origin state =>
    rw [checkSenderState, check_bind_eq_ok_iff] at h
    exact (ok.inj h.2).symm

theorem returns_nextOriginGeneration_iff :
    Returns (nextOriginGeneration sender) ↔ HasNextEpoch sender := by
  cases sender <;> simp [nextOriginGeneration, HasNextEpoch]

theorem nextOriginGeneration_ne_zero {generation : UInt64}
    (h : nextOriginGeneration sender = .ok generation) : generation ≠ 0 := by
  cases sender with
  | legacy chain =>
    cases h
    decide
  | origin state =>
    rw [nextOriginGeneration, required_eq_ok_iff, checkedSucc_eq_some_iff] at h
    rintro rfl
    exact absurd h (by simp)

theorem returns_rotateGroupOrigin_iff (hdraw : ∀ k, d.chainKey k ≠ .zero 32)
    (hsnd : Returns (checkSenderState rec.senderChain)) :
    Returns (rotateGroupOrigin E s d k rec) ↔
      HasNextEpoch rec.senderChain ∧ EpochFits E s rec.members := by
  obtain ⟨_, hsnd⟩ := hsnd
  obtain rfl := checkSenderState_eq_ok hsnd
  rw [rotateGroupOrigin, hsnd, ok_bind, ← returns_nextOriginGeneration_iff]
  refine returns_bind_and_iff fun generation hgen => ?_
  have hkey : (d.chain k).chainKey ≠ .zero 32 := hdraw k
  rw [← returns_newOriginSenderState_iff (nextOriginGeneration_ne_zero hgen) hkey,
    ← and_true (Returns (newOriginSenderState _ _ _ _ _ _ _))]
  refine returns_bind_and_iff fun state hst => iff_true_intro ?_
  -- The new epoch was validated when it was made.
  simp only [newOriginSenderState, bind_eq_ok_iff, ok.injEq] at hst
  obtain ⟨_, -, _, -, _, hval, rfl⟩ := hst
  rw [checkSenderState, hval]
  exact returns_ok _

end Komms.Group
