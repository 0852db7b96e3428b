import Mathlib.Data.List.Induction
import Mathlib.Data.Set.Function

/-!
# The last writer of each key

One register for each key keeps, of all elements offered to it, one of the greatest rank: `offer`
replaces the element of a key when the new one ranks above it, and `resolve` offers a whole list.

`Summarizes s m` says that the registers `m` hold elements of `s` only, and that every element of
`s` is at or below the one in the register of its key.  When different elements have different
ranks, a set has one summary (`Summarizes.unique`).
-/

namespace Komms.LastWriter

open Option Function

variable {α κ ρ : Type} [LinearOrder ρ] (key : α → κ) (rank : α → ρ)

/-- One register for each key. -/
abbrev Registers (κ α : Type) := κ → Option α

/-- The element takes its register when that is empty or holds one of a smaller rank. -/
def offer [DecidableEq κ] (m : Registers κ α) (a : α) : Registers κ α :=
  if (m (key a)).all fun current => rank current < rank a then Function.update m (key a) (some a)
  else m

def resolve [DecidableEq κ] (l : List α) : Registers κ α :=
  l.foldl (offer key rank) fun _ => none

/-- The registers hold elements of the set, and nothing in the set ranks above them. -/
structure Summarizes (s : Set α) (m : Registers κ α) : Prop where
  mem : ∀ {k a}, m k = some a → a ∈ s ∧ key a = k
  le : ∀ {a}, a ∈ s → ∃ b, m (key a) = some b ∧ rank a ≤ rank b

def held (m : Registers κ α) : Set α := {a | ∃ k, m k = some a}

variable {key rank} {s t : Set α} {m n : Registers κ α}

/-! ### Offering elements -/

theorem Summarizes.empty : Summarizes key rank ∅ fun _ => none where
  mem h := nomatch h
  le h := h.elim

section

variable [DecidableEq κ]

theorem offer_of_le {a b : α} (hb : m (key a) = some b) (hle : rank a ≤ rank b) :
    offer key rank m a = m := by
  rw [offer, if_neg]
  simpa [hb] using hle

theorem offer_of_forall_lt {a : α} (h : ∀ b, m (key a) = some b → rank b < rank a) :
    offer key rank m a = Function.update m (key a) (some a) := by
  rw [offer, if_pos]
  simpa [all_eq_true_iff_get] using fun hsome => h _ (some_get hsome).symm

/-- One more element offered is one more element summarized. -/
theorem Summarizes.offer (h : Summarizes key rank s m) (a : α) :
    Summarizes key rank (insert a s) (offer key rank m a) := by
  by_cases hlt : ∀ b, m (key a) = some b → rank b < rank a
  -- The element wins its key.
  · rw [offer_of_forall_lt hlt]
    constructor
    · intro k b hb
      by_cases hk : k = key a
      · subst hk
        obtain rfl : a = b := by simpa using hb
        exact ⟨Set.mem_insert _ _, rfl⟩
      · rw [update_of_ne hk] at hb
        exact ⟨Set.mem_insert_of_mem _ (h.mem hb).1, (h.mem hb).2⟩
    · intro b hb
      by_cases hk : key b = key a
      · refine ⟨a, by rw [hk, update_self], ?_⟩
        rcases hb with rfl | hb
        · exact le_rfl
        · obtain ⟨c, hc, hle⟩ := h.le hb
          exact hle.trans (hlt c (hk ▸ hc)).le
      · rcases hb with rfl | hb
        · exact absurd rfl hk
        · rw [update_of_ne hk]
          exact h.le hb
  -- Another of its key is as great and stays.
  · push Not at hlt
    obtain ⟨b, hb, hle⟩ := hlt
    rw [offer_of_le hb hle]
    refine ⟨fun hc => ⟨Set.mem_insert_of_mem _ (h.mem hc).1, (h.mem hc).2⟩, ?_⟩
    rintro c (rfl | hc)
    · exact ⟨b, hb, hle⟩
    · exact h.le hc

theorem resolve_summarizes (l : List α) : Summarizes key rank {a | a ∈ l} (resolve key rank l) := by
  induction l using List.reverseRecOn with
  | nil => simpa [resolve] using Summarizes.empty
  | append_singleton l a ih =>
    have hmem : {b | b ∈ l ++ [a]} = insert a {b | b ∈ l} := by
      ext b
      simp [or_comm]
    rw [hmem, resolve, List.foldl_append]
    exact ih.offer a

end

/-! ### Feeding registers back -/

theorem Summarizes.held_subset (h : Summarizes key rank s m) : held m ⊆ s :=
  fun _ ⟨_, hk⟩ => (h.mem hk).1

/-- **What was resolved stands for what it was resolved from.** -/
theorem Summarizes.feedback (hs : Summarizes key rank s m)
    (ht : Summarizes key rank (held m ∪ t) n) : Summarizes key rank (s ∪ t) n := by
  constructor
  · intro k a hk
    obtain ⟨ha, hkey⟩ := ht.mem hk
    exact ⟨ha.imp_left fun ha => hs.held_subset ha, hkey⟩
  · rintro a (ha | ha)
    · obtain ⟨b, hb, hab⟩ := hs.le ha
      obtain ⟨c, hc, hbc⟩ := ht.le (.inl ⟨_, hb⟩)
      rw [(hs.mem hb).2] at hc
      exact ⟨c, hc, hab.trans hbc⟩
    · exact ht.le (.inr ha)

/-! ### One summary for each set -/

/-- **A register holds the greatest element of its key.** -/
theorem Summarizes.eq_some_iff (h : Summarizes key rank s m) (hinj : s.InjOn rank) {k : κ} {a : α} :
    m k = some a ↔ a ∈ s ∧ key a = k ∧ ∀ b ∈ s, key b = k → rank b ≤ rank a := by
  constructor
  · intro hk
    obtain ⟨ha, hkey⟩ := h.mem hk
    refine ⟨ha, hkey, fun b hb hbk => ?_⟩
    obtain ⟨c, hc, hle⟩ := h.le hb
    obtain rfl : a = c := some.inj (by rw [← hk, ← hc, hbk])
    exact hle
  · rintro ⟨ha, rfl, hgreat⟩
    obtain ⟨b, hb, hle⟩ := h.le ha
    obtain ⟨hbs, hbk⟩ := h.mem hb
    rw [hb, hinj hbs ha (le_antisymm (hgreat b hbs hbk) hle)]

theorem Summarizes.unique (hm : Summarizes key rank s m) (hn : Summarizes key rank s n)
    (hinj : s.InjOn rank) : m = n := by
  ext a
  rw [hm.eq_some_iff hinj, hn.eq_some_iff hinj]

end Komms.LastWriter
