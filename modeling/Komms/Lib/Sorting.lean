import Mathlib.Data.List.Sort
import Mathlib.Data.List.Chain

/-!
# Sorting by a key and dropping repeated keys

`sortDedup key l` sorts `l` by a key and keeps the first of each run of elements with one key, the
pair of calls `sort_by_key`, `dedup_by_key`.  The keys of the result ascend strictly, and every key
of the list is among them.
-/

namespace Komms

open List

variable {α κ : Type} [LinearOrder κ] (key : α → κ)

/-- Drop each element whose key is that of the element kept before it. -/
def dropRepeats : Option κ → List α → List α
  | _, [] => []
  | previous, x :: xs =>
    if previous = some (key x) then dropRepeats previous xs
    else x :: dropRepeats (some (key x)) xs

def sortDedup (l : List α) : List α :=
  dropRepeats key none (l.insertionSort fun a b => key a ≤ key b)

variable {key}

theorem dropRepeats_sublist (previous : Option κ) (l : List α) :
    (dropRepeats key previous l).Sublist l := by
  induction l generalizing previous with
  | nil => exact .slnil
  | cons x xs ih =>
    rw [dropRepeats]
    split_ifs
    · exact (ih _).cons x
    · exact (ih _).cons_cons x

variable {previous : Option κ}

/-- After an element with key `k`, only larger keys are left. -/
theorem dropRepeats_pairwise {l : List α}
    (hl : l.Pairwise fun a b => key a ≤ key b) (hprev : ∀ k ∈ previous, ∀ x ∈ l, k ≤ key x) :
    (dropRepeats key previous l).Pairwise (fun a b => key a < key b) ∧
      ∀ k ∈ previous, ∀ x ∈ dropRepeats key previous l, k < key x := by
  induction l generalizing previous with
  | nil => simp [dropRepeats]
  | cons x xs ih =>
    obtain ⟨hx, hxs⟩ := pairwise_cons.mp hl
    rw [dropRepeats]
    split_ifs with hrep
    · exact ih hxs fun k hk y hy => hprev k hk y (.tail _ hy)
    · obtain ⟨ihpair, ihlt⟩ := @ih (some (key x)) hxs fun k hk y hy => by
        obtain rfl : key x = k := by simpa using hk
        exact hx y hy
      refine ⟨pairwise_cons.mpr ⟨ihlt _ rfl, ihpair⟩, fun k hk => ?_⟩
      have hkx : k < key x :=
        lt_of_le_of_ne (hprev k hk x (.head _)) fun h => hrep (h ▸ hk)
      exact forall_mem_cons.mpr ⟨hkx, fun y hy => hkx.trans (ihlt _ rfl y hy)⟩

theorem pairwise_sortDedup (l : List α) : (sortDedup key l).Pairwise fun a b => key a < key b :=
  haveI : Std.Total fun a b : α => key a ≤ key b := ⟨fun a b => le_total (key a) (key b)⟩
  haveI : IsTrans α fun a b => key a ≤ key b := ⟨fun _ _ _ => le_trans⟩
  (dropRepeats_pairwise (l.pairwise_insertionSort _) (by simp)).1

theorem sortDedup_subset {l : List α} {x : α} (hx : x ∈ sortDedup key l) : x ∈ l :=
  (perm_insertionSort _ l).subset ((dropRepeats_sublist none _).subset hx)

/-! ### Sets of keys -/

theorem exists_mem_dropRepeats {l : List α} {x : α} (hx : x ∈ l)
    (hprev : previous ≠ some (key x)) : ∃ y ∈ dropRepeats key previous l, key y = key x := by
  induction l generalizing previous with
  | nil => cases hx
  | cons z zs ih =>
    rw [dropRepeats]
    rcases mem_cons.mp hx with rfl | htail
    · rw [if_neg hprev]
      exact ⟨x, .head _, rfl⟩
    · split_ifs with hrep
      · exact ih htail hprev
      · by_cases hkey : key z = key x
        · exact ⟨z, .head _, hkey⟩
        · obtain ⟨y, hy, hyx⟩ := ih htail fun h => hkey (Option.some.inj h)
          exact ⟨y, .tail _ hy, hyx⟩

theorem mem_sortDedup_id {l : List κ} {x : κ} : x ∈ sortDedup id l ↔ x ∈ l := by
  refine ⟨sortDedup_subset, fun hx => ?_⟩
  obtain ⟨y, hy, rfl⟩ := @exists_mem_dropRepeats _ _ _ id none _ _
    ((perm_insertionSort (fun a b : κ => id a ≤ id b) l).mem_iff.mpr hx) (by simp)
  exact hy

/-- Two lists with the same elements, in any order and number, sort to one list. -/
theorem sortDedup_id_congr {l l' : List κ} (h : ∀ x, x ∈ l ↔ x ∈ l') :
    sortDedup id l = sortDedup id l' := by
  have hlt : (sortDedup id l).Pairwise fun a b => a < b := pairwise_sortDedup l
  have hlt' : (sortDedup id l').Pairwise fun a b => a < b := pairwise_sortDedup l'
  refine List.Perm.eq_of_pairwise' (hlt.imp le_of_lt) (hlt'.imp le_of_lt) ?_
  refine (perm_ext_iff_of_nodup (hlt.imp ne_of_lt) (hlt'.imp ne_of_lt)).mpr fun x => ?_
  rw [mem_sortDedup_id, mem_sortDedup_id]
  exact h x

end Komms
