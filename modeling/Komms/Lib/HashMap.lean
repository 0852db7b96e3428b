import Mathlib.Data.List.AList

/-!
# Hash maps

A hash map is an association list without repeated keys, of which only the entries matter and not
their order.  A pass over the entries visits them in an order of its own (`Order`).
-/

namespace Komms

open List AList

abbrev HashMap (κ α : Type) := AList fun _ : κ => α

/-- The order in which one pass visits the entries of a map. -/
structure Order (α : Type) where
  arrange : List α → List α
  perm : ∀ entries, (arrange entries).Perm entries

/-- The order in which the entries are stored. -/
def Order.stored (α : Type) : Order α := ⟨id, fun _ => .refl _⟩

namespace HashMap

variable {κ α : Type}

def len (m : HashMap κ α) : ℕ := m.entries.length

def retain (p : κ → α → Bool) (m : HashMap κ α) : HashMap κ α :=
  ⟨m.entries.filter fun entry => p entry.1 entry.2, m.nodupKeys.sublist List.filter_sublist⟩

theorem len_retain_le (p : κ → α → Bool) (m : HashMap κ α) : len (retain p m) ≤ len m :=
  length_filter_le _ _

theorem len_eq_length_keys (m : HashMap κ α) : len m = m.keys.length :=
  (length_map _).symm

/-- Change every entry. -/
def mapValues (f : κ → α → α) (m : HashMap κ α) : HashMap κ α :=
  ⟨m.entries.map fun entry => ⟨entry.1, f entry.1 entry.2⟩, by
    have hkeys : (m.entries.map fun entry =>
        (⟨entry.1, f entry.1 entry.2⟩ : Sigma fun _ : κ => α)).keys = m.entries.keys := by
      rw [List.keys, List.map_map]
      rfl
    rw [List.NodupKeys, hkeys]
    exact m.nodupKeys⟩

variable [DecidableEq κ]

def eraseAll (keys : List κ) (m : HashMap κ α) : HashMap κ α :=
  keys.foldl (fun m key => m.erase key) m

theorem lookup_retain (p : κ → α → Bool) (m : HashMap κ α) (k : κ) :
    (retain p m).lookup k = (m.lookup k).filter (p k) := by
  ext a
  have hfnd : ∀ m : HashMap κ α, m.lookup k = some a ↔ ⟨k, a⟩ ∈ m.entries :=
    fun m => mem_lookup_iff
  rw [Option.filter_eq_some_iff, hfnd, hfnd]
  exact mem_filter

theorem lookup_mapValues (f : κ → α → α) (m : HashMap κ α) (k : κ) :
    (mapValues f m).lookup k = (m.lookup k).map (f k) := by
  ext a
  have hfnd : ∀ (m : HashMap κ α) (a : α), m.lookup k = some a ↔ ⟨k, a⟩ ∈ m.entries :=
    fun m a => mem_lookup_iff
  rw [hfnd, Option.map_eq_some_iff]
  constructor
  · intro hmem
    obtain ⟨⟨_, b⟩, hentry, heq⟩ := mem_map.mp hmem
    cases heq
    exact ⟨b, (hfnd m b).mpr hentry, rfl⟩
  · rintro ⟨b, hb, rfl⟩
    exact mem_map.mpr ⟨⟨k, b⟩, (hfnd m b).mp hb, rfl⟩

theorem lookup_eraseAll (keys : List κ) (m : HashMap κ α) (k : κ) :
    (eraseAll keys m).lookup k = if k ∈ keys then none else m.lookup k := by
  induction keys generalizing m with
  | nil => rfl
  | cons key keys ih =>
    rw [eraseAll, foldl_cons, ← eraseAll, ih]
    by_cases hkey : k = key
    · subst hkey
      simp
    · simp [hkey, lookup_erase_ne hkey]

theorem len_erase_le (key : κ) (m : HashMap κ α) : len (m.erase key) ≤ len m := by
  rw [len_eq_length_keys, len_eq_length_keys, keys_erase]
  exact length_erase_le

theorem len_erase_lt {key : κ} {m : HashMap κ α} (h : key ∈ m) : len (m.erase key) < len m := by
  have hmem : key ∈ m.keys := mem_keys.mp h
  have hpos : 0 < m.keys.length := length_pos_of_mem hmem
  rw [len_eq_length_keys, len_eq_length_keys, keys_erase, length_erase_of_mem hmem]
  omega

theorem len_eraseAll_le (keys : List κ) (m : HashMap κ α) : len (eraseAll keys m) ≤ len m := by
  induction keys generalizing m with
  | nil => exact Nat.le_refl _
  | cons key keys ih => exact Nat.le_trans (ih _) (len_erase_le key m)

theorem len_insert (key : κ) (a : α) (m : HashMap κ α) :
    len (m.insert key a) = if key ∈ m then len m else len m + 1 := by
  rw [len_eq_length_keys, len_eq_length_keys, keys_insert, length_cons]
  split_ifs with hkey
  · have hpos : 0 < m.keys.length := length_pos_of_mem (mem_keys.mp hkey)
    rw [length_erase_of_mem (mem_keys.mp hkey)]
    omega
  · rw [erase_of_not_mem fun hmem => hkey (mem_keys.mpr hmem)]

theorem len_insert_le {key : κ} {a : α} {m : HashMap κ α} {bound : ℕ}
    (hroom : key ∈ m ∨ len m < bound) (h : len m ≤ bound) : len (m.insert key a) ≤ bound := by
  rw [len_insert]
  split_ifs with hkey
  · exact h
  · exact hroom.resolve_left hkey

end HashMap

end Komms
