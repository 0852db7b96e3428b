import Mathlib.Data.List.Sort
import Mathlib.Algebra.Order.BigOperators.Group.List
import Mathlib.Algebra.Order.Group.Nat
import Mathlib.Algebra.GroupWithZero.Nat

/-!
# Tables

A table of a database is the list of its rows, in an order that no query may depend on.  The columns
that identify a row are its key.

* `upsert`: `INSERT … ON CONFLICT(key) DO UPDATE`.
* `orderBy`: `ORDER BY` a numeric column.
* `total`: `COALESCE(SUM(column), 0)`.
* `maxOf`, `maxPerGroup`: `COALESCE(MAX(measure), 0)` over rows, and over the groups of `GROUP BY`.
-/

namespace Komms.Table

open List

variable {α κ : Type}

/-! ### Keys -/

section

variable [DecidableEq κ] {key : α → κ} {row r : α} {table : List α}

/-- Insert a row in place of the one with its key. -/
def upsert (key : α → κ) (row : α) (table : List α) : List α :=
  table.filter (fun r => key r ≠ key row) ++ [row]

@[simp] theorem mem_upsert_iff :
    r ∈ upsert key row table ↔ r ∈ table ∧ key r ≠ key row ∨ r = row := by
  simp [upsert]

omit [DecidableEq κ] in
theorem nodup_snoc (h : (table.map key).Nodup) (hrow : ∀ r ∈ table, key r ≠ key row) :
    ((table ++ [row]).map key).Nodup := by
  rw [map_append, map_singleton, nodup_append]
  refine ⟨h, nodup_singleton _, ?_⟩
  intro k hk k' hk'
  obtain ⟨r, hr, rfl⟩ := mem_map.mp hk
  rw [mem_singleton.mp hk']
  exact hrow r hr

theorem nodup_upsert (h : (table.map key).Nodup) : ((upsert key row table).map key).Nodup :=
  nodup_snoc (h.sublist (filter_sublist.map key)) fun _ hr => of_decide_eq_true (mem_filter.mp hr).2

theorem find?_upsert_self : (upsert key row table).find? (fun r => key r = key row) = some row := by
  rw [upsert, find?_append, find?_eq_none.mpr]
  · simp
  · intro r hr
    simpa using (mem_filter.mp hr).2

theorem find?_upsert_of_ne {k : κ} (h : k ≠ key row) :
    (upsert key row table).find? (fun r => key r = k) = table.find? fun r => key r = k := by
  have hrow : [row].find? (fun r => key r = k) = none := by simp [h.symm]
  rw [upsert, find?_append, hrow, Option.or_none, find?_filter]
  congr 1
  funext r
  by_cases hr : key r = k
  · simp [hr, h]
  · simp [hr]

/-- Deleting rows by a condition deletes the row with a key by that condition. -/
theorem find?_filter_key {k : κ} {q : α → Bool} (h : (table.map key).Nodup) :
    (table.filter q).find? (fun r => key r = k) = (table.find? fun r => key r = k).filter q := by
  induction table with
  | nil => rfl
  | cons r rows ih =>
    obtain ⟨hr, hrows⟩ := nodup_cons.mp h
    by_cases hk : key r = k
    · have hnone : (rows.filter q).find? (fun r => key r = k) = none :=
        find?_eq_none.mpr fun a ha hka => hr <| by
          rw [hk, ← of_decide_eq_true hka]
          exact mem_map_of_mem (mem_filter.mp ha).1
      cases hq : q r <;> simp [hk, hq, hnone, Option.filter]
    · cases hq : q r <;> simp [hk, hq, ih hrows]

def get (key : α → κ) (k : κ) (table : List α) : Option α := table.find? fun r => key r = k

theorem mem_of_get {k : κ} (h : get key k table = some r) : r ∈ table ∧ key r = k := by
  have hkey := find?_some h
  exact ⟨mem_of_find?_eq_some h, of_decide_eq_true hkey⟩

theorem get_eq_none_iff {k : κ} : get key k table = none ↔ ∀ r ∈ table, key r ≠ k := by
  simp [get, find?_eq_none]

theorem get_of_mem (h : (table.map key).Nodup) (hr : r ∈ table) :
    get key (key r) table = some r := by
  cases hget : get key (key r) table with
  | none => exact absurd rfl (get_eq_none_iff.mp hget r hr)
  | some r' =>
    obtain ⟨hr', hkey⟩ := mem_of_get hget
    rw [inj_on_of_nodup_map h hr' hr hkey]

/-! Counting after an upsert: at most one more, and no more when the row replaces one that counted
or does not count itself. -/

variable {p : α → Bool}

theorem countP_upsert : (upsert key row table).countP p =
    (table.filter fun r => key r ≠ key row).countP p + [row].countP p := by
  rw [upsert, countP_append]

theorem countP_upsert_le : (upsert key row table).countP p ≤ table.countP p + [row].countP p := by
  rw [countP_upsert]
  exact Nat.add_le_add_right filter_sublist.countP_le _

theorem countP_upsert_le_succ : (upsert key row table).countP p ≤ table.countP p + 1 :=
  countP_upsert_le.trans (Nat.add_le_add_left countP_le_length _)

theorem countP_upsert_le_of_not (h : p row = false) :
    (upsert key row table).countP p ≤ table.countP p := by
  have hle : (upsert key row table).countP p ≤ table.countP p + [row].countP p := countP_upsert_le
  simpa [h] using hle

theorem countP_upsert_le_of_mem (hr : r ∈ table) (hkey : key r = key row) (hp : p r = true) :
    (upsert key row table).countP p ≤ table.countP p := by
  have hspl := countP_eq_countP_filter_add table p fun r => key r ≠ key row
  have hrep : 0 < (table.filter fun r => !decide (key r ≠ key row)).countP p :=
    countP_pos_iff.mpr ⟨r, mem_filter.mpr ⟨hr, by simp [hkey]⟩, hp⟩
  have hrow : [row].countP p ≤ 1 := countP_le_length
  rw [countP_upsert]
  omega

end

/-! ### Ordered results -/

def orderBy (column : α → ℕ) (rows : List α) : List α :=
  rows.insertionSort fun a b => column a ≤ column b

theorem perm_orderBy (column : α → ℕ) (rows : List α) : (orderBy column rows).Perm rows :=
  perm_insertionSort _ rows

@[simp] theorem mem_orderBy {column : α → ℕ} {rows : List α} {r : α} :
    r ∈ orderBy column rows ↔ r ∈ rows :=
  (perm_orderBy column rows).mem_iff

theorem pairwise_orderBy (column : α → ℕ) (rows : List α) :
    (orderBy column rows).Pairwise fun a b => column a ≤ column b :=
  haveI : Std.Total fun a b : α => column a ≤ column b :=
    ⟨fun a b => le_total (column a) (column b)⟩
  haveI : IsTrans α fun a b => column a ≤ column b := ⟨fun _ _ _ => le_trans⟩
  rows.pairwise_insertionSort _

/-! ### Aggregates -/

def total (column : α → ℕ) (rows : List α) : ℕ := (rows.map column).sum

@[simp] theorem total_append (column : α → ℕ) (a b : List α) :
    total column (a ++ b) = total column a + total column b := by
  simp [total]

def maxOf (measure : α → ℕ) (rows : List α) : ℕ := (rows.map measure).foldr max 0

theorem maxOf_le {measure : α → ℕ} {rows : List α} {bound : ℕ} (h : ∀ r ∈ rows, measure r ≤ bound) :
    maxOf measure rows ≤ bound := by
  induction rows with
  | nil => exact Nat.zero_le _
  | cons r rows ih =>
    have hr : measure r ≤ bound := h r (.head _)
    have hrows : maxOf measure rows ≤ bound := ih fun r hr => h r (.tail _ hr)
    exact max_le hr hrows

def maxPerGroup [DecidableEq κ] (key : α → κ) (measure : List α → ℕ) (rows : List α) : ℕ :=
  maxOf (fun r => measure (rows.filter fun r' => key r' = key r)) rows

end Komms.Table
