import Komms.Lib.Table

/-!
# Row transitions and tables with a primary key

An update of a table prepared ahead of its commit is a list of transitions, each a row before and
after.  The commit checks that the rows before are current, and then applies the transitions by key.

* `applyTransitions_eq_map`: transitions that cover the rows satisfying `p` change just those.
* `mem_put_iff`: a row put in the place of the one with its key.
* `find?_eq_some_of_unique`: a row that alone satisfies a condition is the one found by it.

`Keyed` is a table whose rows have distinct keys, in the order of its rows.  `put` replaces the row
with a key where it stands, or adds a row at the end; `putAll` does so for a list of rows, and
`filter` deletes.
-/

namespace Komms.Table

open List

variable {α κ : Type}

/-- The transitions that change the rows satisfying `p`. -/
def transitionsOf (p : α → Bool) (change : α → α) (table : List α) : List (α × α) :=
  (table.filter p).map fun row => (row, change row)

variable {p : α → Bool} {change : α → α} {table : List α} {β : Type}

theorem mem_transitionsOf {t : α × α} :
    t ∈ transitionsOf p change table ↔ t.1 ∈ table ∧ p t.1 = true ∧ t.2 = change t.1 := by
  simp only [transitionsOf, mem_map, mem_filter]
  constructor
  · rintro ⟨_, ⟨hrow, hp⟩, rfl⟩
    exact ⟨hrow, hp, rfl⟩
  · rintro ⟨hrow, hp, hchange⟩
    exact ⟨t.1, ⟨hrow, hp⟩, Prod.ext rfl hchange.symm⟩

section

variable [DecidableEq κ] {key : α → κ} {p : α → Bool} {change : α → α}

/-- The table with each row replaced for which there is a transition. -/
def applyTransitions (key : α → κ) (transitions : List (α × α)) (table : List α) : List α :=
  table.map fun row =>
    match transitions.find? fun t => key t.1 = key row with
    | some t => t.2
    | none => row

variable {transitions : List (α × α)} {table : List α}

theorem applyTransitions_eq_map
    (hsnd : ∀ t ∈ transitions, ∀ row ∈ table, key t.1 = key row → p row = true ∧ t.2 = change row)
    (hcom : ∀ row ∈ table, p row = true → ∃ t ∈ transitions, key t.1 = key row) :
    applyTransitions key transitions table =
      table.map fun row => if p row then change row else row := by
  refine map_congr_left fun row hrow => ?_
  cases hfind : transitions.find? fun t => key t.1 = key row with
  | some t =>
    have hkey : key t.1 = key row := by simpa using find?_some hfind
    obtain ⟨hp, hchange⟩ := hsnd t (mem_of_find?_eq_some hfind) row hrow hkey
    simp only [hp, if_true]
    exact hchange
  | none =>
    have hp : p row ≠ true := by
      intro hp
      obtain ⟨t, ht, hkey⟩ := hcom row hrow hp
      exact find?_eq_none.mp hfind t ht (decide_eq_true hkey)
    simp only [hp]
    rfl

theorem map_applyTransitions {β : Type} {column : α → β}
    (h : ∀ t ∈ transitions, ∀ row ∈ table, key t.1 = key row → column t.2 = column row) :
    (applyTransitions key transitions table).map column = table.map column := by
  unfold applyTransitions
  rw [map_map]
  refine map_congr_left fun row hrow => ?_
  simp only [Function.comp]
  split
  · next t hfind =>
    have hkey : key t.1 = key row := by simpa using find?_some hfind
    exact h t (mem_of_find?_eq_some hfind) row hrow hkey
  · rfl

end

/-- Rows that each come from one row with their column. -/
theorem map_filterMap_sublist {g : α → Option β} {column : β → κ} {column' : α → κ}
    (h : ∀ a b, g a = some b → column b = column' a) (table : List α) :
    ((table.filterMap g).map column).Sublist (table.map column') := by
  induction table with
  | nil => exact .slnil
  | cons a rows ih =>
    cases hg : g a with
    | none =>
      rw [filterMap_cons_none hg]
      exact ih.cons _
    | some b =>
      rw [filterMap_cons_some hg, map_cons, map_cons, h a b hg]
      exact ih.cons_cons _

/-! ### Single rows -/

/-- Replace the row with the key of `row` where it stands, or append `row`. -/
def put [DecidableEq κ] (key : α → κ) (row : α) (table : List α) : List α :=
  if table.any fun old => key old = key row then
    table.map fun old => if key old = key row then row else old
  else table ++ [row]

section

variable [DecidableEq κ] {key : α → κ} {row r : α} {table : List α}

theorem put_of_get_none (h : get key (key row) table = none) :
    put key row table = table ++ [row] := by
  rw [put, if_neg]
  simpa using get_eq_none_iff.mp h

theorem put_of_get_some {old : α} (h : get key (key row) table = some old) :
    put key row table = table.map fun old => if key old = key row then row else old := by
  obtain ⟨hmem, hkey⟩ := mem_of_get h
  rw [put, if_pos]
  exact any_eq_true.mpr ⟨old, hmem, decide_eq_true hkey⟩

theorem mem_put_iff : r ∈ put key row table ↔ r ∈ table ∧ key r ≠ key row ∨ r = row := by
  cases hget : get key (key row) table with
  | none =>
    have hne := get_eq_none_iff.mp hget
    rw [put_of_get_none hget, mem_append, mem_singleton]
    exact or_congr_left ⟨fun hr => ⟨hr, hne r hr⟩, And.left⟩
  | some old =>
    obtain ⟨hmem, hkey⟩ := mem_of_get hget
    rw [put_of_get_some hget, mem_map]
    constructor
    · rintro ⟨_, hr', rfl⟩
      split_ifs with h
      · exact .inr rfl
      · exact .inl ⟨hr', h⟩
    · rintro (⟨hr, hne⟩ | rfl)
      · exact ⟨r, hr, if_neg hne⟩
      · exact ⟨old, hmem, if_pos hkey⟩

theorem map_key_put_of_get {old : α} (h : get key (key row) table = some old) :
    (put key row table).map key = table.map key := by
  rw [put_of_get_some h, map_map]
  refine map_congr_left fun r _ => ?_
  by_cases hr : key r = key row
  · simp [hr]
  · simp [hr]

theorem nodup_put (h : (table.map key).Nodup) : ((put key row table).map key).Nodup := by
  cases hget : get key (key row) table with
  | some old => rwa [map_key_put_of_get hget]
  | none =>
    rw [put_of_get_none hget]
    exact nodup_snoc h (get_eq_none_iff.mp hget)

end

theorem find?_eq_some_of_unique {a : α} (ha : a ∈ table) (hp : p a = true)
    (hunique : ∀ b ∈ table, p b = true → b = a) : table.find? p = some a := by
  cases hfind : table.find? p with
  | none => exact absurd hp (find?_eq_none.mp hfind a ha)
  | some b => rw [hunique b (mem_of_find?_eq_some hfind) (find?_some hfind)]

/-- Replace the first row that satisfies `p`, if there is one. -/
def updateFirst (p : α → Bool) (change : α → α) : List α → Option (List α)
  | [] => none
  | row :: rows => if p row then some (change row :: rows)
    else (updateFirst p change rows).map (row :: ·)

theorem isSome_updateFirst_iff :
    (updateFirst p change table).isSome = true ↔ ∃ row ∈ table, p row = true := by
  induction table with
  | nil => simp [updateFirst]
  | cons row rows ih =>
    rw [updateFirst]
    split_ifs with hp
    · simp [hp]
    · simp [hp, ih]

theorem map_updateFirst {column : α → β} {table' : List α}
    (h : updateFirst p change table = some table')
    (hcol : ∀ row, column (change row) = column row) : table'.map column = table.map column := by
  induction table generalizing table' with
  | nil => simp [updateFirst] at h
  | cons row rows ih =>
    rw [updateFirst] at h
    split_ifs at h with hp
    · cases h
      simp [hcol]
    · obtain ⟨_, hrows, rfl⟩ := Option.map_eq_some_iff.mp h
      simp [ih hrows]

end Komms.Table

namespace Komms

structure Keyed {α κ : Type} (key : α → κ) where
  rows : List α
  nodup : (rows.map key).Nodup

namespace Keyed

variable {α κ : Type} {key : α → κ}

instance : Membership α (Keyed key) := ⟨fun t r => r ∈ t.rows⟩

theorem mem_rows {t : Keyed key} {r : α} : r ∈ t.rows ↔ r ∈ t := Iff.rfl

def empty : Keyed key := ⟨[], List.nodup_nil⟩

def filter (p : α → Bool) (t : Keyed key) : Keyed key :=
  ⟨t.rows.filter p, t.nodup.sublist (List.filter_sublist.map key)⟩

theorem mem_filter_iff {p : α → Bool} {t : Keyed key} {r : α} :
    r ∈ t.filter p ↔ r ∈ t ∧ p r = true :=
  List.mem_filter

theorem eq_of_key_eq {t : Keyed key} {r r' : α} (hr : r ∈ t) (hr' : r' ∈ t) (h : key r = key r') :
    r = r' :=
  List.inj_on_of_nodup_map t.nodup hr hr' h

variable [DecidableEq κ] {t : Keyed key} {row r : α} {k : κ}

def get (t : Keyed key) (k : κ) : Option α := Table.get key k t.rows

theorem get_eq_some_iff : t.get k = some r ↔ r ∈ t ∧ key r = k := by
  constructor
  · exact Table.mem_of_get
  · rintro ⟨hr, rfl⟩
    exact Table.get_of_mem t.nodup hr

def put (row : α) (t : Keyed key) : Keyed key := ⟨Table.put key row t.rows, Table.nodup_put t.nodup⟩

theorem mem_put_iff : r ∈ t.put row ↔ r ∈ t ∧ key r ≠ key row ∨ r = row := Table.mem_put_iff

def putAll (rows : List α) (t : Keyed key) : Keyed key := rows.foldl (fun t row => t.put row) t

theorem mem_putAll {rows : List α} (h : r ∈ t.putAll rows) :
    (r ∈ t ∧ ∀ row ∈ rows, key r ≠ key row) ∨ r ∈ rows := by
  induction rows generalizing t with
  | nil => exact .inl ⟨h, nofun⟩
  | cons row rows ih =>
    rcases ih h with ⟨hput, hne⟩ | hmem
    · rcases mem_put_iff.mp hput with ⟨hr, hkey⟩ | rfl
      · exact .inl ⟨hr, List.forall_mem_cons.mpr ⟨hkey, hne⟩⟩
      · exact .inr (.head _)
    · exact .inr (.tail _ hmem)

theorem exists_mem_put (row : α) (h : ∃ r ∈ t, key r = k) : ∃ r ∈ t.put row, key r = k := by
  obtain ⟨r, hr, rfl⟩ := h
  by_cases hkey : key r = key row
  · exact ⟨row, mem_put_iff.mpr (.inr rfl), hkey.symm⟩
  · exact ⟨r, mem_put_iff.mpr (.inl ⟨hr, hkey⟩), rfl⟩

/-- No key is lost. -/
theorem exists_mem_putAll (rows : List α) (h : ∃ r ∈ t, key r = k) :
    ∃ r ∈ t.putAll rows, key r = k := by
  induction rows generalizing t with
  | nil => exact h
  | cons row rows ih => exact ih (exists_mem_put row h)

end Keyed

end Komms
