import Komms.Lib.HashMap
import Komms.Lib.Checked

/-!
# Changes with expected values

A change names a key, the value expected there and the value to be written.  A batch of changes to
distinct keys that all find what they expect is applied as a whole (`applied_writeAll`), and moves
the number of entries by what it creates and deletes (`len_writeAll`).

A loop that writes a batch may refuse a write by a guard on the table at that moment.
`foldlM_write_eq_ok_iff` says when it runs to its end; a guard that looks at one key only can be
checked ahead (`admits_iff_forall`), a limit on the number of entries depends on the order
(`admits_room_iff`).
-/

namespace Komms

open List AList HashMap

structure Change (κ α : Type) where
  key : κ
  before : Option α
  after : Option α

namespace Change

variable {κ α ε : Type} [DecidableEq κ] {c : Change κ α} {cs : List (Change κ α)}
  {m m' : HashMap κ α}

def write (m : HashMap κ α) (c : Change κ α) : HashMap κ α :=
  match c.after with
  | some a => m.insert c.key a
  | none => m.erase c.key

def writeAll (cs : List (Change κ α)) (m : HashMap κ α) : HashMap κ α := cs.foldl write m

def creates (c : Change κ α) : Bool := c.before.isNone && c.after.isSome

def deletes (c : Change κ α) : Bool := c.before.isSome && c.after.isNone

/-- The batch found what it expected and left what it says, and nothing else has changed. -/
structure Applied (cs : List (Change κ α)) (m m' : HashMap κ α) : Prop where
  before : ∀ c ∈ cs, m.lookup c.key = c.before
  after : ∀ c ∈ cs, m'.lookup c.key = c.after
  other : ∀ k, (∀ c ∈ cs, c.key ≠ k) → m'.lookup k = m.lookup k

/-- The batch names each key once, expects the value that is there and changes it. -/
structure Planned (cs : List (Change κ α)) (m : HashMap κ α) : Prop where
  nodup : (cs.map key).Nodup
  before : ∀ c ∈ cs, m.lookup c.key = c.before
  ne : ∀ c ∈ cs, c.before ≠ c.after

theorem Planned.of_map {τ : Type} {f : τ → Change κ α} {ts : List τ}
    (hnd : (ts.map fun t => (f t).key).Nodup)
    (h : ∀ t ∈ ts, (f t).before ≠ (f t).after ∧ m.lookup (f t).key = (f t).before) :
    Planned (ts.map f) m where
  nodup := by rwa [map_map]
  before := forall_mem_map.mpr fun t ht => (h t ht).2
  ne := forall_mem_map.mpr fun t ht => (h t ht).1

theorem Planned.eq_nil (h : Planned cs m) (hsame : Applied cs m m) : cs = [] :=
  eq_nil_iff_forall_not_mem.mpr fun c hc =>
    h.ne c hc ((hsame.before c hc).symm.trans (hsame.after c hc))

/-- A key is named by one of the changes, or nothing has happened to it. -/
theorem Applied.cases (h : Applied cs m m') (k : κ) :
    (∃ c ∈ cs, c.key = k ∧ m.lookup k = c.before ∧ m'.lookup k = c.after) ∨
      (∀ c ∈ cs, c.key ≠ k) ∧ m'.lookup k = m.lookup k := by
  by_cases hk : ∃ c ∈ cs, c.key = k
  · obtain ⟨c, hc, rfl⟩ := hk
    exact .inl ⟨c, hc, rfl, h.before c hc, h.after c hc⟩
  · have hne : ∀ c ∈ cs, c.key ≠ k := fun c hc heq => hk ⟨c, hc, heq⟩
    exact .inr ⟨hne, h.other k hne⟩

/-! ### What is found afterwards -/

theorem lookup_write_self : (write m c).lookup c.key = c.after := by
  unfold write
  cases c.after with
  | none => exact lookup_erase c.key m
  | some a => exact lookup_insert m

variable {k : κ} {guard : HashMap κ α → Change κ α → Prop}

theorem lookup_write_of_ne (h : c.key ≠ k) : (write m c).lookup k = m.lookup k := by
  unfold write
  cases c.after with
  | none => exact lookup_erase_ne h.symm
  | some a => exact lookup_insert_ne h.symm

theorem lookup_writeAll_of_ne (h : ∀ c ∈ cs, c.key ≠ k) :
    (writeAll cs m).lookup k = m.lookup k := by
  induction cs generalizing m with
  | nil => rfl
  | cons c cs ih =>
    rw [writeAll, foldl_cons, ← writeAll, ih fun c' hc' => h c' (.tail _ hc'),
      lookup_write_of_ne (h c (.head _))]

theorem lookup_writeAll_of_mem (hnd : (cs.map key).Nodup) (hc : c ∈ cs) :
    (writeAll cs m).lookup c.key = c.after := by
  induction cs generalizing m with
  | nil => cases hc
  | cons d cs ih =>
    obtain ⟨hd, hcs⟩ := nodup_cons.mp hnd
    rw [writeAll, foldl_cons, ← writeAll]
    cases hc with
    | head =>
      have hne : ∀ c' ∈ cs, c'.key ≠ c.key := fun c' hc' heq =>
        hd (heq ▸ mem_map_of_mem hc')
      rw [lookup_writeAll_of_ne hne, lookup_write_self]
    | tail _ hc => exact ih hcs hc

/-- **A batch with distinct keys is applied as a whole.** -/
theorem applied_writeAll (h : Planned cs m) : Applied cs m (writeAll cs m) where
  before := h.before
  after _ hc := lookup_writeAll_of_mem h.nodup hc
  other _ h := lookup_writeAll_of_ne h

/-! ### How many entries there are afterwards -/

theorem len_write (hbef : m.lookup c.key = c.before) :
    HashMap.len (write m c) + c.deletes.toNat = HashMap.len m + c.creates.toNat := by
  obtain ⟨k, before, after⟩ := c
  have hmem : k ∈ m ↔ before.isSome = true := by
    rw [← lookup_isSome, hbef]
  cases after with
  | some a =>
    simp only [write, len_insert, deletes, creates, hmem]
    cases before <;> simp
  | none =>
    cases before with
    | none =>
      have hnot : k ∉ m.keys := fun h => by simpa using hmem.mp (mem_keys.mpr h)
      simp only [write, len_eq_length_keys, keys_erase, erase_of_not_mem hnot, deletes, creates]
      rfl
    | some b =>
      have hin : k ∈ m.keys := mem_keys.mp (hmem.mpr rfl)
      have hpos : 0 < m.keys.length := length_pos_of_mem hin
      simp only [write, len_eq_length_keys, keys_erase, length_erase_of_mem hin,
        deletes, creates, Option.isSome_some, Option.isNone_some, Option.isNone_none, Bool.and_self,
        Bool.false_and, Bool.toNat_true, Bool.toNat_false]
      omega

/-- What the rest of a batch expects is still there after a write to another key. -/
theorem Planned.tail (h : Planned (c :: cs) m) : Planned cs (write m c) where
  nodup := (nodup_cons.mp h.nodup).2
  before d hd := by
    have hne : c.key ≠ d.key := fun heq =>
      (nodup_cons.mp h.nodup).1 (heq ▸ mem_map_of_mem hd)
    rw [lookup_write_of_ne hne]
    exact h.before d (.tail _ hd)
  ne d hd := h.ne d (.tail _ hd)

theorem len_writeAll (h : Planned cs m) :
    HashMap.len (writeAll cs m) + cs.countP deletes = HashMap.len m + cs.countP creates := by
  induction cs generalizing m with
  | nil => rfl
  | cons c cs ih =>
    have hhead := len_write (h.before c (.head _))
    have htail := ih h.tail
    rw [countP_cons, countP_cons]
    simp only [writeAll, foldl_cons] at htail ⊢
    cases hd : c.deletes <;> cases hcr : c.creates <;> simp only [hd, hcr] at hhead <;>
      simp at hhead ⊢ <;>
      omega

/-! ### Guarded loops -/

/-- Every write of the batch passes the guard at its turn. -/
def Admits (guard : HashMap κ α → Change κ α → Prop) : List (Change κ α) → HashMap κ α → Prop
  | [], _ => True
  | c :: cs, m => guard m c ∧ Admits guard cs (write m c)

/-- **When a guarded loop runs to its end**, and with which table. -/
theorem foldlM_write_eq_ok_iff {step : HashMap κ α → Change κ α → Except ε (HashMap κ α)}
    (hstep : ∀ m c m', step m c = .ok m' ↔ guard m c ∧ m' = write m c) :
    cs.foldlM step m = .ok m' ↔ Admits guard cs m ∧ m' = writeAll cs m := by
  induction cs generalizing m with
  | nil =>
    exact ⟨fun h => ⟨trivial, (Except.ok.inj h).symm⟩, fun h => h.2 ▸ rfl⟩
  | cons c cs ih =>
    rw [foldlM_cons, bind_eq_ok_iff]
    constructor
    · rintro ⟨m₁, hm₁, hrest⟩
      obtain ⟨hguard, rfl⟩ := (hstep m c m₁).mp hm₁
      obtain ⟨hadm, rfl⟩ := ih.mp hrest
      exact ⟨⟨hguard, hadm⟩, rfl⟩
    · rintro ⟨⟨hguard, hadm⟩, rfl⟩
      exact ⟨_, (hstep m c _).mpr ⟨hguard, rfl⟩, ih.mpr ⟨hadm, rfl⟩⟩

theorem admits_and {A B : HashMap κ α → Change κ α → Prop} :
    Admits (fun m c => A m c ∧ B m c) cs m ↔ Admits A cs m ∧ Admits B cs m := by
  induction cs generalizing m with
  | nil => simp [Admits]
  | cons c cs ih =>
    simp only [Admits, ih]
    exact and_and_and_comm

/-- A guard that looks only at the key it writes can be checked ahead. -/
theorem admits_iff_forall
    (hloc : ∀ m m' c, m.lookup c.key = m'.lookup c.key → guard m c → guard m' c)
    (hnd : (cs.map key).Nodup) : Admits guard cs m ↔ ∀ c ∈ cs, guard m c := by
  induction cs generalizing m with
  | nil => simp [Admits]
  | cons c cs ih =>
    obtain ⟨hc, hcs⟩ := nodup_cons.mp hnd
    have hsame : ∀ d ∈ cs, (write m c).lookup d.key = m.lookup d.key := fun d hd =>
      lookup_write_of_ne fun heq => hc (heq ▸ mem_map_of_mem hd)
    rw [Admits, ih hcs, forall_mem_cons]
    refine and_congr_right fun _ => forall₂_congr fun d hd => ?_
    exact ⟨hloc _ _ d (hsame d hd), hloc _ _ d (hsame d hd).symm⟩

/-- Starting from `n` entries, no creation of the batch meets a full table. -/
def Room (limit : ℕ) : ℕ → List (Change κ α) → Prop
  | _, [] => True
  | n, c :: cs => (c.creates = true → n < limit) ∧
      Room limit (n + c.creates.toNat - c.deletes.toNat) cs

instance decidableRoom (limit : ℕ) : ∀ (n : ℕ) (cs : List (Change κ α)), Decidable (Room limit n cs)
  | _, [] => .isTrue trivial
  | n, c :: cs =>
    have := decidableRoom limit (n + c.creates.toNat - c.deletes.toNat) cs
    inferInstanceAs (Decidable (_ ∧ _))

/-- A limit on the number of entries is met at each turn exactly when there is room in this
order. -/
theorem admits_room_iff {limit : ℕ} (h : Planned cs m) :
    Admits (fun m c => m.lookup c.key = none → c.after ≠ none → HashMap.len m < limit) cs m ↔
      Room limit (HashMap.len m) cs := by
  induction cs generalizing m with
  | nil => simp [Admits, Room]
  | cons c cs ih =>
    have hlen := len_write (h.before c (.head _))
    have hnext : HashMap.len m + c.creates.toNat - c.deletes.toNat = HashMap.len (write m c) := by
      omega
    rw [Admits, Room, hnext, ih h.tail]
    rw [h.before c (.head _), creates]
    cases c.before <;> cases c.after <;> simp

end Change

end Komms
