import Komms.Attachment.Equiv.Moves

/-!
# Which chunk files are collected

A collection keeps the files that readable rows refer to.  What a row of an unknown version refers
to cannot be known: reconciliation keeps every file while there is one, but the other callers do not
look (`Sample.quarantined_file_collected`).
-/

namespace Komms.Attachment

variable {Digest : Type} [DecidableEq Digest]

/-- The calls of the store that write object rows or collect files. -/
inductive MediaOp (Digest : Type) where
  /-- A transaction writes any rows. -/
  | commit (objects : Keyed (@MediaObjectRecord.localId Digest))
  | setMediaObjectState (localId : Octets 16) (state : MediaTransferState)
  | deleteMediaObject (localId : Octets 16)
  | collectMediaGarbage
  | finishMediaReconciliation

namespace MediaOp

/-- The rows after a call, and the flag with which it goes on to collect files, if it does. -/
def write (s : MediaStore Digest) :
    MediaOp Digest → Except StoreError (MediaStore Digest × Option Bool)
  | commit objects => .ok ({ s with objects }, none)
  | setMediaObjectState localId state => do
    let object ← s.requireObject localId
    (if state.active && !object.state.active then do
      let transfer ← s.requireTransfer object.transferId
      s.enforceActiveLimits transfer localId
    else .ok ())
    rejectIf (¬ (object.withState state).Valid) .mediaState
    return ({ s with objects := s.objects.put (object.withState state) },
      if state.negativeTerminal then some false else none)
  | deleteMediaObject localId =>
    .ok ({ s with
      objects := s.objects.filter fun object => object.localId ≠ localId
      unknownObjects := s.unknownObjects.filter fun id => id ≠ localId }, some false)
  | collectMediaGarbage => .ok (s, some false)
  | finishMediaReconciliation => .ok (s, some (s.unknownObjects ≠ []))

def apply (s : MediaStore Digest) (op : MediaOp Digest) : MediaStore Digest :=
  match op.write s with
  | .error _ => s
  | .ok (t, flag) => flag.elim t t.garbageCollect

/-- No collection finds a file of no readable row beside an unknown row. -/
def Spares (s : MediaStore Digest) (op : MediaOp Digest) : Prop :=
  ∀ t, op.write s = .ok (t, some false) → t.unknownObjects ≠ [] →
    ∀ address, s.files.lookup address ≠ none → address ∈ t.referenced

end MediaOp

/-- No file of a readable row is removed, and beside an unknown row no file at all. -/
structure FilesSafe (s s' : MediaStore Digest) : Prop where
  referenced : ∀ address ∈ s'.referenced, s'.files.lookup address = s.files.lookup address
  quarantined : s'.unknownObjects ≠ [] →
    ∀ address, s'.files.lookup address = s.files.lookup address

variable {s t : MediaStore Digest} {op : MediaOp Digest} {flag : Option Bool}

omit [DecidableEq Digest] in
theorem files_of_write (h : op.write s = .ok (t, flag)) : t.files = s.files := by
  cases op with
  | setMediaObjectState localId state =>
    simp only [MediaOp.write, bind_eq_ok_iff] at h
    obtain ⟨_, -, -, -, -, -, h⟩ := h
    cases h
    rfl
  | _ => cases h; rfl

theorem filesSafe_apply_iff : FilesSafe s (op.apply s) ↔ op.Spares s := by
  unfold MediaOp.apply MediaOp.Spares
  cases hwr : op.write s with
  | error e => exact iff_of_true ⟨fun _ _ => rfl, fun _ _ => rfl⟩ nofun
  | ok result =>
    obtain ⟨t, flag⟩ := result
    have hfil := files_of_write hwr
    -- A collection leaves an address as it is, unless it removes its file.
    have hiff (address : Digest) : (t.garbageCollect false).files.lookup address =
        s.files.lookup address ↔ (s.files.lookup address ≠ none → address ∈ t.referenced) := by
      rw [MediaStore.lookup_garbageCollect, hfil]
      cases s.files.lookup address <;> simp [Option.filter]
    match flag with
    | none | some true =>
      exact iff_of_true ⟨fun _ _ => by rw [← hfil]; rfl, fun _ _ => by rw [← hfil]; rfl⟩ nofun
    | some false =>
      constructor
      · rintro h _ ⟨⟩ hunknown address
        exact (hiff address).mp (h.quarantined hunknown address)
      · intro h
        exact ⟨fun address hmem => (hiff address).mpr fun _ => hmem,
          fun hunknown address => (hiff address).mpr (h t rfl hunknown address)⟩

/-- **Files through a run**: those of readable rows are always kept, and those beside unknown rows
exactly when no collection that does not look for such rows finds one to remove. -/
theorem files_kept_iff (s : MediaStore Digest) (ops : List (MediaOp Digest)) :
    (∀ before op after, ops = before ++ op :: after →
      FilesSafe (before.foldl MediaOp.apply s) (op.apply (before.foldl MediaOp.apply s))) ↔
    ∀ before op after, ops = before ++ op :: after → op.Spares (before.foldl MediaOp.apply s) := by
  simp only [filesSafe_apply_iff]

namespace Sample

/-- A row of an unknown version, and a file that no readable row refers to. -/
def quarantined : MediaStore ℕ := ⟨.empty, .empty, [], [.zero 16], AList.insert 1 [7] ∅, .default⟩

/-- A transfer ends, and the file is gone. -/
theorem quarantined_file_collected : quarantined.files.lookup 1 = some [7] ∧
    (MediaOp.collectMediaGarbage.apply quarantined).files.lookup 1 = none ∧
    ¬ FilesSafe quarantined (MediaOp.collectMediaGarbage.apply quarantined) := by
  refine ⟨rfl, rfl, fun h => ?_⟩
  cases h.quarantined (List.cons_ne_nil _ _) 1

end Sample

end Komms.Attachment
