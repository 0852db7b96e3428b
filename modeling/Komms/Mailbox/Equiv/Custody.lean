import Komms.Mailbox.Equiv.Operations

/-!
# Custody of deposits

A deposit that was accepted stays in the database, byte for byte, until it expires or until the
client whose live lease holds it acknowledges it by name.

* `deposits_transaction`: a call keeps every row or releases it, and adds at most one.
* `eq_of_stored`: two rows with the same bytes are the same row.
* `mailbox_custody`: the same over whole runs.
-/

namespace Komms.Mailbox

open Protocol (Envelope)
open List Except

variable {Idx Sealed : Type} [DecidableEq Idx] {V : Vault Idx Sealed} {config : Config}
  {db db' : Database Idx Sealed} {call : Call Idx} {d : DepositRow Idx Sealed}

/-- The call may delete the row: the row is expired at its clock, or it is an acknowledgement that
names the row, from the client of an unexpired lease that holds it. -/
def Released (V : Vault Idx Sealed) (db : Database Idx Sealed) (call : Call Idx)
    (d : DepositRow Idx Sealed) : Prop :=
  d.expiresAt ≤ call.now ∨
    ∃ client leaseId rowIds, call.request = .ack client leaseId rowIds ∧ d.rowId ∈ rowIds ∧
      ∃ lease ∈ db.leases, lease.leaseId = leaseId ∧ lease.clientIdx = V.clientIndex client ∧
        call.now < lease.expiresAt ∧ Pending db leaseId d.rowId

/-- The rows after a call: each old one is kept or released, and each new one has the next
number. -/
structure Custody (V : Vault Idx Sealed) (db : Database Idx Sealed) (call : Call Idx)
    (db' : Database Idx Sealed) : Prop where
  kept : ∀ d ∈ db.deposits, d ∈ db'.deposits ∨ Released V db call d
  old_or_new : ∀ d ∈ db'.deposits, d ∈ db.deposits ∨ d.sequence = db.nextSequence
  next_le : db.nextSequence ≤ db'.nextSequence

/-! ### One call -/

omit [DecidableEq Idx] in
theorem Custody.refl (db : Database Idx Sealed) : Custody V db call db :=
  ⟨fun _ => .inl, fun _ => .inl, le_rfl⟩

omit [DecidableEq Idx] in
theorem Custody.of_sweep (hdep : db'.deposits = (db.sweep call.now).deposits)
    (hnext : db'.nextSequence = db.nextSequence) : Custody V db call db' where
  kept d hd := by
    rw [hdep, mem_sweep_deposits]
    by_cases hexp : d.expiresAt ≤ call.now
    · exact .inr (.inl hexp)
    · exact .inl ⟨hd, Nat.lt_of_not_le hexp⟩
  old_or_new d hd := .inl (mem_sweep_deposits.mp (hdep ▸ hd)).1
  next_le := hnext.ge

variable {draws : Draws Idx} {client encoded : Bytes} {envelope : Envelope}
  {disposition : Disposition} {now : ℕ}

section

variable (h : Sound V config db)

include h

/-- **A call keeps every deposit or releases it.** -/
theorem deposits_transaction {response : Response}
    (hok : call.transaction V config db = .ok (db', response)) : Custody V db call db' := by
  obtain ⟨-, rfl⟩ | ⟨client, db₁, _, -, hadm, hwrite⟩ := transaction_eq_ok hok
  · exact .of_sweep rfl rfl
  have heq := (admitClient_eq_ok hadm).2
  have hdep : db₁.deposits = (db.sweep call.now).deposits := by rw [heq]
  have hnext : db₁.nextSequence = db.nextSequence := by
    rw [heq]
    rfl
  have hcus : Custody V db call db₁ := .of_sweep hdep hnext
  cases hwrite with
  | none => exact hcus
  | deposit hrow =>
    refine ⟨fun d hd => (hcus.kept d hd).imp_left (mem_append_left _), fun d hd => ?_, ?_⟩
    · rcases mem_append.mp hd with hold | hnew
      · exact hcus.old_or_new d hold
      · rw [mem_singleton.mp hnew, hrow.row_eq, ← hnext]
        exact .inr rfl
    · exact hcus.next_le.trans (Nat.le_succ _)
  | register | grant =>
    -- Registering and leasing leave the deposits alone.
    refine .of_sweep (.trans ?_ hdep) (.trans ?_ hnext)
    · exact (congrArg Database.deposits (registerAll_eq ..)).trans rfl
    · exact (congrArg Database.nextSequence (registerAll_eq ..)).trans rfl
  | @ack leaseId rowIds lease rows db₂ _ hreq hack hrows hclose =>
    obtain ⟨hsnd, -, hsub, hnext₂, -, hrem⟩ :=
      acknowledgeRows_eq_ok (h.admitClient hadm) hack.pending hrows
    have hsame : db'.deposits = db₂.deposits ∧ db'.nextSequence = db₂.nextSequence := by
      rw [(closeLease_eq_ok hsnd hclose).2]
      exact ⟨rfl, rfl⟩
    refine ⟨fun d hd => ?_, fun d hd => ?_, ?_⟩
    · rcases hcus.kept d hd with hkept | hrel
      · rw [hsame.1]
        refine (hrem d hkept).imp_right fun hrow => .inr ?_
        have hname := (namedRows_eq_ok hack.rows_eq).1 ▸ mem_map_of_mem hrow
        obtain ⟨m, hm, hid, hrowI, hpend⟩ := hack.pending.2 _ hrow
        have hmem := hack.mem
        rw [heq] at hmem hm
        exact ⟨client, leaseId, rowIds, hreq, hname, lease, sweep_leases_sublist.subset hmem,
          hack.id_eq, hack.holder, hack.live, m, sweep_leaseRows_sublist.subset hm, hid,
          hrowI, hpend⟩
      · exact .inr hrel
    · exact hcus.old_or_new d (hsub.subset (hsame.1 ▸ hd))
    · rw [hsame.2, hnext₂]
      exact hcus.next_le

theorem custody_step : Custody V db call (call.run V config db).state :=
  Effect.ofExcept_state (.refl db) fun _ _ => deposits_transaction h

/-! ### Bytes -/

/-- **No bytes are stored twice.** -/
theorem eq_of_stored {d' : DepositRow Idx Sealed} (hd : d ∈ db.deposits) (hd' : d' ∈ db.deposits)
    (hsto : Stored V d encoded) (hsto' : Stored V d' encoded) : d = d' := by
  obtain ⟨envelope, hdec, htoken, hcon⟩ := indexes_of_stored hsto
  obtain ⟨envelope', hdec', htoken', hcon'⟩ := indexes_of_stored hsto'
  obtain rfl : envelope = envelope' := ok.inj (hdec.symm.trans hdec')
  refine inj_on_of_nodup_map h.deposits.logical_keys hd hd' (Prod.ext ?_ ?_)
  · exact htoken.trans htoken'.symm
  · exact hcon.trans hcon'.symm

theorem stored_of_accepted
    (hok : depositInner V config draws db client envelope encoded now = .ok (db', .accepted)) :
    ∃ d ∈ db'.deposits, Stored V d encoded := by
  obtain ⟨db₁, allowed, hadm, ⟨rfl, hdup⟩ | ⟨-, row, hrow, rfl⟩⟩ := depositInner_eq_ok hok
  · obtain ⟨d, hd, record, hopen, rfl⟩ := hdup rfl
    obtain ⟨encoded, hsto⟩ := (h.admitClient hadm).deposits.valid d hd
    obtain ⟨record', hopen', rfl, hlen⟩ := stored_iff.mp hsto
    obtain rfl : record = record' := ok.inj (hopen.symm.trans hopen')
    exact ⟨d, hd, hsto⟩
  · exact ⟨row, mem_append_right _ (mem_singleton_self _), hrow.stored⟩

omit h in
theorem old_of_redeposit (hd : d ∈ db.deposits) (hsto : Stored V d encoded)
    (hlive : now < d.expiresAt)
    (hok : depositInner V config draws db client envelope encoded now = .ok (db', disposition)) :
    ∀ d' ∈ db'.deposits, d' ∈ db.deposits := by
  obtain ⟨db₁, allowed, hadm, hwrite⟩ := depositInner_eq_ok hok
  have hdep : db₁.deposits = (db.sweep now).deposits := by rw [(admitClient_eq_ok hadm).2]
  rcases hwrite with ⟨rfl, -⟩ | ⟨-, row, hrow, rfl⟩
  · exact fun d' hd' => (mem_sweep_deposits.mp (hdep ▸ hd')).1
  · -- A new row would have the indexes of the stored one.
    obtain ⟨stored, hdec, htoken, hcon⟩ := indexes_of_stored hsto
    obtain ⟨inserted, hdec', htoken', hcon'⟩ := indexes_of_stored hrow.stored
    obtain rfl : stored = inserted := ok.inj (hdec.symm.trans hdec')
    have hconf := hrow.free d (hdep ▸ mem_sweep_deposits.mpr ⟨hd, hlive⟩)
    simp [DepositRow.conflicts, htoken, htoken', hcon, hcon'] at hconf

/-! ### Whole runs -/

/-- Along a run a row is kept, or some call of the run releases it. -/
theorem kept_or_released (calls : List (Call Idx)) (hd : d ∈ db.deposits) :
    d ∈ (run V config db calls).deposits ∨
      ∃ done call rest, calls = done ++ call :: rest ∧ d ∈ (run V config db done).deposits ∧
        Released V (run V config db done) call d := by
  induction calls generalizing db with
  | nil => exact .inl hd
  | cons call calls ih =>
    rcases (custody_step h).kept d hd with hkept | hrel
    · rcases ih (sound_step h) hkept with hkept | ⟨done, later, rest, rfl, hmem, hrel⟩
      · exact .inl hkept
      · exact .inr ⟨call :: done, later, rest, rfl, hmem, hrel⟩
    · exact .inr ⟨[], call, calls, rfl, hd, hrel⟩

/-- A row of a later database is an old one or has a later number. -/
theorem old_or_later (calls : List (Call Idx)) (hd : d ∈ (run V config db calls).deposits) :
    d ∈ db.deposits ∨ db.nextSequence ≤ d.sequence := by
  induction calls generalizing db with
  | nil => exact .inl hd
  | cons call calls ih =>
    have hcus : Custody V db call (call.run V config db).state := custody_step h
    rcases ih (sound_step h) hd with hmem | hlate
    · exact (hcus.old_or_new d hmem).imp_right fun heq => heq.ge
    · exact .inr (hcus.next_le.trans hlate)

end

/-- **Mailbox custody.**  In every run from an empty database, at any clocks: a stored row is
removed only by a call that releases it; a row never changes; no bytes are stored twice, and
depositing stored bytes again adds no row; an accepted deposit is stored. -/
theorem mailbox_custody (V : Vault Idx Sealed) (config : Config) (before after : List (Call Idx)) :
    let db := run V config .empty before
    let db' := run V config db after
    (∀ d ∈ db.deposits, d ∈ db'.deposits ∨
      ∃ done call rest, after = done ++ call :: rest ∧ d ∈ (run V config db done).deposits ∧
        Released V (run V config db done) call d) ∧
    (∀ d ∈ db.deposits, ∀ d' ∈ db'.deposits, d'.sequence = d.sequence → d' = d) ∧
    (∀ d ∈ db.deposits, ∀ d' ∈ db.deposits, ∀ encoded, Stored V d encoded → Stored V d' encoded →
      d = d') ∧
    ∀ (call : Call Idx) (client : Bytes) (envelope : Envelope) (encoded : Bytes),
      call.request = .deposit client envelope encoded →
        ((call.run V config db).result = .ok (.deposit .accepted) →
          ∃ d ∈ (call.run V config db).state.deposits, Stored V d encoded) ∧
        ∀ d ∈ db.deposits, Stored V d encoded → call.now < d.expiresAt →
          ∀ d' ∈ (call.run V config db).state.deposits, d' ∈ db.deposits := by
  intro db db'
  have hsnd : Sound V config db := sound_run .empty before
  refine ⟨fun _ => kept_or_released hsnd after, fun d hd d' hd' hseq => ?_,
    fun d hd d' hd' encoded => eq_of_stored hsnd hd hd',
    fun call client envelope encoded hreq => ?_⟩
  · rcases old_or_later hsnd after hd' with hold | hlate
    · exact inj_on_of_nodup_map hsnd.sequences hold hd hseq
    -- A later row has a sequence number that was not yet given out.
    · have hlt := hsnd.sequence_lt d hd
      omega
  · rw [Call.run, Call.transaction, hreq]
    dsimp only
    cases hres : depositInner V config call.draws db client envelope encoded call.now with
    | error e => exact ⟨nofun, fun _ _ _ _ d' hd' => hd'⟩
    | ok result =>
      obtain ⟨db₁, disposition⟩ := result
      refine ⟨fun hrsp => ?_, fun d hd hsto hlive => ?_⟩
      · obtain rfl : disposition = .accepted := by
          simpa [ok_bind, Effect.ofExcept] using hrsp
        exact stored_of_accepted hsnd hres
      · exact old_of_redeposit hd hsto hlive hres

end Komms.Mailbox
