import Komms.Sneakernet.Recv

/-!
# What a pass over the inbox hands over

Along a pass every bundle of the inbox keeps its name or has its envelopes among those collected.
They reach the caller only when the pass ends without an error, so a bundle that was deleted before
an operation for a later entry fails is lost.

`Fails` and `Stops` say of an entry, by the operations made for it and by the variables of the pass
when it comes to the entry, whether it ends the pass; `ends_examine` is what the body of the loop
does in each case.  `recv_losesNothing_iff` says when nothing is lost.
-/

namespace Komms.Sneakernet

open List Function

variable {Envelope : Type} {codec : Codec Envelope} {entry : Entry} {s s' s'' : Pass Envelope}

/-- A file whose contents are a bundle of these envelopes. -/
def Codec.IsBundle (codec : Codec Envelope) (item : Option Item) (envelopes : List Envelope) :
    Prop :=
  ∃ bytes, item = some (.file bytes) ∧ codec.bundleImport bytes = some envelopes

theorem not_isBundle {item : Option Item} {content : Bytes} (hfile : item = some (.file content))
    (himport : codec.bundleImport content = none) (envelopes : List Envelope) :
    ¬ codec.IsBundle item envelopes := by
  rintro ⟨_, hbytes, himport'⟩
  rw [hfile] at hbytes
  cases hbytes
  rw [himport] at himport'
  cases himport'

/-! ### Renaming aside -/

/-- The name that an attempt of `quarantine` tries, by the counter before the first one. -/
def tried (codec : Codec Envelope) (entry : Entry) (counter : UInt64) (attempt : ℕ) : Bytes :=
  (candidate codec entry (counter + .ofNat (attempt - 1)) attempt).1

/-- An attempt finds the name that it tries in use. -/
def Occupied (codec : Codec Envelope) (entry : Entry) (inbox : Bytes → Option Item)
    (counter : UInt64) (attempt : ℕ) : Prop :=
  entry.symlinkMetadata attempt = true ∧ inbox (tried codec entry counter attempt) ≠ none

/-- The entry can be renamed aside: one of 64 names is free, and so is found after those in use. -/
def SetsAside (codec : Codec Envelope) (entry : Entry) (inbox : Bytes → Option Item)
    (counter : UInt64) : Prop :=
  entry.rename = true ∧ ∃ attempt < 64, entry.symlinkMetadata attempt = true ∧
    inbox (tried codec entry counter attempt) = none ∧
      ∀ earlier < attempt, Occupied codec entry inbox counter earlier

theorem candidate_snd (counter : UInt64) (attempt : ℕ) :
    (candidate codec entry (counter + .ofNat (attempt - 1)) attempt).2 =
      counter + .ofNat attempt := by
  cases attempt with
  | zero => rfl
  | succ attempt =>
    rw [candidate, Nat.add_sub_cancel, UInt64.add_assoc]
    simp

/-- A name that `quarantine` tries is not that of a bundle. -/
theorem isBundle_candidate (counter : UInt64) (attempt : ℕ) :
    isBundle (candidate codec entry counter attempt).1 = false := by
  have hbad (name : Bytes) : isBundle (name ++ ascii ".bad") = false := by
    have hsuffix : ¬ ascii ".kkb" <:+ name ++ ascii ".bad" := by
      intro h
      have hlast := h.getLast (by decide)
      simp [ascii] at hlast
    simp [isBundle, hsuffix]
  cases attempt with
  | zero => exact hbad _
  | succ attempt =>
    have happend (text : String) : ascii (text ++ ".bad") = ascii text ++ ascii ".bad" := by
      simp [ascii]
    rw [candidate]
    dsimp only
    rw [show s!".{counter.toNat}.bad" = s!".{counter.toNat}" ++ ".bad" from rfl, happend,
      ← append_assoc]
    exact hbad _

/-- A failed attempt leaves the inbox, and a successful one moves the entry to a free name. -/
theorem quarantine_cases (left : ℕ) : (quarantine codec entry s left).state.out = s.out ∧
    (¬ Returns (quarantine codec entry s left).result ∧
        (quarantine codec entry s left).state.inbox = s.inbox ∨
      Returns (quarantine codec entry s left).result ∧ ∃ name, s.inbox name = none ∧
        isBundle name = false ∧ (quarantine codec entry s left).state.inbox =
          update (update s.inbox entry.name none) name (s.inbox entry.name)) := by
  induction left generalizing s with
  | zero => exact ⟨rfl, .inl ⟨by simp [quarantine], rfl⟩⟩
  | succ left ih =>
    have hname := @isBundle_candidate _ codec entry s.counter (63 - left)
    unfold quarantine
    dsimp only
    split_ifs with hprobe hused hrename
    · exact ⟨rfl, .inl ⟨by simp, rfl⟩⟩
    · exact @ih { s with counter := (candidate codec entry s.counter (63 - left)).2 }
    · exact ⟨rfl, .inl ⟨by simp, rfl⟩⟩
    · exact ⟨rfl, .inr ⟨by simp, _, by simpa using hused, hname, rfl⟩⟩

/-- **When an entry is renamed aside**, of the attempts that are left after those that found a name
in use. -/
theorem returns_quarantine_iff {left attempt : ℕ} {counter : UInt64} (hleft : attempt + left = 64)
    (hcounter : s.counter = counter + .ofNat (attempt - 1))
    (hbefore : ∀ earlier < attempt, Occupied codec entry s.inbox counter earlier) :
    Returns (quarantine codec entry s left).result ↔ SetsAside codec entry s.inbox counter := by
  induction left generalizing s attempt with
  | zero =>
    refine iff_of_false (by simp [quarantine]) ?_
    rintro ⟨-, k, hk, -, hfree, -⟩
    exact (hbefore k (by omega)).2 hfree
  | succ left ih =>
    have hattempt : 63 - left = attempt := by omega
    have htried : (candidate codec entry s.counter attempt).1 =
        tried codec entry counter attempt := by
      rw [hcounter, tried]
    have hnext := @candidate_snd _ codec entry counter attempt
    rw [← hcounter] at hnext
    unfold quarantine
    dsimp only
    rw [hattempt, htried]
    -- An attempt that succeeds is the present one or comes after it.
    have hlater {k : ℕ} (hfree : s.inbox (tried codec entry counter k) = none) : attempt ≤ k := by
      by_contra hlt
      exact (hbefore k (by omega)).2 hfree
    split_ifs with hprobe hused hrename
    · refine iff_of_false (by simp) ?_
      rintro ⟨-, k, -, hlook, hfree, hearlier⟩
      rcases (hlater hfree).eq_or_lt with rfl | hlt
      · simp [hlook] at hprobe
      · simp [(hearlier attempt hlt).1] at hprobe
    · have hoccupied : Occupied codec entry s.inbox counter attempt :=
        ⟨by simpa using hprobe, Option.isSome_iff_ne_none.mp hused⟩
      refine @ih { s with counter := (candidate codec entry s.counter attempt).2 } (attempt + 1)
        (by omega) hnext fun earlier hlt => ?_
      rcases Nat.lt_succ_iff_lt_or_eq.mp hlt with hlt | rfl
      · exact hbefore earlier hlt
      · exact hoccupied
    · exact iff_of_false (by simp) fun h => by simp [h.1] at hrename
    · exact iff_of_true (by simp) ⟨by simpa using hrename, attempt, by omega, by simpa using hprobe,
        by simpa using hused, hbefore⟩

/-! ### What an entry comes to -/

/-- An operation fails that a file needs which fits into the pass. -/
def AdmitFails (codec : Codec Envelope) (entry : Entry) (content : Bytes) (s : Pass Envelope) :
    Prop :=
  content.length ≤ maxBytesPerRecv - s.bytesAdmitted ∧
    (entry.openFile = false ∨ entry.readToEnd = false ∨
      codec.bundleImport content = none ∧ ¬ SetsAside codec entry s.inbox s.counter ∨
      codec.bundleImport content ≠ none ∧ entry.removeFile = false)

/-- An operation fails that a file needs. -/
def FileFails (codec : Codec Envelope) (entry : Entry) (content : Bytes) (s : Pass Envelope) :
    Prop :=
  s.filesExamined < maxFilesPerRecv ∧
    (entry.metadata = false ∨
      maxBundleBytes < content.length ∧ ¬ SetsAside codec entry s.inbox s.counter ∨
      content.length ≤ maxBundleBytes ∧ AdmitFails codec entry content s)

/-- **An operation fails** that the entry needs: to read the listing, to look at it, to read or to
delete a bundle, or to rename aside what is not one. -/
def Fails (codec : Codec Envelope) (entry : Entry) (s : Pass Envelope) : Prop :=
  entry.nextEntry = false ∨
    isBundle entry.name = true ∧ s.entriesExamined < maxDirectoryEntriesPerRecv ∧
      (entry.fileType = false ∨ s.inbox entry.name = none ∨
        s.inbox entry.name = some .other ∧ ¬ SetsAside codec entry s.inbox s.counter ∨
        ∃ content, s.inbox entry.name = some (.file content) ∧ FileFails codec entry content s)

/-- A file is beyond a limit of the pass. -/
def FileStops (entry : Entry) (content : Bytes) (s : Pass Envelope) : Prop :=
  maxFilesPerRecv ≤ s.filesExamined ∨
    entry.metadata = true ∧ content.length ≤ maxBundleBytes ∧
      maxBytesPerRecv - s.bytesAdmitted < content.length

/-- **A limit of the pass is reached** at the entry. -/
def Stops (entry : Entry) (s : Pass Envelope) : Prop :=
  entry.nextEntry = true ∧ isBundle entry.name = true ∧
    (maxDirectoryEntriesPerRecv ≤ s.entriesExamined ∨ entry.fileType = true ∧
      ∃ content, s.inbox entry.name = some (.file content) ∧ FileStops entry content s)

/-- How a part of the body of the loop ends, by what makes it fail and what makes it stop. -/
inductive Ends (codec : Codec Envelope) (entry : Entry) (s : Pass Envelope) (fails stops : Prop) :
    Effect (Pass Envelope) TransportError Bool → Prop
  | failed {s' : Pass Envelope} {e : TransportError} : fails → s'.inbox = s.inbox →
      s.out <+: s'.out → Ends codec entry s fails stops ⟨s', .error e⟩
  | stopped {s' : Pass Envelope} : ¬ fails → stops → s'.inbox = s.inbox → s'.out = s.out →
      Ends codec entry s fails stops ⟨s', .ok false⟩
  | skipped {s' : Pass Envelope} : ¬ fails → ¬ stops → isBundle entry.name = false →
      s'.inbox = s.inbox → s'.out = s.out → Ends codec entry s fails stops ⟨s', .ok true⟩
  /-- A bundle is handed over and deleted. -/
  | taken {s' : Pass Envelope} {content : Bytes} {envelopes : List Envelope} :
      ¬ fails → ¬ stops → isBundle entry.name = true →
      s.inbox entry.name = some (.file content) →
      codec.bundleImport content = some envelopes → s'.inbox = update s.inbox entry.name none →
      s'.out = s.out ++ envelopes → Ends codec entry s fails stops ⟨s', .ok true⟩
  /-- What is not a bundle is renamed to a free name. -/
  | aside {s' : Pass Envelope} {name : Bytes} : ¬ fails → ¬ stops →
      (∀ envelopes, ¬ codec.IsBundle (s.inbox entry.name) envelopes) → s.inbox name = none →
      isBundle name = false →
      s'.inbox = update (update s.inbox entry.name none) name (s.inbox entry.name) →
      s'.out = s.out → Ends codec entry s fails stops ⟨s', .ok true⟩

variable {fails stops fails' stops' : Prop} {content : Bytes}
  {after : Effect (Pass Envelope) TransportError Bool}

theorem Ends.congr (h : Ends codec entry s fails stops after) (hinbox : s.inbox = s'.inbox)
    (hout : s.out = s'.out) (hfails : fails ↔ fails') (hstops : stops ↔ stops') :
    Ends codec entry s' fails' stops' after := by
  rw [hfails, hstops] at h
  cases h with
  | failed hfail hsame hprefix => exact .failed hfail (hsame.trans hinbox) (hout ▸ hprefix)
  | stopped hfail hstop hsame hsent =>
    exact .stopped hfail hstop (hsame.trans hinbox) (hsent.trans hout)
  | skipped hfail hstop hname hsame hsent =>
    exact .skipped hfail hstop hname (hsame.trans hinbox) (hsent.trans hout)
  | taken hfail hstop hname hfile himport hgone hsent =>
    rw [hinbox] at hfile hgone
    rw [hout] at hsent
    exact .taken hfail hstop hname hfile himport hgone hsent
  | aside hfail hstop hno hfree hname hmoved hsent =>
    rw [hinbox] at hno hfree hmoved
    exact .aside hfail hstop hno hfree hname hmoved (hsent.trans hout)

theorem ends_setAside (hno : ∀ envelopes, ¬ codec.IsBundle (s.inbox entry.name) envelopes) :
    Ends codec entry s (¬ SetsAside codec entry s.inbox s.counter) False
      (setAside codec entry s) := by
  have hreturns : Returns (quarantine codec entry s 64).result ↔
      SetsAside codec entry s.inbox s.counter :=
    @returns_quarantine_iff _ codec entry s 64 0 s.counter rfl (by simp) (by simp)
  obtain ⟨hout, ⟨herror, hinbox⟩ | ⟨hok, name, hfree, hname, hinbox⟩⟩ :=
    @quarantine_cases _ codec entry s 64
  · unfold setAside Effect.andThen
    cases hresult : (quarantine codec entry s 64).result with
    | error e => exact .failed (hreturns.not.mp herror) hinbox (hout ▸ prefix_rfl)
    | ok value => exact absurd ⟨value, hresult⟩ herror
  · obtain ⟨_, hresult⟩ := hok
    rw [setAside, Effect.andThen, hresult]
    exact .aside (not_not.mpr (hreturns.mp ⟨_, hresult⟩)) not_false hno hfree hname hinbox hout

theorem ends_admitFile (hname : isBundle entry.name = true)
    (hfile : s.inbox entry.name = some (.file content)) :
    Ends codec entry s (AdmitFails codec entry content s)
      (maxBytesPerRecv - s.bytesAdmitted < content.length) (admitFile codec entry content s) := by
  unfold admitFile
  dsimp only
  by_cases hroom : maxBytesPerRecv - s.bytesAdmitted < content.length
  · rw [if_pos hroom]
    exact .stopped (fun h => Nat.not_lt.mpr h.1 hroom) hroom rfl rfl
  · -- The ceiling cuts nothing off a file within the budget.
    rw [if_neg hroom, take_of_length_le (by omega), if_neg hroom]
    have hfits := Nat.not_lt.mp hroom
    split
    · next hread =>
      refine .failed ⟨hfits, ?_⟩ rfl prefix_rfl
      simp only [Bool.or_eq_true, Bool.not_eq_true'] at hread
      exact hread.imp_right .inl
    · next hread =>
      simp only [Bool.or_eq_true, Bool.not_eq_true', not_or, Bool.not_eq_false] at hread
      split
      · next envelopes himport =>
        split
        · next hremove =>
          exact .failed ⟨hfits, by simp_all⟩ rfl (prefix_append _ _)
        · next hremove =>
          exact .taken (by simp_all [AdmitFails]) hroom hname hfile himport rfl rfl
      · next himport =>
        generalize s.bytesAdmitted + content.length = bytesAdmitted
        refine (ends_setAside (s := { s with bytesAdmitted })
          (not_isBundle hfile himport)).congr rfl rfl ?_ (iff_of_false not_false hroom)
        simp [AdmitFails, hfits, hread, himport]

theorem ends_examineFile (hname : isBundle entry.name = true)
    (hfile : s.inbox entry.name = some (.file content)) :
    Ends codec entry s (FileFails codec entry content s) (FileStops entry content s)
      (examineFile codec entry content s) := by
  unfold examineFile
  split
  · next hlimit => exact .stopped (fun h => Nat.not_le.mpr h.1 hlimit) (.inl hlimit) rfl rfl
  · next hlimit =>
    have hlt := Nat.not_le.mp hlimit
    generalize s.filesExamined + 1 = filesExamined
    dsimp only
    split
    · next hmetadata => exact .failed ⟨hlt, .inl (by simpa using hmetadata)⟩ rfl prefix_rfl
    · next hmetadata =>
      rw [Bool.not_eq_true', Bool.not_eq_false] at hmetadata
      split
      · next hlarge =>
        have himport := codec.bundleImport_large content hlarge
        refine (ends_setAside (s := { s with filesExamined })
          (not_isBundle hfile himport)).congr rfl rfl ?_ ?_
        · simp [FileFails, hlt, hmetadata, hlarge, Nat.not_le.mpr hlarge]
        · simp [FileStops, hlimit, Nat.not_le.mpr hlarge]
      · next hsmall =>
        refine (ends_admitFile (s := { s with filesExamined }) hname hfile).congr rfl rfl ?_ ?_
        · simp [FileFails, AdmitFails, hlt, hmetadata, hsmall, Nat.not_lt.mp hsmall]
        · simp [FileStops, hlimit, hmetadata, Nat.not_lt.mp hsmall]

/-- **What the body of the loop does.** -/
theorem ends_examine : Ends codec entry s (Fails codec entry s) (Stops entry s)
    (examine codec entry s) := by
  unfold examine
  split
  · next hnext => exact .failed (.inl (by simpa using hnext)) rfl prefix_rfl
  · next hnext =>
    rw [Bool.not_eq_true', Bool.not_eq_false] at hnext
    split
    · next hname =>
      rw [Bool.not_eq_true'] at hname
      exact .skipped (by simp [Fails, hnext, hname]) (by simp [Stops, hname]) hname rfl rfl
    · next hname =>
      rw [Bool.not_eq_true', Bool.not_eq_false] at hname
      split
      · next hlimit =>
        refine .stopped ?_ ⟨hnext, hname, .inl hlimit⟩ rfl rfl
        simp [Fails, hnext, Nat.not_lt.mpr hlimit]
      · next hlimit =>
        have hlt := Nat.not_le.mp hlimit
        -- Neither how a file ends nor its failures depend on the count of the entries.
        generalize s.entriesExamined + 1 = entriesExamined
        dsimp only
        split
        · next hmissing =>
          refine .failed (.inr ⟨hname, hlt, ?_⟩) rfl prefix_rfl
          split_ifs at hmissing with htype
          · exact .inr (.inl hmissing)
          · exact .inl (by simpa using htype)
        · next hother =>
          split_ifs at hother with htype
          have hno : ∀ envelopes, ¬ codec.IsBundle (s.inbox entry.name) envelopes := by
            rintro _ ⟨_, hbytes, -⟩
            rw [hother] at hbytes
            cases hbytes
          refine (ends_setAside (s := { s with entriesExamined }) hno).congr rfl rfl ?_ ?_
          · simp [Fails, hnext, hname, hlt, htype, hother]
          · simp [Stops, hlimit, hother]
        · next content hfile =>
          split_ifs at hfile with htype
          refine (ends_examineFile (s := { s with entriesExamined }) hname hfile).congr rfl rfl
            ?_ ?_
          · simp [Fails, FileFails, AdmitFails, hnext, hname, hlt, htype, hfile]
          · simp [Stops, FileStops, hnext, hname, hlimit, htype, hfile]

/-! ### What is kept -/

/-- From `s` to `s'` no envelope is given up, and a bundle that leaves its name is collected. -/
structure Keeps (codec : Codec Envelope) (s s' : Pass Envelope) : Prop where
  out : s.out <+: s'.out
  inbox : ∀ name envelopes, codec.IsBundle (s.inbox name) envelopes →
    s'.inbox name = s.inbox name ∨ envelopes <:+: s'.out

theorem Keeps.trans (h : Keeps codec s s') (h' : Keeps codec s' s'') : Keeps codec s s'' := by
  refine ⟨h.out.trans h'.out, fun name envelopes hbundle => ?_⟩
  rcases h.inbox name envelopes hbundle with heq | hin
  · rw [← heq] at hbundle ⊢
    exact h'.inbox name envelopes hbundle
  · exact .inr (hin.trans h'.out.isInfix)

/-- What is renamed aside is not a bundle, and does not take the name of one. -/
theorem inbox_of_aside {name free : Bytes} {envelopes : List Envelope}
    (hno : ∀ envelopes, ¬ codec.IsBundle (s.inbox entry.name) envelopes)
    (hfree : s.inbox free = none) (hbundle : codec.IsBundle (s.inbox name) envelopes) :
    name ≠ entry.name ∧
      update (update s.inbox entry.name none) free (s.inbox entry.name) name = s.inbox name := by
  have hname : name ≠ entry.name := by
    rintro rfl
    exact hno envelopes hbundle
  have hother : name ≠ free := by
    rintro rfl
    obtain ⟨_, hbytes, -⟩ := hbundle
    rw [hfree] at hbytes
    cases hbytes
  exact ⟨hname, by simp [hname, hother]⟩

theorem Ends.keeps (h : Ends codec entry s fails stops after) : Keeps codec s after.state := by
  cases h with
  | failed hfails hinbox hout => exact ⟨hout, fun name _ _ => .inl (congrFun hinbox name)⟩
  | stopped hfails hstops hinbox hout =>
    exact ⟨hout ▸ prefix_rfl, fun name _ _ => .inl (congrFun hinbox name)⟩
  | skipped hfails hstops hname hinbox hout =>
    exact ⟨hout ▸ prefix_rfl, fun name _ _ => .inl (congrFun hinbox name)⟩
  | taken hfails hstops _ hfile himport hinbox hout =>
    refine ⟨hout ▸ prefix_append _ _, fun name envelopes hbundle => ?_⟩
    by_cases hname : name = entry.name
    · obtain ⟨_, hbytes, himport'⟩ := hbundle
      rw [hname, hfile] at hbytes
      cases hbytes
      rw [himport] at himport'
      cases himport'
      exact .inr (hout ▸ (suffix_append _ _).isInfix)
    · exact .inl (by simp [hinbox, hname])
  | aside hfails hstops hno hfree hname hinbox hout =>
    refine ⟨hout ▸ prefix_rfl, fun name envelopes hbundle => .inl ?_⟩
    exact (congrFun hinbox name).trans (inbox_of_aside hno hfree hbundle).2

theorem keeps_recvFrom (entries : List Entry) : Keeps codec s (recvFrom codec entries s).state := by
  induction entries generalizing s with
  | nil => exact ⟨prefix_rfl, fun _ _ _ => .inl rfl⟩
  | cons entry entries ih =>
    refine Effect.andThen_keeps ends_examine.keeps fun s' goOn h => ?_
    split
    · exact h.trans ih
    · exact h

theorem eq_out_of_recvFrom {entries : List Entry} {out : List Envelope}
    (h : (recvFrom codec entries s).result = .ok out) :
    out = (recvFrom codec entries s).state.out := by
  induction entries generalizing s with
  | nil => exact (Except.ok.inj h).symm
  | cons entry entries ih =>
    unfold recvFrom Effect.andThen at h ⊢
    split at h
    · dsimp only at h ⊢
      split_ifs at h ⊢
      · exact ih h
      · exact (Except.ok.inj h).symm
    · cases h

/-! ### What an error loses -/

/-- **A pass over the listing comes to an entry for which an operation fails**, after these
entries. -/
inductive Interrupted (codec : Codec Envelope) :
    List Entry → Pass Envelope → List Entry → Prop
  | here {entry : Entry} {entries : List Entry} {s : Pass Envelope} :
      Fails codec entry s → Interrupted codec (entry :: entries) s []
  | later {entry : Entry} {entries before : List Entry} {s : Pass Envelope} :
      ¬ Fails codec entry s → ¬ Stops entry s →
      Interrupted codec entries (examine codec entry s).state before →
      Interrupted codec (entry :: entries) s (entry :: before)

/-- An entry that neither fails nor reaches a limit lets the pass go on. -/
theorem examine_of_not (hfails : ¬ Fails codec entry s) (hstops : ¬ Stops entry s) :
    ∃ s', examine codec entry s = ⟨s', .ok true⟩ := by
  have hends := @ends_examine _ codec entry s
  generalize examine codec entry s = after at hends
  cases hends with
  | failed hfails' => exact absurd hfails' hfails
  | stopped _ hstops' => exact absurd hstops' hstops
  | skipped | taken | aside => exact ⟨_, rfl⟩

theorem interrupted_of_not_returns {entries : List Entry}
    (h : ¬ Returns (recvFrom codec entries s).result) :
    ∃ before, Interrupted codec entries s before := by
  induction entries generalizing s with
  | nil => exact absurd (returns_ok _) h
  | cons entry entries ih =>
    by_cases hfails : Fails codec entry s
    · exact ⟨[], .here hfails⟩
    by_cases hstops : Stops entry s
    · have hends := @ends_examine _ codec entry s
      rw [recvFrom, Effect.andThen] at h
      generalize examine codec entry s = after at hends h
      cases hends with
      | failed hfails' => exact absurd hfails' hfails
      | stopped => exact absurd (returns_ok _) h
      | skipped _ hnot | taken _ hnot | aside _ hnot => exact absurd hstops hnot
    · obtain ⟨s', hexamine⟩ := examine_of_not hfails hstops
      rw [recvFrom, hexamine] at h
      obtain ⟨before, hbefore⟩ := ih h
      exact ⟨entry :: before, .later hfails hstops (by rwa [hexamine])⟩

/-- The name of a bundle is not given to anything. -/
theorem Ends.inbox_none (h : Ends codec entry s fails stops after) {name : Bytes}
    (hname : isBundle name = true) (hnone : s.inbox name = none) :
    after.state.inbox name = none := by
  cases h with
  | failed _ hinbox => exact (congrFun hinbox name).trans hnone
  | stopped _ _ hinbox => exact (congrFun hinbox name).trans hnone
  | skipped _ _ _ hinbox => exact (congrFun hinbox name).trans hnone
  | taken _ _ _ _ _ hinbox => simp [hinbox, update_apply, hnone]
  | @aside _ free _ _ _ _ hother hinbox =>
    have hne : name ≠ free := by
      rintro rfl
      simp [hname] at hother
    simp [hinbox, hne, update_apply, hnone]

theorem recvFrom_inbox_none {name : Bytes} (hname : isBundle name = true) (entries : List Entry)
    (hnone : s.inbox name = none) : (recvFrom codec entries s).state.inbox name = none := by
  induction entries generalizing s with
  | nil => exact hnone
  | cons entry entries ih =>
    refine @Effect.andThen_keeps _ _ _ _ (fun s : Pass Envelope => s.inbox name = none) _ _
      (ends_examine.inbox_none hname hnone) fun s' goOn h => ?_
    split
    · exact ih h
    · exact h

/-- An entry takes the bundle of its own name and no other. -/
theorem Ends.bundle_cases {name : Bytes} {envelopes : List Envelope}
    (h : Ends codec entry s fails stops ⟨s', .ok true⟩)
    (hbundle : codec.IsBundle (s.inbox name) envelopes) :
    (isBundle entry.name = true ∧ entry.name = name) ∧ s'.inbox name = none ∨
      ¬ (isBundle entry.name = true ∧ entry.name = name) ∧ s'.inbox name = s.inbox name := by
  cases h with
  | skipped _ _ hname hinbox => exact .inr ⟨by simp [hname], congrFun hinbox name⟩
  | taken _ _ hname _ _ hinbox =>
    by_cases hentry : entry.name = name
    · subst hentry
      exact .inl ⟨⟨hname, rfl⟩, by rw [hinbox, update_self]⟩
    · exact .inr ⟨by simp [hentry], by simp [hinbox, Ne.symm hentry]⟩
  | aside _ _ hno hfree _ hinbox =>
    obtain ⟨hname, hsame⟩ := inbox_of_aside hno hfree hbundle
    exact .inr ⟨by simp [hname.symm], (congrFun hinbox name).trans hsame⟩

/-- What a pass leaves of a bundle when an operation fails after these entries. -/
theorem Interrupted.spec {entries before : List Entry} (h : Interrupted codec entries s before) :
    ¬ Returns (recvFrom codec entries s).result ∧
      ∀ name envelopes, codec.IsBundle (s.inbox name) envelopes →
        ((recvFrom codec entries s).state.inbox name = s.inbox name ↔
          ¬ ∃ entry ∈ before, isBundle entry.name = true ∧ entry.name = name) := by
  induction h with
  | @here entry entries s hfails =>
    -- The files are as they were, and no entry is before the failing one.
    have hends := @ends_examine _ codec entry s
    rw [recvFrom, Effect.andThen]
    generalize examine codec entry s = after at hends
    cases hends with
    | failed _ hinbox => exact ⟨by simp, fun name _ _ => by simp [hinbox]⟩
    | stopped hnot | skipped hnot | taken hnot | aside hnot => exact absurd hfails hnot
  | @later entry entries before s hfails hstops _ ih =>
    obtain ⟨s', hexamine⟩ := examine_of_not hfails hstops
    have hends := @ends_examine _ codec entry s
    rw [hexamine] at hends ih
    rw [recvFrom, hexamine]
    refine ⟨ih.1, fun name envelopes hbundle => ?_⟩
    rcases hends.bundle_cases hbundle with ⟨⟨hname, rfl⟩, hnone⟩ | ⟨hother, hsame⟩
    · -- A bundle that is taken stays gone, however the rest of the pass ends.
      have hgone := @recvFrom_inbox_none _ codec _ _ hname entries hnone
      obtain ⟨_, hfile, -⟩ := hbundle
      simp [Effect.andThen, hgone, hfile, hname]
    · rw [← hsame] at hbundle ⊢
      simpa [Effect.andThen, hother] using ih.2 name envelopes hbundle

/-- The bundles of the inbox that a pass took away are in what it returned. -/
def LosesNothing (codec : Codec Envelope) (inbox : Bytes → Option Item)
    (pass : Effect (Pass Envelope) TransportError (List Envelope)) : Prop :=
  ∀ name envelopes, codec.IsBundle (inbox name) envelopes →
    pass.state.inbox name = inbox name ∨
      envelopes = [] ∨ ∃ out, pass.result = .ok out ∧ envelopes <:+: out

/-- **A pass loses nothing exactly when the bundles listed before a failing operation are
empty.** -/
theorem recv_losesNothing_iff (codec : Codec Envelope) (readDir : Bool) (entries : List Entry)
    (inbox : Bytes → Option Item) (counter : UInt64) :
    LosesNothing codec inbox (recv codec readDir entries inbox counter) ↔
      (readDir = true → ∀ before,
        Interrupted codec entries ⟨inbox, counter, [], 0, 0, 0⟩ before →
          ∀ entry ∈ before, isBundle entry.name = true →
            ∀ envelopes, codec.IsBundle (inbox entry.name) envelopes → envelopes = []) := by
  cases readDir with
  | false => simp [recv, LosesNothing]
  | true =>
    rw [recv, Bool.not_true, if_neg (by simp)]
    generalize hs : (⟨inbox, counter, [], 0, 0, 0⟩ : Pass Envelope) = s
    obtain rfl : s.inbox = inbox := hs ▸ rfl
    -- A pass that returns hands out what it took; one that fails has lost it.
    constructor
    · intro hsafe _ before hbefore entry hmem hname envelopes hbundle
      have ⟨herror, hspec⟩ := hbefore.spec
      rcases hsafe entry.name envelopes hbundle with hsame | hnil | ⟨out, hout, -⟩
      · exact absurd ⟨entry, hmem, hname, rfl⟩ ((hspec _ _ hbundle).mp hsame)
      · exact hnil
      · exact absurd ⟨out, hout⟩ herror
    · intro hempty name envelopes hbundle
      by_cases hreturns : Returns (recvFrom codec entries s).result
      · obtain ⟨out, hout⟩ := hreturns
        refine ((keeps_recvFrom entries).inbox name envelopes hbundle).imp_right fun hin => .inr ?_
        exact ⟨out, hout, eq_out_of_recvFrom hout ▸ hin⟩
      · obtain ⟨before, hbefore⟩ := interrupted_of_not_returns hreturns
        by_cases htaken : ∃ entry ∈ before, isBundle entry.name = true ∧ entry.name = name
        · obtain ⟨entry, hmem, hname, rfl⟩ := htaken
          exact .inr (.inl (hempty rfl before hbefore entry hmem hname envelopes hbundle))
        · exact .inl ((hbefore.spec.2 name envelopes hbundle).mpr htaken)

namespace Sample

/-- Every file within the limit is a bundle, of the bytes in it. -/
def bytesCodec : Codec UInt8 where
  bundleImport bytes := if bytes.length ≤ maxBundleBytes then some bytes else none
  bundleImport_large _ h := if_neg (by omega)
  lossy name := name

/-- Two bundles of one envelope each. -/
def inbox (name : Bytes) : Option Item :=
  if name = ascii "a.kkb" then some (.file [1])
  else if name = ascii "b.kkb" then some (.file [2])
  else none

/-- An entry all of whose operations succeed. -/
def listed (name : String) : Entry :=
  ⟨ascii name, true, true, true, true, true, true, true, fun _ => true⟩

/-- The second bundle cannot be read, so the first one is deleted and not returned. -/
theorem recv_loses_bundle :
    let unreadable := { listed "b.kkb" with readToEnd := false }
    let pass := recv bytesCodec true [listed "a.kkb", unreadable] inbox 0
    pass.result = .error .io ∧ pass.state.inbox (ascii "a.kkb") = none ∧
      ¬ LosesNothing bytesCodec inbox pass := by
  intro unreadable pass
  have herr : pass.result = .error .io := by decide
  have hgone : pass.state.inbox (ascii "a.kkb") = none := by decide
  refine ⟨herr, hgone, fun h => ?_⟩
  rcases h (ascii "a.kkb") [1] ⟨[1], by decide, by decide⟩ with hsame | hnil | ⟨out, hok, -⟩
  · rw [hgone] at hsame
    exact absurd hsame (by decide)
  · cases hnil
  · rw [herr] at hok
    cases hok

end Sample

end Komms.Sneakernet
