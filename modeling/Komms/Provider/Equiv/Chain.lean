import Mathlib.Data.List.Nodup
import Komms.Provider.Resolve

/-!
# The signed chain

What a verified chain is, when a superseded directory of it comes back into use
(`superseded_unused_iff`), and what becomes of a candidate that is to extend it
(`outcome_considerCandidate`).
-/

namespace Komms.Provider

open List Option Except

variable {env : Env} {trusted : List (Octets 32)} {chain : List VerifiedDirectory}
  {document : ProviderDirectory} {previous : Option VerifiedDirectory} {next : VerifiedDirectory}

/-! ### Verified chains -/

/-- What the verification of one document found. -/
structure Checked (env : Env) (trusted : List (Octets 32)) (previous : Option VerifiedDirectory)
    (next : VerifiedDirectory) : Prop where
  signed : ∃ canonical signature, canonicalDocument env next.document = .ok canonical ∧
    parseHex 64 next.document.signature = .ok signature ∧
    verifyPeerDomain env.suite next.signingKey .providerDirectory canonical signature = .ok () ∧
    next.digest = env.suite.sha256 (canonical ++ signature.toBytes)
  signingKey : parseHex 32 next.document.signingKey = .ok next.signingKey
  nextSigningKey : parseOptionalHex 32 next.document.nextSigningKey = .ok next.nextSigningKey
  parent : verifyParent next.document next.signingKey trusted previous = .ok ()

theorem verifySuccessor_eq_ok_iff : verifySuccessor env document previous trusted = .ok next ↔
    next.document = document ∧ Checked env trusted previous next := by
  simp only [verifySuccessor, bind_eq_ok_iff, ok.injEq, mapError_eq_ok_iff]
  constructor
  · rintro ⟨canonical, hcan, _, hkey, signature, hsig, _, hver, _, hpar, _, hnext, rfl⟩
    exact ⟨rfl, ⟨canonical, signature, hcan, hsig, hver, rfl⟩, hkey, hnext, hpar⟩
  · rintro ⟨rfl, ⟨canonical, signature, hcan, hsig, hver, hdig⟩, hkey, hnext, hpar⟩
    refine ⟨canonical, hcan, _, hkey, signature, hsig, _, hver, _, hpar, _, hnext, ?_⟩
    rw [← hdig]

/-- A chain in which every document was verified against the one before. -/
inductive Verified (env : Env) (trusted : List (Octets 32)) : List VerifiedDirectory → Prop
  | nil : Verified env trusted []
  | snoc {front : List VerifiedDirectory} {last : VerifiedDirectory}
      (hfront : Verified env trusted front) (hlast : Checked env trusted front.getLast? last) :
      Verified env trusted (front ++ [last])

variable {documents : List ProviderDirectory}

theorem foldlM_verifyNext_eq_ok {before : List VerifiedDirectory}
    (hbef : Verified env trusted before)
    (h : documents.foldlM (verifyNext env trusted) before = .ok chain) :
    Verified env trusted chain ∧
      chain.map (·.document) = before.map (·.document) ++ documents := by
  induction documents generalizing before with
  | nil =>
    cases h
    exact ⟨hbef, by simp⟩
  | cons document rest ih =>
    simp only [foldlM_cons, verifyNext, bind_eq_ok_iff, ok.injEq] at h
    obtain ⟨_, ⟨_, hnext, rfl⟩, h⟩ := h
    obtain ⟨rfl, hchk⟩ := verifySuccessor_eq_ok_iff.mp hnext
    obtain ⟨hch, hdocs⟩ := ih (hbef.snoc hchk) h
    refine ⟨hch, ?_⟩
    rw [hdocs, map_append, append_assoc]
    rfl

theorem Verified.foldlM_eq (h : Verified env trusted chain) :
    (chain.map VerifiedDirectory.document).foldlM (verifyNext env trusted) [] = .ok chain := by
  induction h with
  | nil => rfl
  | snoc hch hnext ih =>
    rw [map_append, foldlM_append, ih, ok_bind, map_singleton, foldlM_cons,
      verifyNext, verifySuccessor_eq_ok_iff.mpr ⟨rfl, hnext⟩]
    rfl

theorem verifyChain_eq_ok_iff :
    verifyChain env documents trusted = .ok chain ↔ Verified env trusted chain ∧
      documents = chain.map (·.document) ∧ chain.length ≤ maxProviderDirectoryChain := by
  rw [verifyChain, rejectIf_bind_eq_ok_iff, Nat.not_lt]
  constructor
  · rintro ⟨hlen, h⟩
    obtain ⟨hch, hdocs⟩ := foldlM_verifyNext_eq_ok .nil h
    rw [map_nil, nil_append] at hdocs
    exact ⟨hch, hdocs.symm, by rwa [← hdocs, length_map] at hlen⟩
  · rintro ⟨hch, rfl, _⟩
    exact ⟨by rwa [length_map], hch.foldlM_eq⟩

theorem Verified.checked (h : Verified env trusted chain) {v : VerifiedDirectory} (hv : v ∈ chain) :
    ∃ previous, Checked env trusted previous v := by
  induction h with
  | nil => cases hv
  | snoc hch hnext ih =>
    rcases mem_append.mp hv with hv | hv
    · exact ih hv
    · exact ⟨_, mem_singleton.mp hv ▸ hnext⟩

theorem Checked.generation_lt {parent : VerifiedDirectory}
    (h : Checked env trusted (some parent) next) :
    parent.document.generation < next.document.generation := by
  have hpar := h.parent
  simp only [verifyParent, rejectIf_bind_eq_ok_iff, not_or, not_not] at hpar
  exact UInt64.not_le.mp hpar.1.1

theorem Verified.pairwise (h : Verified env trusted chain) :
    chain.Pairwise fun v w => v.document.generation < w.document.generation := by
  induction h with
  | nil => exact .nil
  | @snoc chain next hch hnext ih =>
    refine pairwise_append.mpr ⟨ih, pairwise_singleton _ _, fun v hv w hw => ?_⟩
    obtain rfl := mem_singleton.mp hw
    obtain ⟨_, last, rfl⟩ := (eq_nil_or_concat' _).resolve_left (ne_nil_of_mem hv)
    rw [getLast?_concat] at hnext
    rcases mem_append.mp hv with hv | hv
    · exact UInt64.lt_trans ((pairwise_append.mp ih).2.2 v hv last (mem_singleton_self _))
        hnext.generation_lt
    · exact mem_singleton.mp hv ▸ hnext.generation_lt

theorem Verified.eq_of_generation (h : Verified env trusted chain) {v w : VerifiedDirectory}
    (hv : v ∈ chain) (hw : w ∈ chain) (heq : v.document.generation = w.document.generation) :
    v = w := by
  have hnd : (chain.map fun v => v.document.generation).Nodup :=
    pairwise_map.mpr (h.pairwise.imp UInt64.ne_of_lt)
  exact inj_on_of_nodup_map hnd hv hw heq

/-! ### Selection -/

variable {d : VerifiedDirectory} {now : UInt64}

theorem select_eq_some (h : select chain now = some d) :
    d ∈ chain ∧ d.document.covers now = true := by
  have hcov := find?_some h
  exact ⟨mem_reverse.mp (mem_of_find?_eq_some h), hcov⟩

/-- The selected directory is the latest that covers the time. -/
theorem Verified.generation_le_of_select (h : Verified env trusted chain) {e : VerifiedDirectory}
    (hd : select chain now = some d) (he : e ∈ chain) (hcov : e.document.covers now = true) :
    e.document.generation ≤ d.document.generation := by
  obtain ⟨-, _, _, hrev, hlate⟩ := find?_eq_some_iff_append.mp hd
  have hpw := pairwise_reverse.mpr h.pairwise
  have hmem := mem_reverse.mpr he
  rw [hrev] at hpw hmem
  rcases mem_append.mp hmem with hmem | hmem
  · exact absurd hcov (by simpa using hlate e hmem)
  rcases mem_cons.mp hmem with rfl | hmem
  · exact UInt64.le_refl _
  · have hrest := (pairwise_append.mp hpw).2.1
    exact UInt64.le_of_lt ((pairwise_cons.mp hrest).1 e hmem)

theorem exists_select {e : VerifiedDirectory} (he : e ∈ chain)
    (hcov : e.document.covers now = true) : ∃ d, select chain now = some d :=
  isSome_iff_exists.mp (find?_isSome.mpr ⟨e, mem_reverse.mpr he, hcov⟩)

theorem saturatingAdd_le {a b : UInt64} (h : a ≤ b) (c : UInt64) :
    saturatingAdd a c ≤ saturatingAdd b c := by
  rw [UInt64.le_iff_toNat_le] at h ⊢
  simp only [saturatingAdd, UInt64.toNat_ofNat']
  omega

/-- **When a superseded directory is not used again**: the directory selected at `now` has not run
out of its grace at `later`, or a successor covers that time, or no predecessor does. -/
theorem superseded_unused_iff {documents : List ProviderDirectory}
    (h : verifyChain env documents trusted = .ok chain) {now later : UInt64} (hle : now ≤ later)
    {d : VerifiedDirectory} (hd : select chain now = some d) :
    (∀ e, select chain later = some e → d.document.generation ≤ e.document.generation) ↔
      later ≤ saturatingAdd d.document.validUntil providerDirectoryStaleGraceSecs ∨
      (∃ e ∈ chain, d.document.generation < e.document.generation ∧
        e.document.covers later = true) ∨
      ∀ e ∈ chain, e.document.generation < d.document.generation →
        e.document.covers later = false := by
  have hch := (verifyChain_eq_ok_iff.mp h).1
  obtain ⟨hmem, hcov⟩ := select_eq_some hd
  -- The start of the selected window is past, so only its end counts.
  have hstill : d.document.covers later = true ↔
      later ≤ saturatingAdd d.document.validUntil providerDirectoryStaleGraceSecs := by
    simp only [ProviderDirectory.covers, Bool.and_eq_true, decide_eq_true_eq] at hcov ⊢
    exact and_iff_right (UInt64.le_trans hcov.1 (saturatingAdd_le hle _))
  rw [← hstill]
  constructor
  · intro hfor
    by_cases hold : ∀ e ∈ chain, e.document.generation < d.document.generation →
        e.document.covers later = false
    · exact .inr (.inr hold)
    push Not at hold
    obtain ⟨e, he, -, hecov⟩ := hold
    obtain ⟨f, hf⟩ := exists_select he (by simpa using hecov)
    obtain ⟨hfmem, hfcov⟩ := select_eq_some hf
    rcases UInt64.lt_or_eq_of_le (hfor f hf) with hlt | heq
    · exact .inr (.inl ⟨f, hfmem, hlt, hfcov⟩)
    · exact .inl (hch.eq_of_generation hfmem hmem heq.symm ▸ hfcov)
  · rintro (hd | ⟨f, hf, hlt, hfcov⟩ | hold) e he
    · exact hch.generation_le_of_select he hmem hd
    · exact UInt64.le_trans (UInt64.le_of_lt hlt) (hch.generation_le_of_select he hf hfcov)
    · obtain ⟨hemem, hecov⟩ := select_eq_some he
      refine UInt64.not_lt.mp fun hlt => ?_
      rw [hold e hemem hlt] at hecov
      cases hecov

namespace Sample

def key : Octets 32 := .replicate 32 7

/-- Generation `n` of a directory of one operator; all but the first are valid for a day. -/
def directory (n : ℕ) : ProviderDirectory where
  version := providerDirectoryVersion
  generation := .ofNat n
  validFrom := 0
  validUntil := if n = 1 then 90 * 86400 else 86400
  previousDigest := if n = 1 then none else some (hexString (List.replicate 32 (.ofNat (n - 1))))
  signingKey := hexString key.toBytes
  nextSigningKey := none
  nextKeyNotBeforeGeneration := none
  operators := [⟨ascii "a", ascii "a.example", [], [], [], []⟩]
  signature := hexString (List.replicate 64 0)

def directories (n : ℕ) : ProviderDirectoryCache :=
  ⟨providerDirectoryVersion, (List.range' 1 n).map directory⟩

/-- Every signature verifies, and a digest repeats the low byte of the generation.  A file is the
number of the document, or of the documents. -/
def environment : Env where
  suite := .ofSigned (fun _ _ => true) fun bytes => .replicate 32 (bytes.getD 12 0)
  parseAddr := fun _ => true
  isIpAddr := fun _ => false
  canonicalHttpsOrigin := fun _ => true
  decodeDocument := fun bytes => bytes.head?.map fun n => directory n.toNat
  decodeCache := fun bytes => bytes.head?.map fun n => directories n.toNat
  encodeCache := fun cache =>
    if cache.chain.length < 256 ∧ cache = directories cache.chain.length then
      [.ofNat cache.chain.length]
    else List.replicate (maxProviderDirectoryFileBytes + 1) 0

/-- The second generation runs out before the first, which is then used again. -/
theorem first_generation_used_again :
    (verifyChain environment [directory 1, directory 2] [key]).map (fun chain =>
      ((select chain 0).map (·.document.generation),
        (select chain (40 * 86400)).map (·.document.generation))) = .ok (some 2, some 1) := by
  decide +kernel

theorem latest_generation_stays : ∃ chain d,
    verifyChain environment [directory 1, directory 2] [key] = .ok chain ∧ select chain 0 = some d ∧
      ∀ e, select chain 1 = some e → d.document.generation ≤ e.document.generation := by
  have hch : (verifyChain environment [directory 1, directory 2] [key]).map (fun chain =>
      (select chain 0).map (·.document.validUntil)) = .ok (some 86400) := by decide +kernel
  cases hver : verifyChain environment [directory 1, directory 2] [key] with
  | error e =>
    rw [hver] at hch
    cases hch
  | ok chain =>
    rw [hver] at hch
    obtain ⟨d, hd, hunt⟩ := map_eq_some_iff.mp (ok.inj hch)
    refine ⟨chain, d, rfl, hd, (superseded_unused_iff hver (by decide) hd).mpr (.inl ?_)⟩
    rw [hunt]
    decide

end Sample

/-! ### The candidate -/

def extendedCache (chain : List VerifiedDirectory) (next : VerifiedDirectory) :
    ProviderDirectoryCache :=
  ⟨providerDirectoryVersion, (chain ++ [next]).map VerifiedDirectory.document⟩

/-- The candidate file holds a document that verifies after the chain and is not its last one. -/
def Extends (env : Env) (trusted : List (Octets 32)) (file : Option Bytes)
    (chain : List VerifiedDirectory) (next : VerifiedDirectory) : Prop :=
  loadDocument env file = some next.document ∧ Checked env trusted chain.getLast? next ∧
    ∀ current ∈ chain.getLast?, current.digest ≠ next.digest

/-- The extended chain and its file stay within their bounds. -/
def Fits (env : Env) (chain : List VerifiedDirectory) (next : VerifiedDirectory) : Prop :=
  chain.length + 1 ≤ maxProviderDirectoryChain ∧
    (env.encodeCache (extendedCache chain next)).length ≤ maxProviderDirectoryFileBytes

/-- What becomes of a candidate. -/
inductive Outcome (env : Env) (trusted : List (Octets 32)) (file : Option Bytes)
    (chain : List VerifiedDirectory) (cache : Option Bytes) :
    Effect (Option Bytes) ProviderDirectoryError Considered → Prop
  | kept {accepted rejected : Bool} (hno : ∀ next, ¬ Extends env trusted file chain next) :
      Outcome env trusted file chain cache ⟨cache, .ok ⟨chain, accepted, rejected⟩⟩
  | refused {next : VerifiedDirectory} {e : ProviderDirectoryError}
      (hnext : Extends env trusted file chain next) (hfits : ¬ Fits env chain next) :
      Outcome env trusted file chain cache ⟨cache, .error e⟩
  | added {next : VerifiedDirectory} (hnext : Extends env trusted file chain next)
      (hfits : Fits env chain next) : Outcome env trusted file chain cache
        ⟨some (env.encodeCache (extendedCache chain next)), .ok ⟨chain ++ [next], true, false⟩⟩

theorem Checked.unique {v w : VerifiedDirectory} (hv : Checked env trusted previous v)
    (hw : Checked env trusted previous w) (h : v.document = w.document) : v = w := by
  have hver := verifySuccessor_eq_ok_iff.mpr ⟨rfl, hv⟩
  rw [h, verifySuccessor_eq_ok_iff.mpr ⟨rfl, hw⟩] at hver
  exact (ok.inj hver).symm

/-- **What the candidate does to the retained chain.** -/
theorem outcome_considerCandidate (file : Option Bytes) (cache : Option Bytes) :
    Outcome env trusted file chain cache (considerCandidate env trusted file chain cache) := by
  unfold considerCandidate
  split
  · next hnone => exact .kept fun next hnext => by simp [hnext.1] at hnone
  next document hdoc =>
  split
  · next herr =>
    refine .kept fun next hnext => ?_
    obtain rfl := some.inj (hdoc.symm.trans hnext.1)
    rw [verifySuccessor_eq_ok_iff.mpr ⟨rfl, hnext.2.1⟩] at herr
    cases herr
  next next hver =>
  obtain ⟨rfl, hchk⟩ := verifySuccessor_eq_ok_iff.mp hver
  split_ifs with hknow hlate hfull
  · refine .kept fun other hother => ?_
    obtain ⟨current, hcur, hdig⟩ := hknow
    -- The last document again: nothing follows it with its own digest.
    have hsame := hchk.unique hother.2.1 (some.inj (hdoc.symm.trans hother.1))
    exact hother.2.2 current hcur (hsame ▸ hdig)
  · exact .refused ⟨hdoc, hchk, by simpa using hknow⟩ fun hfits => by
      have := hfits.1
      omega
  · have hnext : Extends env trusted file chain next := ⟨hdoc, hchk, by simpa using hknow⟩
    by_cases hsize : (env.encodeCache (extendedCache chain next)).length ≤
        maxProviderDirectoryFileBytes
    · rw [show writeCache env (chain ++ [next]) = .ok (env.encodeCache (extendedCache chain next))
        from rejectIf_bind_of_not (Nat.not_lt.mpr hsize)]
      exact .added hnext ⟨Nat.not_lt.mp hfull, hsize⟩
    · split
      · exact .refused hnext fun hfits => hsize hfits.2
      · next hwr =>
        simp only [writeCache, rejectIf_bind_eq_ok_iff, Nat.not_lt] at hwr
        exact absurd hwr.1 hsize
  -- A verified successor has a later generation.
  · refine absurd (fun current hcur => ?_) hlate
    rw [mem_def.mp hcur] at hchk
    exact hchk.generation_lt

end Komms.Provider
