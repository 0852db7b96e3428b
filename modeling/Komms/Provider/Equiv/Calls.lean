import Komms.Provider.Equiv.Chain

/-!
# Calls of `resolve_provider_directory`

The manual routes survive every call except one that meets a successor the cache has no room for
(`manual_routes_iff`), and a candidate read a second time is not current again
(`reread_current_iff`).  Over any calls the retained chain only grows (`retainedChain_grows`).
-/

namespace Komms.Provider

open List Option Except

variable {env : Env} {trusted : List (Octets 32)} {chain : List VerifiedDirectory}
  {cache file : Option Bytes} {next : VerifiedDirectory} {mode : OperatingMode}
  {candidate : Option (Option Bytes)} {manual : ManualProviderSet} {now : UInt64}

/-- A cache file within the bound reads as what was written. -/
def Env.ReadsBack (env : Env) : Prop :=
  ∀ c, (env.encodeCache c).length ≤ maxProviderDirectoryFileBytes →
    env.decodeCache (env.encodeCache c) = some c

/-! ### One call -/

/-- The document of every entry of the cache. -/
def cachedChain (env : Env) (cache : Option Bytes) : List ProviderDirectory :=
  ((loadCache env cache).map ProviderDirectoryCache.chain).getD []

theorem retainedChain_eq_some (h : retainedChain env trusted cache = some chain) :
    Verified env trusted chain ∧ cachedChain env cache = chain.map VerifiedDirectory.document := by
  obtain ⟨c, hc, h⟩ := bind_eq_some_iff.mp h
  cases hver : verifyChain env c.chain trusted with
  | error e => simp [hver, Except.toOption] at h
  | ok verified =>
    obtain rfl : verified = chain := by simpa [hver, Except.toOption] using h
    obtain ⟨hch, hdocs, -⟩ := verifyChain_eq_ok_iff.mp hver
    exact ⟨hch, by rw [cachedChain, hc, map_some, getD_some, hdocs]⟩

theorem retainedChain_extended (henv : env.ReadsBack) (hch : Verified env trusted chain)
    (hnext : Extends env trusted file chain next) (hfits : Fits env chain next) :
    retainedChain env trusted (some (env.encodeCache (extendedCache chain next))) =
      some (chain ++ [next]) := by
  have hlen : (extendedCache chain next).chain.length ≤ maxProviderDirectoryChain := by
    rw [extendedCache, length_map, length_append]
    exact hfits.1
  have hload : loadCache env (some (env.encodeCache (extendedCache chain next))) =
      some (extendedCache chain next) := by
    rw [loadCache, readBounded, filter_some_pos (by simpa using hfits.2), bind_some,
      henv _ hfits.2]
    exact filter_some_pos (by simpa [extendedCache] using hlen)
  have hver : verifyChain env (extendedCache chain next).chain trusted = .ok (chain ++ [next]) :=
    verifyChain_eq_ok_iff.mpr ⟨hch.snoc hnext.2.1, rfl, by simpa [extendedCache] using hlen⟩
  rw [retainedChain, hload, bind_some, hver]
  rfl

theorem ne_nil_of_validateTrustedKeys (h : validateTrustedKeys trusted = .ok ()) :
    trusted ≠ [] := by
  simp only [validateTrustedKeys, rejectIf_bind_eq_ok_iff, not_or] at h
  exact h.1.1

theorem resolve_of_retained (hman : validateManual env manual = .ok ())
    (hkeys : validateTrustedKeys trusted = .ok ())
    (hch : retainedChain env trusted cache = some chain) :
    resolveProviderDirectory env mode (some file) trusted manual now cache =
      (considerCandidate env trusted file chain cache).andThen fun cache considered =>
        ⟨cache, conclude env mode manual now (chain ≠ []) considered⟩ := by
  unfold resolveProviderDirectory
  simp only [hman, if_neg (ne_nil_of_validateTrustedKeys hkeys), hkeys, hch]

/-- A call either leaves the cache alone and selects nothing, or looks at the candidate. -/
theorem resolve_cases (env : Env) (mode : OperatingMode) (candidate : Option (Option Bytes))
    (trusted : List (Octets 32)) (manual : ManualProviderSet) (now : UInt64)
    (cache : Option Bytes) :
    ((resolveProviderDirectory env mode candidate trusted manual now cache).state = cache ∧
      ∀ r, (resolveProviderDirectory env mode candidate trusted manual now cache).result = .ok r →
        r.directory = none ∧ r.status ≠ .current) ∨
    ∃ file chain, candidate = some file ∧ validateManual env manual = .ok () ∧
      validateTrustedKeys trusted = .ok () ∧ retainedChain env trusted cache = some chain := by
  have hnone {status : ProviderDirectoryStatus} {r : ProviderDirectoryResolution}
      (hstate : status ≠ .current) (h : resolution env mode manual none status = .ok r) :
      r.directory = none ∧ r.status ≠ .current := by
    simp only [resolution, bind_eq_ok_iff, ok.injEq] at h
    obtain ⟨_, -, rfl⟩ := h
    exact ⟨rfl, hstate⟩
  unfold resolveProviderDirectory
  split
  · exact .inl ⟨rfl, fun _ h => nomatch h⟩
  · exact .inl ⟨rfl, fun _ h => hnone (by decide) h⟩
  next hman =>
  split_ifs
  · exact .inl ⟨rfl, fun _ h => nomatch h⟩
  split
  · exact .inl ⟨rfl, fun _ h => nomatch h⟩
  · exact .inl ⟨rfl, fun _ h => hnone (by decide) h⟩
  next hkeys hch => exact .inr ⟨_, _, rfl, hman, hkeys, hch⟩

/-- The arguments of a call besides the trusted keys and the cache. -/
structure Call where
  mode : OperatingMode
  candidate : Option (Option Bytes)
  manual : ManualProviderSet
  now : UInt64

def Call.resolve (env : Env) (trusted : List (Octets 32)) (call : Call) (cache : Option Bytes) :
    Effect (Option Bytes) ProviderDirectoryError ProviderDirectoryResolution :=
  resolveProviderDirectory env call.mode call.candidate trusted call.manual call.now cache

/-- The cache file after some calls. -/
def run (env : Env) (trusted : List (Octets 32)) (calls : List Call) (cache : Option Bytes) :
    Option Bytes :=
  calls.foldl (fun cache call => (call.resolve env trusted cache).state) cache

/-! ### Manual routes -/

theorem returns_resolveRendezvous {entries : List ProviderRendezvous}
    (h : ∀ entry ∈ entries, Returns (entry.provider env)) (resolved : List RendezvousProvider) :
    Returns (resolveRendezvous env mode entries resolved) := by
  induction entries generalizing resolved with
  | nil => exact returns_ok _
  | cons entry rest ih =>
    obtain ⟨⟨provider, hprovider⟩, hrest⟩ := forall_mem_cons.mp h
    rw [resolveRendezvous]
    by_cases helig : entry.eligible mode = false
    · rw [if_pos helig]
      exact ih hrest _
    · rw [if_neg helig, hprovider, ok_bind]
      split_ifs
      any_goals exact ih hrest _
      · exact returns_ok _

theorem returns_provider_of_manual (h : validateManual env manual = .ok ()) :
    ∀ entry ∈ manual.rendezvous, Returns (entry.provider env) := by
  simp only [validateManual, check_bind_eq_ok_iff, forEach_eq_ok_iff] at h
  intro entry hentry
  obtain ⟨-, key, hkey, hnew⟩ := (h.2 entry hentry).imp_right bind_eq_ok_iff.mp
  rw [rejectIf_eq_ok_iff, ← ne_eq, ne_none_iff_exists'] at hnew
  obtain ⟨provider, hnew⟩ := hnew
  exact ⟨provider, by rw [ProviderRendezvous.provider, hkey, ok_bind, hnew]; rfl⟩

theorem returns_provider_of_canonical {entries : List ProviderRendezvous} {p : Option (Text × Text)}
    {bytes : Bytes} (h : canonicalRendezvous env p entries = .ok bytes) :
    ∀ entry ∈ entries, Returns (entry.provider env) := by
  induction entries generalizing p bytes with
  | nil => exact fun _ hentry => nomatch hentry
  | cons entry rest ih =>
    simp only [canonicalRendezvous, bind_eq_ok_iff, ok.injEq] at h
    obtain ⟨provider, hprovider, _, -, _, -, _, hrest, -⟩ := h
    exact forall_mem_cons.mpr ⟨⟨provider, hprovider⟩, ih hrest⟩

theorem returns_provider_of_operators {operators : List ProviderOperator} {p : Option Text}
    {bytes : Bytes} (h : canonicalOperators env p operators = .ok bytes) :
    ∀ operator ∈ operators, ∀ entry ∈ operator.rendezvous, Returns (entry.provider env) := by
  induction operators generalizing p bytes with
  | nil => exact fun _ hoperation => nomatch hoperation
  | cons operator rest ih =>
    simp only [canonicalOperators, bind_eq_ok_iff, ok.injEq] at h
    obtain ⟨_, -, _, -, _, -, _, -, _, -, _, -, _, -, _, -, _, hrdv, _, hrest, -⟩ := h
    exact forall_mem_cons.mpr ⟨returns_provider_of_canonical hrdv, ih hrest⟩

/-- The manual routes are among the providers. -/
def Survive (manual : ManualProviderSet) (providers : EffectiveProviderSet) : Prop :=
  manual.bootstrap ⊆ providers.bootstrap ∧ (∀ relay ∈ manual.relay, providers.relay = some relay) ∧
    manual.mailboxes ⊆ providers.mailboxes

/-- A resolution over valid manual entries and a verified directory returns, with the manual
routes. -/
theorem resolution_survives (hman : validateManual env manual = .ok ())
    {directory : Option ProviderDirectory}
    (hdir : ∀ d ∈ directory, Returns (canonicalDocument env d))
    (status : ProviderDirectoryStatus) :
    ∃ r, resolution env mode manual directory status = .ok r ∧ Survive manual r.providers := by
  -- The entries of a verified directory are valid.
  have hoperators : ∀ operator ∈ usedOperators mode directory,
      ∀ entry ∈ operator.rendezvous, Returns (entry.provider env) := by
    unfold usedOperators
    split_ifs
    · exact fun _ hoperation => nomatch hoperation
    cases directory with
    | none => exact fun _ hoperation => nomatch hoperation
    | some d =>
      obtain ⟨bytes, hbytes⟩ := hdir d rfl
      simp only [canonicalDocument, bind_eq_ok_iff] at hbytes
      obtain ⟨_, -, _, -, _, -, _, -, _, -, _, -, _, hoperators, -⟩ := hbytes
      exact returns_provider_of_operators hoperators
  obtain ⟨resolved, hres⟩ : Returns (effectiveRendezvous env mode
      (manual.rendezvous ++ (usedOperators mode directory).flatMap (·.rendezvous))) := by
    unfold effectiveRendezvous
    split_ifs
    · exact returns_ok _
    · apply returns_resolveRendezvous
      intro entry hentry
      rcases mem_append.mp hentry with hentry | hentry
      · exact returns_provider_of_manual hman entry hentry
      · obtain ⟨operator, hoperation, hentry⟩ := mem_flatMap.mp hentry
        exact hoperators operator hoperation entry hentry
  refine ⟨_, by rw [resolution, effectiveProviders, hres]; rfl, ?_, ?_, ?_⟩
  any_goals exact fun x hx => mem_eraseDups.mpr (mem_append_left _ hx)
  · intro relay hrel
    simp [mem_def.mp hrel, eraseDups_cons]

theorem conclude_survives (hman : validateManual env manual = .ok ()) {considered : Considered}
    (hch : Verified env trusted considered.chain) (had : Bool) :
    ∃ r, conclude env mode manual now had considered = .ok r ∧ Survive manual r.providers := by
  apply resolution_survives hman
  intro d hd
  obtain ⟨v, hv, rfl⟩ := map_eq_some_iff.mp hd
  obtain ⟨before, hchk⟩ := hch.checked (select_eq_some hv).1
  obtain ⟨canonical, -, hcan, -⟩ := hchk.signed
  exact ⟨canonical, hcan⟩

/-- **When the manual routes survive**: always, unless the candidate is a successor with which the
chain or its file would exceed its bound. -/
theorem manual_routes_iff (hmanual : validateManual env manual = .ok ())
    (hkeys : validateTrustedKeys trusted = .ok ()) :
    (∃ r, (resolveProviderDirectory env mode candidate trusted manual now cache).result = .ok r ∧
      Survive manual r.providers) ↔
    ∀ file chain next, candidate = some file → retainedChain env trusted cache = some chain →
      Extends env trusted file chain next → Fits env chain next := by
  obtain ⟨file, hfile⟩ | hnone : (∃ file, candidate = some file) ∨ candidate = none := by
    cases candidate <;> simp
  swap
  · subst hnone
    simp only [resolveProviderDirectory, hmanual, reduceCtorEq, false_imp_iff, implies_true,
      iff_true]
    exact resolution_survives hmanual (by simp) _
  -- With no chain retained, the candidate is not considered.
  subst hfile
  cases hch : retainedChain env trusted cache with
  | none =>
    simp only [resolveProviderDirectory, hmanual, if_neg (ne_nil_of_validateTrustedKeys hkeys),
      hkeys, hch, reduceCtorEq, false_imp_iff, implies_true, iff_true]
    exact resolution_survives hmanual (by simp) _
  | some chain =>
    have hver := (retainedChain_eq_some hch).1
    rw [resolve_of_retained hmanual hkeys hch]
    have hout := @outcome_considerCandidate env trusted chain file cache
    generalize considerCandidate env trusted file chain cache = considered at hout ⊢
    cases hout with
    | kept hno =>
      refine iff_of_true (conclude_survives hmanual hver _) fun file' chain' next h h' => ?_
      cases h
      cases h'
      exact fun hnext => absurd hnext (hno next)
    -- The candidate follows the chain, and the bound refuses the chain with it.
    | refused hnext hfits =>
      exact iff_of_false (fun ⟨_, h, _⟩ => nomatch h) fun h => hfits (h _ _ _ rfl rfl hnext)
    | added hnext hfits =>
      refine iff_of_true (conclude_survives hmanual (hver.snoc hnext.2.1) _)
        fun file' chain' next' h h' hnext' => ?_
      cases h
      cases h'
      have hsame := hnext.2.1.unique hnext'.2.1 (some.inj (hnext.1.symm.trans hnext'.1))
      exact hsame ▸ hfits

namespace Sample

/-- One manual route of each kind. -/
def routes : ManualProviderSet :=
  ⟨[ascii "/dns4/a.example"], some (ascii "/dns4/b.example"), [ascii "/dns4/c.example"], []⟩

def call (n : UInt8) : Call := ⟨.standard, some (some [n]), routes, 0⟩

/-- A second generation that goes on from the cached first one leaves the manual routes. -/
theorem second_generation_harmless : ∃ r,
    ((call 2).resolve environment [key] (run environment [key] [call 1] none)).result = .ok r ∧
      Survive routes r.providers := by
  refine (manual_routes_iff (by decide) (by decide)).mpr
    fun file chain next hfile hchain hnext => ?_
  cases hfile
  have hcached : cachedChain environment (run environment [key] [call 1] none) = [directory 1] := by
    decide +kernel
  have hdocuments := (retainedChain_eq_some hchain).2.symm.trans hcached
  have hsecond : next.document = directory 2 := some.inj (hnext.1.symm.trans (by decide +kernel))
  have hextended : extendedCache chain next = directories 2 := by
    rw [extendedCache, map_append, hdocuments, map_singleton, hsecond]
    rfl
  constructor
  · have hlength := congrArg List.length hdocuments
    rw [length_map] at hlength
    rw [hlength]
    decide
  · rw [hextended]
    decide +kernel

/-- After sixteen generations the seventeenth, signed like them, fails the call. -/
theorem seventeenth_generation_fails :
    let cache := run environment [key] ((List.range' 1 16).map fun n => call (.ofNat n)) none
    validateManual environment routes = .ok () ∧ validateTrustedKeys [key] = .ok () ∧
      ((call 17).resolve environment [key] cache).result =
        .error (.invalid "signing-key transition chain exceeds the retained bound") := by
  decide +kernel

end Sample

/-! ### Reading a candidate again -/

/-- The last document of the chain does not verify after itself. -/
theorem considerCandidate_last (hfile : loadDocument env file = some next.document) :
    considerCandidate env trusted file (chain ++ [next]) cache =
      ⟨cache, .ok ⟨chain ++ [next], false, true⟩⟩ := by
  rw [considerCandidate, hfile]
  cases hver : verifySuccessor env next.document (chain ++ [next]).getLast? trusted with
  | error e => simp only [hver]
  | ok v =>
    rw [getLast?_concat] at hver
    obtain ⟨hdoc, hchk⟩ := verifySuccessor_eq_ok_iff.mp hver
    have hlt := hchk.generation_lt
    rw [hdoc] at hlt
    exact absurd hlt (UInt64.lt_irrefl _)

theorem statusOf_rejected {considered : Considered} (h : considered.rejected = true)
    (selected : Option VerifiedDirectory) : statusOf considered true now selected ≠ .current := by
  cases selected with
  | none => simp [statusOf, h]
  | some directory =>
    rw [statusOf, h]
    split_ifs <;> simp_all

/-- **When an accepted candidate is current again**: when the first call did not add it to the
chain, so when it only has the digest of the last document there. -/
theorem reread_current_iff (henv : env.ReadsBack) {r : ProviderDirectoryResolution}
    (h : (resolveProviderDirectory env mode candidate trusted manual now cache).result = .ok r)
    (hcurrent : r.status = .current) :
    let after := (resolveProviderDirectory env mode candidate trusted manual now cache).state
    let second := resolveProviderDirectory env mode candidate trusted manual now after
    (second.result = .ok r ∧ cachedChain env second.state = cachedChain env after) ↔
      ∀ file chain next, candidate = some file → retainedChain env trusted cache = some chain →
        ¬ Extends env trusted file chain next := by
  obtain ⟨-, hres⟩ | ⟨file, chain, rfl, hman, hkeys, hch⟩ :=
    resolve_cases env mode candidate trusted manual now cache
  · exact absurd hcurrent (hres r h).2
  have hfst := @resolve_of_retained _ _ _ _ file mode _ now hman hkeys hch
  have hout := @outcome_considerCandidate env trusted chain file cache
  generalize considerCandidate env trusted file chain cache = considered at hout hfst
  intro after second
  cases hout with
  -- The cache is unchanged, so the second call is the first.
  | kept hno =>
    have haft : after = cache := by simp [after, hfst, Effect.andThen]
    refine iff_of_true ⟨?_, by simp only [second, haft, after]⟩ ?_
    · rw [← h]
      simp only [second, haft]
    intro file' chain' next hfile' hch'
    cases hfile'
    obtain rfl := some.inj (hch.symm.trans hch')
    exact hno next
  | refused hnext hfits =>
    rw [hfst] at h
    cases h
  | @added next hnext hfits =>
    refine iff_of_false (fun hsame => ?_) fun hno => hno _ _ _ rfl hch hnext
    have haft : after = some (env.encodeCache (extendedCache chain next)) := by
      simp only [after, hfst, Effect.andThen]
    -- The candidate is now the last of the chain and follows it no more: it is rejected.
    have hret := retainedChain_extended henv (retainedChain_eq_some hch).1 hnext hfits
    have hsnd := hsame.1
    simp only [second, haft, resolve_of_retained hman hkeys hret,
      considerCandidate_last hnext.1, Effect.andThen, conclude, resolution, bind_eq_ok_iff,
      ok.injEq] at hsnd
    obtain ⟨_, -, rfl⟩ := hsnd
    exact statusOf_rejected rfl _ (by simpa using hcurrent)

namespace Sample

theorem readsBack_environment : environment.ReadsBack := by
  intro c hlen
  simp only [environment] at hlen ⊢
  split_ifs at hlen ⊢ with hc
  · have hlt : c.chain.length < 2 ^ 8 := hc.1
    rw [head?_cons, map_some, UInt8.toNat_ofNat', Nat.mod_eq_of_lt hlt, ← hc.2]
  · simp at hlen

/-- What a call with the genesis as its candidate leaves and returns. -/
def readGenesis (cache : Option Bytes) :
    Effect (Option Bytes) ProviderDirectoryError ProviderDirectoryResolution :=
  resolveProviderDirectory environment .standard (some (some [1])) [key] routes 0 cache

theorem genesis_statuses : (readGenesis none).result.map (·.status) = .ok .current ∧
    (readGenesis (readGenesis none).state).result.map (·.status) = .ok .retainedLastValid := by
  decide +kernel

/-- The genesis is accepted as current, and is not current when it is read again. -/
theorem genesis_read_twice : (readGenesis none).result.map (·.status) = .ok .current ∧
    (readGenesis (readGenesis none).state).result ≠ (readGenesis none).result := by
  obtain ⟨hfst, hsnd⟩ := genesis_statuses
  refine ⟨hfst, fun hsame => ?_⟩
  rw [hsame, hfst] at hsnd
  cases hsnd

theorem genesis_extends : ¬ ∀ file chain next, some (some [1]) = some file →
    retainedChain environment [key] none = some chain →
      ¬ Extends environment [key] file chain next := by
  intro hno
  obtain ⟨hfst, hsnd⟩ := genesis_statuses
  obtain ⟨r, hr, hstate⟩ := map_eq_ok_iff.mp hfst
  have hagain := ((reread_current_iff readsBack_environment hr hstate).mpr hno).1
  rw [show (readGenesis (readGenesis none).state).result = .ok r from hagain] at hsnd
  have hsame : r.status = .retainedLastValid := ok.inj hsnd
  rw [hstate] at hsame
  cases hsame

end Sample

/-! ### The retained chain -/

theorem retainedChain_resolve (henv : env.ReadsBack) (call : Call)
    (h : retainedChain env trusted cache = some chain) :
    ∃ added, retainedChain env trusted (call.resolve env trusted cache).state =
      some (chain ++ added) := by
  have hkeep : retainedChain env trusted cache = some (chain ++ []) := by rw [h, append_nil]
  obtain ⟨mode, candidate, manual, now⟩ := call
  obtain ⟨hst, -⟩ | ⟨file, _, rfl, hman, hkeys, hch⟩ :=
    resolve_cases env mode candidate trusted manual now cache
  · exact ⟨[], by rw [Call.resolve, hst, hkeep]⟩
  · obtain rfl := some.inj (h.symm.trans hch)
    have hout := @outcome_considerCandidate env trusted chain file cache
    rw [Call.resolve, resolve_of_retained hman hkeys h]
    generalize considerCandidate env trusted file chain cache = considered at hout ⊢
    cases hout with
    | kept _ | refused _ _ => exact ⟨[], hkeep⟩
    | added hnext hfits =>
      exact ⟨_, retainedChain_extended henv (retainedChain_eq_some h).1 hnext hfits⟩

/-- **The retained chain only grows.**  Whatever files the calls are given, in whatever order and at
whatever times, the cache stays readable, and the chain in it goes on from the one before, with
directories of growing generations. -/
theorem retainedChain_grows (henv : env.ReadsBack) (calls : List Call)
    (h : retainedChain env trusted cache = some chain) :
    ∃ added, retainedChain env trusted (run env trusted calls cache) = some (chain ++ added) ∧
      (chain ++ added).Pairwise fun v w => v.document.generation < w.document.generation := by
  have hrun : ∃ added, retainedChain env trusted (run env trusted calls cache) =
      some (chain ++ added) := by
    induction calls generalizing cache chain with
    | nil => exact ⟨[], by rwa [append_nil]⟩
    | cons call calls ih =>
      obtain ⟨first, hfirst⟩ := retainedChain_resolve henv call h
      obtain ⟨rest, hrest⟩ := ih hfirst
      exact ⟨first ++ rest, append_assoc chain first rest ▸ hrest⟩
  obtain ⟨added, hadd⟩ := hrun
  exact ⟨added, hadd, (retainedChain_eq_some hadd).1.pairwise⟩

namespace Sample

/-- A superseded directory that is offered again takes nothing from the chain. -/
theorem chain_grows_past_replay : ∃ added, retainedChain environment [key]
    (run environment [key] [call 1, call 2, call 1] none) = some added ∧
      added.Pairwise fun v w => v.document.generation < w.document.generation :=
  retainedChain_grows readsBack_environment [call 1, call 2, call 1]
    (show retainedChain environment [key] none = some [] by rfl)

end Sample

end Komms.Provider
