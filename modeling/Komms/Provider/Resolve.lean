import Komms.Crypto.Identity
import Komms.Lib.Effect
import Komms.Protocol.Rendezvous

/-!
# Provider directories

The document of `kult-transport/src/provider_directory.rs` and its canonical binary form, which the
offline directory key signs.  The parsers of addresses, of origins and of JSON are parameters.

`resolve_provider_directory` reads a candidate file and the cached chain, verifies both, extends the
cache by an accepted candidate, and selects the directory whose providers are used beside the
manual ones.  A file is its bytes, and `none` when it is missing or cannot be read.
-/

namespace Komms.Provider

open Protocol (beBytes)

/-- A string, as its UTF-8 bytes: compared byte by byte. -/
abbrev Text := Bytes

def providerDirectoryVersion : UInt8 := 1
def maxProviderDirectoryFileBytes : ℕ := 256 * 1024
def maxTrustedDirectoryKeys : ℕ := 8
def maxProviderDirectoryChain : ℕ := 16
def maxProviderOperators : ℕ := 32
def maxProviderRoleEntries : ℕ := 8
def maxProviderDirectoryValiditySecs : ℕ := 90 * 24 * 60 * 60
def providerDirectoryStaleGraceSecs : UInt64 := 30 * 24 * 60 * 60
def providerDirectoryClockSkewSecs : UInt64 := 24 * 60 * 60
def maxRendezvousProviders : ℕ := 8
def maxRendezvousProviderOriginBytes : ℕ := 512

/-- One bounded HTTPS rendezvous provider advertised by an operator. -/
structure ProviderRendezvous where
  origin : Text
  staticKey : Text
  standard : Bool
  privateViaTor : Bool
  deriving DecidableEq

/-- One independently configurable operator and its least-authority roles. -/
structure ProviderOperator where
  operatorId : Text
  administrativeDomain : Text
  bootstrap : List Text
  relays : List Text
  mailboxes : List Text
  rendezvous : List ProviderRendezvous
  deriving DecidableEq

/-- Binary values are lowercase hexadecimal; the signature covers all the other fields. -/
structure ProviderDirectory where
  version : UInt8
  generation : UInt64
  validFrom : UInt64
  validUntil : UInt64
  previousDigest : Option Text
  signingKey : Text
  nextSigningKey : Option Text
  nextKeyNotBeforeGeneration : Option UInt64
  operators : List ProviderOperator
  signature : Text
  deriving DecidableEq

structure ProviderDirectoryCache where
  version : UInt8
  chain : List ProviderDirectory
  deriving DecidableEq

/-- Validation failures.  Reading and decoding failures are dropped by the callers, which see no
document. -/
inductive ProviderDirectoryError where
  | invalid (reason : String)
  deriving DecidableEq

/-- The primitives, and the parsers and the encoder that this code calls. -/
structure Env where
  suite : Suite
  /-- `parse_addr` returns an address. -/
  parseAddr : Text → Bool
  isIpAddr : Text → Bool
  canonicalHttpsOrigin : Text → Bool
  decodeDocument : Bytes → Option ProviderDirectory
  decodeCache : Bytes → Option ProviderDirectoryCache
  encodeCache : ProviderDirectoryCache → Bytes

/-! ### Hexadecimal -/

def isHexDigit (b : UInt8) : Bool := byteIn 0x30 0x39 b || byteIn 0x61 0x66 b

def hexNibble (b : UInt8) : UInt8 :=
  if byteIn 0x30 0x39 b then b - 0x30 else if byteIn 0x61 0x66 b then b - 0x61 + 10 else 0

/-- The bytes of the pairs of digits. -/
def hexPairs : Text → Bytes
  | a :: b :: rest => (hexNibble a <<< 4 ||| hexNibble b) :: hexPairs rest
  | _ => []

def parseHex (n : ℕ) (value : Text) : Except ProviderDirectoryError (Octets n) := do
  rejectIf (value.length ≠ n * 2 ∨ value.all isHexDigit = false)
    (.invalid "non-canonical hexadecimal")
  -- As many digits as this are `n` pairs.
  required (.invalid "non-canonical hexadecimal") (Octets.ofBytes? n (hexPairs value))

/-- `map(parse_hex).transpose()`. -/
def parseOptionalHex (n : ℕ) : Option Text → Except ProviderDirectoryError (Option (Octets n))
  | none => .ok none
  | some value => do
    let bytes ← parseHex n value
    .ok (some bytes)

def hexDigits : Text := ascii "0123456789abcdef"

def hexString (bytes : Bytes) : Text :=
  bytes.flatMap fun b : UInt8 =>
    [hexDigits.getD (b >>> 4).toNat 0, hexDigits.getD (b &&& 0x0f).toNat 0]

/-! ### Names -/

def isLowerOrDigit (b : UInt8) : Bool := byteIn 0x61 0x7A b || byteIn 0x30 0x39 b

def isLabelByte (b : UInt8) : Bool := isLowerOrDigit b || b = 0x2D

def safeId (value : Text) : Bool :=
  value ≠ [] && value.length ≤ 63 && value.head?.any isLowerOrDigit && value.all isLabelByte &&
    value.getLast? ≠ some 0x2D

def canonicalDomain (env : Env) (value : Text) : Bool :=
  if value.length > 253 || env.isIpAddr value then false
  else
    let labels := value.splitOn 0x2E
    labels.length ≥ 2 && labels.all fun label =>
      label ≠ [] && label.length ≤ 63 && label.head? ≠ some 0x2D && label.getLast? ≠ some 0x2D &&
        label.all isLabelByte

/-! ### Rendezvous providers -/

/-- Canonical, authenticated provider descriptor. -/
structure RendezvousProvider where
  origin : Text
  staticKey : Octets 32
  providerId : Octets 32
  deriving DecidableEq

def rendezvousProviderId (S : Suite) (origin : Bytes) (key : Octets 32) : Option (Octets 32) :=
  if origin = [] ∨ origin.length > maxRendezvousProviderOriginBytes ∨ 0 ∈ origin then none
  else some (S.sha256 (origin ++ key.toBytes))

def RendezvousProvider.new (env : Env) (origin : Text) (key : Octets 32) :
    Option RendezvousProvider :=
  if env.canonicalHttpsOrigin origin = false ∨ key = .zero 32 then none
  else (rendezvousProviderId env.suite origin key).map fun id => ⟨origin, key, id⟩

/-- The provider of an entry, as each reader of an entry builds it. -/
def ProviderRendezvous.provider (env : Env) (entry : ProviderRendezvous) :
    Except ProviderDirectoryError RendezvousProvider := do
  let key ← parseHex 32 entry.staticKey
  required (.invalid "rendezvous provider") (RendezvousProvider.new env entry.origin key)

/-! ### The canonical form -/

def pushOptionalFixed {n : ℕ} : Option (Octets n) → Bytes
  | none => [0]
  | some value => 1 :: value.toBytes

def pushU16 (value : ℕ) : Except ProviderDirectoryError Bytes := do
  rejectIf (2 ^ 16 ≤ value) (.invalid "canonical count overflow")
  .ok (beBytes 2 value)

def pushString (value : Text) : Except ProviderDirectoryError Bytes := do
  let length ← pushU16 value.length
  .ok (length ++ value)

/-- The loop of `canonical_role`; `prior` is the entry before. -/
def canonicalEntries (env : Env) : Option Text → List Text → Except ProviderDirectoryError Bytes
  | _, [] => .ok []
  | prior, entry :: rest => do
    rejectIf ((∃ p ∈ prior, ¬ p < entry) ∨ env.parseAddr entry = false)
      (.invalid "provider multiaddress or order")
    let first ← pushString entry
    let others ← canonicalEntries env (some entry) rest
    .ok (first ++ others)

def canonicalRole (env : Env) (entries : List Text) : Except ProviderDirectoryError Bytes := do
  rejectIf (entries.length > maxProviderRoleEntries) (.invalid "provider role count")
  let count ← pushU16 entries.length
  let body ← canonicalEntries env none entries
  .ok (count ++ body)

/-- The loop over the rendezvous entries; `prior` is the origin and the key of the entry before. -/
def canonicalRendezvous (env : Env) :
    Option (Text × Text) → List ProviderRendezvous → Except ProviderDirectoryError Bytes
  | _, [] => .ok []
  | prior, entry :: rest => do
    let provider ← entry.provider env
    rejectIf ((entry.standard = false ∧ entry.privateViaTor = false) ∨ ∃ p ∈ prior,
      ¬ (p.1 < entry.origin ∨ p.1 = entry.origin ∧ p.2 < entry.staticKey))
      (.invalid "rendezvous access or order")
    let origin ← pushString provider.origin
    let others ← canonicalRendezvous env (some (entry.origin, entry.staticKey)) rest
    .ok (origin ++ (provider.staticKey.toBytes ++
      (entry.standard.toUInt8 :: entry.privateViaTor.toUInt8 :: others)))

/-- The loop over the operators; `prior` is the id of the operator before. -/
def canonicalOperators (env : Env) :
    Option Text → List ProviderOperator → Except ProviderDirectoryError Bytes
  | _, [] => .ok []
  | prior, operator :: rest => do
    rejectIf (safeId operator.operatorId = false ∨
      canonicalDomain env operator.administrativeDomain = false ∨
      ∃ p ∈ prior, ¬ p < operator.operatorId) (.invalid "operator identity or order")
    let id ← pushString operator.operatorId
    let domain ← pushString operator.administrativeDomain
    let bootstrap ← canonicalRole env operator.bootstrap
    let relays ← canonicalRole env operator.relays
    let mailboxes ← canonicalRole env operator.mailboxes
    rejectIf (operator.rendezvous.length > maxProviderRoleEntries) (.invalid "rendezvous count")
    let count ← pushU16 operator.rendezvous.length
    let rendezvous ← canonicalRendezvous env none operator.rendezvous
    let others ← canonicalOperators env (some operator.operatorId) rest
    .ok (id ++ (domain ++ (bootstrap ++ (relays ++ (mailboxes ++ (count ++
      (rendezvous ++ others)))))))

def canonicalDocument (env : Env) (document : ProviderDirectory) :
    Except ProviderDirectoryError Bytes := do
  rejectIf (document.version ≠ providerDirectoryVersion ∨ document.generation = 0 ∨
    document.validFrom > document.validUntil ∨
    document.validUntil.toNat - document.validFrom.toNat > maxProviderDirectoryValiditySecs ∨
    document.operators = [] ∨ document.operators.length > maxProviderOperators)
    (.invalid "version, generation, validity, or operator count")
  let previous ← parseOptionalHex 32 document.previousDigest
  let signing ← parseHex 32 document.signingKey
  let next ← parseOptionalHex 32 document.nextSigningKey
  rejectIf (next.isSome ≠ document.nextKeyNotBeforeGeneration.isSome ∨
    (∃ g ∈ document.nextKeyNotBeforeGeneration, g ≤ document.generation) ∨ next = some signing)
    (.invalid "next signing key")
  let count ← pushU16 document.operators.length
  let operators ← canonicalOperators env none document.operators
  .ok (ascii "KPD1" ++ (document.version :: (beBytes 8 document.generation.toNat ++
    (beBytes 8 document.validFrom.toNat ++ (beBytes 8 document.validUntil.toNat ++
    (pushOptionalFixed previous ++ (signing.toBytes ++ (pushOptionalFixed next ++
    (beBytes 8 (document.nextKeyNotBeforeGeneration.getD 0).toNat ++ (count ++ operators))))))))))

variable (env : Env)

/-! ### Verification -/

structure VerifiedDirectory where
  document : ProviderDirectory
  signingKey : Octets 32
  nextSigningKey : Option (Octets 32)
  digest : Octets 32
  deriving DecidableEq

/-- The place of a document in the chain: a genesis of a trusted key, or a later generation bound to
the one before, under its key or the key it announced. -/
def verifyParent (document : ProviderDirectory) (signingKey : Octets 32)
    (trustedKeys : List (Octets 32)) : Option VerifiedDirectory → Except ProviderDirectoryError Unit
  | none => rejectIf (document.previousDigest.isSome = true ∨ signingKey ∉ trustedKeys)
      (.invalid "untrusted genesis")
  | some previous => do
    rejectIf (document.generation ≤ previous.document.generation ∨
      document.previousDigest ≠ some (hexString previous.digest.toBytes))
      (.invalid "rollback, fork, or missing parent binding")
    rejectIf (signingKey ≠ previous.signingKey ∧ ¬ (previous.nextSigningKey = some signingKey ∧
      ∃ g ∈ previous.document.nextKeyNotBeforeGeneration, g ≤ document.generation))
      (.invalid "unauthorized signing-key transition")

def verifySuccessor (document : ProviderDirectory) (previous : Option VerifiedDirectory)
    (trustedKeys : List (Octets 32)) : Except ProviderDirectoryError VerifiedDirectory := do
  let canonical ← canonicalDocument env document
  let signingKey ← parseHex 32 document.signingKey
  let signature ← parseHex 64 document.signature
  (verifyPeerDomain env.suite signingKey .providerDirectory canonical signature).mapError
    fun _ => .invalid "signature"
  verifyParent document signingKey trustedKeys previous
  let nextSigningKey ← parseOptionalHex 32 document.nextSigningKey
  .ok ⟨document, signingKey, nextSigningKey, env.suite.sha256 (canonical ++ signature.toBytes)⟩

variable (trustedKeys : List (Octets 32))

/-- One round of `verify_chain`. -/
def verifyNext (verified : List VerifiedDirectory) (document : ProviderDirectory) :
    Except ProviderDirectoryError (List VerifiedDirectory) := do
  let next ← verifySuccessor env document verified.getLast? trustedKeys
  .ok (verified ++ [next])

def verifyChain (documents : List ProviderDirectory) (trustedKeys : List (Octets 32)) :
    Except ProviderDirectoryError (List VerifiedDirectory) := do
  rejectIf (documents.length > maxProviderDirectoryChain) (.invalid "cached chain length")
  documents.foldlM (verifyNext env trustedKeys) []

/-! ### Files -/

def readBounded (file : Option Bytes) : Option Bytes :=
  file.filter fun bytes => bytes.length ≤ maxProviderDirectoryFileBytes

def loadDocument (file : Option Bytes) : Option ProviderDirectory :=
  (readBounded file).bind env.decodeDocument

/-- A missing cache file is the empty cache. -/
def loadCache : Option Bytes → Option ProviderDirectoryCache
  | none => some ⟨0, []⟩
  | some bytes => ((readBounded (some bytes)).bind env.decodeCache).filter fun cache =>
      cache.version = providerDirectoryVersion ∧ cache.chain.length ≤ maxProviderDirectoryChain

/-- The bytes `write_cache` puts in place of the file. -/
def writeCache (chain : List VerifiedDirectory) : Except ProviderDirectoryError Bytes := do
  let bytes := env.encodeCache ⟨providerDirectoryVersion, chain.map VerifiedDirectory.document⟩
  rejectIf (bytes.length > maxProviderDirectoryFileBytes) (.invalid "cache size")
  .ok bytes

/-- The retained chain, when the cache can be read and verified. -/
def retainedChain (cache : Option Bytes) : Option (List VerifiedDirectory) :=
  (loadCache env cache).bind fun cache => (verifyChain env cache.chain trustedKeys).toOption

/-! ### Providers -/

inductive OperatingMode where
  | standard
  | privately
  | sovereign
  deriving DecidableEq

/-- Manual, user-controlled providers preserved independently of the directory. -/
structure ManualProviderSet where
  bootstrap : List Text
  relay : Option Text
  mailboxes : List Text
  rendezvous : List ProviderRendezvous

/-- Effective startup providers after mode policy is applied. -/
structure EffectiveProviderSet where
  bootstrap : List Text
  relay : Option Text
  mailboxes : List Text
  rendezvous : List RendezvousProvider
  deriving DecidableEq

variable (mode : OperatingMode)

def ProviderRendezvous.eligible (entry : ProviderRendezvous) : Bool :=
  match mode with
  | .standard => entry.standard
  | .privately => entry.privateViaTor
  | .sovereign => false

/-- The loop over the rendezvous entries: the first providers up to the bound, none twice. -/
def resolveRendezvous (mode : OperatingMode) :
    List ProviderRendezvous → List RendezvousProvider →
      Except ProviderDirectoryError (List RendezvousProvider)
  | [], resolved => .ok resolved
  | entry :: rest, resolved =>
    if entry.eligible mode = false then resolveRendezvous mode rest resolved
    else do
      let provider ← entry.provider env
      if provider.providerId ∈ resolved.map RendezvousProvider.providerId then
        resolveRendezvous mode rest resolved
      else if resolved.length = maxRendezvousProviders then .ok resolved
      else resolveRendezvous mode rest (resolved ++ [provider])

def usedOperators (directory : Option ProviderDirectory) : List ProviderOperator :=
  if mode = .sovereign then [] else (directory.map (·.operators)).getD []

def effectiveRendezvous (entries : List ProviderRendezvous) :
    Except ProviderDirectoryError (List RendezvousProvider) :=
  if mode = .sovereign then .ok [] else resolveRendezvous env mode entries []

def effectiveProviders (directory : Option ProviderDirectory) (manual : ManualProviderSet) :
    Except ProviderDirectoryError EffectiveProviderSet := do
  let operators := usedOperators mode directory
  let rendezvous ← effectiveRendezvous env mode
    (manual.rendezvous ++ operators.flatMap (·.rendezvous))
  .ok
    { bootstrap := (manual.bootstrap ++ operators.flatMap (·.bootstrap)).eraseDups
      relay := (manual.relay.toList ++ operators.flatMap (·.relays)).eraseDups.head?
      mailboxes := (manual.mailboxes ++ operators.flatMap (·.mailboxes)).eraseDups
      rendezvous }

variable (manual : ManualProviderSet)

def validateManual : Except ProviderDirectoryError Unit := do
  rejectIf (manual.bootstrap.length > maxProviderOperators * maxProviderRoleEntries ∨
    manual.mailboxes.length > maxProviderOperators * maxProviderRoleEntries ∨
    manual.rendezvous.length > maxRendezvousProviders ∨
    (∃ entry ∈ manual.bootstrap, env.parseAddr entry = false) ∨
    (∃ entry ∈ manual.relay, env.parseAddr entry = false) ∨
    ∃ entry ∈ manual.mailboxes, env.parseAddr entry = false) (.invalid "manual provider set")
  forEach (fun entry => do
    rejectIf (entry.standard = false ∧ entry.privateViaTor = false)
      (.invalid "manual rendezvous provider")
    let key ← parseHex 32 entry.staticKey
    rejectIf (RendezvousProvider.new env entry.origin key = none)
      (.invalid "manual rendezvous provider")) manual.rendezvous

def validateTrustedKeys (keys : List (Octets 32)) : Except ProviderDirectoryError Unit := do
  rejectIf (keys = [] ∨ keys.length > maxTrustedDirectoryKeys) (.invalid "trusted root count")
  rejectIf (.zero 32 ∈ keys ∨ ¬ keys.Nodup) (.invalid "trusted root key")

/-! ### Resolution -/

inductive ProviderDirectoryStatus where
  | current
  | retainedLastValid
  | stale
  | conflict
  | unavailable
  deriving DecidableEq

structure ProviderDirectoryResolution where
  directory : Option ProviderDirectory
  status : ProviderDirectoryStatus
  providers : EffectiveProviderSet
  deriving DecidableEq

def saturatingAdd (a b : UInt64) : UInt64 := .ofNat (min (a.toNat + b.toNat) (2 ^ 64 - 1))

/-- The validity window of a document, with the clock skew before it and the grace after it. -/
def ProviderDirectory.covers (now : UInt64) (document : ProviderDirectory) : Bool :=
  document.validFrom ≤ saturatingAdd now providerDirectoryClockSkewSecs &&
    now ≤ saturatingAdd document.validUntil providerDirectoryStaleGraceSecs

/-- The latest document whose window contains `now`. -/
def select (chain : List VerifiedDirectory) (now : UInt64) : Option VerifiedDirectory :=
  chain.reverse.find? fun directory => directory.document.covers now

/-- The chain after the candidate was looked at, and what became of the candidate. -/
structure Considered where
  chain : List VerifiedDirectory
  accepted : Bool
  rejected : Bool

/-- Verify the candidate and, when it extends the chain, replace the cache. -/
def considerCandidate (candidate : Option Bytes) (chain : List VerifiedDirectory)
    (cache : Option Bytes) : Effect (Option Bytes) ProviderDirectoryError Considered :=
  match loadDocument env candidate with
  | none => ⟨cache, .ok ⟨chain, false, true⟩⟩
  | some document =>
    match verifySuccessor env document chain.getLast? trustedKeys with
    | .error _ => ⟨cache, .ok ⟨chain, false, true⟩⟩
    | .ok next =>
      if ∃ current ∈ chain.getLast?, current.digest = next.digest then
        ⟨cache, .ok ⟨chain, true, false⟩⟩
      else if ∀ current ∈ chain.getLast?,
          current.document.generation < next.document.generation then
        if chain.length + 1 > maxProviderDirectoryChain then
          ⟨cache, .error (.invalid "signing-key transition chain exceeds the retained bound")⟩
        else match writeCache env (chain ++ [next]) with
          | .error e => ⟨cache, .error e⟩
          | .ok bytes => ⟨some bytes, .ok ⟨chain ++ [next], true, false⟩⟩
      else ⟨cache, .ok ⟨chain, false, true⟩⟩

def statusOf (considered : Considered) (hadUsableCache : Bool) (now : UInt64) :
    Option VerifiedDirectory → ProviderDirectoryStatus
  | none => if considered.rejected then .conflict else .unavailable
  | some directory =>
    if now > directory.document.validUntil then .stale
    else if considered.rejected && hadUsableCache then .retainedLastValid
    else if considered.accepted = true ∧
        ∃ latest ∈ considered.chain.getLast?, latest.digest = directory.digest then .current
    else .retainedLastValid

def resolution (directory : Option ProviderDirectory) (status : ProviderDirectoryStatus) :
    Except ProviderDirectoryError ProviderDirectoryResolution := do
  let providers ← effectiveProviders env mode directory manual
  .ok ⟨directory, status, providers⟩

/-- The end of a call, after the candidate was looked at. -/
def conclude (now : UInt64) (hadUsableCache : Bool) (considered : Considered) :
    Except ProviderDirectoryError ProviderDirectoryResolution :=
  let selected := select considered.chain now
  resolution env mode manual (selected.map (·.document))
    (statusOf considered hadUsableCache now selected)

/-- Resolve a candidate and retained cache without making a provider mandatory.  `candidate` is the
configured file, if one is configured. -/
def resolveProviderDirectory (candidate : Option (Option Bytes)) (trustedKeys : List (Octets 32))
    (manual : ManualProviderSet) (now : UInt64) (cache : Option Bytes) :
    Effect (Option Bytes) ProviderDirectoryError ProviderDirectoryResolution :=
  match validateManual env manual, candidate with
  | .error e, _ => ⟨cache, .error e⟩
  | .ok _, none => ⟨cache, resolution env mode manual none .unavailable⟩
  | .ok _, some file =>
    if trustedKeys = [] then
      ⟨cache, .error (.invalid "directory data configured without a trusted root")⟩
    else match validateTrustedKeys trustedKeys, retainedChain env trustedKeys cache with
      | .error e, _ => ⟨cache, .error e⟩
      | .ok _, none => ⟨cache, resolution env mode manual none .conflict⟩
      | .ok _, some chain =>
        (considerCandidate env trustedKeys file chain cache).andThen fun cache considered =>
          ⟨cache, conclude env mode manual now (chain ≠ []) considered⟩

end Komms.Provider
