import Komms.Handshake.Store

/-!
# The admission wrapper

The codec of `kult-protocol/src/admission.rs`.  A first contact travels in a wrapper with a fixed
header:

* magic, version, proof kind, two zero bytes;
* target account, target device, bundle digest, validity epoch;
* content id, proof, the lengths of the bundle and of the flight, the bundle, the flight.

Its content id is a digest of the context and of the flight.  It covers neither the proof nor the
bundle (`introductionContentId`).
-/

namespace Komms.Handshake

open Protocol.Envelope (digestPrefix)

def admissionMagic : Bytes := ascii "KFA1"
def contentIdDomain : Bytes := ascii "Komms-admission-content-v1"
def admissionEnvelopeVersion : UInt8 := 1
def admissionEnvelopeHeaderLen : ℕ := 168
def maxAdmissionTargetBundleBytes : ℕ := 32 * 1024
def maxAdmissionSealedFlightBytes : ℕ := 16 * 1024
def maxAdmissionEnvelopeBytes : ℕ :=
  admissionEnvelopeHeaderLen + maxAdmissionTargetBundleBytes + maxAdmissionSealedFlightBytes

inductive AdmissionError where
  | malformed
  | integrityMismatch
  deriving DecidableEq

inductive AdmissionProofKind where
  | puzzle
  | invitation
  deriving DecidableEq, Repr

def AdmissionProofKind.toByte : AdmissionProofKind → UInt8
  | puzzle => 1
  | invitation => 2

def AdmissionProofKind.ofByte (b : UInt8) : Option AdmissionProofKind :=
  if b = 1 then some puzzle else if b = 2 then some invitation else none

structure AdmissionContext where
  targetAccount : Octets 32
  targetDevice : Octets 32
  bundleDigest : Octets 32
  validityEpoch : UInt64
  deriving DecidableEq

structure AdmissionEnvelope where
  context : AdmissionContext
  contentId : Octets 16
  proofKind : AdmissionProofKind
  proof : Octets 32
  targetBundle : Bytes
  sealedFlight : Bytes
  deriving DecidableEq

/-! ### The content id -/

def AdmissionContext.toBytes (context : AdmissionContext) : Bytes :=
  context.targetAccount.toBytes ++ (context.targetDevice.toBytes ++ (context.bundleDigest.toBytes ++
    leBytes 8 context.validityEpoch.toNat))

/-- What the content id is a digest of. -/
def introductionBytes (context : AdmissionContext) (sealedDigest : Octets 32) : Bytes :=
  contentIdDomain ++ admissionEnvelopeVersion :: (context.toBytes ++ sealedDigest.toBytes)

def introductionContentId (sha256 : Bytes → Octets 32) (context : AdmissionContext)
    (sealedFlight : Bytes) : Octets 16 :=
  digestPrefix (sha256 (introductionBytes context (sha256 sealedFlight)))

/-! ### The codec -/

def validateLengths (context : AdmissionContext) (targetBundle sealedFlight : Bytes) :
    Except AdmissionError Unit :=
  rejectIf (context.targetAccount = .zero 32 ∨ context.targetDevice = .zero 32 ∨
    context.bundleDigest = .zero 32 ∨ targetBundle = [] ∨
    targetBundle.length > maxAdmissionTargetBundleBytes ∨ sealedFlight = [] ∨
    sealedFlight.length > maxAdmissionSealedFlightBytes) .malformed

/-- The bytes of a field of the header. -/
def fieldAt (bytes : Bytes) (start n : ℕ) : Except AdmissionError (Octets n) :=
  required .malformed (Octets.ofBytes? n ((bytes.drop start).take n))

def numberAt (bytes : Bytes) (start n : ℕ) : ℕ := ofLeBytes ((bytes.drop start).take n)

namespace AdmissionEnvelope

variable (sha256 : Bytes → Octets 32)

def encode (a : AdmissionEnvelope) : Except AdmissionError Bytes := do
  validateLengths a.context a.targetBundle a.sealedFlight
  rejectIf (a.contentId ≠ introductionContentId sha256 a.context a.sealedFlight) .malformed
  .ok (admissionMagic ++ ([admissionEnvelopeVersion, a.proofKind.toByte, 0, 0] ++
    (a.context.toBytes ++
    (a.contentId.toBytes ++ (a.proof.toBytes ++ (leBytes 4 a.targetBundle.length ++
      (leBytes 4 a.sealedFlight.length ++ (a.targetBundle ++ a.sealedFlight))))))))

/-- The header with its bounds, before the content id is verified. -/
def parse (bytes : Bytes) : Except AdmissionError AdmissionEnvelope := do
  rejectIf (bytes.length < admissionEnvelopeHeaderLen ∨ bytes.length > maxAdmissionEnvelopeBytes ∨
    bytes.take 4 ≠ admissionMagic ∨ bytes[4]? ≠ some admissionEnvelopeVersion ∨
    (bytes.drop 6).take 2 ≠ [0, 0]) .malformed
  let proofKind ← required .malformed (bytes[5]?.bind AdmissionProofKind.ofByte)
  let targetAccount ← fieldAt bytes 8 32
  let targetDevice ← fieldAt bytes 40 32
  let bundleDigest ← fieldAt bytes 72 32
  let contentId ← fieldAt bytes 112 16
  let proof ← fieldAt bytes 128 32
  let bundleLen := numberAt bytes 160 4
  let sealedLen := numberAt bytes 164 4
  rejectIf (bundleLen = 0 ∨ bundleLen > maxAdmissionTargetBundleBytes ∨ sealedLen = 0 ∨
    sealedLen > maxAdmissionSealedFlightBytes ∨
    admissionEnvelopeHeaderLen + bundleLen + sealedLen ≠ bytes.length) .malformed
  let rest := bytes.drop admissionEnvelopeHeaderLen
  let context : AdmissionContext :=
    { targetAccount, targetDevice, bundleDigest, validityEpoch := .ofNat (numberAt bytes 104 8) }
  validateLengths context (rest.take bundleLen) (rest.drop bundleLen)
  .ok
    { context
      contentId
      proofKind
      proof
      targetBundle := rest.take bundleLen
      sealedFlight := rest.drop bundleLen }

def decode (bytes : Bytes) : Except AdmissionError AdmissionEnvelope := do
  let parsed ← parse bytes
  rejectIf (introductionContentId sha256 parsed.context parsed.sealedFlight ≠ parsed.contentId)
    .integrityMismatch
  .ok parsed

/-- `is_encoded`: the wrapper is recognized by its magic, valid or not. -/
def isEncoded (bytes : Bytes) : Bool := admissionMagic.isPrefixOf bytes

def verifiedContentId (bytes : Bytes) : Option (Octets 16) :=
  (parse bytes).toOption.bind fun parsed =>
    if parsed.contentId = introductionContentId sha256 parsed.context parsed.sealedFlight then
      some parsed.contentId
    else none

end AdmissionEnvelope

end Komms.Handshake
