import Mathlib.Data.List.DropRight
import Komms.Lib.Bytes
import Komms.Lib.Checked

/-!
# Sealed envelopes and padding

The unit that transports carry, `kult-protocol/src/envelope.rs`:

* version 1: version, kind, delivery token, body;
* version 2: version, kind, delivery token, retention hint, body.

An `Envelope` is what `Envelope::new`, `Envelope::new_retained` and `Envelope::decode` return: a
hint is a whole number of hours and not zero.

`padding.rs`: a plaintext is followed by the marker `0x80` and zeros, up to one of a few bucket
sizes.
-/

namespace Komms.Protocol

inductive EnvelopeError where
  | malformed
  | envelopeTooLarge
  deriving DecidableEq

def envelopeVersionV1 : UInt8 := 1
def envelopeVersionV2 : UInt8 := 2
def envelopeV1HeaderLen : ℕ := 1 + 1 + 32
def envelopeV2HeaderLen : ℕ := 1 + 1 + 32 + 8
def maxEnvelopeBytes : ℕ := 128 * 1024
def retentionBucketSecs : ℕ := 3600

/-! ### Kinds -/

inductive EnvelopeKind where
  | message
  | handshake
  | receipt
  | fragment
  | groupControl
  | groupMessage
  deriving DecidableEq

def EnvelopeKind.toByte : EnvelopeKind → UInt8
  | message => 1
  | handshake => 2
  | receipt => 3
  | fragment => 4
  | groupControl => 5
  | groupMessage => 6

def EnvelopeKind.ofByte (b : UInt8) : Except EnvelopeError EnvelopeKind :=
  if b = 1 then .ok message
  else if b = 2 then .ok handshake
  else if b = 3 then .ok receipt
  else if b = 4 then .ok fragment
  else if b = 5 then .ok groupControl
  else if b = 6 then .ok groupMessage
  else .error .malformed

/-! ### Envelopes -/

/-- A hint that relays may see: a non-zero multiple of the bucket. -/
def RetentionBucket (hint : UInt64) : Prop := hint ≠ 0 ∧ hint.toNat % retentionBucketSecs = 0

instance (hint : UInt64) : Decidable (RetentionBucket hint) := by
  unfold RetentionBucket
  infer_instance

structure Envelope where
  kind : EnvelopeKind
  token : Octets 32
  retentionUntil : Option UInt64
  body : Bytes
  retention_bucket : ∀ hint ∈ retentionUntil, RetentionBucket hint
  deriving DecidableEq

namespace Envelope

@[ext] theorem ext {a b : Envelope} (hkind : a.kind = b.kind) (htoken : a.token = b.token)
    (hhint : a.retentionUntil = b.retentionUntil) (hbody : a.body = b.body) : a = b := by
  cases a; cases b; cases hkind; cases htoken; cases hhint; cases hbody; rfl

def new (kind : EnvelopeKind) (token : Octets 32) (body : Bytes) : Envelope :=
  ⟨kind, token, none, body, by simp⟩

def newRetained (kind : EnvelopeKind) (token : Octets 32) (hint : UInt64) (body : Bytes) :
    Except EnvelopeError Envelope :=
  if h : RetentionBucket hint then
    .ok ⟨kind, token, some hint, body, by simpa using h⟩
  else .error .malformed

variable (e : Envelope)

def headerLen : ℕ := if e.retentionUntil.isSome then envelopeV2HeaderLen else envelopeV1HeaderLen

def encodedLen : ℕ := e.headerLen + e.body.length

/-- The bytes of the hint, none in version 1. -/
def hintBytes : Bytes :=
  match e.retentionUntil with
  | some hint => leBytes 8 hint.toNat
  | none => []

def version : UInt8 := if e.retentionUntil.isSome then envelopeVersionV2 else envelopeVersionV1

def encode : Bytes := e.version :: e.kind.toByte :: (e.token.toBytes ++ (e.hintBytes ++ e.body))

def tryEncode : Except EnvelopeError Bytes := do
  rejectIf (e.encodedLen > maxEnvelopeBytes) .envelopeTooLarge
  .ok e.encode

/-- What follows the token, by version. -/
def decodeRest (kind : EnvelopeKind) (token : Octets 32) (version : UInt8) (rest : Bytes) :
    Except EnvelopeError Envelope :=
  if version = envelopeVersionV1 then .ok (new kind token rest)
  else if version = envelopeVersionV2 ∧ 8 ≤ rest.length then
    newRetained kind token (UInt64.ofNat (ofLeBytes (rest.take 8))) (rest.drop 8)
  else .error .malformed

def decode (bytes : Bytes) : Except EnvelopeError Envelope := do
  rejectIf (bytes.length > maxEnvelopeBytes) .envelopeTooLarge
  match bytes with
  | version :: kind :: rest => do
    rejectIf (rest.length < 32) .malformed
    let kind ← EnvelopeKind.ofByte kind
    let token ← required .malformed (Octets.ofBytes? 32 (rest.take 32))
    decodeRest kind token version (rest.drop 32)
  | _ => .error .malformed

/-! ### Content ids -/

/-- `blake3::hash`, and the id that a verified admission box names for its content. -/
structure ContentHash where
  blake3 : Bytes → Octets 32
  verifiedContentId : Bytes → Option (Octets 16)

def digestPrefix (digest : Octets 32) : Octets 16 :=
  ⟨digest.toBytes.take 16, by simp⟩

/-- `Envelope::content_id`: stable across redundant deliveries. -/
def contentId (H : ContentHash) (e : Envelope) : Octets 16 :=
  match e.kind, H.verifiedContentId e.body with
  | .handshake, some id => id
  | _, _ => digestPrefix (H.blake3 e.encode)

end Envelope

inductive PaddingError where
  | tooLarge
  | badPadding
  deriving DecidableEq, Repr

def padBuckets : List ℕ := [192, 512, 1024, 4096, 16384, 65536]

/-- Pad to the smallest bucket that fits the plaintext with its marker and is not below
`minimum`. -/
def padToMinimum (plaintext : Bytes) (minimum : ℕ) : Except PaddingError Bytes := do
  let needed := plaintext.length + 1
  let bucket ← required .tooLarge (padBuckets.find? fun b => needed ≤ b && minimum ≤ b)
  .ok (plaintext ++ 0x80 :: List.replicate (bucket - needed) 0)

-- The loop from the end passes over the zeros; what is before them has to end with the marker.
def unpad (padded : Bytes) : Except PaddingError Bytes := do
  rejectIf (padded.length ∉ padBuckets) .badPadding
  let marked := padded.rdropWhile (· = 0)
  rejectIf (marked.getLast? ≠ some 0x80) .badPadding
  .ok marked.dropLast

end Komms.Protocol
