import Komms.Crypto.Identity
import Komms.Lib.BitStream

/-!
# Base32 text and Connect codes

The base32 encoder and decoder of `util.rs`, which stream bits through a 64-bit buffer, and the
Connect codes of `discovery.rs` that are written with them.
-/

namespace Komms

def base32Alphabet : Bytes := ascii "abcdefghijklmnopqrstuvwxyz234567"

/-- The digits that `base32_lower_nopad` writes: of 5 bits each, the last one padded with zeros. -/
def base32Digits (data : Bytes) : List ℕ :=
  let s := (data.map UInt8.toNat).foldl (fun s b => (s.push 8 b).drain 5) BitStream.empty
  if s.bits > 0 then s.out ++ [((s.buf <<< (5 - s.bits)) % 2 ^ 64) &&& 0x1f] else s.out

def base32LowerNopad (data : Bytes) : Bytes :=
  (base32Digits data).map fun d => base32Alphabet.getD d 0

/-- The loop of the decoder for one digit. -/
def base32Accept (s : BitStream) (val : ℕ) : BitStream :=
  let s := s.push 5 val
  if s.bits ≥ 8 then s.cut 8 else s

def base32LowerNopadDecode (text : Bytes) : Option Bytes := do
  let s ← text.foldlM (fun s c => (base32Alphabet.idxOf? c).map (base32Accept s)) .empty
  if s.bits ≥ 5 ∨ s.buf &&& ((1 <<< s.bits) - 1) ≠ 0 then none
  else some (s.out.map UInt8.ofNat)

structure ConnectCode where
  identityDigest : Octets 32
  capability : Octets 32
  deriving DecidableEq

def connectCodePrefix : Bytes := ascii "kc2"

variable (connectChecksum : Bytes → Octets 4)

def ConnectCode.encode (c : ConnectCode) : Bytes :=
  let payload := c.identityDigest.toBytes ++ c.capability.toBytes
  connectCodePrefix ++ base32LowerNopad (payload ++ (connectChecksum payload).toBytes)

def ConnectCode.parse (text : Bytes) : Except CryptoError ConnectCode := do
  let encoded ← required .invalidMessage (connectCodePrefix.isPrefixOf? text)
  let decoded ← required .invalidMessage (base32LowerNopadDecode encoded)
  let payload ← required .invalidMessage (Octets.ofBytes? 68 decoded)
  let payload := payload.toBytes
  rejectIf (text ≠ connectCodePrefix ++ base32LowerNopad payload ∨
    payload.drop 64 ≠ (connectChecksum (payload.take 64)).toBytes) .invalidMessage
  let identityDigest ← required .invalidMessage (Octets.ofBytes? 32 (payload.take 32))
  let capability ← required .invalidMessage (Octets.ofBytes? 32 ((payload.take 64).drop 32))
  rejectIf (identityDigest = .zero 32 ∨ capability = .zero 32) .invalidMessage
  .ok ⟨identityDigest, capability⟩

end Komms
