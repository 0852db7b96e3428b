import Komms.Lib.Parser

/-!
# Logical records of the store

The plaintext that `kult-store/src/store_v2.rs` seals: a version, the logical key behind its length,
a byte of flags, the index keys that the flags announce, each behind its length, and the payload,
which takes what is left.  Lengths are written most significant byte first.
-/

namespace Komms.Store

open Komms.Parser

inductive StoreError where
  | recordBounds
  | serialization
  | unsupportedRecordVersion
  deriving DecidableEq, Repr

def logicalRecordVersion : UInt8 := 1
def maxRecordBytes : ℕ := 16 * 1024 * 1024
def maxCanonicalKeyBytes : ℕ := 2 * 1024

structure IndexKeys where
  unique : Option Bytes
  a : Option Bytes
  b : Option Bytes
  c : Option Bytes
  d : Option Bytes
  deriving DecidableEq

def IndexKeys.asArray (indexes : IndexKeys) : List (Option Bytes) :=
  [indexes.unique, indexes.a, indexes.b, indexes.c, indexes.d]

/-- The keys that are there, in the order of their slots. -/
def IndexKeys.keys (indexes : IndexKeys) : List Bytes := indexes.asArray.flatMap Option.toList

structure DecodedRecord where
  logicalKey : Bytes
  indexes : IndexKeys
  payload : Bytes
  deriving DecidableEq

/-! ### Encoding -/

/-- A key behind its length. -/
def keyBytes (key : Bytes) : Bytes := (leBytes 2 key.length).reverse ++ key

def checkKey (key : Bytes) : Except StoreError Unit :=
  rejectIf (key = [] ∨ key.length > maxCanonicalKeyBytes) .recordBounds

/-- A flag for each slot that has a key, from a position on. -/
def indexFlags (position : ℕ) : List Bool → ℕ
  | [] => 0
  | used :: slots => (if used then 1 <<< position else 0) ||| indexFlags (position + 1) slots

/-- The plaintext of a record. -/
def DecodedRecord.frame (r : DecodedRecord) : Bytes :=
  logicalRecordVersion :: (keyBytes r.logicalKey ++
    (leBytes 1 (indexFlags 0 (r.indexes.asArray.map Option.isSome)) ++
      (r.indexes.keys.flatMap keyBytes ++ r.payload)))

-- The loop over the index keys checks each one, raises its flag and counts its bytes.
def encodeRecord (logicalKey : Bytes) (indexes : IndexKeys) (payload : Bytes) :
    Except StoreError Bytes := do
  checkKey logicalKey
  forEach checkKey indexes.keys
  let indexBytes := (indexes.keys.map fun key => 2 + key.length).sum
  rejectIf (1 + 2 + logicalKey.length + 1 + indexBytes + payload.length > maxRecordBytes)
    .recordBounds
  .ok (DecodedRecord.frame { logicalKey, indexes, payload })

/-! ### Decoding -/

/-- The next two bytes as a length. -/
def be16 : Parser StoreError ℕ := do
  let bytes ← take .serialization 2
  pure (ofLeBytes bytes.reverse)

def decodeKey : Parser StoreError Bytes := do
  let length ← be16
  reject (length = 0 ∨ length > maxCanonicalKeyBytes) .serialization
  take .serialization length

/-- One pass of the loop over the index slots. -/
def decodeSlot (flags position : ℕ) : Parser StoreError (Option Bytes) :=
  if flags &&& 1 <<< position = 0 then pure none
  else do
    let key ← decodeKey
    pure (some key)

def decodeBody : Parser StoreError (Bytes × IndexKeys) := do
  let logicalKey ← decodeKey
  let flags ← le .serialization 1
  reject (flags &&& 0b11100000 ≠ 0) .serialization
  let unique ← decodeSlot flags 0
  let a ← decodeSlot flags 1
  let b ← decodeSlot flags 2
  let c ← decodeSlot flags 3
  let d ← decodeSlot flags 4
  pure (logicalKey, { unique, a, b, c, d })

def decodeRecord : Bytes → Except StoreError DecodedRecord
  | [] => .error .serialization
  | version :: remainder => do
    rejectIf (version ≠ logicalRecordVersion) .unsupportedRecordVersion
    rejectIf (remainder.length < 3) .serialization
    let ((logicalKey, indexes), payload) ← decodeBody remainder
    .ok { logicalKey, indexes, payload }

end Komms.Store
