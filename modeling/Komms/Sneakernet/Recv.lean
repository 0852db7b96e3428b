import Komms.Lib.Bytes
import Komms.Lib.Effect

/-!
# Receiving from a spool directory

A pass of `SneakernetTransport::recv` over the inbox directory: the files that are bundles are read,
handed over and deleted, whatever else carries the name of one is renamed aside, and the first
operation that fails ends the pass.
-/

namespace Komms.Sneakernet

def maxBundleBytes : ℕ := 16 * 1024 * 1024

def maxFilesPerRecv : ℕ := 256

def maxDirectoryEntriesPerRecv : ℕ := 1024

def maxBytesPerRecv : ℕ := maxBundleBytes

/-- What a pass asks of other code: `bundle_import`, which refuses what is larger than a bundle may
be, and `to_string_lossy` for the names. -/
structure Codec (Envelope : Type) where
  bundleImport : Bytes → Option (List Envelope)
  bundleImport_large : ∀ bytes, maxBundleBytes < bytes.length → bundleImport bytes = none
  lossy : Bytes → Bytes

/-- What stands under a name of a directory. -/
inductive Item
  | file (bytes : Bytes)
  /-- A directory or a link. -/
  | other
  deriving DecidableEq

/-- The failure of a file operation. -/
inductive TransportError
  | io
  deriving DecidableEq

/-- An entry of the listing, with the outcome of each operation the pass may make for it: `true` for
one that succeeds.  One that fails changes nothing. -/
structure Entry where
  name : Bytes
  nextEntry : Bool
  fileType : Bool
  metadata : Bool
  openFile : Bool
  readToEnd : Bool
  removeFile : Bool
  rename : Bool
  /-- Whether the look at the candidate of an attempt to rename succeeds. -/
  symlinkMetadata : ℕ → Bool

variable {Envelope : Type}

/-- The variables of a pass, with the directory and the counter of the transport. -/
structure Pass (Envelope : Type) where
  inbox : Bytes → Option Item
  counter : UInt64
  out : List Envelope
  entriesExamined : ℕ
  filesExamined : ℕ
  bytesAdmitted : ℕ

def Pass.rename (s : Pass Envelope) (name candidate : Bytes) : Pass Envelope :=
  { s with inbox := Function.update (Function.update s.inbox name none) candidate (s.inbox name) }

/-- The extension is `kkb` and the name is not hidden. -/
def isBundle (name : Bytes) : Bool :=
  (ascii ".kkb").isSuffixOf name && !(ascii ".").isPrefixOf name

variable (codec : Codec Envelope) (entry : Entry)

/-- The name that an attempt to rename tries, and the counter after it. -/
def candidate (counter : UInt64) : ℕ → Bytes × UInt64
  | 0 => (entry.name ++ ascii ".bad", counter)
  | _ + 1 =>
    (codec.lossy entry.name ++ ascii s!".{counter.toNat}.bad", counter + 1)

/-- The loop of `quarantine`, with the attempts that are left of 64. -/
def quarantine (s : Pass Envelope) : ℕ → Effect (Pass Envelope) TransportError Unit
  | 0 => ⟨s, .error .io⟩
  | left + 1 =>
    let attempt := 63 - left
    let (candidate, counter) := candidate codec entry s.counter attempt
    let s := { s with counter }
    if !entry.symlinkMetadata attempt then ⟨s, .error .io⟩
    else if (s.inbox candidate).isSome then quarantine s left
    else if !entry.rename then ⟨s, .error .io⟩
    else ⟨s.rename entry.name candidate, .ok ()⟩

/-- Rename the entry aside and go on with the next one. -/
def setAside (s : Pass Envelope) : Effect (Pass Envelope) TransportError Bool :=
  (quarantine codec entry s 64).andThen fun s _ => ⟨s, .ok true⟩

/-- Read a file through the ceiling of the pass, and hand its envelopes over before it is deleted.
The result says whether the pass goes on. -/
def admitFile (content : Bytes) (s : Pass Envelope) : Effect (Pass Envelope) TransportError Bool :=
  let remaining := maxBytesPerRecv - s.bytesAdmitted
  if remaining < content.length then ⟨s, .ok false⟩
  else if !entry.openFile || !entry.readToEnd then ⟨s, .error .io⟩
  else
    let bytes := content.take (remaining + 1)
    if remaining < bytes.length then ⟨s, .ok false⟩
    else
      let s := { s with bytesAdmitted := s.bytesAdmitted + bytes.length }
      match codec.bundleImport bytes with
      | some envelopes =>
        let s := { s with out := s.out ++ envelopes }
        if !entry.removeFile then ⟨s, .error .io⟩
        else ⟨{ s with inbox := Function.update s.inbox entry.name none }, .ok true⟩
      | none => setAside codec entry s

/-- The body of the loop of `recv` for a file. -/
def examineFile (content : Bytes) (s : Pass Envelope) :
    Effect (Pass Envelope) TransportError Bool :=
  if maxFilesPerRecv ≤ s.filesExamined then ⟨s, .ok false⟩
  else
    let s := { s with filesExamined := s.filesExamined + 1 }
    if !entry.metadata then ⟨s, .error .io⟩
    else if maxBundleBytes < content.length then setAside codec entry s
    else admitFile codec entry content s

/-- The body of the loop of `recv`. -/
def examine (s : Pass Envelope) : Effect (Pass Envelope) TransportError Bool :=
  if !entry.nextEntry then ⟨s, .error .io⟩
  else if !isBundle entry.name then ⟨s, .ok true⟩
  else if maxDirectoryEntriesPerRecv ≤ s.entriesExamined then ⟨s, .ok false⟩
  else
    let s := { s with entriesExamined := s.entriesExamined + 1 }
    match (if entry.fileType then s.inbox entry.name else none : Option Item) with
    | none => ⟨s, .error .io⟩
    | some .other => setAside codec entry s
    | some (.file content) => examineFile codec entry content s

/-- The loop of `recv`. -/
def recvFrom : List Entry → Pass Envelope → Effect (Pass Envelope) TransportError (List Envelope)
  | [], s => ⟨s, .ok s.out⟩
  | entry :: entries, s =>
    (examine codec entry s).andThen fun s goOn =>
      if goOn then recvFrom entries s else ⟨s, .ok s.out⟩

/-- `recv`, where the listing may fail to start. -/
def recv (readDir : Bool) (entries : List Entry) (inbox : Bytes → Option Item) (counter : UInt64) :
    Effect (Pass Envelope) TransportError (List Envelope) :=
  let s : Pass Envelope := ⟨inbox, counter, [], 0, 0, 0⟩
  if !readDir then ⟨s, .error .io⟩ else recvFrom codec entries s

end Komms.Sneakernet
