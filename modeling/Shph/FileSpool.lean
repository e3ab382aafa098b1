/-
The file system under the two file adapters.  A directory is a list of named
entries; writing replaces a file of the same name, a file is claimed or
quarantined by renaming it to a name that is free, and a scan of a directory
runs under budgets for entries, bytes and memory.
-/
import Shph.Handshake
import Shph.TcpFrame

namespace Shph

open ByteCodec

def maxFileAdapterBytes : Nat := 256 * 1024

def maxQueueScanEntries : Nat := 4096

def maxQueueScanDepth : Nat := 16

def maxQueueScanBytes : Nat := 8 * 1024 * 1024

def maxQueueCandidateMemory : Nat := 4 * 1024 * 1024

def maxAdapterMetadataBytes : Nat := 1024

inductive Node where
  | file (bytes : Bytes)
  | directory
  | symlink
deriving Repr, DecidableEq

/-- The length in the metadata of a file. -/
def Node.size : Node → Nat
  | .file bytes => bytes.length
  | _ => 0

abbrev Entries := List (String × Node)

namespace Entries

def put (entries : Entries) (name : String) (node : Node) : Entries :=
  entries.filter (fun entry => entry.1 ≠ name) ++ [(name, node)]

def remove (entries : Entries) (name : String) : Entries :=
  entries.filter fun entry => entry.1 ≠ name

end Entries

/-- What a path to a directory leads to. -/
inductive PathState where
  | missing
  | notDirectory
  | directory (entries : Entries)
deriving Repr, DecidableEq

/-- The directories by their paths, and the process-wide counter that makes
temporary names unique.  No path leads through a symbolic link; entries of a
directory may be links. -/
structure FileSystem where
  lookup : String → PathState
  processId : Nat
  tempFileCounter : Nat

/-- The order in which a directory is enumerated is up to the system. -/
structure ReadDir where
  listing : Entries → Entries
  listing_perm : ∀ entries, (listing entries).Perm entries

/-- `Path::join` for a component that is not absolute. -/
def pathJoin (base component : String) : String :=
  if base = "" ∨ base.toList.getLast? = some '/' then base ++ component
  else base ++ "/" ++ component

/-- What follows the last dot of a file name, unless that dot is the first
character. -/
def pathExtension (name : String) : String :=
  let extension := name.toList.rtakeWhile (· ≠ '.')
  if extension.length + 1 < name.toList.length then String.ofList extension
  else ""

def fileStem (name : String) : String :=
  let extension := name.toList.rtakeWhile (· ≠ '.')
  if extension.length + 1 < name.toList.length then
    String.ofList (name.toList.take
      (name.toList.length - (extension.length + 1)))
  else name

def tempFileName (name : String) (pid counter : Nat) : String :=
  s!".{name}.tmp-{pid}-{counter}"

def claimedFileName (name : String) (pid counter attempt : Nat) : String :=
  s!".{name}.processing.{pid}.{counter}.{attempt}"

/-- Try the names of successive counter values until one is free.  Every try
advances the counter. -/
def freshName (taken : String → Bool) (name : Nat → Nat → String) :
    (attempts attempt counter : Nat) → Option String × Nat
  | 0, _, counter => (none, counter)
  | attempts + 1, attempt, counter =>
      if taken (name counter attempt) then
        freshName taken name attempts (attempt + 1) (counter + 1)
      else (some (name counter attempt), counter + 1)

/-- A file that was renamed so that no other reader takes it. -/
structure ClaimedFile where
  directory : String
  original : String
  name : String
deriving Repr, DecidableEq

namespace FileSystem

def entries (fs : FileSystem) (directory : String) : Entries :=
  match fs.lookup directory with
  | .directory entries => entries
  | _ => []

def setEntries (fs : FileSystem) (directory : String) (entries : Entries) :
    FileSystem :=
  { fs with lookup := fun path =>
      if path = directory then .directory entries else fs.lookup path }

def find (fs : FileSystem) (directory name : String) : Option Node :=
  (fs.entries directory).lookup name

def createDirAll (fs : FileSystem) (directory : String) :
    Except ShphError Unit × FileSystem :=
  match fs.lookup directory with
  | .missing => (.ok (), fs.setEntries directory [])
  | .notDirectory => (.error (.io .alreadyExists), fs)
  | .directory _ => (.ok (), fs)

def removeFile (fs : FileSystem) (directory name : String) : FileSystem :=
  fs.setEntries directory ((fs.entries directory).remove name)

def rename (fs : FileSystem) (directory name target : String) (node : Node) :
    FileSystem :=
  fs.setEntries directory (((fs.entries directory).remove name).put target node)

/-- The temporary file is gone again when the call returns, whatever it
returns. -/
def writeFileAtomically (fs : FileSystem) (directory name : String)
    (bytes : Bytes) : Except ShphError Unit × FileSystem :=
  match fs.createDirAll directory with
  | (.error error, fs) => (.error error, fs)
  | (.ok (), fs) =>
      if fs.find directory name = some .symlink then
        (.error (.io .invalidInput), fs)
      else
        let temp := freshName (fun temp => (fs.find directory temp).isSome)
          (fun counter _ => tempFileName name fs.processId counter) 32 0
          fs.tempFileCounter
        let fs := { fs with tempFileCounter := temp.2 }
        if temp.1 = none then (.error (.io .alreadyExists), fs)
        else if fs.find directory name = some .directory then
          (.error (.io .other), fs)
        else
          (.ok (), fs.setEntries directory
            ((fs.entries directory).put name (.file bytes)))

/-- Rename to the first free rejection name; the names after the primary one
are drawn in advance. -/
def moveFileToRejected (fs : FileSystem) (directory name original : String) :
    FileSystem :=
  let stem := fileStem original
  let pid := fs.processId
  let drawn := (List.range 32).map fun attempt =>
    let counter := fs.tempFileCounter + attempt
    s!"{stem}.rejected.{pid}.{counter}.{attempt}"
  let candidates := s!"{stem}.rejected" :: drawn
  let fs := { fs with tempFileCounter := fs.tempFileCounter + 32 }
  match fs.find directory name,
      candidates.find? fun target => (fs.find directory target).isNone with
  | some node, some target => fs.rename directory name target node
  | _, _ => fs

def quarantineFile (fs : FileSystem) (directory name : String) : FileSystem :=
  fs.moveFileToRejected directory name name

def quarantineClaimedFile (fs : FileSystem) (claimed : ClaimedFile) :
    FileSystem :=
  fs.moveFileToRejected claimed.directory claimed.name claimed.original

/-- A file that is gone is not an error: another reader took it. -/
def claimFile (fs : FileSystem) (directory name : String) :
    Except ShphError (Option ClaimedFile) × FileSystem :=
  match fs.find directory name with
  | none =>
      (.ok none, { fs with tempFileCounter := fs.tempFileCounter + 1 })
  | some .symlink => (.error (.io .invalidInput), fs)
  | some node =>
      match freshName (fun target => (fs.find directory target).isSome)
          (claimedFileName name fs.processId) 32 0 fs.tempFileCounter with
      | (none, counter) =>
          (.error (.io .alreadyExists), { fs with tempFileCounter := counter })
      | (some target, counter) =>
          (.ok (some ⟨directory, name, target⟩),
            { fs with tempFileCounter := counter }.rename directory name
              target node)

def readFileBytes (fs : FileSystem) (directory name : String)
    (maxBytes : Nat) : Except ShphError Bytes :=
  match fs.find directory name with
  | none => .error (.io .notFound)
  | some .symlink => .error (.io .invalidInput)
  | some .directory => .error (.io .other)
  | some (.file bytes) => do
      ensure (bytes.length ≤ maxBytes)
        (.protocol "file envelope exceeds maximum size")
      return bytes

end FileSystem

def accountScanEntry (scanned : Nat) : Except ShphError Nat := do
  let scanned := saturatingAdd scanned 1
  ensure (scanned ≤ maxQueueScanEntries) (.resourceExhausted
    "file adapter queue contains too many entries to scan safely")
  return scanned

def accountScanBytes (scannedBytes bytes : Nat) : Except ShphError Nat := do
  let scannedBytes := saturatingAdd scannedBytes bytes
  ensure (scannedBytes ≤ maxQueueScanBytes)
    (.resourceExhausted "file adapter scan byte budget exhausted")
  return scannedBytes

/-- What one candidate is charged for its path and its metadata. -/
def candidateCost (path : String) (metadata : List String) : Nat :=
  saturatingAdd 128 (saturatingAdd path.utf8ByteSize
    (metadata.map String.utf8ByteSize).sum)

def accountCandidateMemory (candidateMemory : Nat) (path : String)
    (metadata : List String) : Except ShphError Nat := do
  ensure (∀ value ∈ metadata, value.utf8ByteSize ≤ maxAdapterMetadataBytes)
    (.protocol "file adapter envelope metadata exceeds safety bounds")
  let candidateMemory :=
    saturatingAdd candidateMemory (candidateCost path metadata)
  ensure (candidateMemory ≤ maxQueueCandidateMemory)
    (.resourceExhausted "file adapter candidate memory budget exhausted")
  return candidateMemory

/-- What a scan has used up and found so far. -/
structure ScanContext (Candidate : Type) where
  scanned : Nat
  scannedBytes : Nat
  candidateMemory : Nat
  candidates : List Candidate

def ScanContext.new (Candidate : Type) : ScanContext Candidate :=
  { scanned := 0, scannedBytes := 0, candidateMemory := 0, candidates := [] }

/-- Visit directory entries one after the other, up to the first error. -/
def visitEntries {σ : Type}
    (visit : String × Node → σ → FileSystem → Except ShphError σ × FileSystem) :
    Entries → σ → FileSystem → Except ShphError σ × FileSystem
  | [], scan, fs => (.ok scan, fs)
  | entry :: rest, scan, fs =>
      match visit entry scan fs with
      | (.ok scan, fs) => visitEntries visit rest scan fs
      | (.error error, fs) => (.error error, fs)

/-- The JSON codec of an envelope type.  What was serialized is read back. -/
structure EnvelopeCodec (Envelope : Type) where
  toVec : Envelope → Bytes
  fromSlice : Bytes → Option Envelope
  fromSlice_toVec : ∀ envelope, fromSlice (toVec envelope) = some envelope

/-- What an adapter takes from its surroundings: a hash, the codec of its
envelopes and the order of directory listings. -/
structure FileAdapterHost (Envelope : Type) where
  sha256 : Bytes → FixedBytes 32
  codec : EnvelopeCodec Envelope
  readDir : ReadDir

/-- The replay keys of the frames that were committed last: the set and the
order in which they entered it. -/
structure SeenLog (Key : Type) where
  keys : List Key
  order : List Key
deriving Repr, DecidableEq

namespace SeenLog

variable {Key : Type} [DecidableEq Key]

def empty : SeenLog Key := { keys := [], order := [] }

/-- Forget the oldest keys until at most `limit` are left. -/
def evict (limit : Nat) : List Key → List Key → SeenLog Key
  | keys, [] => { keys := keys, order := [] }
  | keys, oldest :: order =>
      if limit < order.length + 1 then
        evict limit (keys.filter fun key => key ≠ oldest) order
      else { keys := keys, order := oldest :: order }

def mark (limit : Nat) (log : SeenLog Key) (key : Key) : SeenLog Key :=
  if key ∈ log.keys then evict limit log.keys log.order
  else evict limit (key :: log.keys) (log.order ++ [key])

end SeenLog

def clockBeforeEpochError : ShphError :=
  .internal "system clock before unix epoch"

/-- A readable start of the input and a digest of all of it. -/
def safePathComponent (sha256 : Bytes → FixedBytes 32) (input : String) :
    String :=
  let readable := (input.toList.take 24).map fun char =>
    if char.isAlphanum || char = '-' || char = '_' then char else '_'
  let readable := if readable = [] then ['_'] else readable
  let digest := sha256 (textBytes "shph/path-component/v1\x00" ++
    bigEndian 8 input.utf8ByteSize ++ textBytes input)
  String.ofList readable ++ "-" ++ hexEncode (digest.val.take 16)

def base64EncodedLen (bytes : Nat) : Nat :=
  match checkedAdd bytes 2 with
  | none => u64Max
  | some rounded => (checkedMul (rounded / 3) 4).getD u64Max

/-- Binary search for the largest plaintext whose envelope fits.  Every step
shrinks the interval, so its length bounds the number of steps. -/
def searchPlaintext (maxFileBytes fixedEnvelopeBytes : Nat) :
    (steps low high : Nat) → Nat
  | 0, low, _ => low
  | steps + 1, low, high =>
      if low < high then
        let candidate := low + (high - low + 1) / 2
        let totalBytes := saturatingAdd fixedEnvelopeBytes
          (base64EncodedLen (saturatingAdd candidate shroudAeadOverhead))
        if totalBytes ≤ maxFileBytes then
          searchPlaintext maxFileBytes fixedEnvelopeBytes steps candidate high
        else
          searchPlaintext maxFileBytes fixedEnvelopeBytes steps low
            (candidate - 1)
      else low

def maxPlaintextForFileAdapter (maxFileBytes fixedEnvelopeBytes : Nat) : Nat :=
  if maxFileBytes < fixedEnvelopeBytes then 0
  else
    searchPlaintext maxFileBytes fixedEnvelopeBytes maxFileBytes 0 maxFileBytes

def validateFileAdapterPayload (payload : Bytes)
    (maxPayloadBytes maxFileBytes : Nat) : Except ShphError Unit :=
  ensure (payload.length ≤ maxPayloadBytes)
    (.protocol s!"file-adapter plaintext payload exceeds the {maxPayloadBytes}-byte capacity of the configured {maxFileBytes}-byte envelope bound")

end Shph
