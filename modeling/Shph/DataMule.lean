/-
The writing side of the data-mule adapter: envelopes as JSON files under an
outbox, with a bound on a file and a quota for the outbox.  The capacity for
plaintext is worked out in advance from an envelope with the longest numbers.
-/
import Shph.FileSpoolSpec

namespace Shph

open ByteCodec FlatJson

def maxDataMuleTotalBytes : Nat := 8 * 1024 * 1024

def maxDataMuleAgeMs : Nat := 30 * 24 * 60 * 60 * 1000

structure DataMuleConfig where
  outboxDir : String
  maxFileBytes : UInt64
  maxTotalBytes : UInt64
  maxAgeMs : UInt64
deriving Repr, DecidableEq

structure DataMuleEnvelope where
  envelopeId : String
  createdAtUnixMs : UInt64
  fromNode : String
  toNode : String
  ciphertextB64 : String
  nonceB64 : String
deriving Repr, DecidableEq

/-- `serde_json::to_vec`. -/
def DataMuleEnvelope.toVec (envelope : DataMuleEnvelope) : Bytes :=
  writeObject [("envelope_id", .text envelope.envelopeId),
    ("created_at_unix_ms", .number envelope.createdAtUnixMs.toNat),
    ("from_node", .text envelope.fromNode),
    ("to_node", .text envelope.toNode),
    ("ciphertext_b64", .text envelope.ciphertextB64),
    ("nonce_b64", .text envelope.nonceB64)]

structure DataMuleCandidate where
  directory : String
  name : String
  createdAtUnixMs : UInt64
  envelopeId : String
  fromNode : String
  toNode : String
  fileBytes : Nat
deriving Repr, DecidableEq

/-- What the adapter takes from its surroundings: a hash, how a file is read
as an envelope and the order of directory listings. -/
structure DataMuleHost where
  sha256 : Bytes → FixedBytes 32
  fromSlice : Bytes → Option DataMuleEnvelope
  readDir : ReadDir

/-- The bounds of a scan. -/
structure DataMuleScanLimits where
  maxFileBytes : Nat
  maxAgeMs : Nat
  nowUnixMs : Nat
deriving Repr, DecidableEq

def dataMuleEnvelopeExpired (createdAtUnixMs nowUnixMs maxAgeMs : Nat) : Bool :=
  maxAgeMs < nowUnixMs - createdAtUnixMs ||
    maxAgeMs < createdAtUnixMs - nowUnixMs

/-- A file of the tree: skipped, quarantined or kept. -/
def visitShphFile (host : DataMuleHost) (limits : DataMuleScanLimits)
    (root name : String) (bytes : Bytes) (scan : ScanContext DataMuleCandidate)
    (fs : FileSystem) :
    Except ShphError (ScanContext DataMuleCandidate) × FileSystem :=
  if pathExtension name ≠ "shph" then (.ok scan, fs)
  else if limits.maxFileBytes < bytes.length then
    (.ok scan, fs.quarantineFile root name)
  else
    match accountScanBytes scan.scannedBytes bytes.length with
    | .error error => (.error error, fs)
    | .ok scannedBytes =>
        let scan := { scan with scannedBytes := scannedBytes }
        match host.fromSlice bytes with
        | none => (.ok scan, fs.quarantineFile root name)
        | some envelope =>
            if dataMuleEnvelopeExpired envelope.createdAtUnixMs.toNat
                limits.nowUnixMs limits.maxAgeMs then
              (.ok scan, fs.quarantineFile root name)
            else
              match accountCandidateMemory scan.candidateMemory
                  (pathJoin root name) [envelope.envelopeId,
                    envelope.fromNode, envelope.toNode] with
              | .error (.protocol _) =>
                  (.ok scan, fs.quarantineFile root name)
              | .error error => (.error error, fs)
              | .ok candidateMemory =>
                  (.ok { scan with
                    candidateMemory := candidateMemory
                    candidates := scan.candidates ++
                      [{ directory := root
                         name := name
                         createdAtUnixMs := envelope.createdAtUnixMs
                         envelopeId := envelope.envelopeId
                         fromNode := envelope.fromNode
                         toNode := envelope.toNode
                         fileBytes := bytes.length }] }, fs)

/-- One entry of a directory; `descend` scans a directory below. -/
def visitShphEntry (host : DataMuleHost) (limits : DataMuleScanLimits)
    (descend : String → ScanContext DataMuleCandidate → FileSystem →
      Except ShphError (ScanContext DataMuleCandidate) × FileSystem)
    (root : String) (entry : String × Node)
    (scan : ScanContext DataMuleCandidate) (fs : FileSystem) :
    Except ShphError (ScanContext DataMuleCandidate) × FileSystem :=
  match accountScanEntry scan.scanned with
  | .error error => (.error error, fs)
  | .ok scanned =>
      let scan := { scan with scanned := scanned }
      match entry.2 with
      | .symlink => (.error (.io .invalidInput), fs)
      | .directory => descend (pathJoin root entry.1) scan fs
      | .file bytes => visitShphFile host limits root entry.1 bytes scan fs

/-- The scan of a tree, with the number of levels that it may still go
down. -/
def collectShphFiles (host : DataMuleHost) (limits : DataMuleScanLimits) :
    Nat → String → ScanContext DataMuleCandidate → FileSystem →
      Except ShphError (ScanContext DataMuleCandidate) × FileSystem
  | 0, root, scan, fs =>
      match fs.lookup root with
      | .missing => (.ok scan, fs)
      | .notDirectory =>
          (.error (.protocol "data-mule inbox root is not a directory"), fs)
      | .directory _ =>
          (.error (.resourceExhausted
            "data-mule inbox nesting exceeds scan depth"), fs)
  | levels + 1, root, scan, fs =>
      match fs.lookup root with
      | .missing => (.ok scan, fs)
      | .notDirectory =>
          (.error (.protocol "data-mule inbox root is not a directory"), fs)
      | .directory entries =>
          visitEntries (visitShphEntry host limits
            (collectShphFiles host limits levels) root)
            (host.readDir.listing entries) scan fs

def dataMuleSpoolUsage (host : DataMuleHost) (limits : DataMuleScanLimits)
    (root : String) (fs : FileSystem) : Except ShphError Nat × FileSystem :=
  match collectShphFiles host limits (maxQueueScanDepth + 1) root
      (ScanContext.new _) fs with
  | (.error error, fs) => (.error error, fs)
  | (.ok scan, fs) =>
      (.ok (scan.candidates.map DataMuleCandidate.fileBytes).sum, fs)

/-- The envelope with the longest numbers. -/
def longestEnvelope (localNode peerNode ciphertextB64 : String) :
    DataMuleEnvelope where
  envelopeId := toString u64Max ++ "-" ++ toString u64Max
  createdAtUnixMs := UInt64.ofNat u64Max
  fromNode := localNode
  toNode := peerNode
  ciphertextB64 := ciphertextB64
  nonceB64 := Base64.encode (littleEndian 8 u64Max)

def dataMulePayloadCapacity (maxFileBytes : Nat)
    (localNode peerNode : String) : Nat :=
  maxPlaintextForFileAdapter maxFileBytes
    (longestEnvelope localNode peerNode "").toVec.length

structure DataMuleWriteState where
  outboxDir : String
  localNode : String
  peerNode : String
  nextSequence : UInt64
  maxFileBytes : Nat
  maxTotalBytes : Nat
  maxAgeMs : Nat
  maxPayloadBytes : Nat
deriving Repr, DecidableEq

def dataMuleTooLarge : ShphError := .protocol "data-mule envelope too large"

namespace DataMuleWriteState

def new (cfg : DataMuleConfig) (localNode peerNode : String) :
    DataMuleWriteState :=
  let maxFileBytes := max 1 (min cfg.maxFileBytes.toNat maxFileAdapterBytes)
  { outboxDir := cfg.outboxDir
    localNode := localNode
    peerNode := peerNode
    nextSequence := 0
    maxFileBytes := maxFileBytes
    maxTotalBytes :=
      max maxFileBytes (min cfg.maxTotalBytes.toNat maxDataMuleTotalBytes)
    maxAgeMs := max 1 (min cfg.maxAgeMs.toNat maxDataMuleAgeMs)
    maxPayloadBytes := dataMulePayloadCapacity maxFileBytes localNode peerNode }

def envelope (state : DataMuleWriteState) (createdAt : UInt64)
    (payload : Bytes) : DataMuleEnvelope where
  envelopeId :=
    toString createdAt.toNat ++ "-" ++ toString state.nextSequence.toNat
  createdAtUnixMs := createdAt
  fromNode := state.localNode
  toNode := state.peerNode
  ciphertextB64 := Base64.encode payload
  nonceB64 := Base64.encode (littleEndian 8 state.nextSequence.toNat)

/-- The sequence number advances even if the envelope is not written. -/
def sendPayload (host : DataMuleHost)
    (current : DataMuleWriteState × FileSystem)
    (send : Option UInt64 × Bytes) :
    Except ShphError Unit × DataMuleWriteState × FileSystem :=
  let (state, fs) := current
  match send.1 with
  | none => (.error clockBeforeEpochError, state, fs)
  | some createdAt =>
      let envelope := state.envelope createdAt send.2
      let nextSequence :=
        UInt64.ofNat (saturatingAdd state.nextSequence.toNat 1)
      let state := { state with nextSequence }
      let directory :=
        pathJoin state.outboxDir (safePathComponent host.sha256 state.peerNode)
      let name := safePathComponent host.sha256 envelope.envelopeId ++ ".shph"
      let bytes := envelope.toVec
      if state.maxFileBytes < bytes.length then
        (.error dataMuleTooLarge, state, fs)
      else
        match dataMuleSpoolUsage host ⟨state.maxFileBytes, state.maxAgeMs,
            createdAt.toNat⟩ state.outboxDir fs with
        | (.error error, fs) => (.error error, state, fs)
        | (.ok queuedBytes, fs) =>
            if state.maxTotalBytes <
                saturatingAdd queuedBytes bytes.length then
              (.error (.resourceExhausted
                ("data-mule outbox quota exhausted (" ++
                  toString queuedBytes ++ " bytes of " ++
                  toString state.maxTotalBytes ++ " configured)")), state, fs)
            else
              match fs.writeFileAtomically directory name bytes with
              | (result, fs) => (result, state, fs)

end DataMuleWriteState

/-- The sending half of a session. -/
structure DataMuleSender where
  state : DataMuleWriteState
  cipher : SendCipher
deriving Repr, DecidableEq

namespace DataMuleSender

def sendFrame (host : DataMuleHost) (aead : Aead)
    (current : DataMuleSender × FileSystem) (send : Option UInt64 × Bytes) :
    Except ShphError Unit × DataMuleSender × FileSystem :=
  let (sender, fs) := current
  match validateFileAdapterPayload send.2 sender.state.maxPayloadBytes
      sender.state.maxFileBytes with
  | .error error => (.error error, sender, fs)
  | .ok () =>
      match sender.cipher.encrypt aead send.2 with
      | (.error error, cipher) => (.error error, { sender with cipher }, fs)
      | (.ok encrypted, cipher) =>
          match DataMuleWriteState.sendPayload host (sender.state, fs)
              (send.1, encrypted) with
          | (result, state, fs) => (result, { state, cipher }, fs)

end DataMuleSender

end Shph
