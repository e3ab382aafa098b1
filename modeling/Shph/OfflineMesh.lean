/-
The offline-mesh adapter: envelopes in a shared spool directory, named after
the millisecond and the sequence number of their sender, and a reader that
orders what it finds by the same pair.
-/
import Shph.FileSpool

namespace Shph

open ByteCodec

structure OfflineMeshConfig where
  nodeId : String
  peerId : String
  spoolDir : String
  maxIdleEntries : Nat
deriving Repr, DecidableEq

structure OfflineMeshEnvelope where
  sessionId : String
  fromNode : String
  toNode : String
  createdAtUnixMs : Nat
  sequence : Nat
  ciphertextB64 : String
deriving Repr, DecidableEq

structure OfflineMeshCandidate where
  name : String
  createdAtUnixMs : Nat
  sequence : Nat
deriving Repr, DecidableEq

structure OfflineMeshFrame where
  payload : Bytes
  claimed : ClaimedFile
  createdAtUnixMs : Nat
  sequence : Nat
deriving Repr, DecidableEq

abbrev OfflineMeshHost := FileAdapterHost OfflineMeshEnvelope

/-- The two path components, the smaller one first. -/
def offlineSessionId (sha256 : Bytes → FixedBytes 32) (nodeA nodeB : String) :
    String :=
  let first := safePathComponent sha256 nodeA
  let second := safePathComponent sha256 nodeB
  if lexLe (textBytes first) (textBytes second) then first ++ "--" ++ second
  else second ++ "--" ++ first

/-- The directory for envelopes from one node to another. -/
def offlineMeshQueueDir (sha256 : Bytes → FixedBytes 32)
    (spoolDir sessionId fromNode toNode : String) : String :=
  let out := pathJoin (pathJoin spoolDir sessionId) "out"
  pathJoin (pathJoin out (safePathComponent sha256 fromNode))
    (safePathComponent sha256 toNode)

def offlineMeshFileName (createdAtUnixMs sequence : Nat) : String :=
  s!"{createdAtUnixMs}-{sequence}.json"

def offlineMeshPayloadCapacity (host : OfflineMeshHost) (maxFileBytes : Nat)
    (localNode peerNode : String) : Nat :=
  maxPlaintextForFileAdapter maxFileBytes
    (host.codec.toVec
      { sessionId := offlineSessionId host.sha256 localNode peerNode
        fromNode := localNode
        toNode := peerNode
        createdAtUnixMs := u64Max
        sequence := u64Max
        ciphertextB64 := "" }).length

structure OfflineMeshWriteState where
  spoolDir : String
  localNode : String
  peerNode : String
  nextSequence : Nat
  maxFileBytes : Nat
  maxPayloadBytes : Nat
deriving Repr, DecidableEq

namespace OfflineMeshWriteState

def new (host : OfflineMeshHost) (cfg : OfflineMeshConfig)
    (localNode peerNode : String) : OfflineMeshWriteState where
  spoolDir := cfg.spoolDir
  localNode := localNode
  peerNode := peerNode
  nextSequence := 0
  maxFileBytes := maxFileAdapterBytes
  maxPayloadBytes :=
    offlineMeshPayloadCapacity host maxFileAdapterBytes localNode peerNode

def outDir (host : OfflineMeshHost) (state : OfflineMeshWriteState) : String :=
  offlineMeshQueueDir host.sha256 state.spoolDir
    (offlineSessionId host.sha256 state.localNode state.peerNode)
    state.localNode state.peerNode

def envelope (host : OfflineMeshHost) (state : OfflineMeshWriteState)
    (now : Nat) (payload : Bytes) : OfflineMeshEnvelope where
  sessionId := offlineSessionId host.sha256 state.localNode state.peerNode
  fromNode := state.localNode
  toNode := state.peerNode
  createdAtUnixMs := now
  sequence := state.nextSequence
  ciphertextB64 := Base64.encode payload

/-- The sequence number advances even if the envelope is not written. -/
def sendPayload (host : OfflineMeshHost)
    (current : OfflineMeshWriteState × FileSystem)
    (send : Option Nat × Bytes) :
    Except ShphError Unit × OfflineMeshWriteState × FileSystem :=
  let (state, fs) := current
  match send.1 with
  | none => (.error clockBeforeEpochError, state, fs)
  | some now =>
      let envelope := state.envelope host now send.2
      let outDir := state.outDir host
      let state :=
        { state with nextSequence := saturatingAdd state.nextSequence 1 }
      match fs.createDirAll outDir with
      | (.error error, fs) => (.error error, state, fs)
      | (.ok (), fs) =>
          let name :=
            offlineMeshFileName envelope.createdAtUnixMs envelope.sequence
          let bytes := host.codec.toVec envelope
          if state.maxFileBytes < bytes.length then
            (.error (.protocol "offline mesh envelope too large"), state, fs)
          else
            match fs.writeFileAtomically outDir name bytes with
            | (result, fs) => (result, state, fs)

end OfflineMeshWriteState

structure OfflineMeshReadState where
  spoolDir : String
  localNode : String
  peerNode : String
  seen : SeenLog (Nat × Nat)
  maxSeen : Nat
  maxFileBytes : Nat
deriving Repr, DecidableEq

namespace OfflineMeshReadState

def new (cfg : OfflineMeshConfig) (localNode peerNode : String) :
    OfflineMeshReadState where
  spoolDir := cfg.spoolDir
  localNode := localNode
  peerNode := peerNode
  seen := SeenLog.empty
  maxSeen := max 1 (min cfg.maxIdleEntries 65536)
  maxFileBytes := maxFileAdapterBytes

def inboundQueueDir (host : OfflineMeshHost) (state : OfflineMeshReadState) :
    String :=
  offlineMeshQueueDir host.sha256 state.spoolDir
    (offlineSessionId host.sha256 state.localNode state.peerNode)
    state.peerNode state.localNode

/-- The envelope belongs to this session and direction and was not committed
before. -/
def expects (host : OfflineMeshHost) (state : OfflineMeshReadState)
    (envelope : OfflineMeshEnvelope) : Bool :=
  envelope.sessionId =
      offlineSessionId host.sha256 state.localNode state.peerNode &&
    envelope.fromNode = state.peerNode && envelope.toNode = state.localNode &&
    decide ((envelope.createdAtUnixMs, envelope.sequence) ∉ state.seen.keys)

/-- One entry of the queue directory: skipped, quarantined or kept. -/
def visitEntry (host : OfflineMeshHost) (state : OfflineMeshReadState)
    (entry : String × Node) (scan : ScanContext OfflineMeshCandidate)
    (fs : FileSystem) :
    Except ShphError (ScanContext OfflineMeshCandidate) × FileSystem :=
  let queueDir := state.inboundQueueDir host
  match accountScanEntry scan.scanned with
  | .error error => (.error error, fs)
  | .ok scanned =>
      let scan := { scan with scanned := scanned }
      match entry.2 with
      | .symlink => (.error (.io .invalidInput), fs)
      | .directory => (.ok scan, fs)
      | .file bytes =>
          if pathExtension entry.1 ≠ "json" then (.ok scan, fs)
          else if state.maxFileBytes < bytes.length then
            (.ok scan, fs.quarantineFile queueDir entry.1)
          else
            match accountScanBytes scan.scannedBytes bytes.length with
            | .error error => (.error error, fs)
            | .ok scannedBytes =>
                let scan := { scan with scannedBytes := scannedBytes }
                match host.codec.fromSlice bytes with
                | none => (.ok scan, fs.quarantineFile queueDir entry.1)
                | some envelope =>
                    if state.expects host envelope then
                      match accountCandidateMemory scan.candidateMemory
                          (pathJoin queueDir entry.1)
                          [envelope.sessionId, envelope.fromNode,
                            envelope.toNode] with
                      | .error (.protocol _) =>
                          (.ok scan, fs.quarantineFile queueDir entry.1)
                      | .error error => (.error error, fs)
                      | .ok candidateMemory =>
                          (.ok { scan with
                            candidateMemory := candidateMemory
                            candidates := scan.candidates ++
                              [{ name := entry.1
                                 createdAtUnixMs := envelope.createdAtUnixMs
                                 sequence := envelope.sequence }] }, fs)
                    else (.ok scan, fs)

/-- The order of delivery: first the millisecond, then the sequence number. -/
def candidateLe (left right : OfflineMeshCandidate) : Bool :=
  if left.createdAtUnixMs = right.createdAtUnixMs then
    left.sequence ≤ right.sequence
  else left.createdAtUnixMs < right.createdAtUnixMs

/-- Claim the candidates in order until one still is what it was when it was
scanned. -/
def claimFirst (host : OfflineMeshHost) (state : OfflineMeshReadState) :
    List OfflineMeshCandidate → FileSystem →
      Except ShphError (Option OfflineMeshFrame) × FileSystem
  | [], fs => (.ok none, fs)
  | candidate :: rest, fs =>
      match fs.claimFile (state.inboundQueueDir host) candidate.name with
      | (.error error, fs) => (.error error, fs)
      | (.ok none, fs) => claimFirst host state rest fs
      | (.ok (some claimed), fs) =>
          let quarantined := fs.quarantineClaimedFile claimed
          match fs.readFileBytes claimed.directory claimed.name
              state.maxFileBytes with
          | .error (.protocol _) => claimFirst host state rest quarantined
          | .error (.io .notFound) => claimFirst host state rest fs
          | .error error => (.error error, fs)
          | .ok bytes =>
              match host.codec.fromSlice bytes with
              | none => claimFirst host state rest quarantined
              | some envelope =>
                  if state.expects host envelope ∧
                      envelope.createdAtUnixMs = candidate.createdAtUnixMs ∧
                      envelope.sequence = candidate.sequence then
                    match Base64.decode envelope.ciphertextB64 with
                    | some payload =>
                        (.ok (some
                          { payload := payload
                            claimed := claimed
                            createdAtUnixMs := envelope.createdAtUnixMs
                            sequence := envelope.sequence }), fs)
                    | none => claimFirst host state rest quarantined
                  else claimFirst host state rest quarantined

def pollInbound (host : OfflineMeshHost) (state : OfflineMeshReadState)
    (fs : FileSystem) :
    Except ShphError (Option OfflineMeshFrame) × FileSystem :=
  match fs.lookup (state.inboundQueueDir host) with
  | .missing => (.ok none, fs)
  | .notDirectory =>
      (.error (.protocol "offline-mesh queue path is not a directory"), fs)
  | .directory entries =>
      match visitEntries (state.visitEntry host)
          (host.readDir.listing entries) (ScanContext.new _) fs with
      | (.error error, fs) => (.error error, fs)
      | (.ok scan, fs) =>
          claimFirst host state (scan.candidates.mergeSort candidateLe) fs

def commitFrame (state : OfflineMeshReadState) (frame : OfflineMeshFrame)
    (fs : FileSystem) : OfflineMeshReadState × FileSystem :=
  let key := (frame.createdAtUnixMs, frame.sequence)
  ({ state with seen := state.seen.mark (max state.maxSeen 1) key },
    fs.removeFile frame.claimed.directory frame.claimed.name)

/-- Poll until a frame is there; `retries` is how many polls after the first
one the timeout leaves room for. -/
def receiveRawPayload (host : OfflineMeshHost) (state : OfflineMeshReadState) :
    (retries : Nat) → FileSystem → Except ShphError OfflineMeshFrame × FileSystem
  | retries, fs =>
      match state.pollInbound host fs with
      | (.error error, fs) => (.error error, fs)
      | (.ok (some frame), fs) => (.ok frame, fs)
      | (.ok none, fs) =>
          match retries with
          | 0 => (.error .timeout, fs)
          | retries + 1 => receiveRawPayload host state retries fs

/-- Receive a payload and check it: a frame that passes is committed, a frame
that does not is quarantined. -/
def receiveVerified {α : Type} (host : OfflineMeshHost)
    (current : OfflineMeshReadState × FileSystem)
    (read : Nat × (Bytes → Except ShphError α)) :
    Except ShphError α × OfflineMeshReadState × FileSystem :=
  let (state, fs) := current
  match state.receiveRawPayload host read.1 fs with
  | (.error error, fs) => (.error error, state, fs)
  | (.ok frame, fs) =>
      match read.2 frame.payload with
      | .ok value => (.ok value, state.commitFrame frame fs)
      | .error error =>
          (.error error, state, fs.quarantineClaimedFile frame.claimed)

/-- Receive until a frame decrypts.  Each round has its own number of retries;
after the last round the deadline has passed. -/
def receiveDecryptedFrame (host : OfflineMeshHost) (aead : Aead)
    (state : OfflineMeshReadState) :
    (retries : Nat) → (rounds : List Nat) → ReceiveCipher → FileSystem →
      Except ShphError Bytes × OfflineMeshReadState × ReceiveCipher × FileSystem
  | retries, rounds, cipher, fs =>
      match state.receiveRawPayload host retries fs with
      | (.error error, fs) => (.error error, state, cipher, fs)
      | (.ok frame, fs) =>
          match cipher.decrypt aead frame.payload with
          | (.ok plaintext, cipher) =>
              let (state, fs) := state.commitFrame frame fs
              (.ok plaintext, state, cipher, fs)
          | (.error error, cipher) =>
              let fs := fs.quarantineClaimedFile frame.claimed
              match rounds with
              | [] => (.error error, state, cipher, fs)
              | retries :: rounds =>
                  receiveDecryptedFrame host aead state retries rounds cipher fs

end OfflineMeshReadState

structure OfflineMeshSession where
  sendState : OfflineMeshWriteState
  recvState : OfflineMeshReadState
  sendCipher : SendCipher
  recvCipher : ReceiveCipher
deriving Repr, DecidableEq

namespace OfflineMeshSession

def new (sendState : OfflineMeshWriteState) (recvState : OfflineMeshReadState)
    (sendKey recvKey : Key) : OfflineMeshSession where
  sendState := sendState
  recvState := recvState
  sendCipher := SendCipher.new sendKey
  recvCipher := ReceiveCipher.new recvKey

/-- The session both handshake functions end with: it has write and read
states of its own, which start afresh. -/
def established (host : OfflineMeshHost) (cfg : OfflineMeshConfig)
    (keys : SessionKeys) : OfflineMeshSession :=
  new (OfflineMeshWriteState.new host cfg cfg.nodeId cfg.peerId)
    (OfflineMeshReadState.new cfg cfg.nodeId cfg.peerId) keys.sendKey
    keys.recvKey

def sendFrame (host : OfflineMeshHost) (aead : Aead)
    (current : OfflineMeshSession × FileSystem) (send : Option Nat × Bytes) :
    Except ShphError Unit × OfflineMeshSession × FileSystem :=
  let (session, fs) := current
  match validateFileAdapterPayload send.2 session.sendState.maxPayloadBytes
      session.sendState.maxFileBytes with
  | .error error => (.error error, session, fs)
  | .ok () =>
      match session.sendCipher.encrypt aead send.2 with
      | (.error error, cipher) =>
          (.error error, { session with sendCipher := cipher }, fs)
      | (.ok ciphertext, cipher) =>
          match OfflineMeshWriteState.sendPayload host (session.sendState, fs)
              (send.1, ciphertext) with
          | (result, state, fs) =>
              (result,
                { session with sendState := state, sendCipher := cipher }, fs)

def recvFrame (host : OfflineMeshHost) (aead : Aead)
    (current : OfflineMeshSession × FileSystem) (rounds : Nat × List Nat) :
    Except ShphError Bytes × OfflineMeshSession × FileSystem :=
  let (session, fs) := current
  match session.recvState.receiveDecryptedFrame host aead rounds.1 rounds.2
      session.recvCipher fs with
  | (result, state, cipher, fs) =>
      (result, { session with recvState := state, recvCipher := cipher }, fs)

end OfflineMeshSession

end Shph
