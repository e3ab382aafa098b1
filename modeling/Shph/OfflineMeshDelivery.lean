/-
Delivery through an offline-mesh spool: what one side has written is what the
other side reads, in the order it was sent.  The write state starts afresh
between the handshake and the session, so the session's frames have to be
stamped later than the handshake.
-/
import Shph.OfflineMeshQueue

namespace Shph

open ByteCodec Decimal StatefulRun
open OfflineMeshReadState OfflineMeshSession OfflineMeshWriteState

theorem decode_of_ciphertexts {envelopes : List OfflineMeshEnvelope}
    {payloads : List Bytes}
    (htexts : envelopes.map OfflineMeshEnvelope.ciphertextB64 =
      payloads.map Base64.encode) :
    List.Forall₂ (fun envelope payload =>
      Base64.decode envelope.ciphertextB64 = some payload) envelopes
      payloads := by
  have hequal : List.Forall₂ (· = ·)
      (envelopes.map OfflineMeshEnvelope.ciphertextB64)
      (payloads.map Base64.encode) := by
    rw [List.forall₂_eq_eq_eq]
    exact htexts
  rw [List.forall₂_map_left_iff, List.forall₂_map_right_iff] at hequal
  apply hequal.imp
  intro envelope payload heq
  rw [heq, Base64.decode_encode]

theorem OfflineMeshConfig.queueDir_eq (host : OfflineMeshHost)
    {cfg peerCfg : OfflineMeshConfig} (hnode : peerCfg.nodeId = cfg.peerId)
    (hpeer : peerCfg.peerId = cfg.nodeId)
    (hspool : peerCfg.spoolDir = cfg.spoolDir) :
    (OfflineMeshReadState.new peerCfg peerCfg.nodeId
        peerCfg.peerId).inboundQueueDir host =
      (OfflineMeshWriteState.new host cfg cfg.nodeId
        cfg.peerId).outDir host := by
  simp only [OfflineMeshReadState.inboundQueueDir, OfflineMeshReadState.new,
    OfflineMeshWriteState.outDir, OfflineMeshWriteState.new, hnode, hpeer,
    hspool, offlineSessionId_comm host.sha256 cfg.peerId cfg.nodeId]

/-- The envelope the capacity of a write state is computed from. -/
def widestEnvelope (host : OfflineMeshHost) (localNode peerNode : String) :
    OfflineMeshEnvelope where
  sessionId := offlineSessionId host.sha256 localNode peerNode
  fromNode := localNode
  toNode := peerNode
  createdAtUnixMs := u64Max
  sequence := u64Max
  ciphertextB64 := ""

theorem OfflineMeshSession.validate_established (host : OfflineMeshHost)
    {cfg : OfflineMeshConfig} (keys : SessionKeys) {payload : Bytes}
    (hfits : PlaintextFits maxFileAdapterBytes
      (host.codec.toVec (widestEnvelope host cfg.nodeId cfg.peerId)).length
      payload.length)
    (hfixed : (host.codec.toVec
      (widestEnvelope host cfg.nodeId cfg.peerId)).length ≤ maxFileAdapterBytes)
    (hlength : payload.length ≤ maxFileAdapterBytes) :
    validateFileAdapterPayload payload
        (established host cfg keys).sendState.maxPayloadBytes
        (established host cfg keys).sendState.maxFileBytes = .ok () :=
  hfits.validate hfixed hlength

theorem OfflineMeshSession.established_atSequence (host : OfflineMeshHost)
    (cfg : OfflineMeshConfig) (keys : SessionKeys) :
    (established host cfg keys).atSequence 0 = established host cfg keys :=
  rfl

/-- What the spool holds after both phases: the envelopes of the handshake and
behind them those of the frames. -/
theorem offlineMesh_spooled (host : OfflineMeshHost) (aead : Aead)
    (cfg : OfflineMeshConfig) (keys : SessionKeys) (fs : FileSystem)
    (hello : Nat × Bytes) (ciphertext : Option (Nat × Bytes))
    (frames : List (Nat × Bytes)) :
    let writer := OfflineMeshWriteState.new host cfg cfg.nodeId cfg.peerId
    let handshake := hello :: ciphertext.toList
    let opening := timed handshake
    let handshakeSent := (successes (trace
      (sendPayload host) (writer, fs) opening)).map
        fun sent => sent.1.2
    let opened := (final (sendPayload host) (writer, fs)
      opening).2
    let session := established host cfg keys
    let calls := timed frames
    let dataSent := (successes (trace (sendFrame host aead)
      (session, opened) calls)).map fun sent => sent.1.2
    let spool := (final (sendFrame host aead)
      (session, opened) calls).2
    fs.lookup (writer.outDir host) = .missing ∨
        fs.lookup (writer.outDir host) = .directory [] →
    (handshake ++ frames).Pairwise (fun first second => first.1 ≤ second.1) →
    (∀ sent ∈ handshake, ∀ frame ∈ frames, sent.1 < frame.1) →
    ∃ opens added,
      Spooled host (writer.outDir host) spool (opens ++ added) ∧
        List.Forall₂ (fun envelope payload =>
          Base64.decode envelope.ciphertextB64 = some payload) opens
          handshakeSent ∧
        List.Forall₂ (Carries aead keys.sendKey) added dataSent ∧
        (∀ envelope ∈ opens ++ added, writer.Writes host envelope ∧
          envelope.sequence < u64Max ∧
          ∃ send ∈ handshake ++ frames, envelope.createdAtUnixMs = send.1) ∧
        added.Pairwise fun left right => left.sequence < right.sequence := by
  intro writer handshake opening handshakeSent opened session calls dataSent
    spool hfresh hclock hlater
  have hstart : Spooled host (writer.outDir host) fs [] := by
    refine ⟨⟨?_, ?_, by simp, by simp⟩, List.Pairwise.nil⟩
    · rcases hfresh with hfresh | hfresh <;> simp [hfresh]
    · rcases hfresh with hfresh | hfresh <;>
        simp [FileSystem.entries, hfresh]
  rw [List.pairwise_append] at hclock
  have hroom : writer.nextSequence + handshake.length ≤ u64Max := by
    cases ciphertext <;>
      simp [writer, OfflineMeshWriteState.new, handshake, u64Max]
  obtain ⟨opens, hopened, htexts, hopenWrites, hopenClock, _⟩ :=
    sendPayload_run handshake writer hstart hclock.1
      (by simp) hroom
  rw [List.nil_append] at hopened
  have hearlier : ∀ old ∈ opens, ∀ frame ∈ frames, old.Before frame.1 0 := by
    intro old hold frame hframe
    obtain ⟨_, sent, hsent, heq⟩ := hopenClock old hold
    exact Or.inl (heq ▸ hlater sent hsent frame hframe)
  have hrun := sendFrame_run aead session frames 0 hopened
    hclock.2.1 hearlier
  have hzero := established_atSequence host cfg keys
  rw [hzero] at hrun
  obtain ⟨added, hspool, hcarries, haddedWrites, haddedClock, _, hsorted⟩ :=
    hrun
  refine ⟨opens, added, hspool, ?_, hcarries, ?_, hsorted⟩
  · apply decode_of_ciphertexts
    rw [htexts, List.map_map]
    rfl
  · intro envelope hmem
    rcases List.mem_append.mp hmem with hmem | hmem
    · obtain ⟨hlt, send, hsend, heq⟩ := hopenClock envelope hmem
      exact ⟨hopenWrites envelope hmem, hlt, send, by simp [hsend], heq⟩
    · obtain ⟨hlimit, send, hsend, heq⟩ := haddedClock envelope hmem
      have hlt : envelope.sequence < u64Max := by
        unfold aeadNonceLimit at hlimit
        unfold u64Max
        omega
      exact ⟨haddedWrites envelope hmem, hlt, send, by simp [hsend], heq⟩

/-- A fresh reader with the mirrored configuration awaits whatever the writer
has spooled. -/
theorem OfflineMeshReadState.awaits_of_writes {host : OfflineMeshHost}
    {cfg peerCfg : OfflineMeshConfig} {fs : FileSystem}
    {envelopes : List OfflineMeshEnvelope}
    (hmirror : peerCfg.nodeId = cfg.peerId ∧ peerCfg.peerId = cfg.nodeId ∧
      peerCfg.spoolDir = cfg.spoolDir)
    (hspool : Spooled host ((OfflineMeshWriteState.new host cfg cfg.nodeId
      cfg.peerId).outDir host) fs envelopes)
    (hwrites : ∀ envelope ∈ envelopes,
      (OfflineMeshWriteState.new host cfg cfg.nodeId cfg.peerId).Writes host
        envelope)
    (hlimits : (new peerCfg peerCfg.nodeId peerCfg.peerId).WithinScanLimits
      host fs) :
    (new peerCfg peerCfg.nodeId peerCfg.peerId).Awaits host fs envelopes := by
  have hdir := OfflineMeshConfig.queueDir_eq host hmirror.1 hmirror.2.1
    hmirror.2.2
  rw [← hdir] at hspool
  have haffords := hlimits.affords hspool
  obtain ⟨_, _, _, hbounded⟩ := hlimits
  refine ⟨hspool, ?_, fun envelope hmem => (hwrites envelope hmem).small,
    fun _ _ => List.not_mem_nil, hbounded, haffords⟩
  intro envelope hmem
  obtain ⟨hsession, hfrom, hto, _⟩ := hwrites envelope hmem
  rw [hsession, hfrom, hto]
  simp only [metadata, new, OfflineMeshWriteState.new, hmirror.1, hmirror.2.1,
    offlineSessionId_comm host.sha256 cfg.peerId cfg.nodeId]

/-- Delivery through a fresh spool.  One side writes its hello and, if it has
one, the post-quantum ciphertext, then any frames its session sends; the
frames are stamped later than the handshake.  If the spool is within the
limits of a scan, no file was lost, the peer's checks see the handshake
payloads in order, and its session then receives every frame in order. -/
theorem offlineMesh_delivers {α : Type} (host : OfflineMeshHost) (aead : Aead)
    (cfg peerCfg : OfflineMeshConfig) (keys peerKeys : SessionKeys)
    (fs : FileSystem) (hello : Nat × Bytes) (ciphertext : Option (Nat × Bytes))
    (frames : List (Nat × Bytes))
    (hmirror : peerCfg.nodeId = cfg.peerId ∧ peerCfg.peerId = cfg.nodeId ∧
      peerCfg.spoolDir = cfg.spoolDir)
    (hkeys : peerKeys.recvKey = keys.sendKey) :
    let writer := OfflineMeshWriteState.new host cfg cfg.nodeId cfg.peerId
    let handshake := hello :: ciphertext.toList
    let opening := timed handshake
    let handshakeSent := (successes (trace
      (sendPayload host) (writer, fs) opening)).map
        fun sent => sent.1.2
    let opened := (final (sendPayload host) (writer, fs)
      opening).2
    let session := established host cfg keys
    let calls := timed frames
    let dataSent := (successes (trace (sendFrame host aead)
      (session, opened) calls)).map fun sent => sent.1.2
    let spool := (final (sendFrame host aead)
      (session, opened) calls).2
    let reader := OfflineMeshReadState.new peerCfg peerCfg.nodeId peerCfg.peerId
    let peer := established host peerCfg peerKeys
    fs.lookup (writer.outDir host) = .missing ∨
        fs.lookup (writer.outDir host) = .directory [] →
    (handshake ++ frames).Pairwise (fun first second => first.1 ≤ second.1) →
    (∀ sent ∈ handshake, ∀ frame ∈ frames, sent.1 < frame.1) →
    reader.WithinScanLimits host spool →
    (spool.entries (writer.outDir host)).length =
        handshakeSent.length + dataSent.length ∧
      ∀ reads : List (Nat × (Bytes → Except ShphError α)),
        List.Forall₂ (fun read payload => (read.2 payload).isOk = true) reads
          handshakeSent →
        (trace (receiveVerified host) (reader, spool)
            reads).map Prod.snd =
          List.zipWith (fun read payload => read.2 payload) reads
            handshakeSent ∧
        ∀ rounds : List (Nat × List Nat), rounds.length = dataSent.length →
          let left := (final (receiveVerified host)
            (reader, spool) reads).2
          (trace (recvFrame host aead) (peer, left)
              rounds).map Prod.snd = dataSent.map .ok ∧
            (final (recvFrame host aead) (peer, left)
              rounds).2.entries (writer.outDir host) = [] := by
  intro writer handshake opening handshakeSent opened session calls dataSent
    spool reader peer hfresh hclock hlater hlimits
  have hdir : reader.inboundQueueDir host = writer.outDir host :=
    OfflineMeshConfig.queueDir_eq host hmirror.1 hmirror.2.1 hmirror.2.2
  obtain ⟨opens, added, hspool, hpayloads, hcarries, hwritten, hsorted⟩ :=
    offlineMesh_spooled host aead cfg keys fs hello ciphertext frames hfresh
      hclock hlater
  have hawaits : reader.Awaits host spool (opens ++ added) :=
    awaits_of_writes hmirror hspool
      (fun envelope hmem => (hwritten envelope hmem).1) hlimits
  refine ⟨?_, ?_⟩
  · have hlength := hspool.holds.perm.length_eq
    rw [List.length_map, List.length_map, List.length_append,
      hpayloads.length_eq, hcarries.length_eq] at hlength
    exact hlength
  · intro reads haccepts
    obtain ⟨hreads, seen, left, hleft, hrest⟩ :=
      receiveVerified_run hpayloads haccepts hawaits
    refine ⟨hreads, ?_⟩
    intro rounds hrounds
    have hpeer : peer.recvState.Awaits host left added := hrest.afresh
    have hcipher : peer.recvCipher =
        { key := keys.sendKey, replay := .strict none } := by
      rw [← hkeys]
      rfl
    rw [hleft, ← hdir]
    exact recvFrame_run aead hcipher (by simp) hsorted
      hcarries hpeer hrounds

/-- An envelope with the key of the only one in the queue takes its place. -/
theorem OfflineMeshWriteState.sendPayload_replaces {host : OfflineMeshHost}
    {fs : FileSystem} {old : OfflineMeshEnvelope} (state : OfflineMeshWriteState)
    (hspool : Spooled host (state.outDir host) fs [old]) {now : Nat}
    (hkey : old.key = (now, state.nextSequence)) {payload : Bytes}
    (hsmall : (host.codec.toVec (state.envelope host now payload)).length ≤
      state.maxFileBytes) :
    ∃ next, sendPayload host (state, fs) (some now, payload) =
        (.ok (), state.advanced, next) ∧
      Spooled host (state.outDir host) next
        [state.envelope host now payload] := by
  obtain ⟨created, hcreate, hcreated⟩ := hspool.createDirAll
  have hsame : old.file host =
      (offlineMeshFileName now state.nextSequence, host.codec.toVec old) := by
    rw [OfflineMeshEnvelope.key, Prod.mk.injEq] at hkey
    rw [OfflineMeshEnvelope.file, hkey.1, hkey.2]
  obtain ⟨next, hwrite, hholds⟩ := hcreated.holds.write
    (isHidden_offlineMeshFileName now state.nextSequence)
    (host.codec.toVec (state.envelope host now payload))
  refine ⟨next, ?_, ?_, List.pairwise_singleton _ _⟩
  · have hname : offlineMeshFileName
        (state.envelope host now payload).createdAtUnixMs
        (state.envelope host now payload).sequence =
      offlineMeshFileName now state.nextSequence := rfl
    simp only [sendPayload, hcreate, if_neg (Nat.not_lt.mpr hsmall), hname,
      hwrite, advanced]
  · have hgone : ([old].map fun envelope => envelope.file host).filter
        (fun file => file.1 ≠ offlineMeshFileName now state.nextSequence) =
          [] := by
      simp [hsame]
    rw [hgone] at hholds
    exact hholds

namespace OfflineMeshWitness

open FlatJson
open ReceiveCipher.SessionCipherWitness (hello helloBody)

def jsonFields (envelope : OfflineMeshEnvelope) : List (String × Value) :=
  [("session_id", .text envelope.sessionId), ("from", .text envelope.fromNode),
    ("to", .text envelope.toNode),
    ("created_at_unix_ms", .number envelope.createdAtUnixMs),
    ("sequence", .number envelope.sequence),
    ("ciphertext_b64", .text envelope.ciphertextB64)]

def ofJsonFields : List (String × Value) → Option OfflineMeshEnvelope
  | [(_, .text sessionId), (_, .text fromNode), (_, .text toNode),
      (_, .number createdAtUnixMs), (_, .number sequence),
      (_, .text ciphertextB64)] =>
      some { sessionId, fromNode, toNode, createdAtUnixMs, sequence,
             ciphertextB64 }
  | _ => none

def codec : EnvelopeCodec OfflineMeshEnvelope where
  toVec envelope := writeObject (jsonFields envelope)
  fromSlice bytes :=
    (readObject ["session_id", "from", "to", "created_at_unix_ms", "sequence",
      "ciphertext_b64"] bytes).bind ofJsonFields
  fromSlice_toVec envelope :=
    congrArg (Option.bind · ofJsonFields)
      (readObject_writeObject (jsonFields envelope))

/-- The digest of the path component of `a`. -/
def digestOfA : FixedBytes 32 :=
  ⟨[54, 198, 69, 227, 2, 174, 128, 29, 243, 212, 70, 73, 204, 254, 249, 120,
    173, 44, 98, 78, 30, 142, 110, 255, 177, 71, 33, 204, 221, 103, 168, 30],
    rfl⟩

/-- The digest of the path component of `b`. -/
def digestOfB : FixedBytes 32 :=
  ⟨[143, 36, 140, 200, 244, 49, 148, 98, 38, 223, 106, 209, 237, 146, 186, 75,
    60, 237, 232, 123, 46, 86, 195, 3, 133, 126, 204, 211, 83, 222, 186, 43],
    rfl⟩

/-- A host that lists directories backwards. -/
def host : OfflineMeshHost where
  sha256 bytes :=
    if bytes = textBytes "shph/path-component/v1\x00" ++ bigEndian 8 1 ++
        textBytes "a" then digestOfA
    else digestOfB
  codec := codec
  readDir := ⟨List.reverse, List.reverse_perm⟩

def configOfA : OfflineMeshConfig :=
  { nodeId := "a", peerId := "b", spoolDir := "spool", maxIdleEntries := 64 }

def configOfB : OfflineMeshConfig :=
  { nodeId := "b", peerId := "a", spoolDir := "spool", maxIdleEntries := 64 }

def fs : FileSystem :=
  { lookup := fun _ => .missing, processId := 1, tempFileCounter := 0 }

def sessionKey : Key := ReceiveCipher.SessionCipherWitness.sessionKey

def keysOfA : SessionKeys :=
  { sendNonce := 0, recvNonce := 0, sendKey := sessionKey
    recvKey := FixedBytes.replicate 32 0x22 }

def keysOfB : SessionKeys :=
  { sendNonce := 0, recvNonce := 0, sendKey := FixedBytes.replicate 32 0x22
    recvKey := sessionKey }

def writer : OfflineMeshWriteState :=
  OfflineMeshWriteState.new host configOfA "a" "b"

def reader : OfflineMeshReadState :=
  OfflineMeshReadState.new configOfB "b" "a"

theorem host_toVec (envelope : OfflineMeshEnvelope) :
    host.codec.toVec envelope = writeObject (jsonFields envelope) := by
  simp only [host, codec]

/-- An envelope between the two nodes is small if its texts are. -/
theorem toVec_length_le {sessionId ciphertextB64 : String}
    {createdAtUnixMs sequence : Nat} (hsession : sessionId.length ≤ 116)
    (hms : createdAtUnixMs < 10 ^ 20) (hsequence : sequence < 10 ^ 20)
    (htext : ciphertextB64.length ≤ 1000) :
    (host.codec.toVec ⟨sessionId, "a", "b", createdAtUnixMs, sequence,
      ciphertextB64⟩).length ≤ 32768 := by
  have hmsDigits := toDigits_length_le hms
  have hsequenceDigits := toDigits_length_le hsequence
  have hnames : "session_id".length = 10 ∧ "from".length = 4 ∧
      "to".length = 2 ∧ "created_at_unix_ms".length = 18 ∧
      "sequence".length = 8 ∧ "ciphertext_b64".length = 14 ∧
      "a".length = 1 ∧ "b".length = 1 := by decide
  rw [host_toVec]
  apply (writeObject_length_le _).trans
  simp only [jsonFields, List.map_cons, List.map_nil, List.sum_cons,
    List.sum_nil, Value.maxLength]
  omega

/-- Small payloads always fit into an envelope of either write state. -/
theorem envelope_small {state : OfflineMeshWriteState} {now : Nat}
    {payload : Bytes} (hlocal : state.localNode = "a")
    (hpeer : state.peerNode = "b") (hnow : now < 10 ^ 20)
    (hsequence : state.nextSequence < 10 ^ 20)
    (hpayload : payload.length ≤ 250) :
    (host.codec.toVec (state.envelope host now payload)).length ≤
      maxFileAdapterBytes := by
  have htext : (Base64.encode payload).length ≤ 1000 :=
    (Base64.encode_length_le payload).trans (by omega)
  unfold OfflineMeshWriteState.envelope
  rw [hlocal, hpeer]
  exact (toVec_length_le (offlineSessionId_length_le host.sha256 "a" "b") hnow
    hsequence htext).trans (by decide)

def helloPayload : Bytes := [0x68, 0x69]

def ciphertextPayload : Bytes := [0x63, 0x74]

def handshake : List (Nat × Bytes) :=
  [(1700000000000, helloPayload), (1700000000000, ciphertextPayload)]

def frames : List (Nat × Bytes) :=
  [(1700000000001, hello)]

def opened : OfflineMeshWriteState × FileSystem :=
  final (sendPayload host) (writer, fs)
    (timed handshake)

def sessionOfA : OfflineMeshSession :=
  established host configOfA keysOfA

def sessionOfB : OfflineMeshSession :=
  established host configOfB keysOfB

def aead : Aead := ReceiveCipher.SessionCipherWitness.aead

def spooled : OfflineMeshSession × FileSystem :=
  final (sendFrame host aead) (sessionOfA, opened.2)
    (timed frames)

theorem fs_spooled : Spooled host (writer.outDir host) fs [] :=
  ⟨FileSystem.Holds.of_missing rfl, List.Pairwise.nil⟩

theorem opened_spooled :
    ∃ opens, Spooled host (writer.outDir host) opened.2 opens ∧
      (∀ envelope ∈ opens, envelope.createdAtUnixMs = 1700000000000) ∧
      (successes (trace (sendPayload host) (writer, fs)
        (timed handshake))).map (fun sent => sent.1.2) =
          [helloPayload, ciphertextPayload] := by
  obtain ⟨opens, hspool, htexts, _, hclock, hall⟩ :=
    sendPayload_run handshake writer fs_spooled
      (by decide) (by simp) (by decide)
  have hlength : opens.length = handshake.length := by
    apply hall
    intro send hsend sequence hsequence
    have hbound : sequence < 10 ^ 20 := by
      unfold u64Max at hsequence
      omega
    simp only [handshake, List.mem_cons, List.not_mem_nil, or_false] at hsend
    rcases hsend with rfl | rfl
    · exact envelope_small rfl rfl (by decide) hbound (by decide)
    · exact envelope_small rfl rfl (by decide) hbound (by decide)
  rw [List.nil_append] at hspool
  refine ⟨opens, hspool, ?_, ?_⟩
  · intro envelope hmem
    obtain ⟨_, send, hsend, heq⟩ := hclock envelope hmem
    simp only [handshake, List.mem_cons, List.not_mem_nil, or_false] at hsend
    rcases hsend with rfl | rfl <;> exact heq
  · have hcount := congrArg List.length htexts
    rw [List.length_map, List.length_map, hlength] at hcount
    have hinputs := successes_trace_map_fst hcount.symm
    have hpayloads := congrArg (List.map Prod.snd) hinputs
    rw [List.map_map] at hpayloads
    exact hpayloads

/-- The first frame of the session, as it is sealed. -/
def framePayload : Bytes :=
  (nonceBytes 0).val ++ helloBody

theorem frame_valid : validateFileAdapterPayload
    hello
    sessionOfA.sendState.maxPayloadBytes sessionOfA.sendState.maxFileBytes =
      .ok () := by
  have hfixed : (host.codec.toVec (widestEnvelope host configOfA.nodeId
      configOfA.peerId)).length ≤ 32768 :=
    toVec_length_le (offlineSessionId_length_le host.sha256 "a" "b")
      (by decide) (by decide) (by decide)
  have htext : base64EncodedLen
      (saturatingAdd hello.length
        shroudAeadOverhead) = 44 := by decide
  apply validate_established host keysOfA
  · rw [PlaintextFits, htext, saturatingAdd_le_iff (by decide)]
    exact (Nat.add_le_add_right hfixed 44).trans (by decide)
  · exact hfixed.trans (by decide)
  · decide

theorem frame_sealed : sessionOfA.sendCipher.encrypt aead
    hello =
      (.ok framePayload, (SendCipher.mk sessionKey 1)) := by
  decide

theorem frame_sent :
    (sendFrame host aead (sessionOfA, opened.2)
      (some 1700000000001,
        hello)).1 = .ok () := by
  obtain ⟨opens, hspool, hclock, _⟩ := opened_spooled
  have hbefore : ∀ old ∈ opens,
      old.Before 1700000000001 sessionOfA.sendState.nextSequence := by
    intro old hold
    apply Or.inl
    rw [hclock old hold]
    decide
  obtain ⟨result, next, hcall, hresult⟩ :=
    sendPayload_spooled sessionOfA.sendState hspool
      1700000000001 framePayload hbefore
  rw [(sendFrame_of_sealed frame_valid frame_sealed).1,
    hcall]
  rcases hresult with ⟨_, hlarge, _⟩ | ⟨hok, _⟩
  · have hsmall := @envelope_small sessionOfA.sendState 1700000000001
      framePayload rfl rfl (by decide) (by decide) (by decide)
    exact absurd hsmall (Nat.not_le.mpr hlarge)
  · exact hok

theorem frames_sent :
    (successes (trace (sendFrame host aead)
      (sessionOfA, opened.2) (timed frames))).map
        (fun sent => sent.1.2) =
      [hello] := by
  have htimed : timed frames =
    [(some 1700000000001, hello)] := rfl
  rw [htimed, trace_cons, trace_nil, frame_sent]
  rfl

theorem spooled_limits : reader.WithinScanLimits host spooled.2 := by
  obtain ⟨opens, added, hspool, hopens, hadded, hwritten, _⟩ :=
    offlineMesh_spooled host aead configOfA keysOfA fs
      (1700000000000, helloPayload) (some (1700000000000, ciphertextPayload))
      frames (Or.inl rfl) (by decide) (by decide)
  obtain ⟨_, _, _, hhandshake⟩ := opened_spooled
  have hopensLength : opens.length = 2 :=
    hopens.length_eq.trans (congrArg List.length hhandshake)
  have haddedLength : added.length = 1 :=
    hadded.length_eq.trans (congrArg List.length frames_sent)
  have hdir : reader.inboundQueueDir host = writer.outDir host :=
    @OfflineMeshConfig.queueDir_eq host configOfA configOfB rfl rfl rfl
  have hqueue : Spooled host (reader.inboundQueueDir host) spooled.2
      (opens ++ added) := hdir ▸ hspool
  apply withinScanLimits_of_few hqueue
  · rw [List.length_append, hopensLength, haddedLength]
    decide
  · exact fun envelope hmem => (hwritten envelope hmem).1.small
  · intro envelope hmem
    obtain ⟨_, hsequence, send, hsend, hms⟩ := hwritten envelope hmem
    have hclock : ∀ send ∈ handshake ++ frames, send.1 < 10 ^ 20 := by decide
    refine ⟨hms ▸ hclock send hsend, hsequence.trans (by decide)⟩
  · decide
  · decide
  · decide

theorem offlineMesh_delivers_hello :
    let reads : List (Nat × (Bytes → Except ShphError Bytes)) :=
      [(0, .ok), (0, .ok)]
    let left := (final (receiveVerified host)
      (reader, spooled.2) reads).2
    (trace (receiveVerified host) (reader, spooled.2)
        reads).map Prod.snd = [.ok helloPayload, .ok ciphertextPayload] ∧
      (trace (recvFrame host aead) (sessionOfB, left)
          [(0, [])]).map Prod.snd =
        [.ok hello] := by
  intro reads left
  obtain ⟨_, _, _, hhandshake⟩ := opened_spooled
  have hframes := frames_sent
  have hdelivers := @offlineMesh_delivers Bytes host aead configOfA configOfB
    keysOfA keysOfB fs (1700000000000, helloPayload)
    (some (1700000000000, ciphertextPayload)) frames ⟨rfl, rfl, rfl⟩ rfl
    (Or.inl rfl) (by decide) (by decide) spooled_limits
  obtain ⟨hreads, hrest⟩ := hdelivers.2 reads (by
    refine hhandshake.symm ▸ ?_
    exact .cons rfl (.cons rfl .nil))
  obtain ⟨hreceived, _⟩ := hrest [(0, [])]
    (congrArg List.length hframes).symm
  exact ⟨hreads.trans (congrArg _ hhandshake),
    hreceived.trans (congrArg _ hframes)⟩

def tagged : Aead := .tagged

theorem frame_fits (now : Nat) (hnow : now < 10 ^ 20) :
    sessionOfA.Fits host tagged
      (now, hello) := by
  refine ⟨frame_valid, ?_⟩
  intro sequence hsequence
  refine ⟨hello ++ List.replicate 16 0,
    rfl, ?_⟩
  apply envelope_small rfl rfl hnow (hsequence.trans (by decide))
  rw [List.length_append, (nonceBytes sequence).length_eq]
  decide

/-- The write state and the spool after the hello alone. -/
def greeted : OfflineMeshWriteState × FileSystem :=
  final (sendPayload host) (writer, fs)
    (timed [(1700000000000, helloPayload)])

theorem greeted_spooled :
    (trace (sendPayload host) (writer, fs)
        (timed [(1700000000000, helloPayload)])).map
          Prod.snd = [.ok ()] ∧
      Spooled host (writer.outDir host) greeted.2
        [writer.envelope host 1700000000000 helloPayload] := by
  obtain ⟨result, next, hcall, hresult⟩ :=
    sendPayload_spooled writer fs_spooled 1700000000000
      helloPayload (by simp)
  have htimed : timed [(1700000000000, helloPayload)] =
    [(some 1700000000000, helloPayload)] := rfl
  rw [greeted, htimed, trace_cons, trace_nil, final_cons, final_nil, hcall]
  rcases hresult with ⟨_, hlarge, _⟩ | ⟨rfl, _, hnext⟩
  · have hsmall := @envelope_small writer 1700000000000 helloPayload rfl rfl
      (by decide) (by decide) (by decide)
    exact absurd hsmall (Nat.not_le.mpr hlarge)
  · exact ⟨rfl, hnext⟩

/-- More frames than a scan may look at. -/
def manyFrames : List (Nat × Bytes) :=
  List.replicate maxQueueScanEntries
    (1700000000001, hello)

theorem manyFrames_fail :
    (successes (trace (sendFrame host tagged)
        (sessionOfA, greeted.2)
        (timed manyFrames))).length =
        manyFrames.length ∧
      ∃ error, (reader.pollInbound host
        (final (sendFrame host tagged)
          (sessionOfA, greeted.2)
          (timed manyFrames)).2).1 = .error error := by
  have hspool := greeted_spooled.2
  have hmem : ∀ send ∈ manyFrames,
      send = (1700000000001, hello) :=
    fun send hsend => List.eq_of_mem_replicate hsend
  have hclock : manyFrames.Pairwise fun first second => first.1 ≤ second.1 :=
    List.pairwise_replicate.mpr (Or.inr (Nat.le_refl _))
  have hbefore : ∀ old ∈ [writer.envelope host 1700000000000 helloPayload],
      ∀ send ∈ manyFrames, old.Before send.1 0 := by
    intro old hold send hsend
    rw [List.mem_singleton.mp hold, hmem send hsend]
    exact Or.inl (show 1700000000000 < 1700000000001 by decide)
  have hlength := sendFrame_run_length tagged sessionOfA
    manyFrames 0 (fun send hsend => by
      rw [hmem send hsend]
      exact frame_fits _ (by decide))
    (by rw [manyFrames, List.length_replicate]; decide) hspool hclock hbefore
  obtain ⟨added, hqueue, hcarries, _⟩ := sendFrame_run
    tagged sessionOfA manyFrames 0 hspool hclock hbefore
  have hzero : sessionOfA.atSequence 0 = sessionOfA :=
    established_atSequence host configOfA keysOfA
  rw [hzero] at hlength hqueue hcarries
  refine ⟨hlength, ?_⟩
  apply pollInbound_error_of_length
  have hdir : reader.inboundQueueDir host = writer.outDir host :=
    @OfflineMeshConfig.queueDir_eq host configOfA configOfB rfl rfl rfl
  have hentries := hqueue.holds.perm.length_eq
  rw [List.length_map, List.length_map, List.length_append,
    hcarries.length_eq, List.length_map, hlength, manyFrames,
    List.length_replicate, List.length_singleton] at hentries
  rw [hdir]
  exact Nat.lt_of_lt_of_eq (by omega) hentries.symm

/-- The session's first frame in the millisecond of the hello. -/
def collided : OfflineMeshSession × FileSystem :=
  final (sendFrame host aead) (sessionOfA, greeted.2)
    (timed
      [(1700000000000, hello)])

theorem collided_spooled :
    (trace (sendFrame host aead) (sessionOfA, greeted.2)
        (timed [(1700000000000,
          hello)])).map Prod.snd =
        [.ok ()] ∧
      Spooled host (writer.outDir host) collided.2
        [writer.envelope host 1700000000000 framePayload] := by
  have hsmall := @envelope_small sessionOfA.sendState 1700000000000
    framePayload rfl rfl (by decide) (by decide) (by decide)
  obtain ⟨next, hcall, hspool⟩ :=
    @sendPayload_replaces host greeted.2 _
      sessionOfA.sendState greeted_spooled.2 1700000000000 rfl _ hsmall
  have hsent := @sendFrame_of_sealed host greeted.2 aead
    sessionOfA (some 1700000000000) _ _ _ frame_valid frame_sealed
  rw [hcall] at hsent
  have htimed : timed
      [(1700000000000, hello)] =
    [(some 1700000000000, hello)] := rfl
  rw [collided, htimed, trace_cons, trace_nil, final_cons, final_nil, hsent.1,
    hsent.2]
  exact ⟨rfl, hspool⟩

theorem collided_poll :
    ∃ frame, (reader.pollInbound host collided.2).1 = .ok (some frame) ∧
      frame.payload = framePayload := by
  have hdir : reader.inboundQueueDir host = writer.outDir host :=
    @OfflineMeshConfig.queueDir_eq host configOfA configOfB rfl rfl rfl
  have hqueue : Spooled host (reader.inboundQueueDir host) collided.2
      [writer.envelope host 1700000000000 framePayload] :=
    hdir ▸ collided_spooled.2
  have hsmall := @envelope_small writer 1700000000000 framePayload rfl rfl
    (by decide) (by decide) (by decide)
  have hlimits : reader.WithinScanLimits host collided.2 := by
    apply withinScanLimits_of_few hqueue (by simp)
    · intro envelope hmem
      rw [List.mem_singleton.mp hmem]
      exact hsmall
    · intro envelope hmem
      rw [List.mem_singleton.mp hmem]
      exact ⟨show 1700000000000 < 10 ^ 20 by decide, show 0 < 10 ^ 20 by decide⟩
    · decide
    · decide
    · decide
  have hawaits : reader.Awaits host collided.2
      [writer.envelope host 1700000000000 framePayload] := by
    apply @awaits_of_writes host configOfA configOfB _ _
      ⟨rfl, rfl, rfl⟩ collided_spooled.2 _ hlimits
    intro envelope hmem
    rw [List.mem_singleton.mp hmem]
    exact ⟨rfl, rfl, rfl, hsmall⟩
  obtain ⟨frame, next, hpoll, hframe, _⟩ :=
    hawaits.pollInbound (Base64.decode_encode framePayload)
  exact ⟨frame, by rw [hpoll], hframe⟩

/-- Two ways for a hello to be lost.  In the millisecond of the hello the
session's first frame has the same file name and replaces it; and behind a
hello and 4096 frames every poll of the peer fails. -/
theorem offlineMesh_loses_hello :
    ((trace (sendPayload host) (writer, fs)
          (timed [(1700000000000, helloPayload)])).map
            Prod.snd = [.ok ()] ∧
        (trace (sendFrame host aead) (sessionOfA, greeted.2)
          (timed [(1700000000000,
            hello)])).map Prod.snd =
          [.ok ()] ∧
        ∃ frame, (reader.pollInbound host collided.2).1 = .ok (some frame) ∧
          frame.payload ≠ helloPayload) ∧
      (successes (trace (sendFrame host tagged)
          (sessionOfA, greeted.2)
          (timed manyFrames))).length =
          manyFrames.length ∧
      ∃ error, (reader.pollInbound host
        (final (sendFrame host tagged)
          (sessionOfA, greeted.2)
          (timed manyFrames)).2).1 = .error error := by
  obtain ⟨frame, hpoll, hframe⟩ := collided_poll
  refine ⟨⟨greeted_spooled.1, collided_spooled.1, frame, hpoll, ?_⟩,
    manyFrames_fail⟩
  rw [hframe]
  decide

end OfflineMeshWitness

end Shph
