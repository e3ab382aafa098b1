/-
The bridge between a native TUN device and the datagrams of a standards QUIC
connection.  It runs in one of three modes, each with a loop that sends the
packets of the device and a loop that writes the peer's packets to it.  Every
loop selects between the close of the connection and its next packet; what a
turn of the loop finds is an input, so that a run is a list of turns.
-/
import Shph.Library.LoopRun
import Shph.NegotiatedQuic
import Shph.Shroud3

namespace Shph

open ByteCodec LoopRun Shroud3

def maxTunPacketBytes : Nat := 2 ^ 16 - 1

def validateIpv4Packet (packet : Bytes) : Except ShphError Unit := do
  ensure (20 ≤ packet.length) (.tun "IPv4 packet is shorter than its header")
  let headerLen := (packet.headD 0 &&& 0x0f).toNat * 4
  ensure (20 ≤ headerLen) (.tun "IPv4 header length is invalid")
  ensure (headerLen ≤ packet.length) (.tun "IPv4 header exceeds packet length")
  let totalLen := ofBigEndian (slice packet 2 2)
  ensure (headerLen ≤ totalLen ∧ totalLen = packet.length)
    (.tun "IPv4 total length does not match the packet")

def validateIpv6Packet (packet : Bytes) : Except ShphError Unit := do
  ensure (40 ≤ packet.length) (.tun "IPv6 packet is shorter than its header")
  let payloadLen := ofBigEndian (slice packet 4 2)
  ensure (payloadLen ≠ 0)
    (.tun "IPv6 zero payload length/jumbo packets are unsupported")
  ensure (40 + payloadLen = packet.length)
    (.tun "IPv6 payload length does not match the packet")

def validateIpPacket (packet : Bytes) : Except ShphError Unit := do
  ensure (packet ≠ []) (.tun "IP packet cannot be empty")
  ensure (packet.length ≤ maxTunPacketBytes)
    (.tun s!"IP packet exceeds TUN safety limit of {maxTunPacketBytes} bytes")
  match (packet.headD 0 >>> 4).toNat with
  | 4 => validateIpv4Packet packet
  | 6 => validateIpv6Packet packet
  | version =>
      .error (.tun s!"unsupported IP version in TUN packet: {version}")

/-- What a read of the device gives that is neither interrupted nor
premature; both of these are read again. -/
inductive TunRead where
  | bytes (data : Bytes)
  | failed (kind : IoErrorKind)
deriving Repr, DecidableEq

namespace AsyncTunDevice

def recvPacket : TunRead → Except ShphError Bytes
  | .failed kind => .error (.io kind)
  | .bytes data => do
      ensure (data.length ≤ maxTunPacketBytes) (.tun
        "received TUN packet exceeds the 65535-byte safety limit")
      ensure (data ≠ []) .connectionClosed
      validateIpPacket data
      return data

def classifyTunWriteResult (result : Except IoErrorKind Nat)
    (expected : Nat) : Except ShphError Unit :=
  match result with
  | .ok written =>
      ensure (written = expected) (.tun ("short TUN packet write: expected " ++
        s!"{expected} bytes, wrote {written}"))
  | .error .wouldBlock => .error .timeout
  | .error .timedOut => .error .timeout
  | .error kind => .error (.io kind)

/-- `write` is what the system says about the bytes written. -/
def sendPacket (packet : Bytes) (write : Except IoErrorKind Nat) :
    Except ShphError Unit := do
  ensure (packet ≠ []) (.tun "TUN packet cannot be empty")
  ensure (packet.length ≤ maxTunPacketBytes)
    (.tun s!"packet exceeds TUN safety limit of {maxTunPacketBytes} bytes")
  validateIpPacket packet
  classifyTunWriteResult write packet.length

end AsyncTunDevice

/-- The errors of the QUIC library when a datagram is handed over.  A lost
connection carries the text of its reason. -/
inductive SendDatagramError where
  | unsupportedByPeer
  | disabled
  | tooLarge
  | connectionLost (reason : String)
deriving Repr, DecidableEq

def SendDatagramError.toText : SendDatagramError → String
  | unsupportedByPeer => "datagrams not supported by peer"
  | disabled => "datagram support disabled"
  | tooLarge => "datagram too large"
  | connectionLost _ => "connection lost"

/-- The connection at one moment: why it was lost, if it was, whether
datagrams are enabled here, and the largest datagram its path and its peer
take.  A path MTU is a 16-bit number. -/
structure QuicPath where
  lost : Option String
  enabled : Bool
  maxDatagramSize : Option UInt16
deriving Repr, DecidableEq

namespace QuicPath

/-- The connection is open and datagrams are negotiated. -/
def isCapable (path : QuicPath) : Bool :=
  path.lost.isNone && path.enabled && path.maxDatagramSize.isSome

/-- Handing over a datagram of this length. -/
def sendDatagram (path : QuicPath) (length : Nat) :
    Except SendDatagramError Unit :=
  match path.lost, path.enabled, path.maxDatagramSize with
  | some reason, _, _ => .error (.connectionLost reason)
  | none, false, _ => .error .disabled
  | none, true, none => .error .unsupportedByPeer
  | none, true, some limit =>
      if limit.toNat < length then .error .tooLarge else .ok ()

/-- `send_datagram_wait` with its error as a transport error. -/
def sendDatagramWait (path : QuicPath) (length : Nat) :
    Except ShphError Unit :=
  match path.sendDatagram length with
  | .ok () => .ok ()
  | .error error => .error (.transport error.toText)

end QuicPath

/-- The size is asked for at one moment and the datagram is handed over at
another. -/
def sendDatagramLossy (check send : QuicPath) (payload : Bytes) :
    Except SendDatagramError Unit :=
  if maxTunDatagramBytes < payload.length ∨
      check.maxDatagramSize.any (·.toNat < payload.length) then
    .error .tooLarge
  else send.sendDatagram payload.length

def maxInvalidDatagrams : Nat := 4096

structure StandardsTunBridgeConfig where
  maxInvalidDatagrams : Nat
  shroud3Adaptive : Bool
deriving Repr, DecidableEq

def StandardsTunBridgeConfig.validate (config : StandardsTunBridgeConfig) :
    Except ShphError Unit :=
  ensure (1 ≤ config.maxInvalidDatagrams ∧
      config.maxInvalidDatagrams ≤ Shph.maxInvalidDatagrams)
    (.config ("standards TUN bridge invalid-datagram limit must be between " ++
      s!"1 and {Shph.maxInvalidDatagrams}"))

structure StandardsTunBridgeStats where
  tunToQuicPackets : Nat
  tunToQuicBytes : Nat
  quicToTunPackets : Nat
  quicToTunBytes : Nat
  droppedOversizedPackets : Nat
  droppedInvalidDatagrams : Nat
  droppedPacingPackets : Nat
deriving Repr, DecidableEq

namespace StandardsTunBridgeStats

def default : StandardsTunBridgeStats := ⟨0, 0, 0, 0, 0, 0, 0⟩

def combine (left right : StandardsTunBridgeStats) :
    StandardsTunBridgeStats where
  tunToQuicPackets := saturatingAdd left.tunToQuicPackets right.tunToQuicPackets
  tunToQuicBytes := saturatingAdd left.tunToQuicBytes right.tunToQuicBytes
  quicToTunPackets := saturatingAdd left.quicToTunPackets right.quicToTunPackets
  quicToTunBytes := saturatingAdd left.quicToTunBytes right.quicToTunBytes
  droppedOversizedPackets :=
    saturatingAdd left.droppedOversizedPackets right.droppedOversizedPackets
  droppedInvalidDatagrams :=
    saturatingAdd left.droppedInvalidDatagrams right.droppedInvalidDatagrams
  droppedPacingPackets :=
    saturatingAdd left.droppedPacingPackets right.droppedPacingPackets

def sent (stats : StandardsTunBridgeStats) (length : Nat) :
    StandardsTunBridgeStats :=
  { stats with
    tunToQuicPackets := saturatingAdd stats.tunToQuicPackets 1
    tunToQuicBytes := saturatingAdd stats.tunToQuicBytes length }

def received (stats : StandardsTunBridgeStats) (length : Nat) :
    StandardsTunBridgeStats :=
  { stats with
    quicToTunPackets := saturatingAdd stats.quicToTunPackets 1
    quicToTunBytes := saturatingAdd stats.quicToTunBytes length }

def droppedOversized (stats : StandardsTunBridgeStats) :
    StandardsTunBridgeStats :=
  { stats with
    droppedOversizedPackets := saturatingAdd stats.droppedOversizedPackets 1 }

def droppedInvalid (stats : StandardsTunBridgeStats) :
    StandardsTunBridgeStats :=
  { stats with
    droppedInvalidDatagrams := saturatingAdd stats.droppedInvalidDatagrams 1 }

def droppedPacing (stats : StandardsTunBridgeStats) :
    StandardsTunBridgeStats :=
  { stats with
    droppedPacingPackets := saturatingAdd stats.droppedPacingPackets 1 }

end StandardsTunBridgeStats

/-- How a loop ends: whether it closes the connection, and what it returns. -/
structure LoopEnd where
  closes : Bool
  result : Except ShphError StandardsTunBridgeStats
deriving Repr

abbrev LoopStep (σ : Type) := Outcome σ LoopEnd

/-- The two instants and the two moments of one datagram in the pacer: when it
was queued and when its delay was over, the connection when the size is
checked and when the datagram is handed over, and whether that happens before
the deadline.  Instants do not run backwards. -/
structure PacerTurn where
  enqueuedAt : Nat
  releasedAt : Nat
  monotone : enqueuedAt ≤ releasedAt
  check : QuicPath
  send : QuicPath
  handedOver : Bool

namespace DatagramPacer

def budget : Nat := fromMillis 1000

/-- The deadline has not passed when the delay is over. -/
def onTime (shapingDelay : Nat) (turn : PacerTurn) : Bool :=
  max turn.releasedAt (turn.enqueuedAt + min shapingDelay budget) <
    turn.enqueuedAt + budget

def validateCarrierLimit (payloadLen : Nat) (maxDatagramSize : Option UInt16) :
    Except ShphError Unit :=
  ensure (maxDatagramSize.any (payloadLen ≤ ·.toNat))
    (.protocol "paced datagram exceeds current carrier limit")

/-- The loop has at most one datagram here, so that one of the 64 slots is
always free, and it never cancels. -/
def send (payloadLen shapingDelay : Nat) (turn : PacerTurn) :
    Except ShphError Unit := do
  ensure (payloadLen ≤ 65535 ∧ shapingDelay ≤ fromMillis 1000)
    (.invalidArgument "invalid paced datagram or timestamp")
  ensure (onTime shapingDelay turn) .timeout
  validateCarrierLimit payloadLen turn.check.maxDatagramSize
  ensure turn.handedOver .timeout
  turn.send.sendDatagramWait payloadLen

end DatagramPacer

/-- One turn of a sending loop.  A packet comes with the connection when its
size limit is asked for, and with what only one of the modes looks at: the
time since the last packet, the pacer, and whether the connection is seen to
be closed while the pacer waits. -/
inductive SenderTurn where
  | closed
  | packet (read : TunRead) (path : QuicPath) (waited : Nat)
      (pacer : PacerTurn) (closedMeanwhile : Bool)

/-- One turn of a receiving loop: the connection when the turn starts, what
`read_datagram` returned and what the device said about a write. -/
inductive ReceiverTurn where
  | closed
  | datagram (path : QuicPath) (read : Except String Bytes)
      (write : Except IoErrorKind Nat)

def isInvalidTunDatagram (datagram : Bytes) : Bool :=
  datagram = [] || !(validateIpPacket datagram).isOk

def isOversizedTunDatagram (datagram : Bytes) : Bool :=
  maxTunPacketBytes < datagram.length

namespace StandardsTun

variable {rng : Rng}

def tunToQuicStep (stats : StandardsTunBridgeStats) :
    SenderTurn → LoopStep StandardsTunBridgeStats
  | .closed => .ended ⟨false, .error .connectionClosed⟩
  | .packet read path _ pacer _ =>
      match AsyncTunDevice.recvPacket read with
      | .error error => .ended ⟨true, .error error⟩
      | .ok [] => .ended ⟨true, .ok stats⟩
      | .ok packet =>
          match sendDatagramLossy path pacer.send packet with
          | .ok () => .running (stats.sent packet.length)
          | .error .tooLarge => .running stats.droppedOversized
          | .error .unsupportedByPeer => .ended ⟨true, .error (.unsupported
              "peer does not support QUIC DATAGRAM frames")⟩
          | .error .disabled => .ended ⟨true, .error (.unsupported
              "QUIC DATAGRAM frames are disabled")⟩
          | .error (.connectionLost reason) =>
              .ended ⟨true, .error (.transport reason)⟩

/-- The counters, the engine and the time since the session started. -/
structure Shroud3Sender (rng : Rng) where
  stats : StandardsTunBridgeStats
  morphology : AdaptiveShroud3 rng
  elapsed : Nat

/-- `none` for a packet that does not fit the path. -/
def encodeShroud3TunDatagram (morphology : AdaptiveShroud3 rng)
    (packet : Bytes) (pathMtu : Nat) (observation : Shroud3Observation) :
    Except ShphError (Option Bytes) × AdaptiveShroud3 rng :=
  if maxTunPacketBytes < packet.length ∨
      pathMtu < saturatingAdd packet.length shroud3HeaderBytes then
    (.ok none, morphology)
  else
    match morphology.encode packet pathMtu observation with
    | (.error error, morphology) => (.error error, morphology)
    | (.ok datagram, morphology) => (.ok (some datagram), morphology)

/-- What the loop does with the answer of the pacer. -/
def Shroud3Sender.paced (sender : Shroud3Sender rng) (length : Nat) :
    Except ShphError Unit → LoopStep (Shroud3Sender rng)
  | .ok () => .running { sender with stats := sender.stats.sent length }
  | .error .timeout =>
      .running { sender with stats := sender.stats.droppedPacing }
  | .error (.resourceExhausted _) =>
      .running { sender with stats := sender.stats.droppedPacing }
  | .error (.protocol _) =>
      .running { sender with stats := sender.stats.droppedOversized }
  | .error error => .ended ⟨true, .error error⟩

def shroud3TunToQuicStep (sender : Shroud3Sender rng) :
    SenderTurn → LoopStep (Shroud3Sender rng)
  | .closed => .ended ⟨false, .error .connectionClosed⟩
  | .packet read path waited pacer closedMeanwhile =>
      match AsyncTunDevice.recvPacket read with
      | .error error => .ended ⟨true, .error error⟩
      | .ok [] => .ended ⟨true, .ok sender.stats⟩
      | .ok packet =>
          let elapsed := sender.elapsed + waited
          match path.maxDatagramSize with
          | none => .ended ⟨false, .error (.unsupported
              "QUIC DATAGRAM is not negotiated")⟩
          | some pathMtu =>
              match encodeShroud3TunDatagram sender.morphology packet
                  pathMtu.toNat ⟨elapsed, 0⟩ with
              | (.ok none, morphology) => .running
                  ⟨sender.stats.droppedOversized, morphology, elapsed⟩
              | (.error error, _) => .ended ⟨true, .error error⟩
              | (.ok (some datagram), morphology) =>
                  if closedMeanwhile then
                    .ended ⟨false, .error .connectionClosed⟩
                  else
                    Shroud3Sender.paced ⟨sender.stats, morphology, elapsed⟩
                      packet.length (DatagramPacer.send datagram.length
                        morphology.pendingDelay pacer)

def phantomOnePathMtu (path : QuicPath) : Except ShphError Nat := do
  let maxDatagram ← okOr path.maxDatagramSize
    (.unsupported "QUIC DATAGRAM is not negotiated")
  let pathMtu ← okOr (checkedSub maxDatagram.toNat shphAeadOverheadBytes)
    (.protocol "QUIC DATAGRAM is too small for SHPH AEAD")
  ensure (phantomOneHeaderBytes ≤ pathMtu)
    (.protocol "QUIC DATAGRAM is too small for a Phantom One header")
  return pathMtu

structure PhantomOneDatagramSender (rng : Rng) where
  sendCipher : SendCipher
  encoder : PhantomOneEncoder rng

/-- The datagram is handed over as well as returned. -/
def PhantomOneDatagramSender.send (aead : Aead)
    (sender : PhantomOneDatagramSender rng) (payload : Bytes)
    (path handover : QuicPath) :
    Except ShphError Bytes × PhantomOneDatagramSender rng :=
  match phantomOnePathMtu path with
  | .error error => (.error error, sender)
  | .ok pathMtu =>
      match sender.encoder.encode .data payload pathMtu with
      | (.error error, encoder) => (.error error, { sender with encoder })
      | (.ok envelope, encoder) =>
          match sender.sendCipher.encrypt aead envelope with
          | (.error error, sendCipher) => (.error error, ⟨sendCipher, encoder⟩)
          | (.ok ciphertext, sendCipher) =>
              match handover.sendDatagramWait ciphertext.length with
              | .error error => (.error error, ⟨sendCipher, encoder⟩)
              | .ok () => (.ok ciphertext, ⟨sendCipher, encoder⟩)

structure PhantomOneSender (rng : Rng) where
  stats : StandardsTunBridgeStats
  sender : PhantomOneDatagramSender rng

/-- Every error of the sender ends the loop. -/
def phantomOneTunToQuicStep (aead : Aead) (state : PhantomOneSender rng) :
    SenderTurn → LoopStep (PhantomOneSender rng)
  | .closed => .ended ⟨false, .error .connectionClosed⟩
  | .packet read path _ pacer _ =>
      match AsyncTunDevice.recvPacket read with
      | .error error => .ended ⟨true, .error error⟩
      | .ok [] => .ended ⟨true, .ok state.stats⟩
      | .ok packet =>
          match state.sender.send aead packet path pacer.send with
          | (.error error, _) => .ended ⟨true, .error error⟩
          | (.ok _, sender) =>
              .running ⟨state.stats.sent packet.length, sender⟩

/-- The counters of a receiving loop. -/
structure Receiving where
  stats : StandardsTunBridgeStats
  invalidDatagrams : Nat
deriving Repr, DecidableEq

namespace Receiving

def default : Receiving := ⟨.default, 0⟩

def oversized (state : Receiving) : Receiving :=
  ⟨state.stats.droppedOversized, saturatingAdd state.invalidDatagrams 1⟩

def invalid (state : Receiving) : Receiving :=
  ⟨state.stats.droppedInvalid, saturatingAdd state.invalidDatagrams 1⟩

/-- The end of every turn of the receiving loops. -/
def checkLimit {σ : Type} (config : StandardsTunBridgeConfig) (kind : String)
    (receiving : Receiving) (state : σ) : LoopStep σ :=
  if config.maxInvalidDatagrams ≤ receiving.invalidDatagrams then
    .ended ⟨true, .error (.protocol
      s!"received {receiving.invalidDatagrams} malformed {kind}")⟩
  else .running state

end Receiving

/-- What the plain and the Phantom One loop do with a datagram they have
received. -/
def deliver {σ : Type} (config : StandardsTunBridgeConfig) (kind : String)
    (receiving : Receiving) (datagram : Bytes)
    (write : Except IoErrorKind Nat) (next : Receiving → σ) : LoopStep σ :=
  if isOversizedTunDatagram datagram then
    receiving.oversized.checkLimit config kind (next receiving.oversized)
  else if isInvalidTunDatagram datagram then
    receiving.invalid.checkLimit config kind (next receiving.invalid)
  else
    match AsyncTunDevice.sendPacket datagram write with
    | .error error => .ended ⟨true, .error error⟩
    | .ok () =>
        let receiving :=
          { receiving with stats := receiving.stats.received datagram.length }
        receiving.checkLimit config kind (next receiving)

def quicToTunStep (config : StandardsTunBridgeConfig)
    (receiving : Receiving) : ReceiverTurn → LoopStep Receiving
  | .closed => .ended ⟨false, .error .connectionClosed⟩
  | .datagram _ (.error reason) _ => .ended ⟨true, .error (.transport reason)⟩
  | .datagram _ (.ok datagram) write =>
      deliver config "QUIC datagrams" receiving datagram write id

structure PhantomOneDatagramReceiver where
  recvCipher : ReceiveCipher
  decoder : PhantomOneDecoder

/-- The size limit is read before the datagram. -/
def PhantomOneDatagramReceiver.recv (aead : Aead)
    (receiver : PhantomOneDatagramReceiver) (path : QuicPath)
    (read : Except String Bytes) :
    Except ShphError Bytes × PhantomOneDatagramReceiver :=
  match phantomOnePathMtu path with
  | .error error => (.error error, receiver)
  | .ok pathMtu =>
      match read with
      | .error reason => (.error (.transport reason), receiver)
      | .ok ciphertext =>
          if pathMtu + shphAeadOverheadBytes < ciphertext.length then
            (.error (.protocol
              "Phantom One QUIC DATAGRAM exceeds the negotiated bound"),
              receiver)
          else
            match receiver.recvCipher.decrypt aead ciphertext with
            | (.error error, recvCipher) =>
                (.error error, { receiver with recvCipher })
            | (.ok plaintext, recvCipher) =>
                match receiver.decoder.decode plaintext pathMtu with
                | (.error error, decoder) =>
                    (.error error, ⟨recvCipher, decoder⟩)
                | (.ok frame, decoder) =>
                    if frame.frameType ≠ .data then
                      (.error (.protocol
                        "unexpected Phantom One frame type on DATAGRAM"),
                        ⟨recvCipher, decoder⟩)
                    else (.ok frame.payload, ⟨recvCipher, decoder⟩)

structure PhantomOneReceiving where
  receiving : Receiving
  receiver : PhantomOneDatagramReceiver

/-- Every error of the receiver ends the loop. -/
def phantomOneQuicToTunStep (aead : Aead) (config : StandardsTunBridgeConfig)
    (state : PhantomOneReceiving) : ReceiverTurn → LoopStep PhantomOneReceiving
  | .closed => .ended ⟨false, .error .connectionClosed⟩
  | .datagram path read write =>
      match state.receiver.recv aead path read with
      | (.error error, _) => .ended ⟨true, .error error⟩
      | (.ok datagram, receiver) =>
          deliver config "Phantom One datagrams" state.receiving datagram write
            fun receiving => ⟨receiving, receiver⟩

def decodeShroud3TunDatagram (datagram : Bytes) (pathMtu : Nat) :
    Except ShphError Bytes := do
  let payload ← decodeInPlace datagram pathMtu
  ensure (¬ isOversizedTunDatagram payload ∧ ¬ isInvalidTunDatagram payload)
    (.protocol "Shroud 3 payload is not a valid bounded IP packet")
  return payload

/-- The path MTU is the one the loop found when it started. -/
def shroud3QuicToTunStep (config : StandardsTunBridgeConfig) (pathMtu : Nat)
    (receiving : Receiving) : ReceiverTurn → LoopStep Receiving
  | .closed => .ended ⟨false, .error .connectionClosed⟩
  | .datagram _ (.error reason) _ => .ended ⟨true, .error (.transport reason)⟩
  | .datagram _ (.ok datagram) write =>
      let kind := "Shroud 3 QUIC datagrams"
      if pathMtu < datagram.length ∨ maxTunPacketBytes < datagram.length then
        receiving.oversized.checkLimit config kind receiving.oversized
      else
        match decodeShroud3TunDatagram datagram pathMtu with
        | .error _ => receiving.invalid.checkLimit config kind receiving.invalid
        | .ok payload =>
            match AsyncTunDevice.sendPacket payload write with
            | .error error => .ended ⟨true, .error error⟩
            | .ok () =>
                let receiving := { receiving with
                  stats := receiving.stats.received payload.length }
                receiving.checkLimit config kind receiving

end StandardsTun

end Shph
