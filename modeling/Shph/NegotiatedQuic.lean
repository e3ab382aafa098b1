/-
The negotiated QUIC session.  Every envelope is sealed under keys of its own
and sent as one datagram, which may be lost, overtaken or duplicated.  The
receiver counts cover bytes against an absolute maximum when they arrive, and
against the payloads it has received when the next payload arrives.
-/
import Shph.NegotiatedSession

namespace Shph

open ByteCodec

def maxTunDatagramBytes : Nat := 65535

def shphAeadOverheadBytes : Nat := 12 + 16

structure ReceivedCoverUsage where
  bytes : Nat
deriving Repr, DecidableEq

namespace ReceivedCoverUsage

def reserve (usage : ReceivedCoverUsage) (policy : CoverPolicy)
    (bytes : Nat) : Except ShphError ReceivedCoverUsage := do
  let next ← okOr (checkedAdd usage.bytes bytes)
    (.protocol "cover traffic byte counter overflow")
  ensure (next ≤ policy.maximumBytes.toNat)
    (.protocol "cover traffic exceeds absolute policy budget")
  return { bytes := next }

def validatePayload (usage : ReceivedCoverUsage) (policy : CoverPolicy)
    (payloadBytes : Nat) : Except ShphError Unit :=
  ensure (coverBudgetAllows policy payloadBytes usage.bytes)
    (.protocol "cover traffic exceeds relative policy budget")

end ReceivedCoverUsage

/-- `sent` has the datagrams that the transport has taken. -/
structure NegotiatedQuic (rng : Rng) where
  sent : List Bytes
  outbound : OutboundPolicy rng
  inbound : InboundPolicy
  sendCipher : SendCipher
  recvCipher : ReceiveCipher
  receivedCover : ReceivedCoverUsage

/-- What the connection says while a call sends: its maximum datagram size
when the frame is encoded, the same when the datagram is handed over, and the
outcome of sending it. -/
structure SendPath where
  frameSize : Option Nat
  sendSize : Option Nat
  outcome : Except ShphError Unit

/-- What `read_datagram` returned, and the maximum datagram size then. -/
structure Arrival where
  datagram : Except ShphError Bytes
  maxDatagramSize : Option Nat

namespace NegotiatedQuic

variable {rng : Rng}

/-- The session once the offers agree. -/
def ofAgreement (sendKey recvKey : Key) (generation : UInt32)
    (agreement : NegotiatedPolicy) (coverPolicy : Option CoverPolicy)
    (seeded : rng.State) : Except ShphError (NegotiatedQuic rng) := do
  let outbound ←
    OutboundPolicy.ofAgreement generation agreement coverPolicy seeded
  let inbound ← InboundPolicy.ofAgreement generation agreement coverPolicy
  return {
    sent := []
    outbound, inbound
    sendCipher := SendCipher.new sendKey
    recvCipher := ReceiveCipher.newWithReplayWindow recvKey 64
    receivedCover := { bytes := 0 } }

def currentFrameLimit (maxDatagramSize : Option Nat) (negotiatedLimit : Nat) :
    Except ShphError Nat :=
  okOr ((maxDatagramSize.bind (checkedSub · shphAeadOverheadBytes)).map
      (min · negotiatedLimit))
    (.protocol "no usable QUIC datagram budget")

def sendDatagramWait (path : SendPath) (payload : Bytes) :
    Except ShphError Unit := do
  ensure (payload.length ≤ maxTunDatagramBytes)
    (.protocol "QUIC datagram exceeds 65535 bytes")
  ensure (path.sendSize.any (payload.length ≤ ·))
    (.protocol "QUIC datagram exceeds negotiated peer maximum")
  path.outcome

/-- Seal an envelope and hand it to the transport. -/
def transmit (aead : Aead) (quic : NegotiatedQuic rng) (path : SendPath)
    (envelope : Bytes) : Except ShphError Unit × NegotiatedQuic rng :=
  match quic.sendCipher.encrypt aead envelope with
  | (.error error, sendCipher) => (.error error, { quic with sendCipher })
  | (.ok ciphertext, sendCipher) =>
      match sendDatagramWait path ciphertext with
      | .error error => (.error error, { quic with sendCipher })
      | .ok () =>
          (.ok (), { quic with
            sendCipher, sent := quic.sent ++ [ciphertext] })

/-- The budget is checked before the size of the path is asked for. -/
def send (aead : Aead) (quic : NegotiatedQuic rng) (payload : Bytes)
    (elapsed : Nat) (path : SendPath) :
    Except ShphError Unit × NegotiatedQuic rng :=
  match quic.outbound.checkPayload payload with
  | .error error => (.error error, quic)
  | .ok () =>
      match currentFrameLimit path.frameSize
          quic.outbound.outboundFrameLimit with
      | .error error => (.error error, quic)
      | .ok limit =>
          match quic.outbound.encodePayload payload limit with
          | (.error error, outbound) => (.error error, { quic with outbound })
          | (.ok envelope, outbound) =>
              match { quic with outbound }.transmit aead path envelope with
              | (.error error, quic) => (.error error, quic)
              | (.ok (), quic) =>
                  match quic.outbound.recordPayload elapsed payload with
                  | (result, outbound) => (result, { quic with outbound })

/-- The frame is encoded first and counted then. -/
def encodeCover (outbound : OutboundPolicy rng) (target limit : Nat) :
    Except ShphError Bytes × OutboundPolicy rng :=
  match outbound.encoder.encodeWithTarget .keepalive [0] target limit with
  | (.error error, encoder) => (.error error, { outbound with encoder })
  | (.ok envelope, encoder) =>
      match outbound.sentUsage.reserve outbound.outboundBudget 0 with
      | .error error => (.error error, { outbound with encoder })
      | .ok sentUsage => (.ok envelope, { outbound with encoder, sentUsage })

def sendCoverIfDue (aead : Aead) (quic : NegotiatedQuic rng)
    (request : CoverRequest) (path : SendPath) :
    Option (Except ShphError Bool) × NegotiatedQuic rng :=
  if quic.outbound.outboundBudget.maxFrames.toNat ≤
      quic.outbound.sentUsage.frames then
    (some (.error outboundBudgetExhausted), quic)
  else
    match currentFrameLimit path.frameSize
        quic.outbound.outboundFrameLimit with
    | .error error => (some (.error error), quic)
    | .ok limit =>
        match quic.outbound.planCover limit shphAeadOverheadBytes request with
        | (none, outbound) => (none, { quic with outbound })
        | (some (.error error), outbound) =>
            (some (.error error), { quic with outbound })
        | (some (.ok none), outbound) =>
            (some (.ok false), { quic with outbound })
        | (some (.ok (some target)), outbound) =>
            match encodeCover outbound target limit with
            | (.error error, outbound) =>
                (some (.error error), { quic with outbound })
            | (.ok envelope, outbound) =>
                match { quic with outbound }.transmit aead path envelope with
                | (.error error, quic) => (some (.error error), quic)
                | (.ok (), quic) => (some (.ok true), quic)

def recvDatagram (arrival : Arrival) : Except ShphError Bytes := do
  let datagram ← arrival.datagram
  ensure (datagram.length ≤ maxTunDatagramBytes)
    (.protocol "received QUIC datagram exceeds 65535 bytes")
  return datagram

/-- The datagram and the frame limit, if the datagram is not too long. -/
def checkArrival (quic : NegotiatedQuic rng) (arrival : Arrival) :
    Except ShphError (Bytes × Nat) := do
  let ciphertext ← recvDatagram arrival
  let limit ← currentFrameLimit arrival.maxDatagramSize
    quic.inbound.inboundFrameLimit
  ensure (ciphertext.length ≤ limit + shphAeadOverheadBytes)
    (.protocol "received datagram exceeds agreed policy")
  return (ciphertext, limit)

/-- The frame in an arrival, with the length of its ciphertext. -/
def openDatagram (aead : Aead) (quic : NegotiatedQuic rng)
    (arrival : Arrival) :
    Except ShphError (PhantomOneFrame × Nat) × NegotiatedQuic rng :=
  match quic.checkArrival arrival with
  | .error error => (.error error, quic)
  | .ok (ciphertext, limit) =>
      match quic.recvCipher.decrypt aead ciphertext with
      | (.error error, recvCipher) => (.error error, { quic with recvCipher })
      | (.ok envelope, recvCipher) =>
          match quic.inbound.decoder.decode envelope limit with
          | (.error error, decoder) =>
              (.error error, { quic with
                recvCipher, inbound := { quic.inbound with decoder } })
          | (.ok frame, decoder) =>
              (.ok (frame, ciphertext.length), { quic with
                recvCipher, inbound := { quic.inbound with decoder } })

/-- No answer means that the loop of `recv` goes on. -/
def acceptCover (quic : NegotiatedQuic rng) (frame : PhantomOneFrame)
    (ciphertextLen : Nat) :
    Option (Except ShphError Bytes) × NegotiatedQuic rng :=
  match quic.inbound.coverPolicy with
  | none =>
      (some (.error (.protocol "cover traffic was not negotiated")), quic)
  | some policy =>
      if frame.payload ≠ [0] then
        (some (.error (.protocol "cover traffic exceeds policy")), quic)
      else
        match quic.receivedCover.reserve policy ciphertextLen with
        | .error error => (some (.error error), quic)
        | .ok receivedCover =>
            match quic.inbound.receivedUsage.reserve
                quic.inbound.inboundBudget 0 with
            | .error error =>
                (some (.error error), { quic with receivedCover })
            | .ok receivedUsage =>
                (none, { quic with
                  receivedCover
                  inbound := { quic.inbound with receivedUsage } })

/-- The checks of a payload frame that precede its reservation. -/
def checkData (quic : NegotiatedQuic rng) (frame : PhantomOneFrame) :
    Except ShphError Unit := do
  let nextPayloadBytes ← okOr
    (checkedAdd quic.inbound.receivedUsage.payloadBytes frame.payload.length)
    (.protocol "received payload byte counter overflow")
  match quic.inbound.coverPolicy with
  | some policy => quic.receivedCover.validatePayload policy nextPayloadBytes
  | none => .ok ()

def acceptData (quic : NegotiatedQuic rng) (frame : PhantomOneFrame) :
    Except ShphError Bytes × NegotiatedQuic rng :=
  match quic.checkData frame with
  | .error error => (.error error, quic)
  | .ok () =>
      match quic.inbound.receivedUsage.reserve quic.inbound.inboundBudget
          frame.payload.length with
      | .error error => (.error error, quic)
      | .ok receivedUsage =>
          (.ok frame.payload,
            { quic with inbound := { quic.inbound with receivedUsage } })

/-- One turn of the loop of `recv`. -/
def acceptDatagram (aead : Aead) (quic : NegotiatedQuic rng)
    (arrival : Arrival) :
    Option (Except ShphError Bytes) × NegotiatedQuic rng :=
  match quic.openDatagram aead arrival with
  | (.error error, quic) => (some (.error error), quic)
  | (.ok (frame, ciphertextLen), quic) =>
      match frame.frameType with
      | .keepalive => quic.acceptCover frame ciphertextLen
      | .control =>
          (some (.error (.protocol "unexpected policy frame type")), quic)
      | .data =>
          match quic.acceptData frame with
          | (result, quic) => (some result, quic)

/-- The loop takes the arrivals one after the other; without an arrival it
waits, and there is no answer. -/
def recvTurns (aead : Aead) : Nat → NegotiatedQuic rng → List Arrival →
    Option (Except ShphError Bytes) × NegotiatedQuic rng × List Arrival
  | 0, quic, arrivals => (some (.error tooManyCoverFrames), quic, arrivals)
  | _ + 1, quic, [] => (none, quic, [])
  | turns + 1, quic, arrival :: arrivals =>
      match quic.acceptDatagram aead arrival with
      | (some result, quic) => (some result, quic, arrivals)
      | (none, quic) => recvTurns aead turns quic arrivals

def recv (aead : Aead) (quic : NegotiatedQuic rng) (arrivals : List Arrival) :
    Option (Except ShphError Bytes) × NegotiatedQuic rng × List Arrival :=
  quic.recvTurns aead maxRecvTurns arrivals

end NegotiatedQuic

end Shph
