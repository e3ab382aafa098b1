/-
The negotiated sessions.  After the policy exchange both ends wrap every
frame in a Phantom One envelope, count frames and payload bytes against the
agreed budgets and may send cover frames; the receiver keeps counters of its
own.  This module has what the TCP and the QUIC session share, and the TCP
session.
-/
import Shph.EnvelopePolicy
import Shph.TcpFrame

namespace Shph

open ByteCodec

structure FrameUsage where
  frames : Nat
  payloadBytes : Nat
deriving Repr, DecidableEq

namespace FrameUsage

def default : FrameUsage := ⟨0, 0⟩

def reserve (usage : FrameUsage) (budget : FrameBudget) (payloadBytes : Nat) :
    Except ShphError FrameUsage := do
  let frames ← okOr (checkedAdd usage.frames 1)
    (.resourceExhausted "frame budget exhausted")
  let payloadBytes ← okOr (checkedAdd usage.payloadBytes payloadBytes)
    (.resourceExhausted "payload budget exhausted")
  ensure (frames ≤ budget.maxFrames.toNat ∧
      payloadBytes ≤ budget.maxPayloadBytes.toNat)
    (.resourceExhausted "negotiated directional frame budget exhausted")
  return { frames, payloadBytes }

end FrameUsage

def coverBudgetAllows (policy : CoverPolicy) (payloadBytes coverBytes : Nat) :
    Bool :=
  let relativeAllowance := payloadBytes * policy.overheadPercent.toNat / 100
  decide (coverBytes ≤ min relativeAllowance policy.maximumBytes.toNat)

def outboundBudgetExhausted : ShphError :=
  .resourceExhausted "negotiated outbound frame budget exhausted"

def tooManyCoverFrames : ShphError :=
  .resourceExhausted "too many consecutive cover frames"

/-- How many frames one `recv` call reads at most. -/
def maxRecvTurns : Nat := 32

/-- The fields of a session that its sends use. -/
structure OutboundPolicy (rng : Rng) where
  encoder : PhantomOneEncoder rng
  outboundFrameLimit : Nat
  outboundBudget : FrameBudget
  sentUsage : FrameUsage
  cover : CoverScheduler

/-- What a call of `send_cover_if_due` brings along, with the time that has
passed since the session began. -/
structure CoverRequest where
  elapsed : Nat
  payloadPending : Bool
  congested : Bool
  cancelled : Bool
deriving Repr, DecidableEq

def CoverRequest.reservation (request : CoverRequest) (bytes : Nat) :
    CoverScheduler.Reservation where
  now := request.elapsed
  bytes := UInt64.ofNat bytes
  payloadPending := request.payloadPending
  congested := request.congested
  cancelled := request.cancelled

namespace OutboundPolicy

variable {rng : Rng}

def checkPayload (outbound : OutboundPolicy rng) (payload : Bytes) :
    Except ShphError Unit :=
  ensure (outbound.sentUsage.frames < outbound.outboundBudget.maxFrames.toNat ∧
      (checkedAdd outbound.sentUsage.payloadBytes payload.length).any
        (· ≤ outbound.outboundBudget.maxPayloadBytes.toNat))
    outboundBudgetExhausted

/-- The part of `send` before the envelope goes to the transport. -/
def encodePayload (outbound : OutboundPolicy rng) (payload : Bytes)
    (limit : Nat) : Except ShphError Bytes × OutboundPolicy rng :=
  match outbound.checkPayload payload with
  | .error error => (.error error, outbound)
  | .ok () =>
      match outbound.encoder.encode .data payload limit with
      | (.error error, encoder) => (.error error, { outbound with encoder })
      | (.ok envelope, encoder) =>
          match outbound.sentUsage.reserve outbound.outboundBudget
              payload.length with
          | .error error => (.error error, { outbound with encoder })
          | .ok sentUsage =>
              (.ok envelope, { outbound with encoder, sentUsage })

def recordPayload (outbound : OutboundPolicy rng) (elapsed : Nat)
    (payload : Bytes) : Except ShphError Unit × OutboundPolicy rng :=
  match outbound.cover.recordPayload elapsed
      (UInt64.ofNat payload.length) with
  | (result, cover) => (result, { outbound with cover })

/-- The part of `send_cover_if_due` up to the reservation.  The answer is the
size of the envelope if one is due, and no answer if the scheduler panics. -/
def planCover (outbound : OutboundPolicy rng) (limit overhead : Nat)
    (request : CoverRequest) :
    Option (Except ShphError (Option Nat)) × OutboundPolicy rng :=
  if outbound.outboundBudget.maxFrames.toNat ≤ outbound.sentUsage.frames then
    (some (.error outboundBudgetExhausted), outbound)
  else
    match outbound.encoder.targetSize 1 limit with
    | (.error error, encoder) =>
        (some (.error error), { outbound with encoder })
    | (.ok target, encoder) =>
        match outbound.cover.reserve
            (request.reservation (target + overhead)) with
        | (answer, cover) =>
            (answer.map fun result => result.map fun due =>
                if due then some target else none,
              { outbound with encoder, cover })

end OutboundPolicy

/-- The fields of a session that its receives use. -/
structure InboundPolicy where
  decoder : PhantomOneDecoder
  inboundFrameLimit : Nat
  inboundBudget : FrameBudget
  receivedUsage : FrameUsage
  coverPolicy : Option CoverPolicy
deriving Repr, DecidableEq

/-- Both halves as the agreement sets them up. -/
def OutboundPolicy.ofAgreement {rng : Rng} (generation : UInt32)
    (agreement : NegotiatedPolicy) (coverPolicy : Option CoverPolicy)
    (seeded : rng.State) : Except ShphError (OutboundPolicy rng) := do
  agreement.config.validate
  let cover ← CoverScheduler.new coverPolicy
  return {
    encoder := .fromValidatedConfig generation 0 agreement.config seeded
    outboundFrameLimit := agreement.outboundFrameLimit
    outboundBudget := agreement.outboundBudget
    sentUsage := .default
    cover }

def InboundPolicy.ofAgreement (generation : UInt32)
    (agreement : NegotiatedPolicy) (coverPolicy : Option CoverPolicy) :
    Except ShphError InboundPolicy := do
  let decoder ← PhantomOneDecoder.withConfigAndWindow generation
    agreement.config phantomOneDefaultReplayWindow
  return {
    decoder
    inboundFrameLimit := agreement.inboundFrameLimit
    inboundBudget := agreement.inboundBudget
    receivedUsage := .default
    coverPolicy }

structure NegotiatedTcp (rng : Rng) where
  session : SecureTcpSession rng
  outbound : OutboundPolicy rng
  inbound : InboundPolicy
  receivedCoverBytes : Nat

namespace NegotiatedTcp

variable {rng : Rng}

/-- The bytes a TCP frame adds to its envelope: length, nonce and tag. -/
def tcpCoverOverhead : Nat := 32

/-- The session without its own envelopes, once the offers agree. -/
def ofAgreement (session : SecureTcpSession rng) (generation : UInt32)
    (agreement : NegotiatedPolicy) (coverPolicy : Option CoverPolicy)
    (seeded : rng.State) : Except ShphError (NegotiatedTcp rng) := do
  let outbound ←
    OutboundPolicy.ofAgreement generation agreement coverPolicy seeded
  let inbound ← InboundPolicy.ofAgreement generation agreement coverPolicy
  return {
    session := { session with
      paddingProfile := none
      paddingPadder := none
      phantomOneEncoder := none
      phantomOneDecoder := none }
    outbound, inbound
    receivedCoverBytes := 0 }

/-- `elapsed` is read after the frame was sent. -/
def send (aead : Aead) (tcp : NegotiatedTcp rng) (payload : Bytes)
    (elapsed : Nat) : Except ShphError Unit × NegotiatedTcp rng :=
  match tcp.outbound.encodePayload payload
      tcp.outbound.outboundFrameLimit with
  | (.error error, outbound) => (.error error, { tcp with outbound })
  | (.ok envelope, outbound) =>
      match tcp.session.sendFrame aead envelope with
      | (.error error, session) =>
          (.error error, { tcp with session, outbound })
      | (.ok (), session) =>
          match outbound.recordPayload elapsed payload with
          | (result, outbound) => (result, { tcp with session, outbound })

/-- The frame is counted first and encoded then. -/
def encodeCover (outbound : OutboundPolicy rng) (target : Nat) :
    Except ShphError Bytes × OutboundPolicy rng :=
  match outbound.sentUsage.reserve outbound.outboundBudget 0 with
  | .error error => (.error error, outbound)
  | .ok sentUsage =>
      match outbound.encoder.encodeWithTarget .keepalive [0] target
          outbound.outboundFrameLimit with
      | (result, encoder) => (result, { outbound with encoder, sentUsage })

def sendCoverIfDue (aead : Aead) (tcp : NegotiatedTcp rng)
    (request : CoverRequest) :
    Option (Except ShphError Bool) × NegotiatedTcp rng :=
  match tcp.outbound.planCover tcp.outbound.outboundFrameLimit
      tcpCoverOverhead request with
  | (none, outbound) => (none, { tcp with outbound })
  | (some (.error error), outbound) =>
      (some (.error error), { tcp with outbound })
  | (some (.ok none), outbound) => (some (.ok false), { tcp with outbound })
  | (some (.ok (some target)), outbound) =>
      match encodeCover outbound target with
      | (.error error, outbound) =>
          (some (.error error), { tcp with outbound })
      | (.ok envelope, outbound) =>
          match tcp.session.sendFrame aead envelope with
          | (.error error, session) =>
              (some (.error error), { tcp with session, outbound })
          | (.ok (), session) =>
              (some (.ok true), { tcp with session, outbound })

/-- A cover frame is counted and then checked; no answer means that the loop
of `recv` goes on. -/
def acceptCover (tcp : NegotiatedTcp rng) (frame : PhantomOneFrame)
    (envelopeLen : Nat) :
    Option (Except ShphError Bytes) × NegotiatedTcp rng :=
  match tcp.inbound.coverPolicy with
  | none =>
      (some (.error (.protocol "cover traffic was not negotiated")), tcp)
  | some policy =>
      match tcp.inbound.receivedUsage.reserve tcp.inbound.inboundBudget 0 with
      | .error error => (some (.error error), tcp)
      | .ok receivedUsage =>
          let tcp := { tcp with
            inbound := { tcp.inbound with receivedUsage }
            receivedCoverBytes := saturatingAdd tcp.receivedCoverBytes
              (envelopeLen + tcpCoverOverhead) }
          if frame.payload ≠ [0] ∨ ¬ coverBudgetAllows policy
              tcp.inbound.receivedUsage.payloadBytes
              tcp.receivedCoverBytes then
            (some (.error (.protocol "cover traffic exceeds policy")), tcp)
          else (none, tcp)

def acceptData (tcp : NegotiatedTcp rng) (frame : PhantomOneFrame) :
    Except ShphError Bytes × NegotiatedTcp rng :=
  match tcp.inbound.receivedUsage.reserve tcp.inbound.inboundBudget
      frame.payload.length with
  | .error error => (.error error, tcp)
  | .ok receivedUsage =>
      (.ok frame.payload,
        { tcp with inbound := { tcp.inbound with receivedUsage } })

/-- One turn of the loop of `recv`, after the frame has arrived. -/
def acceptEnvelope (tcp : NegotiatedTcp rng) (envelope : Bytes) :
    Option (Except ShphError Bytes) × NegotiatedTcp rng :=
  match tcp.inbound.decoder.decode envelope tcp.inbound.inboundFrameLimit with
  | (.error error, decoder) =>
      (some (.error error),
        { tcp with inbound := { tcp.inbound with decoder } })
  | (.ok frame, decoder) =>
      let tcp := { tcp with inbound := { tcp.inbound with decoder } }
      match frame.frameType with
      | .keepalive => tcp.acceptCover frame envelope.length
      | .control =>
          (some (.error (.protocol "unexpected policy frame type")), tcp)
      | .data =>
          match tcp.acceptData frame with
          | (result, tcp) => (some result, tcp)

def recvTurns (aead : Aead) : Nat → NegotiatedTcp rng →
    Except ShphError Bytes × NegotiatedTcp rng
  | 0, tcp => (.error tooManyCoverFrames, tcp)
  | turns + 1, tcp =>
      match tcp.session.recvFrame aead with
      | (.error error, session) => (.error error, { tcp with session })
      | (.ok envelope, session) =>
          match { tcp with session }.acceptEnvelope envelope with
          | (some result, tcp) => (result, tcp)
          | (none, tcp) => recvTurns aead turns tcp

def recv (aead : Aead) (tcp : NegotiatedTcp rng) :
    Except ShphError Bytes × NegotiatedTcp rng :=
  tcp.recvTurns aead maxRecvTurns

end NegotiatedTcp

end Shph
