/-
Sending one payload by a SNAP plan: rounds over the candidates of the plan,
each tried within a time budget until one gets through or fails for good.
What the network, the clock and the random delays do is a parameter.
-/
import Shph.SnapNormalize

namespace Shph.Snap

open ByteCodec

inductive TransportMode where
  | tcp
  | quic
  | quicStandard
  | offlineMesh
  | dataMule
deriving Repr, DecidableEq

inductive CandidateKind where
  | direct
  | bridge
deriving Repr, DecidableEq

structure SnapCandidate where
  kind : CandidateKind
  adapter : String
  transport : String
  targetHost : String
  targetPort : UInt16
  timeoutSec : Option Binary64
  allowedFallback : List String
  hasOperatorServiceContract : Bool
  candidateId : String
deriving Repr, DecidableEq

inductive RoundOrder where
  | stable
  | rotate
  | shuffle
deriving Repr, DecidableEq

/-- The fields of the retry policy that decide about attempts; durations are
in nanoseconds. -/
structure RetryPolicy where
  rounds : UInt32
  roundOrder : RoundOrder
  maxElapsed : Option Nat
deriving Repr, DecidableEq

structure SnapPlan where
  connectTimeoutSec : Binary64
  retryPolicy : RetryPolicy
  attemptLimit : Nat
  candidates : List SnapCandidate
deriving Repr, DecidableEq

def snapMinCandidateBudget : Nat := 200 * 10 ^ 6

def quicPayloadAck : Bytes := textBytes "shph/standards-quic/payload-ack-v1"

def snapModeForAdapter (adapter : String) : Except ShphError TransportMode :=
  if adapter ∈ ["direct-tcp", "bridge-onion-tcp", "bridge-tls", "bridge-ws",
      "shroud-tcp", "edge-relay", "mesh-dtn-local", "mule-usb"] then .ok .tcp
  else if adapter = "quic" then .ok .quic
  else if adapter = "quic-standard" then .ok .quicStandard
  else if adapter = "offline-mesh" then .ok .offlineMesh
  else if adapter = "data-mule" then .ok .dataMule
  else .error (.unsupported ("SNAP adapter '" ++ adapter ++
    "' has no complete SHPH runtime flow yet"))

/-- The transport an adapter runs over. -/
def expectedTransport (adapter : String) : Except ShphError String :=
  if adapter = "direct-tcp" then .ok "tcp"
  else if adapter ∈ ["bridge-onion-tcp", "bridge-tls", "bridge-ws",
      "shroud-tcp", "edge-relay", "mesh-dtn-local", "mule-usb"] then
    .ok "onion-tcp"
  else if adapter ∈ ["quic", "quic-standard", "offline-mesh", "data-mule"] then
    .ok adapter
  else .error (.unsupported ("SNAP adapter '" ++ adapter ++
    "' has no complete SHPH runtime flow yet"))

def validateSnapCandidate (candidate : SnapCandidate) :
    Except ShphError Unit := do
  ensure (¬ (candidate.kind = .bridge ∧
      candidate.adapter ∉ ["mesh-dtn-local", "mule-usb"] ∧
        candidate.hasOperatorServiceContract = false))
    (.config ("SNAP bridge candidate '" ++ candidate.candidateId ++
      "' requires an explicit operator_service_contract"))
  let transport ← expectedTransport candidate.adapter
  ensure (candidate.transport = transport)
    (.unsupported ("SNAP adapter '" ++ candidate.adapter ++
      "' requires transport '" ++ transport ++ "', found '" ++
        candidate.transport ++ "'"))

def validateSnapRuntime (plan : SnapPlan) : Except ShphError Unit :=
  plan.candidates.forM validateSnapCandidate

namespace SnapPlan

def effectiveCandidateTimeoutSec (plan : SnapPlan) (candidate : SnapCandidate) :
    Binary64 :=
  (candidate.timeoutSec.or
    (SnapPath.adapterDefaultTimeoutSec candidate.adapter)).getD
      plan.connectTimeoutSec

def candidateAllowsFallback (source target : SnapCandidate) : Bool :=
  source.allowedFallback.isEmpty ||
    source.allowedFallback.contains target.adapter

/-- The candidates in the order of a round, given the seeded shuffle. -/
def candidatesForRound (plan : SnapPlan)
    (shuffled : Nat → List SnapCandidate → List SnapCandidate)
    (round : Nat) : List SnapCandidate :=
  if plan.candidates.length ≤ 1 then plan.candidates
  else
    match plan.retryPolicy.roundOrder with
    | .stable => plan.candidates
    | .rotate => plan.candidates.rotate (round - 1)
    | .shuffle => shuffled round plan.candidates

end SnapPlan

/-- `Duration::as_secs_f64`, of nanoseconds. -/
def asSecsF64 (duration : Nat) : Binary64 :=
  .addMagnitudes (.ofNat (duration / 10 ^ 9))
    (.ofRatio (duration % 10 ^ 9) (10 ^ 9))

/-- `Duration::from_secs_f64`, of a number that is not negative. -/
def fromSecsF64 (seconds : Binary64) : Nat :=
  Binary64.roundDiv (seconds.ratio.1 * 10 ^ 9) seconds.ratio.2

def snapCandidateAttemptTimeout (plan : SnapPlan) (candidate : SnapCandidate)
    (explicitTimeoutCapSecs : Option UInt64) (remainingBudget : Option Nat) :
    Option Nat :=
  let seconds := plan.effectiveCandidateTimeoutSec candidate
  let seconds := explicitTimeoutCapSecs.elim seconds fun cap =>
    seconds.min (.ofNat (max cap.toNat 1))
  let seconds := remainingBudget.elim seconds fun remaining =>
    seconds.min (asSecsF64 remaining)
  if ¬ seconds.isFinite ∨ seconds.place ≤ 0 then none
  else some (fromSecsF64 (seconds.min (.ofNat 300)))

def snapErrorIsRetryable : ShphError → Bool
  | .io _ => true
  | .timeout => true
  | .transport _ => true
  | .connectionClosed => true
  | _ => false

def snapAttemptErrorIsRetryable (error : ShphError)
    (payloadMayHaveBeenDelivered : Bool) : Bool :=
  !payloadMayHaveBeenDelivered && snapErrorIsRetryable error

/-- How far an attempt has come with the payload. -/
structure Sending where
  payloadMayHaveBeenDelivered : Bool
  sendsBegun : Nat
deriving Repr, DecidableEq

/-- Outcomes of the calls an attempt makes, whether or not it makes them.  An
acknowledgement that is missing did not come in time. -/
structure AttemptScript (H : Type) where
  openEndpoint : Except ShphError Unit
  connect : Except ShphError H
  enforcePeerPolicy : Except ShphError Unit
  activate : Except ShphError Unit
  establish : Except ShphError Unit
  negotiatePhantomOne : Except ShphError Unit
  send : Except ShphError Unit
  acknowledgement : Option (Except ShphError Bytes)

/-- The part of an attempt that keeps track of the payload. -/
abbrev AttemptM := ExceptT ShphError (StateM Sending)

/-- A call with a known outcome. -/
def called {A : Type} (outcome : Except ShphError A) : AttemptM A :=
  ExceptT.mk (pure outcome)

def markMayHaveBeenDelivered : AttemptM Unit :=
  modify fun sending => { sending with payloadMayHaveBeenDelivered := true }

/-- The call that hands the payload to the network. -/
def sendPayload (outcome : Except ShphError Unit) : AttemptM Unit := do
  modify fun sending => { sending with sendsBegun := sending.sendsBegun + 1 }
  called outcome

def awaitAcknowledgement (reply : Option (Except ShphError Bytes)) :
    AttemptM Unit := do
  let result ← called (okOr reply .timeout)
  let ack ← called result
  called (ensure (ack = quicPayloadAck)
    (.protocol "unexpected QUIC one-shot payload acknowledgement"))

/-- The options of a send that change the path of an attempt. -/
structure SendOptions where
  negotiateEnvelopePolicy : Bool
  phantomOneProfile : Bool
deriving Repr, DecidableEq

section Attempt

variable {H : Type} (options : SendOptions) (script : AttemptScript H)

def quicStandardFlow : AttemptM H := do
  let state ← called script.connect
  called script.enforcePeerPolicy
  if options.negotiateEnvelopePolicy then
    called script.establish
    markMayHaveBeenDelivered
    sendPayload script.send
    awaitAcknowledgement script.acknowledgement
  else
    if options.phantomOneProfile then
      called script.negotiatePhantomOne
      markMayHaveBeenDelivered
      sendPayload script.send
    else
      markMayHaveBeenDelivered
      sendPayload script.send
    awaitAcknowledgement script.acknowledgement
  return state

def sessionFlow : AttemptM H := do
  let state ← called script.connect
  called script.enforcePeerPolicy
  called script.activate
  if options.negotiateEnvelopePolicy then
    called script.establish
    markMayHaveBeenDelivered
    sendPayload script.send
  else
    markMayHaveBeenDelivered
    sendPayload script.send
  return state

/-- An attempt over the given mode, from its start. -/
def runAttempt (mode : TransportMode) : Except ShphError H × Sending :=
  if mode = .quicStandard then
    match script.openEndpoint with
    | .error error => (.error error, ⟨false, 0⟩)
    | .ok _ => (quicStandardFlow options script).run ⟨false, 0⟩
  else (sessionFlow options script).run ⟨false, 0⟩

end Attempt

/-- Everything outside the loop: readings of the elapsed time, the delays
before the rounds, the shuffles, the timeout asked for, the addresses of the
endpoints, and the outcomes of the attempts. -/
structure Surroundings (H : Type) where
  elapsed : Nat → Nat
  delay : Nat → Nat
  shuffled : Nat → List SnapCandidate → List SnapCandidate
  explicitTimeoutCapSecs : Option UInt64
  endpointAddress : SnapCandidate → Except ShphError Unit
  auditContext : Except ShphError Unit
  script : Nat → AttemptScript H

/-- An attempt that was made: the elapsed time read before it, and its end. -/
structure Attempted where
  round : Nat
  candidate : SnapCandidate
  elapsed : Nat
  error : Option ShphError
  sending : Sending
deriving Repr, DecidableEq

structure Progress where
  attempt : Nat
  lastError : Option ShphError
  readings : Nat
  history : List Attempted
deriving Repr, DecidableEq

def errorOf {H : Type} : Except ShphError H → Option ShphError
  | .ok _ => none
  | .error error => some error

namespace Progress

/-- One more reading of the clock. -/
def read (progress : Progress) : Progress :=
  { progress with readings := progress.readings + 1 }

def record (progress : Progress) (attempted : Attempted) : Progress :=
  { progress with
    attempt := progress.attempt + 1
    history := progress.history ++ [attempted] }

def failed (progress : Progress) (error : ShphError) : Progress :=
  { progress with lastError := some error }

end Progress

section Loop

variable {H : Type} (plan : SnapPlan) (options : SendOptions)
  (world : Surroundings H)

/-- The result of an attempt with a candidate; an endpoint that cannot be
parsed ends it before it began. -/
def attemptResult (candidate : SnapCandidate) (mode : TransportMode)
    (attempt : Nat) : Except ShphError H × Sending :=
  match mode, world.endpointAddress candidate with
  | .quicStandard, .error error => (.error error, ⟨false, 0⟩)
  | _, _ => runAttempt options (world.script attempt) mode

/-- The candidates of a round.  A result ends the whole send; without one the
next round follows. -/
def runCandidates (round : Nat) : Option SnapCandidate →
    List SnapCandidate → Progress → Option (Except ShphError H) × Progress
  | _, [], progress => (none, progress)
  | previousFailed, candidate :: rest, progress =>
      if plan.attemptLimit ≤ progress.attempt then (none, progress)
      else if previousFailed.any fun previous =>
          !SnapPlan.candidateAllowsFallback previous candidate then
        runCandidates round previousFailed rest progress
      else
        let elapsed := world.elapsed progress.readings
        let remaining := plan.retryPolicy.maxElapsed.map (· - elapsed)
        let progress := progress.read
        if remaining.any (· < snapMinCandidateBudget) then (none, progress)
        else
          match snapCandidateAttemptTimeout plan candidate
              world.explicitTimeoutCapSecs remaining with
          | none => (none, progress)
          | some timeout =>
              if timeout < snapMinCandidateBudget then (none, progress)
              else
                match snapModeForAdapter candidate.adapter with
                | .error error => (some (.error error), progress)
                | .ok mode =>
                    let outcome := attemptResult options world candidate mode
                      progress.attempt
                    let progress := progress.record ⟨round, candidate,
                      elapsed, errorOf outcome.1, outcome.2⟩
                    match outcome.1 with
                    | .ok state => (some (.ok state), progress)
                    | .error error =>
                        if snapAttemptErrorIsRetryable error
                            outcome.2.payloadMayHaveBeenDelivered then
                          let progress := progress.failed error
                          if plan.attemptLimit ≤ progress.attempt ∨
                              plan.retryPolicy.maxElapsed.any
                                (· ≤ world.elapsed progress.readings) then
                            (none, progress.read)
                          else
                            runCandidates round (some candidate) rest
                              progress.read
                        else (some (.error error), progress)

/-- The rounds that are left, from the given one on. -/
def runRounds : Nat → Nat → Progress →
    Option (Except ShphError H) × Progress
  | 0, _, progress => (none, progress)
  | left + 1, round, progress =>
      if 1 < round ∧ plan.retryPolicy.maxElapsed.any
          (· ≤ world.elapsed progress.readings + world.delay round) then
        (none, progress.read)
      else
        match runCandidates plan options world round none
            (plan.candidatesForRound world.shuffled round) progress.read with
        | (some result, progress) => (some result, progress)
        | (none, progress) => runRounds left (round + 1) progress

/-- The result of a send, with the attempts that were made. -/
def sendSnapPayloadWithPlan : Except ShphError H × List Attempted :=
  match validateSnapRuntime plan, world.auditContext with
  | .error error, _ => (.error error, [])
  | .ok _, .error error => (.error error, [])
  | .ok _, .ok _ =>
      if plan.candidates.any fun candidate =>
          candidate.adapter == "quic-standard" then
        match runRounds plan options world plan.retryPolicy.rounds.toNat 1
            ⟨0, none, 0, []⟩ with
        | (some result, progress) => (result, progress.history)
        | (none, progress) =>
            (.error (progress.lastError.getD .timeout), progress.history)
      else
        (.error (.unsupported
          "SNAP planned one-shot runtime requires a quic-standard candidate"),
          [])

end Loop

end Shph.Snap
