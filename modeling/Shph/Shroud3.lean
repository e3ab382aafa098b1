/-
The adaptive datagram shaper.  Every payload is an observation that goes into
a window of recent ones; the window, the current burst and the age of the
queue classify the workload, and the mode follows the classification with
confirmations and a minimum dwell.  The mode's profile gives the size and the
delay of the datagram.
-/
import Shph.Library.StatefulRun
import Shph.ProfileTier
import Shph.Word

namespace Shph.Shroud3

open ByteCodec

def shroud3Magic : Bytes := [0x53, 0x33]

def shroud3Version : UInt8 := 1

def shroud3HeaderBytes : Nat := 7

def maxShroud3DatagramBytes : Nat := 2 ^ 16 - 1

def maxShroud3PaddingBytes : Nat := 4096

def maxShroud3ProfileBins : Nat := 64

/-- A duration is a number of nanoseconds. -/
def fromMillis (ms : Nat) : Nat := ms * 10 ^ 6

def fromMicros (us : Nat) : Nat := us * 10 ^ 3

def maxShroud3Delay : Nat := fromMillis 100

def workloadWindowCapacity : Nat := 16

def maxMinimumDwell : Nat := fromMillis 60000

def maxBurstGap : Nat := fromMillis 1000

def maxSustainedGap : Nat := fromMillis 1000

def maxQueueAge : Nat := fromMillis 1000

def maxBurstLength : Nat := 1024

def maxTransitionConfirmations : Nat := 16

inductive Shroud3WorkloadMode where
  | interactive
  | bursty
  | sustained
  | queuePressure
deriving Repr, DecidableEq

inductive Shroud3TransitionReason where
  | windowTrend
  | burstDensity
  | queuePressure
deriving Repr, DecidableEq

structure Shroud3Observation where
  observedAt : Nat
  queueAge : Nat
deriving Repr, DecidableEq

structure Shroud3JointBin where
  extraPaddingQuanta : UInt16
  shapingDelay : Nat
  weight : UInt32
deriving Repr, DecidableEq

structure Shroud3JointProfile where
  sizeQuantum : Nat
  bins : List Shroud3JointBin
deriving Repr, DecidableEq

def isPowerOfTwo (number : Nat) : Bool :=
  number != 0 && number &&& (number - 1) == 0

namespace Shroud3JointProfile

/-- One bin on top of the weight so far and whether a choice without padding
and delay was seen. -/
def validateBin (maxDelay : Nat) (seen : Nat × Bool) (bin : Shroud3JointBin) :
    Except ShphError (Nat × Bool) := do
  ensure (bin.weight ≠ 0) (.config "Shroud 3 profile weights must be nonzero")
  ensure (bin.shapingDelay ≤ maxDelay)
    (.config "Shroud 3 profile delay exceeds its configured maximum")
  let totalWeight ← okOr (checkedAdd seen.1 bin.weight.toNat)
    (.config "Shroud 3 profile weight overflow")
  return (totalWeight,
    seen.2 || (bin.extraPaddingQuanta == 0 && bin.shapingDelay == 0))

def validate (profile : Shroud3JointProfile) (maxDelay : Nat) :
    Except ShphError Unit := do
  ensure ((1 ≤ profile.sizeQuantum ∧ profile.sizeQuantum ≤ 256) ∧
      isPowerOfTwo profile.sizeQuantum)
    (.config "Shroud 3 size quantum must be a power of two from 1 through 256")
  ensure (profile.bins ≠ [] ∧ profile.bins.length ≤ maxShroud3ProfileBins)
    (.config "Shroud 3 profile must contain 1 through 64 bins")
  let (totalWeight, hasZeroFallback) ←
    profile.bins.foldlM (validateBin maxDelay) (0, false)
  ensure (totalWeight ≠ 0 ∧ hasZeroFallback)
    (.config "each Shroud 3 profile needs a zero-padding, zero-delay choice")

end Shroud3JointProfile

structure Shroud3Profiles where
  interactive : Shroud3JointProfile
  bursty : Shroud3JointProfile
  sustained : Shroud3JointProfile
  queuePressure : Shroud3JointProfile
deriving Repr, DecidableEq

/-- Bins from their padding, their delay in microseconds and their weight. -/
def microsProfile (sizeQuantum : Nat) (bins : List (UInt16 × Nat × UInt32)) :
    Shroud3JointProfile :=
  ⟨sizeQuantum, bins.map fun bin => ⟨bin.1, fromMicros bin.2.1, bin.2.2⟩⟩

def Shroud3Profiles.default : Shroud3Profiles where
  interactive :=
    microsProfile 16 [(0, 0, 50), (0, 250, 20), (1, 500, 20), (4, 1000, 10)]
  bursty :=
    microsProfile 32 [(0, 0, 35), (1, 100, 20), (2, 250, 30), (4, 500, 15)]
  sustained :=
    microsProfile 64 [(0, 0, 20), (1, 100, 20), (2, 250, 30), (4, 500, 30)]
  queuePressure := microsProfile 16 [(0, 0, 90), (1, 0, 10)]

structure Shroud3Config where
  minimumDwell : Nat
  burstGap : Nat
  sustainedActivityGap : Nat
  burstLengthThreshold : Nat
  burstDensityThresholdPercent : Nat
  queueAgeLimit : Nat
  sustainedPayloadThreshold : Nat
  transitionConfirmations : Nat
  maxPaddingBytes : Nat
  maxShapingDelay : Nat
  profiles : Shroud3Profiles
deriving Repr, DecidableEq

namespace Shroud3Config

def default : Shroud3Config where
  minimumDwell := fromMillis 100
  burstGap := fromMillis 5
  sustainedActivityGap := fromMillis 250
  burstLengthThreshold := 4
  burstDensityThresholdPercent := 60
  queueAgeLimit := fromMillis 10
  sustainedPayloadThreshold := 1024
  transitionConfirmations := 2
  maxPaddingBytes := 1024
  maxShapingDelay := fromMillis 10
  profiles := .default

def validate (config : Shroud3Config) : Except ShphError Unit := do
  ensure (config.minimumDwell ≤ maxMinimumDwell ∧ config.burstGap ≠ 0 ∧
      config.burstGap ≤ maxBurstGap ∧ config.sustainedActivityGap ≠ 0 ∧
      config.sustainedActivityGap ≤ maxSustainedGap ∧
      (2 ≤ config.burstLengthThreshold ∧
        config.burstLengthThreshold ≤ maxBurstLength) ∧
      (1 ≤ config.burstDensityThresholdPercent ∧
        config.burstDensityThresholdPercent ≤ 100) ∧
      config.queueAgeLimit ≠ 0 ∧ config.queueAgeLimit ≤ maxQueueAge ∧
      config.sustainedPayloadThreshold ≠ 0 ∧
      config.sustainedPayloadThreshold ≤ 2 ^ 16 - 1 ∧
      (1 ≤ config.transitionConfirmations ∧
        config.transitionConfirmations ≤ maxTransitionConfirmations) ∧
      config.maxPaddingBytes ≤ maxShroud3PaddingBytes ∧
      config.maxShapingDelay ≤ maxShroud3Delay)
    (.config "invalid Shroud 3 workload or resource bounds")
  config.profiles.interactive.validate config.maxShapingDelay
  config.profiles.bursty.validate config.maxShapingDelay
  config.profiles.sustained.validate config.maxShapingDelay
  config.profiles.queuePressure.validate config.maxShapingDelay

def profile (config : Shroud3Config) :
    Shroud3WorkloadMode → Shroud3JointProfile
  | .interactive => config.profiles.interactive
  | .bursty => config.profiles.bursty
  | .sustained => config.profiles.sustained
  | .queuePressure => config.profiles.queuePressure

theorem default_validate : default.validate = .ok () := by decide

end Shroud3Config

structure Shroud3Metrics where
  observations : Nat
  switches : Nat
  burstTransitions : Nat
  windowTrendTransitions : Nat
  queuePressureTransitions : Nat
  transitionDeferred : Nat
  profileFallbackFrames : Nat
  burstLength : Nat
  payloadBytes : Nat
  wireBytes : Nat
  paddingBytes : Nat
  totalShapingDelayNanos : Nat
  minWireBytes : Option Nat
  maxWireBytes : Option Nat
  lastReason : Option Shroud3TransitionReason
deriving Repr, DecidableEq

def Shroud3Metrics.default : Shroud3Metrics :=
  ⟨0, 0, 0, 0, 0, 0, 0, 0, 0, 0, 0, 0, none, none, none⟩

structure WindowSample where
  payloadBytes : Nat
  interArrival : Option Nat
deriving Repr, DecidableEq

structure TransitionPlan where
  mode : Shroud3WorkloadMode
  pendingMode : Option Shroud3WorkloadMode
  pendingCount : Nat
  reason : Option Shroud3TransitionReason
  deferred : Bool
deriving Repr, DecidableEq

structure AdaptiveShroud3 (rng : Rng) where
  config : Shroud3Config
  rngState : rng.State
  mode : Shroud3WorkloadMode
  history : Vector WindowSample workloadWindowCapacity
  historyLen : Nat
  historyNext : Nat
  pendingMode : Option Shroud3WorkloadMode
  pendingCount : Nat
  lastObservation : Option Nat
  lastTransition : Option Nat
  burstLength : Nat
  pendingDelay : Nat
  metrics : Shroud3Metrics

def transitionReason : Shroud3WorkloadMode → Shroud3TransitionReason
  | .bursty => .burstDensity
  | .queuePressure => .queuePressure
  | .interactive | .sustained => .windowTrend

def alignUp (value quantum : Nat) : Nat :=
  let remainder := value % quantum
  if remainder = 0 then value
  else saturatingAdd value (quantum - remainder)

def shapeTarget (base quantum : Nat) (bin : Shroud3JointBin) : Option Nat := do
  let extra ← checkedMul bin.extraPaddingQuanta.toNat quantum
  checkedAdd base extra

def burstDensityPercent (history : List WindowSample) (burstGap : Nat) : Nat :=
  let intervals := history.filterMap WindowSample.interArrival
  let closeIntervals := intervals.filter (· ≤ burstGap)
  if intervals.length < 3 then 0
  else closeIntervals.length * 100 / intervals.length

/-- The element in the middle of the sorted list, the upper one of two. -/
def median (values : List Nat) : Option Nat :=
  (values.mergeSort (· ≤ ·))[values.length / 2]?

def medianPayloadBytes (history : List WindowSample) : Nat :=
  (median (history.map WindowSample.payloadBytes)).getD 0

def medianInterArrival (history : List WindowSample) : Option Nat :=
  median (history.filterMap WindowSample.interArrival)

def validatePayloadForPath (payloadLen pathMtu : Nat) :
    Except ShphError Nat := do
  ensure (shroud3HeaderBytes ≤ pathMtu ∧ pathMtu ≤ maxShroud3DatagramBytes)
    (.protocol "Shroud 3 path MTU is outside its supported range")
  ensure (payloadLen ≠ 0) (.protocol "Shroud 3 payload must not be empty")
  ensure (payloadLen ≤ 2 ^ 16 - 1)
    (.protocol "Shroud 3 payload exceeds its length field")
  let minimum ← okOr (checkedAdd payloadLen shroud3HeaderBytes)
    (.protocol "Shroud 3 payload length overflow")
  ensure (minimum ≤ pathMtu)
    (.protocol "Shroud 3 payload exceeds the negotiated datagram limit")
  return minimum

def validateDatagramBounds (datagramLen pathMtu : Nat) :
    Except ShphError Unit :=
  ensure (shroud3HeaderBytes ≤ pathMtu ∧ pathMtu ≤ maxShroud3DatagramBytes ∧
      shroud3HeaderBytes ≤ datagramLen ∧ datagramLen ≤ pathMtu)
    (.protocol "Shroud 3 datagram length is outside the negotiated limit")

/-- The payload that replaces the envelope in its buffer. -/
def decodeInPlace (datagram : Bytes) (pathMtu : Nat) :
    Except ShphError Bytes := do
  validateDatagramBounds datagram.length pathMtu
  ensure (slice datagram 0 2 = shroud3Magic ∧
      slice datagram 2 1 = [shroud3Version])
    (.protocol "Shroud 3 envelope version mismatch")
  let payloadLen := ofBigEndian (slice datagram 3 2)
  let declaredSize := ofBigEndian (slice datagram 5 2)
  ensure (declaredSize = datagram.length)
    (.protocol "Shroud 3 datagram size does not match its envelope")
  let payloadEnd := shroud3HeaderBytes + payloadLen
  ensure (payloadLen ≠ 0 ∧ payloadEnd ≤ datagram.length ∧
      datagram.length - payloadEnd ≤ maxShroud3PaddingBytes)
    (.protocol "Shroud 3 payload or padding length is invalid")
  return slice datagram shroud3HeaderBytes payloadLen

/-- The size and delay of a datagram, and whether the profile had no choice
that fits. -/
structure JointShape where
  targetSize : Nat
  shapingDelay : Nat
  usedProfileFallback : Bool
deriving Repr, DecidableEq

/-- The choices of a profile that fit, each with the size it leads to. -/
def fittingBins (profile : Shroud3JointProfile) (minimum maxWireSize : Nat) :
    List (Shroud3JointBin × Nat) :=
  let base := alignUp minimum profile.sizeQuantum
  profile.bins.filterMap fun bin =>
    match shapeTarget base profile.sizeQuantum bin with
    | some target =>
        if minimum ≤ target ∧ target ≤ maxWireSize then some (bin, target)
        else none
    | none => none

/-- Walk through the weights until the sample is used up. -/
def pickBin : List (Shroud3JointBin × Nat) → Nat → Option JointShape
  | [], _ => none
  | (bin, target) :: rest, sample =>
      if sample < bin.weight.toNat then
        some ⟨target, bin.shapingDelay, false⟩
      else pickBin rest (sample - bin.weight.toNat)

namespace AdaptiveShroud3

variable {rng : Rng}

def withRng (rng : Rng) (config : Shroud3Config) (rngState : rng.State) :
    Except ShphError (AdaptiveShroud3 rng) := do
  config.validate
  return {
    config, rngState
    mode := .interactive
    history := Vector.replicate _ ⟨0, none⟩
    historyLen := 0
    historyNext := 0
    pendingMode := none
    pendingCount := 0
    lastObservation := none
    lastTransition := none
    burstLength := 0
    pendingDelay := 0
    metrics := .default }

def classifyWorkload (engine : AdaptiveShroud3 rng)
    (history : List WindowSample) (burstLength queueAge : Nat) :
    Shroud3WorkloadMode :=
  if engine.config.queueAgeLimit ≤ queueAge then .queuePressure
  else if engine.config.burstLengthThreshold ≤ burstLength ∧
      engine.config.burstDensityThresholdPercent ≤
        burstDensityPercent history engine.config.burstGap then .bursty
  else if 4 ≤ history.length ∧
      engine.config.sustainedPayloadThreshold ≤ medianPayloadBytes history ∧
      (medianInterArrival history).any
        (· ≤ engine.config.sustainedActivityGap) then .sustained
  else .interactive

/-- Queue pressure takes effect at once; any other mode has to be confirmed
and to wait for the dwell of the present one. -/
def planTransition (engine : AdaptiveShroud3 rng)
    (observedMode : Shroud3WorkloadMode) (observedAt : Nat) : TransitionPlan :=
  if observedMode = engine.mode then ⟨engine.mode, none, 0, none, false⟩
  else if observedMode = .queuePressure then
    ⟨observedMode, none, 0, some .queuePressure, false⟩
  else
    let pendingCount :=
      if engine.pendingMode = some observedMode then
        min (engine.pendingCount + 1) 255
      else 1
    let dwellElapsed := engine.lastTransition.all fun last =>
      engine.config.minimumDwell ≤ observedAt - last
    if engine.config.transitionConfirmations ≤ pendingCount ∧
        dwellElapsed then
      ⟨observedMode, none, 0, some (transitionReason observedMode), false⟩
    else ⟨engine.mode, some observedMode, pendingCount, none, true⟩

def selectJointShape (engine : AdaptiveShroud3 rng)
    (mode : Shroud3WorkloadMode) (minimum pathMtu : Nat)
    (rngState : rng.State) : JointShape × rng.State :=
  let maxWireSize :=
    min pathMtu (saturatingAdd minimum engine.config.maxPaddingBytes)
  let fitting := fittingBins (engine.config.profile mode) minimum maxWireSize
  let totalWeight := fitting.foldl
    (fun total choice => saturatingAdd total choice.1.weight.toNat) 0
  if totalWeight = 0 then (⟨minimum, 0, true⟩, rngState)
  else
    let (sample, rngState) := rng.genRange rngState 0 (totalWeight - 1)
    ((pickBin fitting sample).getD ⟨minimum, 0, true⟩, rngState)

def recordReason (metrics : Shroud3Metrics)
    (reason : Shroud3TransitionReason) : Shroud3Metrics :=
  let metrics := { metrics with
    switches := saturatingAdd metrics.switches 1
    lastReason := some reason }
  match reason with
  | .windowTrend => { metrics with
      windowTrendTransitions :=
        saturatingAdd metrics.windowTrendTransitions 1 }
  | .burstDensity => { metrics with
      burstTransitions := saturatingAdd metrics.burstTransitions 1 }
  | .queuePressure => { metrics with
      queuePressureTransitions :=
        saturatingAdd metrics.queuePressureTransitions 1 }

/-- `record` on the metrics; `burstLength` is the engine's. -/
def record (metrics : Shroud3Metrics) (burstLength payloadBytes wireBytes : Nat)
    (shapingDelay : Nat) (transition : TransitionPlan)
    (usedProfileFallback : Bool) : Shroud3Metrics :=
  let metrics := { metrics with
    observations := saturatingAdd metrics.observations 1
    payloadBytes := saturatingAdd metrics.payloadBytes payloadBytes
    wireBytes := saturatingAdd metrics.wireBytes wireBytes
    paddingBytes := saturatingAdd metrics.paddingBytes
      (wireBytes - payloadBytes - shroud3HeaderBytes)
    totalShapingDelayNanos :=
      min (metrics.totalShapingDelayNanos + shapingDelay) (2 ^ 128 - 1)
    minWireBytes := some (metrics.minWireBytes.elim wireBytes (min · wireBytes))
    maxWireBytes := some (metrics.maxWireBytes.elim wireBytes (max · wireBytes))
    burstLength := burstLength
    transitionDeferred := saturatingAdd metrics.transitionDeferred
      (if transition.deferred then 1 else 0)
    profileFallbackFrames :=
      if usedProfileFallback then saturatingAdd metrics.profileFallbackFrames 1
      else metrics.profileFallbackFrames }
  match transition.reason with
  | some reason => recordReason metrics reason
  | none => metrics

/-- The sample an observation adds to the window. -/
def windowSample (engine : AdaptiveShroud3 rng) (payloadLen observedAt : Nat) :
    WindowSample :=
  ⟨payloadLen, engine.lastObservation.map (observedAt - ·)⟩

def burstLengthAfter (engine : AdaptiveShroud3 rng)
    (interArrival : Option Nat) : Nat :=
  if interArrival.any (· ≤ engine.config.burstGap) then
    min (engine.burstLength + 1) maxBurstLength
  else 1

def historyAfter (engine : AdaptiveShroud3 rng) (sample : WindowSample) :
    Vector WindowSample workloadWindowCapacity :=
  engine.history.setIfInBounds engine.historyNext sample

def historyLenAfter (engine : AdaptiveShroud3 rng) : Nat :=
  min (engine.historyLen + 1) workloadWindowCapacity

/-- The slice of the history that is classified. -/
def classifiedWindow (engine : AdaptiveShroud3 rng) (sample : WindowSample) :
    List WindowSample :=
  (engine.historyAfter sample).toList.take engine.historyLenAfter

def observedMode (engine : AdaptiveShroud3 rng) (sample : WindowSample)
    (queueAge : Nat) : Shroud3WorkloadMode :=
  engine.classifyWorkload (engine.classifiedWindow sample)
    (engine.burstLengthAfter sample.interArrival) queueAge

def datagram (payload : Bytes) (targetSize : Nat) (padding : Bytes) : Bytes :=
  shroud3Magic ++ [shroud3Version] ++ bigEndian 2 payload.length ++
    bigEndian 2 targetSize ++ payload ++ padding

/-- The generator is advanced on a copy; every field changes only after the
last step that can fail. -/
def encode (engine : AdaptiveShroud3 rng) (payload : Bytes) (pathMtu : Nat)
    (observation : Shroud3Observation) :
    Except ShphError Bytes × AdaptiveShroud3 rng :=
  match validatePayloadForPath payload.length pathMtu with
  | .error error => (.error error, engine)
  | .ok minimum =>
      if engine.lastObservation.any (observation.observedAt < ·) then
        (.error (.invalidArgument "nonmonotonic Shroud 3 observation"), engine)
      else
        let sample :=
          engine.windowSample payload.length observation.observedAt
        let burstLength := engine.burstLengthAfter sample.interArrival
        let observedMode := engine.observedMode sample observation.queueAge
        let transition :=
          engine.planTransition observedMode observation.observedAt
        let (shape, rngState) := engine.selectJointShape transition.mode
          minimum pathMtu engine.rngState
        if 2 ^ 16 ≤ payload.length then
          (.error (.protocol "Shroud 3 payload length overflow"), engine)
        else if 2 ^ 16 ≤ shape.targetSize then
          (.error (.protocol "Shroud 3 datagram length overflow"), engine)
        else
          match rng.tryFillBytes rngState (shape.targetSize - minimum) with
          | (none, _) =>
              (.error (.crypto "Shroud 3 padding randomness failed"), engine)
          | (some padding, rngState) =>
              (.ok (datagram payload shape.targetSize padding), { engine with
                rngState
                history := engine.historyAfter sample
                historyLen := engine.historyLenAfter
                historyNext :=
                  (engine.historyNext + 1) % workloadWindowCapacity
                mode := transition.mode
                pendingMode := transition.pendingMode
                pendingCount := transition.pendingCount
                lastObservation := some observation.observedAt
                lastTransition :=
                  if transition.reason.isSome then some observation.observedAt
                  else engine.lastTransition
                burstLength
                pendingDelay := shape.shapingDelay
                metrics := record engine.metrics burstLength payload.length
                  shape.targetSize shape.shapingDelay transition
                  shape.usedProfileFallback })

end AdaptiveShroud3

end Shph.Shroud3
