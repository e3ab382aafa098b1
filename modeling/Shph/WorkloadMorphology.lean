/-
The workload-driven morphology engine.  Every payload is an observation that
moves an average of the payload sizes; the average, the current burst and the
age of the queue choose the profile of the next datagram, and a change of
profile has to wait for the minimum dwell.
-/
import Shph.MorphologyBatcher
import Shph.ProfileTier

namespace Shph.Shroud2

open ByteCodec StatefulRun

def morphologyMagic : Bytes := [0x53, 0x32]

def morphologyVersion : UInt8 := 1

def maxProfileSizeClasses : Nat := 8

namespace MorphologyProfile

def sizeClasses : MorphologyProfile → List Nat
  | lowLatency => [128, 256, 512, 1024]
  | webBrowsingLab => [384, 768, 1024, 1280, 1536]
  | videoStreamingLab => [1024, 1280, 1536, 2048, 4096]
  | videoStreamingLargePayloadLab => [1408, 1440, 1465]
  | videoStreamingBalancedPayloadLab => [1415, 1430, 1445, 1460, 1472]
  | bulkLab => [1280, 2048, 4096, 8192, 16384]
  | tunedLowLatency => [64, 96, 128, 192, 256, 512, 768]
  | tunedWebBrowsingLab => [256, 384, 512, 768, 1024, 1280, 1360]
  | tunedVideoStreamingLab => [1024, 1152, 1280, 1360, 1408, 1440, 1472]
  | tunedBulkLab => [1024, 1152, 1280, 1360, 1408, 1440, 1472]

def sizeClassWeights : MorphologyProfile → Option (List Nat)
  | lowLatency => some [65, 25, 8, 2]
  | webBrowsingLab => some [45, 30, 15, 8, 2]
  | videoStreamingLab => some [45, 30, 15, 8, 2]
  | videoStreamingLargePayloadLab => some [60, 30, 10]
  | videoStreamingBalancedPayloadLab => some [35, 30, 20, 12, 3]
  | bulkLab => none
  | tunedLowLatency => some [65, 20, 6, 4, 3, 1, 1]
  | tunedWebBrowsingLab => some [35, 25, 18, 12, 7, 2, 1]
  | tunedVideoStreamingLab => some [26, 24, 20, 14, 8, 5, 3]
  | tunedBulkLab => some [5, 10, 15, 20, 20, 15, 15]

end MorphologyProfile

def validatePayloadForPath (payloadLen pathMtu : Nat) :
    Except ShphError Nat := do
  validatePathMtu pathMtu
  ensure (payloadLen ≠ 0) (.protocol "morphology payload must not be empty")
  ensure (payloadLen ≤ 2 ^ 16 - 1)
    (.protocol "morphology payload exceeds the length field")
  let minimum ← okOr (checkedAdd payloadLen morphologyHeaderBytes)
    (.protocol "morphology payload length overflow")
  ensure (minimum ≤ pathMtu)
    (.protocol "morphology payload exceeds negotiated datagram limit")
  return minimum

structure MorphologyMetrics where
  frames : Nat
  payloadBytes : Nat
  wireBytes : Nat
  paddingBytes : Nat
  minWireBytes : Option Nat
  maxWireBytes : Option Nat
deriving Repr, DecidableEq

namespace MorphologyMetrics

def default : MorphologyMetrics := ⟨0, 0, 0, 0, none, none⟩

def record (metrics : MorphologyMetrics) (payloadBytes wireBytes : Nat) :
    MorphologyMetrics where
  frames := saturatingAdd metrics.frames 1
  payloadBytes := saturatingAdd metrics.payloadBytes payloadBytes
  wireBytes := saturatingAdd metrics.wireBytes wireBytes
  paddingBytes := saturatingAdd metrics.paddingBytes (wireBytes - payloadBytes)
  minWireBytes := some (metrics.minWireBytes.elim wireBytes (min · wireBytes))
  maxWireBytes := some (metrics.maxWireBytes.elim wireBytes (max · wireBytes))

end MorphologyMetrics

/-- An engine that draws its sizes from the classes of its profile. -/
structure MorphologyEngine (rng : Rng) where
  profile : MorphologyProfile
  rngState : rng.State
  metrics : MorphologyMetrics
  metricsEnabled : Bool

/-- The classes that fit, with their weights.  Classes that the path cuts to
the same size are one class. -/
def eligibleClasses (minimum pathMtu : Nat) :
    List (Nat × Nat) → List (Nat × Nat) → List (Nat × Nat)
  | [], eligible => eligible
  | (size, weight) :: rest, eligible =>
      let effective := min size pathMtu
      if weight = 0 ∨ effective < minimum then
        eligibleClasses minimum pathMtu rest eligible
      else
        match eligible.getLast? with
        | some (last, lastWeight) =>
            if last = effective then
              eligibleClasses minimum pathMtu rest (eligible.dropLast ++
                [(last, min (lastWeight + weight) (2 ^ 32 - 1))])
            else if eligible.length = maxProfileSizeClasses then eligible
            else
              eligibleClasses minimum pathMtu rest
                (eligible ++ [(effective, weight)])
        | none =>
            eligibleClasses minimum pathMtu rest [(effective, weight)]

def pickClass : List (Nat × Nat) → Nat → Option Nat
  | [], _ => none
  | (size, weight) :: rest, selection =>
      if selection < weight then some size
      else pickClass rest (selection - weight)

namespace MorphologyEngine

variable {rng : Rng}

def setProfile (engine : MorphologyEngine rng) (profile : MorphologyProfile) :
    MorphologyEngine rng :=
  { engine with profile }

def sampleWeightedSizeClass (engine : MorphologyEngine rng)
    (classes weights : List Nat) (minimum pathMtu : Nat) :
    Nat × MorphologyEngine rng :=
  let eligible := eligibleClasses minimum pathMtu (classes.zip weights) []
  let totalWeight := eligible.foldl
    (fun total entry => saturatingAdd total entry.2) 0
  if totalWeight = 0 then (minimum, engine)
  else
    let (selection, rngState) :=
      rng.genRange engine.rngState 0 (totalWeight - 1)
    ((pickClass eligible selection).getD
      ((eligible.getLast?.map Prod.fst).getD 0), { engine with rngState })

def sampleUniformSizeClass (engine : MorphologyEngine rng)
    (classes : List Nat) (minimum pathMtu : Nat) :
    Nat × MorphologyEngine rng :=
  let eligible := (classes.filter fun size =>
    minimum ≤ size ∧ size ≤ pathMtu).take maxProfileSizeClasses
  if eligible = [] then (minimum, engine)
  else
    let (index, rngState) :=
      rng.genRange engine.rngState 0 (eligible.length - 1)
    (eligible.getD index 0, { engine with rngState })

def targetSize (engine : MorphologyEngine rng) (payloadLen pathMtu : Nat) :
    Except ShphError Nat × MorphologyEngine rng :=
  match validatePayloadForPath payloadLen pathMtu with
  | .error error => (.error error, engine)
  | .ok minimum =>
      let (sampled, engine) :=
        match engine.profile.sizeClassWeights with
        | some weights => engine.sampleWeightedSizeClass
            engine.profile.sizeClasses weights minimum pathMtu
        | none => engine.sampleUniformSizeClass
            engine.profile.sizeClasses minimum pathMtu
      (.ok (min (max sampled minimum) pathMtu), engine)

/-- The envelope, padded to the target from the engine's generator. -/
def encodeDatagramWithRng (engine : MorphologyEngine rng) (payload : Bytes)
    (targetSize pathMtu : Nat) :
    Except ShphError Bytes × MorphologyEngine rng :=
  match validatePayloadForPath payload.length pathMtu with
  | .error error => (.error error, engine)
  | .ok minimum =>
      if pathMtu < targetSize ∨ maxMorphologyDatagramBytes < targetSize then
        (.error (.protocol
          "morphology target exceeds negotiated datagram limit"), engine)
      else if targetSize < minimum then
        (.error (.protocol "morphology target is smaller than the payload"),
          engine)
      else if 2 ^ 16 ≤ targetSize then
        (.error (.protocol "morphology target length overflow"), engine)
      else
        match rng.tryFillBytes engine.rngState (targetSize - minimum) with
        | (none, rngState) =>
            (.error (.crypto "morphology padding randomness failed"),
              { engine with rngState })
        | (some padding, rngState) =>
            (.ok (morphologyMagic ++ [morphologyVersion] ++
              bigEndian 2 payload.length ++ bigEndian 2 targetSize ++
              payload ++ padding), { engine with rngState })

def encodeDatagram (engine : MorphologyEngine rng) (payload : Bytes)
    (pathMtu : Nat) : Except ShphError Bytes × MorphologyEngine rng :=
  match engine.targetSize payload.length pathMtu with
  | (.error error, engine) => (.error error, engine)
  | (.ok size, engine) =>
      match engine.encodeDatagramWithRng payload size pathMtu with
      | (.error error, engine) => (.error error, engine)
      | (.ok datagram, engine) =>
          (.ok datagram, { engine with
            metrics :=
              if engine.metricsEnabled then
                engine.metrics.record payload.length size
              else engine.metrics })

end MorphologyEngine

structure AdaptiveMorphologyConfig where
  interactiveEnter : Nat
  interactiveExit : Nat
  videoEnter : Nat
  videoExit : Nat
  bulkEnter : Nat
  bulkExit : Nat
deriving Repr, DecidableEq

def AdaptiveMorphologyConfig.default : AdaptiveMorphologyConfig :=
  ⟨192, 128, 900, 640, 1350, 1100⟩

/-- Durations are in nanoseconds. -/
structure WorkloadConfig where
  minimumDwell : Nat
  burstGap : Nat
  burstThreshold : Nat
  queueAgeLimit : Nat
  useArrivals : Bool
  useQueueAge : Bool
deriving Repr, DecidableEq

def WorkloadConfig.default : WorkloadConfig :=
  ⟨100 * 10 ^ 6, 5 * 10 ^ 6, 8, 10 * 10 ^ 6, true, true⟩

def WorkloadConfig.validate (config : WorkloadConfig) :
    Except ShphError Unit :=
  if 60 * 10 ^ 9 < config.minimumDwell ∨ config.burstGap = 0 ∨
      10 ^ 9 < config.burstGap ∨
      ¬ (2 ≤ config.burstThreshold ∧ config.burstThreshold ≤ 1024) ∨
      config.queueAgeLimit = 0 ∨ 10 ^ 9 < config.queueAgeLimit then
    .error (.config "invalid workload adaptation bounds")
  else .ok ()

inductive TransitionReason where
  | payload
  | burst
  | queueAge
deriving Repr, DecidableEq

structure WorkloadMetrics where
  observations : Nat
  switches : Nat
  payloadTransitions : Nat
  burstTransitions : Nat
  queueAgeTransitions : Nat
  dwellSuppressed : Nat
  burstLength : Nat
  lastReason : Option TransitionReason
deriving Repr, DecidableEq

def WorkloadMetrics.default : WorkloadMetrics := ⟨0, 0, 0, 0, 0, 0, 0, none⟩

def WorkloadMetrics.recordSwitch (metrics : WorkloadMetrics)
    (reason : TransitionReason) : WorkloadMetrics :=
  let metrics := { metrics with
    switches := saturatingAdd metrics.switches 1
    lastReason := some reason }
  match reason with
  | .payload => { metrics with
      payloadTransitions := saturatingAdd metrics.payloadTransitions 1 }
  | .burst => { metrics with
      burstTransitions := saturatingAdd metrics.burstTransitions 1 }
  | .queueAge => { metrics with
      queueAgeTransitions := saturatingAdd metrics.queueAgeTransitions 1 }

structure WorkloadMorphology (rng : Rng) where
  engine : MorphologyEngine rng
  config : WorkloadConfig
  thresholds : AdaptiveMorphologyConfig
  lastObservation : Option Nat
  lastSwitch : Option Nat
  ewma : Nat
  metrics : WorkloadMetrics

namespace WorkloadMorphology

variable {rng : Rng}

/-- Both constructors; they differ in how the generator is seeded. -/
def withRng (rng : Rng) (config : WorkloadConfig) (rngState : rng.State) :
    Except ShphError (WorkloadMorphology rng) := do
  config.validate
  return {
    engine := ⟨.tunedLowLatency, rngState, .default, false⟩
    config
    thresholds := .default
    lastObservation := none
    lastSwitch := none
    ewma := 0
    metrics := .default }

def profile (workload : WorkloadMorphology rng) : MorphologyProfile :=
  workload.engine.profile

def burstAfter (workload : WorkloadMorphology rng) (observedAt : Nat) : Nat :=
  if workload.lastObservation.any
      (observedAt - · ≤ workload.config.burstGap) then
    min (workload.metrics.burstLength + 1) 1024
  else 1

/-- The average moves a quarter of the way to the payload, rounded up. -/
def ewmaAfter (workload : WorkloadMorphology rng) (payloadLen : Nat) : Nat :=
  let delta := ((payloadLen - workload.ewma) +
    (workload.ewma - payloadLen) + 3) / 4
  if workload.ewma ≤ payloadLen then saturatingAdd workload.ewma delta
  else workload.ewma - delta

/-- The profile that the average asks for. -/
def payloadProfile (workload : WorkloadMorphology rng) (ewma : Nat) :
    MorphologyProfile :=
  let thresholds := workload.thresholds
  match workload.profile with
  | .tunedLowLatency =>
      if thresholds.interactiveEnter ≤ ewma then .tunedWebBrowsingLab
      else .tunedLowLatency
  | .tunedWebBrowsingLab =>
      if ewma ≤ thresholds.interactiveExit then .tunedLowLatency
      else if thresholds.videoEnter ≤ ewma then .tunedVideoStreamingLab
      else .tunedWebBrowsingLab
  | .tunedVideoStreamingLab =>
      if ewma ≤ thresholds.videoExit then .tunedWebBrowsingLab
      else if thresholds.bulkEnter ≤ ewma then .tunedBulkLab
      else .tunedVideoStreamingLab
  | .tunedBulkLab =>
      if ewma ≤ thresholds.bulkExit then .tunedVideoStreamingLab
      else .tunedBulkLab
  | current => current

/-- A burst overrides the average, and an old queue overrides both. -/
def candidate (workload : WorkloadMorphology rng) (burst ewma queueAge : Nat) :
    MorphologyProfile × TransitionReason :=
  if workload.config.useQueueAge ∧
      workload.config.queueAgeLimit ≤ queueAge then
    (.tunedLowLatency, .queueAge)
  else if workload.config.useArrivals ∧
      workload.config.burstThreshold ≤ burst ∧
      workload.thresholds.videoEnter ≤ ewma then
    (.tunedBulkLab, .burst)
  else (workload.payloadProfile ewma, .payload)

/-- The dwell is counted from here. -/
def origin (workload : WorkloadMorphology rng) (observedAt : Nat) : Nat :=
  (workload.lastSwitch.or workload.lastObservation).getD observedAt

def suppressed (workload : WorkloadMorphology rng)
    (next : MorphologyProfile) (observedAt : Nat) : Bool :=
  next ≠ workload.profile ∧
    observedAt - workload.origin observedAt < workload.config.minimumDwell

/-- The state after a datagram was encoded. -/
def observed (workload : WorkloadMorphology rng)
    (engine : MorphologyEngine rng) (next : MorphologyProfile)
    (reason : TransitionReason) (suppressed : Bool)
    (burst ewma observedAt : Nat) : WorkloadMorphology rng :=
  let changed := next ≠ workload.profile
  let metrics :=
    if changed then workload.metrics.recordSwitch reason else workload.metrics
  { workload with
    engine
    ewma
    lastObservation := some observedAt
    lastSwitch :=
      if changed ∨ workload.lastSwitch = none then some observedAt
      else workload.lastSwitch
    metrics := { metrics with
      burstLength := burst
      observations := saturatingAdd metrics.observations 1
      dwellSuppressed := saturatingAdd metrics.dwellSuppressed
        (if suppressed then 1 else 0) } }

/-- The profile is set before the datagram is encoded and set back if that
fails. -/
def encode (workload : WorkloadMorphology rng) (payload : Bytes)
    (pathMtu observedAt queueAge : Nat) :
    Except ShphError Bytes × WorkloadMorphology rng :=
  match validatePayloadForPath payload.length pathMtu with
  | .error error => (.error error, workload)
  | .ok _ =>
      if workload.lastObservation.any (observedAt < ·) ∨
          observedAt < queueAge then
        (.error (.invalidArgument
          "nonmonotonic or impossible workload observation"), workload)
      else
        let burst := workload.burstAfter observedAt
        let ewma := workload.ewmaAfter payload.length
        let current := workload.profile
        let (wanted, reason) := workload.candidate burst ewma queueAge
        let suppressed := workload.suppressed wanted observedAt
        let next := if suppressed then current else wanted
        match (workload.engine.setProfile next).encodeDatagram payload
            pathMtu with
        | (.error error, engine) =>
            (.error error,
              { workload with engine := engine.setProfile current })
        | (.ok encoded, engine) =>
            (.ok encoded, workload.observed engine next reason suppressed burst
              ewma observedAt)

end WorkloadMorphology

/-- `switches` is the sum of the three counters, saturated like them. -/
def WorkloadMetrics.SwitchesCounted (metrics : WorkloadMetrics) : Prop :=
  metrics.switches = min (metrics.payloadTransitions +
    metrics.burstTransitions + metrics.queueAgeTransitions) u64Max

theorem WorkloadMetrics.SwitchesCounted.recordSwitch
    {metrics : WorkloadMetrics} (hcounted : metrics.SwitchesCounted)
    (reason : TransitionReason) :
    (metrics.recordSwitch reason).SwitchesCounted := by
  unfold SwitchesCounted at hcounted ⊢
  cases reason with
  | payload =>
      simp only [WorkloadMetrics.recordSwitch, saturatingAdd, hcounted]
      omega
  | burst =>
      simp only [WorkloadMetrics.recordSwitch, saturatingAdd, hcounted]
      omega
  | queueAge =>
      simp only [WorkloadMetrics.recordSwitch, saturatingAdd, hcounted]
      omega

structure WorkloadCall where
  payload : Bytes
  pathMtu : Nat
  observedAt : Nat
  queueAge : Nat
deriving Repr, DecidableEq

/-- What a successful call observed and what it did to the profile. -/
structure Accepted where
  observedAt : Nat
  payloadLen : Nat
  before : MorphologyProfile
  after : MorphologyProfile
deriving Repr, DecidableEq

/-- The times at which the profile changed. -/
def changeTimes (log : List Accepted) : List Nat :=
  (log.filter fun entry => entry.after ≠ entry.before).map Accepted.observedAt

/-- The largest payload of the log, and zero if there is none. -/
def largestPayload (log : List Accepted) : Nat :=
  (log.map Accepted.payloadLen).foldr max 0

theorem changeTimes_snoc (log : List Accepted) (entry : Accepted) :
    changeTimes (log ++ [entry]) = changeTimes log ++
      if entry.after ≠ entry.before then [entry.observedAt] else [] := by
  rw [changeTimes, List.filter_append, List.map_append, ← changeTimes]
  split
  · simp [*]
  · simp [*]

theorem largestPayload_snoc (log : List Accepted) (entry : Accepted) :
    largestPayload (log ++ [entry]) =
      max (largestPayload log) entry.payloadLen := by
  induction log with
  | nil => simp [largestPayload]
  | cons head log ih =>
      change max head.payloadLen (largestPayload (log ++ [entry])) =
        max (max head.payloadLen (largestPayload log)) entry.payloadLen
      rw [ih, Nat.max_assoc]

namespace MorphologyEngine

variable {rng : Rng}

theorem targetSize_profile (engine : MorphologyEngine rng)
    (payloadLen pathMtu : Nat) :
    (engine.targetSize payloadLen pathMtu).2.profile = engine.profile := by
  unfold targetSize
  split
  · rfl
  · cases engine.profile.sizeClassWeights with
    | none =>
        simp only [sampleUniformSizeClass]
        split
        · rfl
        · rfl
    | some weights =>
        simp only [sampleWeightedSizeClass]
        split
        · rfl
        · rfl

theorem encodeDatagramWithRng_profile (engine : MorphologyEngine rng)
    (payload : Bytes) (target pathMtu : Nat) :
    (engine.encodeDatagramWithRng payload target pathMtu).2.profile =
      engine.profile := by
  unfold encodeDatagramWithRng
  repeat' split
  all_goals rfl

/-- Encoding a datagram does not touch the profile. -/
theorem encodeDatagram_profile (engine : MorphologyEngine rng)
    (payload : Bytes) (pathMtu : Nat) :
    (engine.encodeDatagram payload pathMtu).2.profile = engine.profile := by
  have htarget := engine.targetSize_profile payload.length pathMtu
  unfold encodeDatagram
  cases hsize : engine.targetSize payload.length pathMtu with
  | mk result sized =>
      rw [hsize] at htarget
      cases result with
      | error error => exact htarget
      | ok size =>
          have hencode := sized.encodeDatagramWithRng_profile payload size
            pathMtu
          dsimp only
          cases hcall : sized.encodeDatagramWithRng payload size pathMtu with
          | mk encoded next =>
              rw [hcall] at hencode
              cases encoded with
              | error error => exact hencode.trans htarget
              | ok datagram => exact hencode.trans htarget

end MorphologyEngine

namespace WorkloadMorphology

variable {rng : Rng}

def run (workload : WorkloadMorphology rng) (call : WorkloadCall) :
    Except ShphError Bytes × WorkloadMorphology rng :=
  workload.encode call.payload call.pathMtu call.observedAt call.queueAge

/-- The entry of the log for a call that succeeds. -/
def accepted (workload : WorkloadMorphology rng) (call : WorkloadCall) :
    Option Accepted :=
  match workload.run call with
  | (.error _, _) => none
  | (.ok _, next) => some {
      observedAt := call.observedAt
      payloadLen := call.payload.length
      before := workload.profile
      after := next.profile }

def observe (workload : WorkloadMorphology rng) (call : WorkloadCall) :
    Option Accepted × WorkloadMorphology rng :=
  (workload.accepted call, (workload.run call).2)

/-- The successful calls of a run. -/
def log (workload : WorkloadMorphology rng) (calls : List WorkloadCall) :
    List Accepted :=
  (trace observe workload calls).filterMap Prod.snd

/-- What a call must not change if it fails. -/
structure SameObservations (left right : WorkloadMorphology rng) : Prop where
  config : left.config = right.config
  profile : left.profile = right.profile
  lastObservation : left.lastObservation = right.lastObservation
  lastSwitch : left.lastSwitch = right.lastSwitch
  ewma : left.ewma = right.ewma
  metrics : left.metrics = right.metrics

/-- The state after a successful call. -/
structure Advances (workload : WorkloadMorphology rng) (call : WorkloadCall)
    (next : WorkloadMorphology rng) : Prop where
  monotone : ∀ last ∈ workload.lastObservation, last ≤ call.observedAt
  config_eq : next.config = workload.config
  ewma_eq : next.ewma = workload.ewmaAfter call.payload.length
  lastObservation_eq : next.lastObservation = some call.observedAt
  unchanged : next.profile = workload.profile →
    (workload.lastSwitch = none → next.lastSwitch = some call.observedAt) ∧
      (workload.lastSwitch ≠ none → next.lastSwitch = workload.lastSwitch)
  changed : next.profile ≠ workload.profile →
    next.lastSwitch = some call.observedAt ∧
      workload.config.minimumDwell ≤
        call.observedAt - workload.origin call.observedAt
  switches : workload.metrics.SwitchesCounted → next.metrics.SwitchesCounted

/-- What one call can do. -/
theorem run_cases (workload : WorkloadMorphology rng) (call : WorkloadCall) :
    (∃ error next, workload.run call = (.error error, next) ∧
      SameObservations next workload) ∨
    ∃ bytes next, workload.run call = (.ok bytes, next) ∧
      Advances workload call next := by
  have hsame : SameObservations workload workload :=
    ⟨rfl, rfl, rfl, rfl, rfl, rfl⟩
  unfold run encode
  split
  · exact Or.inl ⟨_, _, rfl, hsame⟩
  · split
    · exact Or.inl ⟨_, _, rfl, hsame⟩
    · rename_i hmonotone
      dsimp only
      generalize hwanted : workload.candidate
        (workload.burstAfter call.observedAt)
        (workload.ewmaAfter call.payload.length) call.queueAge = wanted
      obtain ⟨wanted, reason⟩ := wanted
      dsimp only
      generalize hnext : (if workload.suppressed wanted call.observedAt = true
        then workload.profile else wanted) = next
      have hprofile := (workload.engine.setProfile next).encodeDatagram_profile
        call.payload call.pathMtu
      change _ = next at hprofile
      cases hencode : (workload.engine.setProfile next).encodeDatagram
          call.payload call.pathMtu with
      | mk result engine =>
          rw [hencode] at hprofile
          change engine.profile = next at hprofile
          cases result with
          | error error =>
              exact Or.inl ⟨_, _, rfl, rfl, rfl, rfl, rfl, rfl, rfl⟩
          | ok encoded =>
              refine Or.inr ⟨encoded, _, rfl, ?_⟩
              exact
                { monotone := by
                    intro last hlast
                    rw [Option.mem_def] at hlast
                    have hnot := fun hlt => hmonotone (Or.inl hlt)
                    simpa [hlast] using hnot
                  config_eq := rfl
                  ewma_eq := rfl
                  lastObservation_eq := rfl
                  unchanged := by
                    intro hunchanged
                    change engine.profile = _ at hunchanged
                    rw [hprofile] at hunchanged
                    simp only [observed, hunchanged, ne_eq, not_true_eq_false,
                      false_or]
                    exact ⟨fun hnone => if_pos hnone,
                      fun hsome => if_neg hsome⟩
                  changed := by
                    intro hchanged
                    change engine.profile ≠ _ at hchanged
                    rw [hprofile] at hchanged
                    refine ⟨if_pos (Or.inl hchanged), ?_⟩
                    by_contra hearly
                    have hdiffers : wanted ≠ workload.profile := by
                      rintro rfl
                      rw [ite_self] at hnext
                      exact hchanged hnext.symm
                    have hsuppressed : workload.suppressed wanted
                        call.observedAt = true :=
                      decide_eq_true ⟨hdiffers, Nat.lt_of_not_le hearly⟩
                    rw [if_pos hsuppressed] at hnext
                    exact hchanged hnext.symm
                  switches := by
                    intro hcounted
                    change WorkloadMetrics.SwitchesCounted
                      { (if _ then _ else _ : WorkloadMetrics) with .. }
                    split
                    · exact hcounted.recordSwitch reason
                    · exact hcounted }

/-- The state against the log of the successful calls. -/
structure Follows (config : WorkloadConfig) (log : List Accepted)
    (workload : WorkloadMorphology rng) : Prop where
  config_eq : workload.config = config
  lastObservation_eq : workload.lastObservation =
    log.getLast?.map Accepted.observedAt
  lastSwitch_eq : workload.lastSwitch =
    (changeTimes log).getLast?.or (log.head?.map Accepted.observedAt)
  switch_le : ∀ switch ∈ workload.lastSwitch,
    ∃ last ∈ workload.lastObservation, switch ≤ last
  spaced : (changeTimes log).IsChain
    fun earlier later => earlier + config.minimumDwell ≤ later
  first : ∀ first ∈ log.head?, ∀ change ∈ (changeTimes log).head?,
    first.observedAt + config.minimumDwell ≤ change
  ewma_le : workload.ewma ≤ largestPayload log
  switches : workload.metrics.SwitchesCounted

def entry (workload : WorkloadMorphology rng) (call : WorkloadCall)
    (next : WorkloadMorphology rng) : Accepted where
  observedAt := call.observedAt
  payloadLen := call.payload.length
  before := workload.profile
  after := next.profile

section Step

variable {config : WorkloadConfig} {log : List Accepted}
  {workload next : WorkloadMorphology rng} {call : WorkloadCall}

/-- A failed call changes nothing that the log is compared with. -/
theorem Follows.of_same (hfollows : Follows config log workload)
    (hsame : SameObservations next workload) : Follows config log next where
  config_eq := hsame.config.trans hfollows.config_eq
  lastObservation_eq := hsame.lastObservation.trans
    hfollows.lastObservation_eq
  lastSwitch_eq := hsame.lastSwitch.trans hfollows.lastSwitch_eq
  switch_le := by
    rw [hsame.lastSwitch, hsame.lastObservation]
    exact hfollows.switch_le
  spaced := hfollows.spaced
  first := hfollows.first
  ewma_le := hsame.ewma.trans_le hfollows.ewma_le
  switches := by
    rw [hsame.metrics]
    exact hfollows.switches

/-- The average stays between its old value and the payload. -/
theorem ewmaAfter_le (workload : WorkloadMorphology rng) (payloadLen : Nat) :
    workload.ewmaAfter payloadLen ≤ max workload.ewma payloadLen := by
  simp only [ewmaAfter, saturatingAdd]
  split
  · omega
  · omega

/-- A change waits for the dwell since the latest change, and since the first
observation if there was no change yet. -/
theorem Follows.waited (hfollows : Follows config log workload)
    (hadvances : Advances workload call next)
    (hchanged : next.profile ≠ workload.profile) :
    (∀ change ∈ (changeTimes log).getLast?,
        change + config.minimumDwell ≤ call.observedAt) ∧
      (changeTimes log = [] → ∀ first ∈ (log ++ [entry workload call
        next]).head?, first.observedAt + config.minimumDwell ≤
          call.observedAt) := by
  have hdwell := (hadvances.changed hchanged).2
  rw [hfollows.config_eq, origin] at hdwell
  have hsince : ∀ switch, workload.lastSwitch = some switch →
      switch + config.minimumDwell ≤ call.observedAt := by
    intro switch hswitch
    obtain ⟨last, hlast, hle⟩ := hfollows.switch_le switch hswitch
    have hmonotone := hadvances.monotone last hlast
    rw [hswitch, Option.some_or, Option.getD_some] at hdwell
    omega
  have hlastSwitch := hfollows.lastSwitch_eq
  refine ⟨?_, ?_⟩
  · intro change hchange
    rw [Option.mem_def] at hchange
    rw [hchange, Option.some_or] at hlastSwitch
    exact hsince change hlastSwitch
  · intro hnone first hfirst
    rw [hnone, List.getLast?_nil, Option.none_or] at hlastSwitch
    cases log with
    | nil =>
        rw [List.nil_append, List.head?_cons, Option.mem_some_iff] at hfirst
        have hlast := hfollows.lastObservation_eq
        rw [List.getLast?_nil, Option.map_none] at hlast
        rw [hlastSwitch, hlast] at hdwell
        rw [← hfirst]
        simp at hdwell
        simp [entry, hdwell]
    | cons head log =>
        rw [List.cons_append, List.head?_cons, Option.mem_some_iff] at hfirst
        rw [← hfirst]
        exact hsince head.observedAt hlastSwitch

theorem Follows.step (hfollows : Follows config log workload)
    (hadvances : Advances workload call next) :
    Follows config (log ++ [entry workload call next]) next := by
  have hobserved : next.lastObservation =
      (log ++ [entry workload call next]).getLast?.map
        Accepted.observedAt := by
    rw [hadvances.lastObservation_eq, List.getLast?_concat]
    rfl
  have hewma : next.ewma ≤ largestPayload
      (log ++ [entry workload call next]) := by
    rw [hadvances.ewma_eq, largestPayload_snoc]
    have hmoved := workload.ewmaAfter_le call.payload.length
    have hold := hfollows.ewma_le
    change _ ≤ max _ call.payload.length
    omega
  have hconfig := hadvances.config_eq.trans hfollows.config_eq
  have hswitches := hadvances.switches hfollows.switches
  have htimes := changeTimes_snoc log (entry workload call next)
  by_cases hchanged : next.profile = workload.profile
  · rw [if_neg (fun hdiffers => hdiffers hchanged), List.append_nil] at htimes
    obtain ⟨hnone, hsome⟩ := hadvances.unchanged hchanged
    refine ⟨hconfig, hobserved, ?_, ?_, htimes ▸ hfollows.spaced, ?_, hewma,
      hswitches⟩
    · rw [htimes]
      cases log with
      | nil => exact hnone hfollows.lastSwitch_eq
      | cons head log =>
          have hlast := hfollows.lastSwitch_eq
          have hset : workload.lastSwitch ≠ none := by
            rw [hlast]
            simp
          exact (hsome hset).trans hlast
    · intro switch hswitch
      rw [hadvances.lastObservation_eq]
      refine ⟨call.observedAt, rfl, ?_⟩
      cases hbefore : workload.lastSwitch with
      | none =>
          rw [hnone hbefore, Option.mem_some_iff] at hswitch
          exact hswitch.ge
      | some since =>
          rw [hsome (by simp [hbefore])] at hswitch
          obtain ⟨last, hlast, hle⟩ := hfollows.switch_le switch hswitch
          exact hle.trans (hadvances.monotone last hlast)
    · rw [htimes]
      cases log with
      | nil => simp [changeTimes]
      | cons head log => exact hfollows.first
  · obtain ⟨hlast, hfirst⟩ := hfollows.waited hadvances hchanged
    have hdiffers : (entry workload call next).after ≠
        (entry workload call next).before := hchanged
    rw [if_pos hdiffers] at htimes
    obtain ⟨hswitch, _⟩ := hadvances.changed hchanged
    refine ⟨hconfig, hobserved, ?_, ?_, ?_, ?_, hewma, hswitches⟩
    · rw [htimes, List.getLast?_concat, hswitch]
      rfl
    · intro switch hmem
      rw [hswitch, Option.mem_some_iff] at hmem
      rw [hadvances.lastObservation_eq]
      exact ⟨call.observedAt, rfl, hmem.ge⟩
    · rw [htimes, List.isChain_append]
      refine ⟨hfollows.spaced, List.isChain_singleton _, ?_⟩
      intro change hchange later hlater
      rw [List.head?_cons, Option.mem_some_iff] at hlater
      rw [← hlater]
      exact hlast change hchange
    · rw [htimes]
      cases hchanges : changeTimes log with
      | nil =>
          intro first hmem change hchange
          rw [List.nil_append, List.head?_cons,
            Option.mem_some_iff] at hchange
          rw [← hchange]
          exact hfirst hchanges first hmem
      | cons change changes =>
          cases log with
          | nil => simp [changeTimes] at hchanges
          | cons head log =>
              have hold := hfollows.first
              rw [hchanges] at hold
              exact hold

end Step

theorem observe_follows {config : WorkloadConfig}
    (history : List (WorkloadCall × Option Accepted))
    (workload : WorkloadMorphology rng) (call : WorkloadCall)
    (hfollows : Follows config (history.filterMap Prod.snd) workload) :
    Follows config
      ((history ++ [(call, (workload.observe call).1)]).filterMap Prod.snd)
      (workload.observe call).2 := by
  rw [List.filterMap_append]
  rcases run_cases workload call with
    ⟨error, next, hrun, hsame⟩ | ⟨bytes, next, hrun, hadvances⟩
  · simp only [observe, accepted, hrun]
    simpa using hfollows.of_same hsame
  · simp only [observe, accepted, hrun]
    exact hfollows.step hadvances

theorem withRng_follows {config : WorkloadConfig} {rngState : rng.State}
    {workload : WorkloadMorphology rng}
    (hnew : withRng rng config rngState = .ok workload) :
    Follows config [] workload := by
  obtain ⟨-, -, hnew⟩ := bind_eq_ok_iff.mp hnew
  obtain rfl := Except.ok.inj hnew
  refine ⟨rfl, rfl, rfl, ?_, List.isChain_nil, ?_, Nat.le_refl _, rfl⟩
  · exact fun switch hmem => nomatch hmem
  · exact fun first hmem => nomatch hmem

/-- For every validated configuration and every run of `encode` calls: changes
of the profile are the dwell apart, and so are the first observation and the
first change; the average stays below the largest payload; the switches are
the sum of their reasons, up to saturation; and a call that fails changes
nothing but the generator. -/
theorem dwell_machine {config : WorkloadConfig} {rngState : rng.State}
    {start : WorkloadMorphology rng}
    (hstart : withRng rng config rngState = .ok start)
    (calls : List WorkloadCall) (call : WorkloadCall) :
    let log := start.log calls
    let workload := final observe start calls
    ((changeTimes log).IsChain fun earlier later =>
        earlier + config.minimumDwell ≤ later) ∧
      (∀ first ∈ log.head?, ∀ change ∈ (changeTimes log).head?,
        first.observedAt + config.minimumDwell ≤ change) ∧
      workload.ewma ≤ largestPayload log ∧
      workload.metrics.switches = min (workload.metrics.payloadTransitions +
        workload.metrics.burstTransitions +
        workload.metrics.queueAgeTransitions) u64Max ∧
      ∀ error, (workload.run call).1 = .error error →
        SameObservations (workload.run call).2 workload := by
  intro log workload
  have hfollows : Follows config log workload :=
    history_invariant (P := fun history workload =>
      Follows config (history.filterMap Prod.snd) workload)
      (withRng_follows hstart) observe_follows calls
  refine ⟨hfollows.spaced, hfollows.first, hfollows.ewma_le,
    hfollows.switches, ?_⟩
  intro error herror
  rcases run_cases workload call with
    ⟨_, next, hrun, hsame⟩ | ⟨bytes, next, hrun, _⟩
  · rw [hrun]
    exact hsame
  · rw [hrun] at herror
    simp at herror

end WorkloadMorphology

namespace WorkloadWitness

open WorkloadMorphology

/-- A generator that draws the least number and fills with zeros. -/
def rng : Rng := .zeros

def start : WorkloadMorphology rng where
  engine := ⟨.tunedLowLatency, (), .default, false⟩
  config := .default
  thresholds := .default
  lastObservation := none
  lastSwitch := none
  ewma := 0
  metrics := .default

theorem start_eq : withRng rng .default () = .ok start := rfl

/-- A payload of 800 bytes at a time in milliseconds. -/
def callAt (ms : Nat) : WorkloadCall :=
  ⟨List.replicate 800 7, 1472, ms * 10 ^ 6, 0⟩

def calls : List WorkloadCall := [callAt 3, callAt 50, callAt 103, callAt 160]

/-- The average asks for another profile from the first payload on, but the
change comes 100 ms after it. -/
theorem dwell_machine_waits :
    changeTimes (start.log calls) = [103 * 10 ^ 6] ∧
      ∀ first ∈ (start.log calls).head?,
        ∀ change ∈ (changeTimes (start.log calls)).head?,
          first.observedAt + 100 * 10 ^ 6 ≤ change :=
  ⟨by decide +kernel, (dwell_machine start_eq calls (callAt 200)).2.1⟩

end WorkloadWitness

end Shph.Shroud2
