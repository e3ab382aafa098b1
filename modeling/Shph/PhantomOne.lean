/-
The Phantom One envelope: a session encoder that numbers its frames and pads
them to a selected size within a lifetime budget, and a decoder that checks
the envelope and tracks the sequence numbers it accepted.
-/
import Shph.Library.StatefulRun
import Shph.ProfileTier
import Shph.Word

namespace Shph

open ByteCodec

def phantomOneMagic : Bytes := [0x50, 0x48, 0x31, 0x00]

def phantomOneVersion : UInt8 := 1

def phantomOneHeaderBytes : Nat := 24

def phantomOneMaxEnvelopeBytes : Nat := 2 ^ 16 - 1

def phantomOneMaxPayloadBytes : Nat :=
  phantomOneMaxEnvelopeBytes - phantomOneHeaderBytes

def phantomOneMaxPaddingBytes : Nat := 4096

def phantomOneDefaultReplayWindow : Nat := 64

inductive PhantomOneFrameType where
  | data
  | control
  | keepalive
deriving Repr, DecidableEq

namespace PhantomOneFrameType

def toByte : PhantomOneFrameType → UInt8
  | data => 1
  | control => 2
  | keepalive => 3

def tryFrom (value : UInt8) : Except ShphError PhantomOneFrameType :=
  if value = data.toByte then .ok data
  else if value = control.toByte then .ok control
  else if value = keepalive.toByte then .ok keepalive
  else .error (.protocol "unsupported Phantom One frame type")

end PhantomOneFrameType

/-- Weights correspond to the base tiers of the profile. -/
inductive SizeSelection where
  | firstFit
  | weighted (weights : Vector UInt16 7)
deriving Repr, DecidableEq

structure PhantomOneConfig where
  profile : ProfileTier
  minPadding : Nat
  maxPadding : Nat
  profileBound : Bool
  selection : SizeSelection
  paddingBudget : Option UInt64
deriving Repr, DecidableEq

namespace PhantomOneConfig

/-- Only a profile-bound configuration may be weighted, with some weight on
the tiers the profile has and none beyond. -/
def weightsValid (config : PhantomOneConfig) : Bool :=
  match config.selection with
  | .firstFit => true
  | .weighted weights =>
      let count := config.profile.baseTiers.length
      config.profileBound &&
        !((weights.toList.take count).all (· == 0)) &&
        !((weights.toList.drop count).any (· != 0))

def validate (config : PhantomOneConfig) : Except ShphError Unit := do
  ensure config.weightsValid (.config "invalid Phantom One class weights")
  ensure (config.minPadding ≤ config.maxPadding)
    (.config "Phantom One minimum padding must not exceed maximum padding")
  ensure (config.maxPadding ≤ phantomOneMaxPaddingBytes)
    (.config "Phantom One maximum padding must not exceed 4096 bytes")

def new (minPadding maxPadding : Nat) : Except ShphError PhantomOneConfig := do
  let config : PhantomOneConfig :=
    { profile := .medium, minPadding, maxPadding, profileBound := false
      selection := .firstFit, paddingBudget := none }
  config.validate
  return config

def forProfile (profile : ProfileTier) : PhantomOneConfig :=
  { profile, minPadding := 0, maxPadding := phantomOneMaxPaddingBytes
    profileBound := true, selection := .firstFit, paddingBudget := none }

end PhantomOneConfig

structure PhantomOneFrame where
  profile : ProfileTier
  generation : UInt32
  frameType : PhantomOneFrameType
  sequence : Nat
  payload : Bytes
  targetLen : Nat
  paddingLen : Nat
deriving Repr, DecidableEq

structure EnvelopeMetrics where
  frames : Nat
  payloadBytes : Nat
  headerBytes : Nat
  paddingBytes : Nat
deriving Repr, DecidableEq

def validatePathMtu (pathMtu : Nat) : Except ShphError Unit :=
  ensure (phantomOneHeaderBytes ≤ pathMtu ∧
      pathMtu ≤ phantomOneMaxEnvelopeBytes)
    (.config "Phantom One path MTU must be between 24 and 65535 bytes")

def validatePayloadLength (payloadLen : Nat) : Except ShphError Unit :=
  ensure (payloadLen ≤ phantomOneMaxPayloadBytes ∧ payloadLen ≤ 2 ^ 16 - 1)
    (.protocol "Phantom One payload exceeds the Phantom One length bound")

structure PhantomOneEncoder (rng : Rng) where
  generation : UInt32
  nextSequence : Option Nat
  config : PhantomOneConfig
  rngState : rng.State
  metrics : EnvelopeMetrics

/-- The largest and smallest size the configuration and the remaining budget
leave for a payload. -/
structure TargetBounds where
  minimum : Nat
  maximum : Nat
deriving Repr, DecidableEq

def TargetBounds.contains (bounds : TargetBounds) (size : Nat) : Bool :=
  decide (bounds.minimum ≤ size ∧ size ≤ bounds.maximum)

/-- Walk the eligible tiers until the sample falls into one of them. -/
def pickWeighted (bounds : TargetBounds) : List (Nat × Nat) → Nat → Option Nat
  | [], _ => none
  | (tier, weight) :: rest, sample =>
      if ¬ bounds.contains tier then pickWeighted bounds rest sample
      else if sample < weight then some tier
      else pickWeighted bounds rest (sample - weight)

namespace PhantomOneEncoder

variable {rng : Rng}

/-- An encoder at an arbitrary first sequence number. -/
def fromValidatedConfig (generation : UInt32) (sequence : UInt64)
    (config : PhantomOneConfig) (seeded : rng.State) : PhantomOneEncoder rng :=
  { generation, nextSequence := some sequence.toNat, config
    rngState := seeded
    metrics :=
      { frames := 0, payloadBytes := 0, headerBytes := 0, paddingBytes := 0 } }

def remainingPadding (encoder : PhantomOneEncoder rng) : Nat :=
  match encoder.config.paddingBudget with
  | none => u64Max
  | some budget => budget.toNat - encoder.metrics.paddingBytes

/-- The checks of `target_size` that precede the selection. -/
def targetBounds (encoder : PhantomOneEncoder rng) (payloadLen pathMtu : Nat) :
    Except ShphError TargetBounds := do
  encoder.config.validate
  validatePathMtu pathMtu
  validatePayloadLength payloadLen
  ensure encoder.nextSequence.isSome
    (.resourceExhausted "Phantom One sequence space exhausted")
  let minimum ← okOr (checkedAdd phantomOneHeaderBytes payloadLen)
    (.protocol "Phantom One payload length overflow")
  let minimumTarget ← okOr (checkedAdd minimum encoder.config.minPadding)
    (.protocol "Phantom One target length overflow")
  ensure (minimumTarget ≤ pathMtu)
    (.protocol "Phantom One minimum target exceeds path MTU")
  let padded ← okOr
    (checkedAdd minimum (min encoder.config.maxPadding encoder.remainingPadding))
    (.protocol "Phantom One target length overflow")
  let maximumTarget := min padded pathMtu
  ensure (minimumTarget ≤ maximumTarget)
    (.resourceExhausted "Phantom One padding budget exhausted")
  return { minimum := minimumTarget, maximum := maximumTarget }

def selectWeighted (weights : Vector UInt16 7) (bounds : TargetBounds)
    (encoder : PhantomOneEncoder rng) :
    Except ShphError Nat × PhantomOneEncoder rng :=
  let classes := encoder.config.profile.baseTiers.zip
    (weights.toList.map UInt16.toNat)
  let total := ((classes.filter fun entry => bounds.contains entry.1).map
    Prod.snd).sum
  if total = 0 then
    (.error (.protocol
      "no weighted Phantom One class fits the remaining budget"), encoder)
  else
    let (sample, state) := rng.genRange encoder.rngState 0 (total - 1)
    match pickWeighted bounds classes sample with
    | some tier => (.ok tier, { encoder with rngState := state })
    | none =>
        (.error (.internal "positive eligible weight must select a tier"),
          { encoder with rngState := state })

def jitterBound : ProfileTier → Nat
  | .low => 7
  | .tunedLow => 3
  | _ => 0

/-- The first base tier that fits, plus jitter up to the upper bound; a
configuration that is not bound to its profile may take any size. -/
def selectFirstFit (bounds : TargetBounds) (encoder : PhantomOneEncoder rng) :
    Except ShphError Nat × PhantomOneEncoder rng :=
  match encoder.config.profile.baseTiers.find? bounds.contains with
  | some base =>
      let available := min (jitterBound encoder.config.profile)
        (bounds.maximum - base)
      if available = 0 then (.ok base, encoder)
      else
        let (jitter, state) := rng.genRange encoder.rngState 0 available
        (.ok (base + jitter), { encoder with rngState := state })
  | none =>
      if encoder.config.profileBound then
        (.error (.protocol ("Phantom One payload does not fit the selected " ++
          "profile's canonical size classes")), encoder)
      else
        let (target, state) := rng.genRange encoder.rngState bounds.minimum
          bounds.maximum
        (.ok target, { encoder with rngState := state })

def targetSize (encoder : PhantomOneEncoder rng) (payloadLen pathMtu : Nat) :
    Except ShphError Nat × PhantomOneEncoder rng :=
  match encoder.targetBounds payloadLen pathMtu with
  | .error error => (.error error, encoder)
  | .ok bounds =>
      match encoder.config.selection with
      | .weighted weights => selectWeighted weights bounds encoder
      | .firstFit => selectFirstFit bounds encoder

/-- The fixed header: marker, version, profile, generation, frame type,
sequence number, the two lengths and a reserved byte. -/
def header (config : PhantomOneConfig) (generation : UInt32)
    (frameType : PhantomOneFrameType) (sequence payloadLen targetLen : Nat) :
    Bytes :=
  phantomOneMagic ++ ([phantomOneVersion] ++ ([config.profile.id] ++
    (bigEndian 4 generation.toNat ++ ([frameType.toByte] ++
      (bigEndian 8 sequence ++ (bigEndian 2 payloadLen ++
        (bigEndian 2 targetLen ++ [0])))))))

/-- The sequence number and the padding of a frame of an explicit size. -/
def checkTarget (encoder : PhantomOneEncoder rng)
    (payload : Bytes) (targetLen pathMtu : Nat) :
    Except ShphError (Nat × Nat) := do
  encoder.config.validate
  validatePathMtu pathMtu
  validatePayloadLength payload.length
  let sequence ← okOr encoder.nextSequence
    (.resourceExhausted "Phantom One sequence space exhausted")
  let minimum ← okOr (checkedAdd phantomOneHeaderBytes payload.length)
    (.protocol "Phantom One payload length overflow")
  ensure (minimum ≤ targetLen)
    (.protocol
      "Phantom One target is smaller than the Phantom One header and payload")
  let paddingLen := targetLen - minimum
  ensure (targetLen ≤ pathMtu ∧ targetLen ≤ phantomOneMaxEnvelopeBytes ∧
      encoder.config.minPadding ≤ paddingLen ∧
      paddingLen ≤ encoder.config.maxPadding ∧
      paddingLen ≤ encoder.remainingPadding)
    (.protocol "Phantom One target is outside configured path-MTU bounds")
  ensure (encoder.config.profileBound → encoder.config.profile.acceptsFrameLen
      targetLen)
    (.protocol ("Phantom One target is outside the selected profile's " ++
      "canonical size classes"))
  ensure (targetLen ≤ 2 ^ 16 - 1)
    (.protocol "Phantom One target length overflow")
  ensure (payload.length ≤ 2 ^ 16 - 1)
    (.protocol "Phantom One payload length overflow")
  return (sequence, paddingLen)

def encodeWithTarget (encoder : PhantomOneEncoder rng)
    (frameType : PhantomOneFrameType) (payload : Bytes)
    (targetLen pathMtu : Nat) :
    Except ShphError Bytes × PhantomOneEncoder rng :=
  match encoder.checkTarget payload targetLen pathMtu with
  | .error error => (.error error, encoder)
  | .ok (sequence, paddingLen) =>
      match rng.tryFillBytes encoder.rngState paddingLen with
      | (none, state) =>
          (.error (.crypto "Phantom One padding randomness failed"),
            { encoder with rngState := state })
      | (some padding, state) =>
          let metrics := encoder.metrics
          (.ok (header encoder.config encoder.generation frameType sequence
              payload.length targetLen ++ (payload ++ padding)),
            { encoder with
              nextSequence := checkedAdd sequence 1
              rngState := state
              metrics :=
                { frames := saturatingAdd metrics.frames 1
                  payloadBytes :=
                    saturatingAdd metrics.payloadBytes payload.length
                  headerBytes :=
                    saturatingAdd metrics.headerBytes phantomOneHeaderBytes
                  paddingBytes :=
                    saturatingAdd metrics.paddingBytes paddingLen } })

def encode (encoder : PhantomOneEncoder rng) (frameType : PhantomOneFrameType)
    (payload : Bytes) (pathMtu : Nat) :
    Except ShphError Bytes × PhantomOneEncoder rng :=
  match encoder.targetSize payload.length pathMtu with
  | (.error error, encoder) => (.error error, encoder)
  | (.ok targetLen, encoder) =>
      encoder.encodeWithTarget frameType payload targetLen pathMtu

end PhantomOneEncoder

structure DecodedPhantomOneParts where
  profile : ProfileTier
  generation : UInt32
  frameType : PhantomOneFrameType
  sequence : Nat
  payloadLen : Nat
  targetLen : Nat
  paddingLen : Nat
deriving Repr, DecidableEq

def DecodedPhantomOneParts.payload (parts : DecodedPhantomOneParts)
    (datagram : Bytes) : Bytes :=
  slice datagram phantomOneHeaderBytes parts.payloadLen

def DecodedPhantomOneParts.toFrame (parts : DecodedPhantomOneParts)
    (datagram : Bytes) : PhantomOneFrame where
  profile := parts.profile
  generation := parts.generation
  frameType := parts.frameType
  sequence := parts.sequence
  payload := parts.payload datagram
  targetLen := parts.targetLen
  paddingLen := parts.paddingLen

def decodeParts (datagram : Bytes) (expectedGeneration : UInt32)
    (pathMtu : Nat) (config : PhantomOneConfig) :
    Except ShphError DecodedPhantomOneParts := do
  config.validate
  validatePathMtu pathMtu
  ensure (phantomOneHeaderBytes ≤ datagram.length ∧ datagram.length ≤ pathMtu)
    (.protocol "Phantom One datagram length is outside path-MTU bounds")
  ensure (slice datagram 0 4 = phantomOneMagic)
    (.protocol "Phantom One magic mismatch")
  ensure (slice datagram 4 1 = [phantomOneVersion])
    (.protocol "Phantom One version mismatch")
  let profile ← okOr ((slice datagram 5 1).head?.bind ProfileTier.fromId)
    (.protocol "Phantom One profile identifier is unsupported")
  ensure (profile = config.profile)
    (.protocol "Phantom One profile does not match session policy")
  ensure (ofBigEndian (slice datagram 6 4) = expectedGeneration.toNat)
    (.protocol "Phantom One generation mismatch")
  let frameType ← PhantomOneFrameType.tryFrom
    ((slice datagram 10 1).headD 0)
  let sequence := ofBigEndian (slice datagram 11 8)
  let payloadLen := ofBigEndian (slice datagram 19 2)
  let targetLen := ofBigEndian (slice datagram 21 2)
  ensure (slice datagram 23 1 = [0])
    (.protocol "Phantom One reserved header bytes are non-canonical")
  ensure (targetLen = datagram.length)
    (.protocol "Phantom One target length does not match datagram length")
  ensure (targetLen ≤ pathMtu)
    (.protocol "Phantom One target length exceeds path MTU")
  validatePayloadLength payloadLen
  let payloadEnd ← okOr (checkedAdd phantomOneHeaderBytes payloadLen)
    (.protocol "Phantom One payload length overflow")
  ensure (payloadEnd ≤ targetLen)
    (.protocol "Phantom One payload is truncated by target length")
  let paddingLen := targetLen - payloadEnd
  ensure (config.minPadding ≤ paddingLen ∧ paddingLen ≤ config.maxPadding)
    (.protocol "Phantom One padding is outside the configured bounds")
  ensure (config.profileBound → profile.acceptsFrameLen targetLen)
    (.protocol ("Phantom One target is outside the selected profile's " ++
      "canonical size classes"))
  return { profile, generation := expectedGeneration, frameType, sequence
           payloadLen, targetLen, paddingLen }

structure PhantomOneDecoder where
  generation : UInt32
  windowSize : Nat
  config : PhantomOneConfig
  highestSequence : Option Nat
  seenBitmap : BitVec 64
  paddingBytesUsed : Nat
deriving Repr, DecidableEq

namespace PhantomOneDecoder

def withConfigAndWindow (generation : UInt32) (config : PhantomOneConfig)
    (windowSize : Nat) : Except ShphError PhantomOneDecoder := do
  config.validate
  ensure (1 ≤ windowSize ∧ windowSize ≤ phantomOneDefaultReplayWindow)
    (.config "Phantom One replay window must be between 1 and 64")
  return { generation, windowSize, config, highestSequence := none
           seenBitmap := 0, paddingBytesUsed := 0 }

def nextPaddingBytes (decoder : PhantomOneDecoder) (paddingLen : Nat) :
    Except ShphError Nat := do
  let next ← okOr (checkedAdd decoder.paddingBytesUsed paddingLen)
    (.protocol "Phantom One session padding counter overflow")
  ensure (∀ budget ∈ decoder.config.paddingBudget, next ≤ budget.toNat)
    (.protocol "Phantom One session padding budget exceeded")
  return next

def windowMask (decoder : PhantomOneDecoder) : BitVec 64 :=
  if decoder.windowSize = 64 then BitVec.allOnes 64
  else (1#64 <<< decoder.windowSize) - 1#64

def acceptSequence (decoder : PhantomOneDecoder) (sequence : Nat) :
    Except ShphError PhantomOneDecoder :=
  match decoder.highestSequence with
  | none =>
      .ok { decoder with highestSequence := some sequence, seenBitmap := 1 }
  | some highest =>
      if highest < sequence then
        let shift := sequence - highest
        if decoder.windowSize ≤ shift then
          .ok { decoder with highestSequence := some sequence, seenBitmap := 1 }
        else
          .ok { decoder with
            highestSequence := some sequence
            seenBitmap :=
              ((decoder.seenBitmap <<< shift) ||| 1#64) &&& decoder.windowMask }
      else
        let distance := highest - sequence
        if decoder.windowSize ≤ distance then
          .error (.protocol "Phantom One sequence is outside replay window")
        else
          let bit := 1#64 <<< distance
          if decoder.seenBitmap &&& bit ≠ 0 then
            .error (.protocol "Phantom One replay detected")
          else .ok { decoder with seenBitmap := decoder.seenBitmap ||| bit }

/-- The checks and the commit that both ways of decoding share. -/
def accept (decoder : PhantomOneDecoder) (datagram : Bytes) (pathMtu : Nat) :
    Except ShphError (DecodedPhantomOneParts × PhantomOneDecoder) := do
  let parts ← decodeParts datagram decoder.generation pathMtu decoder.config
  let nextPadding ← decoder.nextPaddingBytes parts.paddingLen
  let accepted ← decoder.acceptSequence parts.sequence
  return (parts, { accepted with paddingBytesUsed := nextPadding })

def decode (decoder : PhantomOneDecoder) (datagram : Bytes) (pathMtu : Nat) :
    Except ShphError PhantomOneFrame × PhantomOneDecoder :=
  match decoder.accept datagram pathMtu with
  | .error error => (.error error, decoder)
  | .ok (parts, decoder) => (.ok (parts.toFrame datagram), decoder)

/-- Decode to the payload alone. -/
def decodeInPlace (decoder : PhantomOneDecoder) (datagram : Bytes)
    (pathMtu : Nat) : Except ShphError Bytes × PhantomOneDecoder :=
  match decoder.accept datagram pathMtu with
  | .error error => (.error error, decoder)
  | .ok (parts, decoder) => (.ok (parts.payload datagram), decoder)

end PhantomOneDecoder

end Shph
