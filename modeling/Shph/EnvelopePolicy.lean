/-
Policy negotiation.  Each peer sends an offer with its preferred profile, the
profiles it supports, directional frame limits and budgets and the cover
policy.  Both compute what the two offers agree on, and exchange a hash of the
offers and the agreement.
-/
import Shph.Cover
import Shph.Handshake
import Shph.PhantomOne

namespace Shph

open ByteCodec

def policyMagic : Bytes :=
  [0x53, 0x48, 0x50, 0x48, 0x2D, 0x50, 0x4F, 0x4C, 0x02]

def offerBytes : Nat := 127

def profileMask : UInt8 := 0b00111111

def maxFrameBudget : UInt64 := 2 ^ 48

def maxPayloadBudget : UInt64 := 2 ^ 60

structure FrameBudget where
  maxFrames : UInt64
  maxPayloadBytes : UInt64
deriving Repr, DecidableEq

namespace FrameBudget

def validate (budget : FrameBudget) : Except ShphError Unit :=
  ensure (budget.maxFrames ≠ 0 ∧ budget.maxFrames ≤ maxFrameBudget ∧
      budget.maxPayloadBytes ≠ 0 ∧ budget.maxPayloadBytes ≤ maxPayloadBudget)
    (.protocol "invalid directional frame budget")

def intersect (budget peer : FrameBudget) : FrameBudget :=
  ⟨min budget.maxFrames peer.maxFrames,
    min budget.maxPayloadBytes peer.maxPayloadBytes⟩

def default : FrameBudget := ⟨2 ^ 32, 2 ^ 40⟩

end FrameBudget

structure NegotiatedPolicy where
  config : PhantomOneConfig
  outboundFrameLimit : Nat
  inboundFrameLimit : Nat
  outboundBudget : FrameBudget
  inboundBudget : FrameBudget
deriving Repr, DecidableEq

structure EnvelopeOffer where
  binding : FixedBytes 32
  supportedProfiles : UInt8
  config : PhantomOneConfig
  outboundFrameLimit : UInt16
  inboundFrameLimit : UInt16
  outboundBudget : FrameBudget
  inboundBudget : FrameBudget
  cover : Option CoverPolicy
deriving Repr, DecidableEq

def hexDigitValue (char : Char) : Option Nat :=
  if '0' ≤ char ∧ char ≤ '9' then some (char.toNat - 48)
  else if 'a' ≤ char ∧ char ≤ 'f' then some (char.toNat - 87)
  else if 'A' ≤ char ∧ char ≤ 'F' then some (char.toNat - 55)
  else none

/-- `u8::from_str_radix` on two characters; a leading plus sign is allowed. -/
def hexByte (high low : Char) : Option UInt8 := do
  let low ← hexDigitValue low
  if high = '+' then return UInt8.ofNat low
  else
    let high ← hexDigitValue high
    return UInt8.ofNat (16 * high + low)

def hexBytes : List Char → Option Bytes
  | [] => some []
  | [_] => none
  | high :: low :: rest => do
      let byte ← hexByte high low
      let bytes ← hexBytes rest
      return byte :: bytes

def parseBinding (transcriptHex : String) :
    Except ShphError (FixedBytes 32) := do
  ensure (transcriptHex.toList.length = 64 ∧
      transcriptHex.toList.all fun char => char.toNat < 128)
    (.protocol "policy requires a 32-byte transcript hash")
  let bytes ← okOr (hexBytes transcriptHex.toList)
    (.protocol "invalid transcript hash")
  okOr (FixedBytes.ofBytes? 32 bytes) (.protocol "invalid transcript hash")

def PhantomOneConfig.withProfile (config : PhantomOneConfig)
    (profile : ProfileTier) : PhantomOneConfig :=
  { config with profile, profileBound := true }

def PhantomOneConfig.withSelection (config : PhantomOneConfig)
    (selection : SizeSelection) : Except ShphError PhantomOneConfig := do
  let config := { config with selection }
  config.validate
  return config

def PhantomOneConfig.withPaddingBudget (config : PhantomOneConfig)
    (bytes : UInt64) : PhantomOneConfig :=
  { config with paddingBudget := some bytes }

def profileConfig (config : PhantomOneConfig) (profile : ProfileTier) :
    Except ShphError PhantomOneConfig :=
  if config.profileBound then do
    (config.withProfile profile).validate
    return config.withProfile profile
  else if config.profile = profile then do
    config.validate
    return config
  else
    .error (.protocol
      "unbound envelope policy supports only its configured profile")

def samePolicySettings (left right : PhantomOneConfig) : Bool :=
  left.minPadding == right.minPadding && left.maxPadding == right.maxPadding &&
    left.selection == right.selection &&
    left.paddingBudget == right.paddingBudget &&
    left.profileBound == right.profileBound

/-- The bit of a profile in a set of profiles. -/
def profileBit (profile : ProfileTier) : UInt8 := 1 <<< profile.id

namespace EnvelopeOffer

def new (transcriptHex : String) (config : PhantomOneConfig)
    (frameLimit : Nat) : Except ShphError EnvelopeOffer := do
  let binding ← parseBinding transcriptHex
  validatePathMtu frameLimit
  config.validate
  return {
    binding, config
    supportedProfiles := profileBit config.profile
    outboundFrameLimit := UInt16.ofNat frameLimit
    inboundFrameLimit := UInt16.ofNat frameLimit
    outboundBudget := .default
    inboundBudget := .default
    cover := none }

/-- One more profile in the set of supported ones. -/
def addProfile (config : PhantomOneConfig) (mask : UInt8)
    (profile : ProfileTier) : Except ShphError UInt8 := do
  ensure (mask &&& profileBit profile = 0)
    (.protocol "duplicate supported policy profile")
  let _ ← profileConfig config profile
  return mask ||| profileBit profile

def withSupportedProfiles (offer : EnvelopeOffer)
    (profiles : List ProfileTier) : Except ShphError EnvelopeOffer := do
  ensure (profiles ≠ [] ∧ profiles.length ≤ 6)
    (.protocol "policy must advertise 1..6 supported profiles")
  let mask ← profiles.foldlM (addProfile offer.config) 0
  ensure (mask &&& profileBit offer.config.profile ≠ 0)
    (.protocol "supported profiles omit the preferred profile")
  ensure (offer.config.profileBound ∨ mask = profileBit offer.config.profile)
    (.protocol
      "multiple profiles require a profile-bound envelope configuration")
  return { offer with supportedProfiles := mask }

def withDirectionalLimits (offer : EnvelopeOffer) (outbound inbound : Nat) :
    Except ShphError EnvelopeOffer := do
  validatePathMtu outbound
  validatePathMtu inbound
  ensure (outbound < 2 ^ 16) (.protocol "outbound frame limit is too large")
  ensure (inbound < 2 ^ 16) (.protocol "inbound frame limit is too large")
  return { offer with
    outboundFrameLimit := UInt16.ofNat outbound
    inboundFrameLimit := UInt16.ofNat inbound }

def withDirectionalBudgets (offer : EnvelopeOffer)
    (outbound inbound : FrameBudget) : Except ShphError EnvelopeOffer := do
  outbound.validate
  inbound.validate
  return { offer with outboundBudget := outbound, inboundBudget := inbound }

def validateCover : Option CoverPolicy → Except ShphError Unit
  | some policy => policy.validate
  | none => .ok ()

def withCover (offer : EnvelopeOffer) (cover : Option CoverPolicy) :
    Except ShphError EnvelopeOffer := do
  validateCover cover
  return { offer with cover }

/-- The tag and the seven weights of a selection. -/
def selectionBytes : SizeSelection → Bytes
  | .firstFit => 0 :: (List.replicate 7 (0 : UInt16)).flatMap
      fun weight => bigEndian 2 weight.toNat
  | .weighted weights => 1 :: weights.toList.flatMap
      fun weight => bigEndian 2 weight.toNat

def paddingBudgetBytes (budget : Option UInt64) : Bytes :=
  (if budget.isSome then 1 else 0) :: bigEndian 8 (budget.getD 0).toNat

def budgetBytes (budget : FrameBudget) : Bytes :=
  bigEndian 8 budget.maxFrames.toNat ++
    bigEndian 8 budget.maxPayloadBytes.toNat

def coverBytes : Option CoverPolicy → Bytes
  | some cover =>
      1 :: (bigEndian 4 cover.intervalMs.toNat ++
        (bigEndian 4 cover.idleTimeoutMs.toNat ++
          (bigEndian 8 cover.maximumBytes.toNat ++
            bigEndian 2 cover.overheadPercent.toNat)))
  | none => List.replicate 19 0

/-- The parts of the encoding, all of fixed length. -/
def encodedFields (offer : EnvelopeOffer) : List Bytes :=
  [policyMagic, offer.binding.val, [offer.config.profile.id],
    [offer.supportedProfiles], [if offer.config.profileBound then 1 else 0],
    bigEndian 2 offer.config.minPadding, bigEndian 2 offer.config.maxPadding,
    selectionBytes offer.config.selection,
    paddingBudgetBytes offer.config.paddingBudget,
    bigEndian 2 offer.outboundFrameLimit.toNat,
    bigEndian 2 offer.inboundFrameLimit.toNat,
    budgetBytes offer.outboundBudget, budgetBytes offer.inboundBudget,
    coverBytes offer.cover]

def encode (offer : EnvelopeOffer) : Bytes := offer.encodedFields.flatten

/-- The byte at an index inside the offer. -/
def byteAt (bytes : Bytes) (index : Nat) : UInt8 := bytes.getD index 0

/-- The number in `width` bytes from an offset on. -/
def numberAt (bytes : Bytes) (offset width : Nat) : Nat :=
  ofBigEndian (slice bytes offset width)

def decodeSelection (bytes : Bytes) : Except ShphError SizeSelection :=
  let weights : Vector UInt16 7 :=
    Vector.ofFn fun index => UInt16.ofNat (numberAt bytes (49 + index * 2) 2)
  if byteAt bytes 48 = 0 ∧ weights = Vector.replicate 7 0 then .ok .firstFit
  else if byteAt bytes 48 = 1 then .ok (.weighted weights)
  else .error (.protocol "invalid policy selection")

def decodeBinding (bytes : Bytes) (profile : ProfileTier)
    (config : PhantomOneConfig) : Except ShphError PhantomOneConfig :=
  if byteAt bytes 43 = 0 ∧ profile = .medium then .ok config
  else if byteAt bytes 43 = 1 then .ok (config.withProfile profile)
  else .error (.protocol "noncanonical profile binding")

def decodePaddingBudget (bytes : Bytes) (config : PhantomOneConfig) :
    Except ShphError PhantomOneConfig :=
  let paddingBudget := UInt64.ofNat (numberAt bytes 64 8)
  if byteAt bytes 63 = 0 ∧ paddingBudget = 0 then .ok config
  else if byteAt bytes 63 = 1 then
    .ok (config.withPaddingBudget paddingBudget)
  else .error (.protocol "invalid padding budget encoding")

def decodeConfig (bytes : Bytes) (profile : ProfileTier) :
    Except ShphError PhantomOneConfig := do
  let config ←
    PhantomOneConfig.new (numberAt bytes 44 2) (numberAt bytes 46 2)
  let config ← decodeBinding bytes profile config
  let selection ← decodeSelection bytes
  let config ← config.withSelection selection
  decodePaddingBudget bytes config

def decodeBudget (bytes : Bytes) (offset : Nat) : FrameBudget :=
  ⟨UInt64.ofNat (numberAt bytes offset 8),
    UInt64.ofNat (numberAt bytes (offset + 8) 8)⟩

/-- A profile of the set must be possible with the configuration. -/
def checkProfile (config : PhantomOneConfig) (supportedProfiles id : UInt8) :
    Except ShphError Unit :=
  if supportedProfiles &&& (1 <<< id) ≠ 0 then do
    let profile ← okOr (ProfileTier.fromId id)
      (.protocol "unknown policy profile")
    let _ ← profileConfig config profile
    return ()
  else .ok ()

def decodeCover (bytes : Bytes) : Except ShphError (Option CoverPolicy) :=
  if byteAt bytes 108 = 0 ∧ (bytes.drop 109).all (· == 0) then .ok none
  else if byteAt bytes 108 = 1 then do
    let policy : CoverPolicy := {
      intervalMs := UInt32.ofNat (numberAt bytes 109 4)
      idleTimeoutMs := UInt32.ofNat (numberAt bytes 113 4)
      maximumBytes := UInt64.ofNat (numberAt bytes 117 8)
      overheadPercent := UInt16.ofNat (numberAt bytes 125 2) }
    policy.validate
    return some policy
  else .error (.protocol "invalid cover policy encoding")

def decode (bytes : Bytes) : Except ShphError EnvelopeOffer := do
  ensure (bytes.length = offerBytes ∧ bytes.take 9 = policyMagic)
    (.protocol "unsupported or malformed envelope policy")
  let profile ← okOr (ProfileTier.fromId (byteAt bytes 41))
    (.protocol "unknown policy profile")
  let supportedProfiles := byteAt bytes 42
  ensure (supportedProfiles ≠ 0 ∧ supportedProfiles &&& ~~~profileMask = 0 ∧
      supportedProfiles &&& profileBit profile ≠ 0)
    (.protocol "invalid supported-profile set")
  let config ← decodeConfig bytes profile
  let outboundFrameLimit := UInt16.ofNat (numberAt bytes 72 2)
  let inboundFrameLimit := UInt16.ofNat (numberAt bytes 74 2)
  validatePathMtu outboundFrameLimit.toNat
  validatePathMtu inboundFrameLimit.toNat
  let outboundBudget := decodeBudget bytes 76
  let inboundBudget := decodeBudget bytes 92
  outboundBudget.validate
  inboundBudget.validate
  [0, 1, 2, 3, 4, 5].forM (checkProfile config supportedProfiles)
  let cover ← decodeCover bytes
  let binding ← okOr (FixedBytes.ofBytes? 32 (slice bytes 9 32))
    (.protocol "unsupported or malformed envelope policy")
  return { binding, supportedProfiles, config, outboundFrameLimit
           inboundFrameLimit, outboundBudget, inboundBudget, cover }

/-- How many of the two peers prefer another profile. -/
def mismatches (left right profile : ProfileTier) : Nat :=
  (if profile ≠ left then 1 else 0) + (if profile ≠ right then 1 else 0)

/-- `min_by_key`: the first profile with the least key, where the key is the
number of mismatches and then the identifier. -/
def minByKey (mismatches : ProfileTier → Nat) :
    List ProfileTier → Option ProfileTier
  | [] => none
  | profile :: rest =>
      match minByKey mismatches rest with
      | none => some profile
      | some other =>
          if mismatches other < mismatches profile ∨
              mismatches other = mismatches profile ∧ other.id < profile.id
          then some other
          else some profile

/-- The common profile that the most peers prefer. -/
def selectProfile (common : UInt8) (left right : ProfileTier) :
    Option ProfileTier :=
  minByKey (mismatches left right)
    (([0, 1, 2, 3, 4, 5].filter fun id : UInt8 =>
      common &&& (1 <<< id) ≠ 0).filterMap ProfileTier.fromId)

def negotiate (offer peer : EnvelopeOffer) :
    Except ShphError NegotiatedPolicy := do
  ensure (offer.binding = peer.binding ∧
      samePolicySettings offer.config peer.config ∧ offer.cover = peer.cover)
    (.protocol "envelope policies or authenticated sessions do not match")
  let profile ← okOr (selectProfile
      (offer.supportedProfiles &&& peer.supportedProfiles)
      offer.config.profile peer.config.profile)
    (.protocol "peers have no common envelope profile")
  let config ← profileConfig offer.config profile
  let _ ← profileConfig peer.config profile
  return {
    config
    outboundFrameLimit :=
      (min offer.outboundFrameLimit peer.inboundFrameLimit).toNat
    inboundFrameLimit :=
      (min offer.inboundFrameLimit peer.outboundFrameLimit).toNat
    outboundBudget := offer.outboundBudget.intersect peer.inboundBudget
    inboundBudget := offer.inboundBudget.intersect peer.outboundBudget }

def agree (offer peer : EnvelopeOffer) : Except ShphError Nat := do
  let agreement ← offer.negotiate peer
  return min agreement.outboundFrameLimit agreement.inboundFrameLimit

/-- The text that domain-separates the acknowledgement. -/
def acknowledgementDomain : Bytes := textBytes "SHPH-policy-ack-v2\x00"

/-- The bytes that are hashed: the offers in the order of their encodings and
the agreement in the same order of the directions. -/
def acknowledgementInput (offer peer : EnvelopeOffer)
    (agreement : NegotiatedPolicy) : Bytes :=
  if lexLe offer.encode peer.encode then
    acknowledgementDomain ++ (offer.encode ++ (peer.encode ++
      ([agreement.config.profile.id] ++
        (bigEndian 2 agreement.outboundFrameLimit ++
          bigEndian 2 agreement.inboundFrameLimit) ++
        (budgetBytes agreement.outboundBudget ++
          budgetBytes agreement.inboundBudget))))
  else
    acknowledgementDomain ++ (peer.encode ++ (offer.encode ++
      ([agreement.config.profile.id] ++
        (bigEndian 2 agreement.inboundFrameLimit ++
          bigEndian 2 agreement.outboundFrameLimit) ++
        (budgetBytes agreement.inboundBudget ++
          budgetBytes agreement.outboundBudget))))

def acknowledgement (sha256 : Bytes → FixedBytes 32)
    (offer peer : EnvelopeOffer) : Except ShphError (FixedBytes 32) := do
  let agreement ← offer.negotiate peer
  return sha256 (acknowledgementInput offer peer agreement)

end EnvelopeOffer

end Shph
