/-
The configuration of the edge and the way from it to a front door.  The
configuration is validated as a whole; the verifier and the builders of the
front door check their own arguments once more, against what the builders
before them have left.
-/
import Shph.ControlPlanePlan
import Shph.FrontDoorCapacity

namespace Shph.Edge

open ByteCodec Checked
open ControlPlane (isUnspecified isLoopback)

def maxConfigBytes : Nat := 64 * 1024

structure TlsConfig where
  cert : Option String
  key : Option String
  ca : Option String
  serverName : String
deriving Repr, DecidableEq

structure Limits where
  maxTokenBytes : Nat := 4096
  maxStreamBytes : Nat := 64 * 1024 * 1024
  maxConnections : Nat := 1024
  replayCapacity : Nat := defaultReplayCapacity
  maxCapabilityVerificationsPerSecond : Nat := 256
  maxCapabilityLifetimeSecs : Nat := 300
  clockSkewSecs : Nat := 5
  backendConnectTimeoutMs : Nat := 5000
  backendIdleTimeoutMs : Nat := 30000
  tlsHandshakeTimeoutMs : Nat := 5000
  http2IdleTimeoutMs : Nat := 30000
  maxStreamsPerConnection : Nat := 128
  maxHttp2Connections : Nat := 4
deriving Repr, DecidableEq

namespace Limits

def default : Limits := {}

/-- How long the validator takes a used nonce to be kept. -/
def replayRetentionSecs (limits : Limits) : Nat :=
  saturatingAdd (saturatingAdd limits.maxCapabilityLifetimeSecs
    (saturatingMul limits.clockSkewSecs 2)) 1

def validate (limits : Limits) : Except EdgeConfigError Unit :=
  require (
    (64 ≤ limits.maxTokenBytes ∧ limits.maxTokenBytes ≤ 4096) ∧
    limits.maxStreamBytes ≠ 0 ∧
    limits.maxStreamBytes ≤ 1024 * 1024 * 1024 ∧
    (1 ≤ limits.maxConnections ∧ limits.maxConnections ≤ 100000) ∧
    (1 ≤ limits.replayCapacity ∧ limits.replayCapacity ≤ 1000000) ∧
    (1 ≤ limits.maxCapabilityVerificationsPerSecond ∧
      limits.maxCapabilityVerificationsPerSecond ≤ 100000) ∧
    (1 ≤ limits.maxCapabilityLifetimeSecs ∧
      limits.maxCapabilityLifetimeSecs ≤ 3600) ∧
    limits.clockSkewSecs ≤ 300 ∧
    saturatingMul limits.maxCapabilityVerificationsPerSecond
      limits.replayRetentionSecs ≤ limits.replayCapacity ∧
    (100 ≤ limits.backendConnectTimeoutMs ∧
      limits.backendConnectTimeoutMs ≤ 60000) ∧
    (100 ≤ limits.backendIdleTimeoutMs ∧
      limits.backendIdleTimeoutMs ≤ 600000) ∧
    (100 ≤ limits.tlsHandshakeTimeoutMs ∧
      limits.tlsHandshakeTimeoutMs ≤ 60000) ∧
    (100 ≤ limits.http2IdleTimeoutMs ∧
      limits.http2IdleTimeoutMs ≤ 600000) ∧
    (1 ≤ limits.maxStreamsPerConnection ∧
      limits.maxStreamsPerConnection ≤ 1024) ∧
    (1 ≤ limits.maxHttp2Connections ∧ limits.maxHttp2Connections ≤ 64))
    .invalidLimits

/-- The defaults pass their own check. -/
theorem validate_default : default.validate = .ok () := by decide

end Limits

structure SocksConfig where
  listen : SocketAddr := ⟨.ofOctets 127 0 0 1, 10808⟩
  maxConnections : Nat := 128
deriving Repr, DecidableEq

structure EdgeConfig where
  listen : SocketAddr
  backend : String
  audience : String
  publicKey : String
  relayPath : String := defaultRelayPath
  tls : TlsConfig := ⟨none, none, none, ""⟩
  limits : Limits := {}
  socks : SocksConfig := {}
deriving Repr, DecidableEq

/-- A byte the validator takes for a control character or white space. -/
def isControlOrWhitespace (byte : UInt8) : Bool :=
  byte ≤ 0x20 || byte == 0x7f

def forbiddenInServerName (byte : UInt8) : Bool :=
  byte ≤ 0x20 || byte == 0x7f || byte == 0x2f || byte == 0x40

namespace EdgeConfig

section Validation

variable (parseSocket : String → Option SocketAddr) (parseUri : UriParser)

def validateAudience (audience : Bytes) : Except EdgeConfigError Unit :=
  require (audience ≠ [] ∧ audience.length ≤ 64 ∧ audience.all (· < 0x80) ∧
    ¬ audience.any isControlOrWhitespace) .invalidAudience

def validateTls (tls : TlsConfig) : Except EdgeConfigError Unit := do
  let serverName := textBytes tls.serverName
  require (tls.cert.isSome = tls.key.isSome) .incompleteTls
  require (¬ ((tls.cert.isSome ∨ tls.key.isSome) ∧ serverName = []) ∧
    serverName.length ≤ 253 ∧ serverName.all (· < 0x80) ∧
    ¬ serverName.any forbiddenInServerName) .invalidServerName

def validate (config : EdgeConfig) : Except EdgeConfigError Unit := do
  let backend ← valueOr (parseSocket config.backend) .invalidBackend
  require (¬ (backend.port = 0 ∨ isUnspecified backend.ip)) .invalidBackend
  validateAudience (textBytes config.audience)
  validateRelayPath parseUri config.relayPath
  validateTls config.tls
  require (isLoopback config.socks.listen.ip ∧
    config.socks.maxConnections ≠ 0 ∧
    config.socks.maxConnections ≤ 10000) .invalidLimits
  config.limits.validate

/-- A file is read as a configuration, by a reader of TOML, and validated. -/
def fromTomlBytes (readToml : String → Option EdgeConfig) (bytes : Bytes) :
    Except EdgeConfigError EdgeConfig := do
  require (bytes.length ≤ maxConfigBytes) .tooLarge
  let source ← valueOr (String.fromUTF8? ⟨bytes.toArray⟩) .malformed
  let config ← valueOr (readToml source) .malformed
  config.validate parseSocket parseUri
  return config

/-- What is read is validated. -/
theorem validate_of_fromTomlBytes {readToml : String → Option EdgeConfig}
    {bytes : Bytes} {config : EdgeConfig}
    (hread : fromTomlBytes parseSocket parseUri readToml bytes = .ok config) :
    config.validate parseSocket parseUri = .ok () := by
  simp only [fromTomlBytes, bind_eq_ok, require_eq_ok_iff, valueOr_eq_ok_iff,
    exists_and_left, exists_const, pure_eq_ok] at hread
  obtain ⟨-, source, -, read, -, _, hvalid, rfl⟩ := hread
  exact hvalid

end Validation

def maxLifetime (config : EdgeConfig) : Duration :=
  config.limits.maxCapabilityLifetimeSecs * 10 ^ 9

def clockSkew (config : EdgeConfig) : Duration :=
  config.limits.clockSkewSecs * 10 ^ 9

end EdgeConfig

/-- Why serving does not begin: an error of one of the steps, with the words
that are put in front of it. -/
inductive StartError where
  | capability (error : CapabilityError)
  | config (context : String) (error : EdgeConfigError)
deriving Repr, DecidableEq

/-- A step whose error is returned as it is. -/
def withoutContext {A : Type} (result : Except CapabilityError A) :
    Except StartError A :=
  match result with
  | .ok value => .ok value
  | .error error => .error (.capability error)

/-- `context` of a fallible step. -/
def withContext {A : Type} (context : String)
    (result : Except EdgeConfigError A) : Except StartError A :=
  match result with
  | .ok value => .ok value
  | .error error => .error (.config context error)

/-- The way from a validated configuration to the front door. -/
def buildFrontDoor (parseUri : UriParser) (publicKey : Key)
    (config : EdgeConfig) (uniformFallback : Bool) :
    Except StartError FrontDoor := do
  let verifier ← withoutContext (CapabilityVerifier.new publicKey config.audience
    config.maxLifetime config.clockSkew)
  let door ← withContext "invalid relay path"
    (FrontDoor.withPath parseUri verifier config.limits.maxTokenBytes config.relayPath)
  let door ← withContext "invalid replay capacity"
    (door.withReplayCapacity config.limits.replayCapacity)
  let door ← withContext "invalid capability verification rate"
    (door.withMaxVerificationsPerSecond
      config.limits.maxCapabilityVerificationsPerSecond)
  return door.withUniformFallback uniformFallback

@[simp] theorem withoutContext_eq_ok_iff {A : Type}
    {result : Except CapabilityError A} {value : A} :
    withoutContext result = .ok value ↔ result = .ok value := by
  cases result <;> simp [withoutContext]

@[simp] theorem withContext_eq_ok_iff {A : Type} {context : String}
    {result : Except EdgeConfigError A} {value : A} :
    withContext context result = .ok value ↔ result = .ok value := by
  cases result <;> simp [withContext]

/-- The audiences a verifier takes, for lifetimes of a second or more. -/
theorem CapabilityVerifier.new_eq_ok_iff {publicKey : Key} {audience : String}
    {maxLifetime clockSkew : Duration} {verifier : CapabilityVerifier}
    (hlifetime : 1 ≤ maxLifetime.asSecs) :
    CapabilityVerifier.new publicKey audience maxLifetime clockSkew =
        .ok verifier ↔
      ((textBytes audience ≠ [] ∧
          (textBytes audience).length ≤ maxAudienceLen) ∧
        (textBytes audience).all (· < 0x80) = true ∧
        ¬ (textBytes audience).any CapabilityClaims.forbiddenByte = true) ∧
      verifier = ⟨publicKey, audience, maxLifetime, clockSkew⟩ := by
  have hshape := @validateShape_eq_ok_iff
    ⟨audience, 1, 2, FixedBytes.replicate nonceLen 0⟩ 1 maxLifetime ()
  have hone : (2 : UInt64).toNat - (1 : UInt64).toNat = 1 := rfl
  simp only [hone, hlifetime, show (1 : UInt64) < 2 by decide,
    show (1 : UInt64).toNat ≤ 1 by decide,
    show 1 < (2 : UInt64).toNat by decide, and_true] at hshape
  rw [← hshape, CapabilityVerifier.new]
  split
  · rename_i hok
    rw [hok]
    simp [eq_comm]
  · rename_i error herror
    simp [herror]

/-- Neither kind of slash. -/
def SlashFree (audience : Bytes) : Prop :=
  (0x2f : UInt8) ∉ audience ∧ (0x5c : UInt8) ∉ audience

instance : DecidablePred SlashFree := fun audience =>
  inferInstanceAs (Decidable ((0x2f : UInt8) ∉ audience ∧
    (0x5c : UInt8) ∉ audience))

/-- What the verifier forbids and the validator does not are the slashes. -/
theorem forbidden_iff_slashFree {audience : Bytes}
    (hplain : ¬ audience.any isControlOrWhitespace = true) :
    ¬ audience.any CapabilityClaims.forbiddenByte = true ↔
      SlashFree audience := by
  simp only [List.any_eq_true, not_exists, not_and, isControlOrWhitespace,
    Bool.or_eq_true, decide_eq_true_eq, beq_iff_eq, not_or] at hplain
  simp only [List.any_eq_true, not_exists, not_and, SlashFree,
    CapabilityClaims.forbiddenByte, Bool.or_eq_true, decide_eq_true_eq,
    beq_iff_eq, not_or]
  constructor
  · intro hall
    exact ⟨fun hslash => (hall _ hslash).1.2 rfl,
      fun hslash => (hall _ hslash).2 rfl⟩
  · rintro ⟨hslash, hbackslash⟩ byte hbyte
    exact ⟨⟨(hplain byte hbyte).1, fun heq => hslash (heq ▸ hbyte)⟩,
      fun heq => hbackslash (heq ▸ hbyte)⟩

theorem EdgeConfig.maxLifetime_asSecs (config : EdgeConfig) :
    config.maxLifetime.asSecs = config.limits.maxCapabilityLifetimeSecs :=
  Nat.mul_div_cancel _ (by decide)

theorem EdgeConfig.clockSkew_asSecs (config : EdgeConfig) :
    config.clockSkew.asSecs = config.limits.clockSkewSecs :=
  Nat.mul_div_cancel _ (by decide)

theorem exists_newCache {capacity : Nat} (hpos : 1 ≤ capacity)
    (hle : capacity ≤ 1000000) : ∃ cache, newCache capacity = .ok cache := by
  refine ⟨⟨capacity, KeyTable.empty, MinQueue.empty⟩, ?_⟩
  have hbounds : capacity ≠ 0 ∧ capacity ≤ 1000000 := ⟨by omega, hle⟩
  simp [newCache, ReplayCache.new, require, hbounds, bind, Except.bind, pure,
    Except.pure]

/-- On a validated path the first builder succeeds, and leaves the default
rate. -/
theorem withPath_of_validated {parseUri : UriParser} {relayPath : String}
    (hpath : validateRelayPath parseUri relayPath = .ok ())
    (verifier : CapabilityVerifier) (maxTokenBytes : Nat) :
    ∃ cache, FrontDoor.withPath parseUri verifier maxTokenBytes relayPath =
      .ok ⟨verifier, maxTokenBytes, relayPath, false,
        ⟨defaultMaxVerificationsPerSecond, 0⟩, defaultReplayCapacity,
        cache⟩ := by
  obtain ⟨cache, hcache⟩ : ∃ cache, newCache defaultReplayCapacity =
      .ok cache := exists_newCache (by decide) (by decide)
  refine ⟨cache, ?_⟩
  simp only [FrontDoor.withPath, bind_eq_ok, valueOr_eq_ok_iff]
  exact ⟨(), hpath, cache, hcache, _, rfl, rfl⟩

/-- What a validated configuration is known to be, as far as the builders look
at it. -/
structure EdgeConfig.Validated (parseUri : UriParser) (config : EdgeConfig) :
    Prop where
  audience_ne : textBytes config.audience ≠ []
  audience_le : (textBytes config.audience).length ≤ maxAudienceLen
  ascii : (textBytes config.audience).all (· < 0x80) = true
  plain : ¬ (textBytes config.audience).any isControlOrWhitespace = true
  path : validateRelayPath parseUri config.relayPath = .ok ()
  lifetime_pos : 1 ≤ config.limits.maxCapabilityLifetimeSecs
  lifetime_le : config.limits.maxCapabilityLifetimeSecs ≤ 3600
  skew_le : config.limits.clockSkewSecs ≤ 300
  capacity_pos : 1 ≤ config.limits.replayCapacity
  capacity_le : config.limits.replayCapacity ≤ 1000000
  rate_pos : 1 ≤ config.limits.maxCapabilityVerificationsPerSecond
  rate_le : config.limits.maxCapabilityVerificationsPerSecond ≤ 100000
  covers : saturatingMul config.limits.maxCapabilityVerificationsPerSecond
    config.limits.replayRetentionSecs ≤ config.limits.replayCapacity

theorem EdgeConfig.validated {parseSocket : String → Option SocketAddr}
    {parseUri : UriParser} {config : EdgeConfig}
    (hvalid : config.validate parseSocket parseUri = .ok ()) :
    config.Validated parseUri := by
  simp only [validate, bind_eq_ok, valueOr_eq_ok_iff, require_eq_ok_iff,
    validateAudience, Limits.validate] at hvalid
  obtain ⟨_, -, _, -, _, ⟨hne, hle, hascii, hplain⟩, _, hpath, _, -, _, -, -, -,
    -, -, hcapacity, hrate, hlifetime, hskew, hcovers, -⟩ := hvalid
  exact ⟨hne, hle, hascii, hplain, hpath, hlifetime.1, hlifetime.2, hskew,
    hcapacity.1, hcapacity.2, hrate.1, hrate.2, hcovers⟩

/-- Nothing saturates within the limits. -/
theorem EdgeConfig.Validated.retention_eq {parseUri : UriParser}
    {config : EdgeConfig} (hvalid : config.Validated parseUri) :
    config.limits.replayRetentionSecs =
      config.limits.maxCapabilityLifetimeSecs +
        2 * config.limits.clockSkewSecs + 1 := by
  have hlifetime := hvalid.lifetime_le
  have hskew := hvalid.skew_le
  unfold Limits.replayRetentionSecs saturatingAdd saturatingMul u64Max
  omega

/-- A validated configuration gets to a front door exactly when its audience
has no slash and its capacity covers the default rate as well as its own. -/
theorem validated_config_servable_iff
    {parseSocket : String → Option SocketAddr} {parseUri : UriParser}
    {config : EdgeConfig}
    (hvalid : config.validate parseSocket parseUri = .ok ())
    (publicKey : Key) (uniformFallback : Bool) :
    (∃ door, buildFrontDoor parseUri publicKey config uniformFallback =
        .ok door) ↔
      SlashFree (textBytes config.audience) ∧
        defaultMaxVerificationsPerSecond *
          (config.limits.maxCapabilityLifetimeSecs +
            2 * config.limits.clockSkewSecs + 1) ≤
          config.limits.replayCapacity := by
  have hknown := EdgeConfig.validated hvalid
  have hlifetime := config.maxLifetime_asSecs
  have hretention : ∀ verifier : CapabilityVerifier,
      verifier = ⟨publicKey, config.audience, config.maxLifetime,
        config.clockSkew⟩ →
        verifier.replayRetentionSecs = config.limits.replayRetentionSecs := by
    rintro _ rfl
    simp only [CapabilityVerifier.replayRetentionSecs,
      config.maxLifetime_asSecs, config.clockSkew_asSecs,
      Limits.replayRetentionSecs]
  have hpos := hknown.lifetime_pos
  have hlarge := hknown.lifetime_le
  have hskew := hknown.skew_le
  have hfits : saturatingMul defaultMaxVerificationsPerSecond
      config.limits.replayRetentionSecs ≤ config.limits.replayCapacity ↔
      defaultMaxVerificationsPerSecond *
        (config.limits.maxCapabilityLifetimeSecs +
          2 * config.limits.clockSkewSecs + 1) ≤
        config.limits.replayCapacity := by
    rw [hknown.retention_eq]
    unfold saturatingMul u64Max defaultMaxVerificationsPerSecond
    omega
  rw [← hfits, ← forbidden_iff_slashFree hknown.plain]
  constructor
  · rintro ⟨door, hbuild⟩
    simp only [buildFrontDoor, bind_eq_ok, withoutContext_eq_ok_iff,
      withContext_eq_ok_iff] at hbuild
    obtain ⟨verifier, hmade, first, hfirst, second, hsecond, -⟩ := hbuild
    rw [CapabilityVerifier.new_eq_ok_iff (by omega)] at hmade
    obtain ⟨cache, hpath⟩ := withPath_of_validated hknown.path verifier
      config.limits.maxTokenBytes
    rw [hpath] at hfirst
    cases hfirst
    rw [withReplayCapacity_eq_ok_iff, hretention _ hmade.2] at hsecond
    exact ⟨hmade.1.2.2, hsecond.1⟩
  · rintro ⟨haudience, hcapacity⟩
    have hmade : CapabilityVerifier.new publicKey config.audience
        config.maxLifetime config.clockSkew =
          .ok ⟨publicKey, config.audience, config.maxLifetime,
            config.clockSkew⟩ :=
      (CapabilityVerifier.new_eq_ok_iff (by omega)).mpr
        ⟨⟨⟨hknown.audience_ne, hknown.audience_le⟩, hknown.ascii, haudience⟩,
          rfl⟩
    obtain ⟨cache, hpath⟩ := withPath_of_validated hknown.path
      ⟨publicKey, config.audience, config.maxLifetime, config.clockSkew⟩
      config.limits.maxTokenBytes
    obtain ⟨replayCache, hcache⟩ :=
      exists_newCache hknown.capacity_pos hknown.capacity_le
    have hrate : VerificationRateLimiter.new
        config.limits.maxCapabilityVerificationsPerSecond =
          some ⟨config.limits.maxCapabilityVerificationsPerSecond, 0⟩ :=
      if_pos ⟨hknown.rate_pos, hknown.rate_le⟩
    simp only [buildFrontDoor, bind_eq_ok, withoutContext_eq_ok_iff,
      withContext_eq_ok_iff]
    refine ⟨_, _, hmade, _, hpath, _,
      withReplayCapacity_eq_ok_iff.mpr ⟨?_, replayCache, hcache, rfl⟩, _,
      withMaxVerifications_eq_ok_iff.mpr ⟨?_, _, hrate, rfl⟩, rfl⟩
    · rw [hretention _ rfl]
      exact hcapacity
    · rw [hretention _ rfl]
      exact hknown.covers

namespace EdgeConfigWitness

def backendAddress : SocketAddr := ⟨.ofOctets 127 0 0 1, 9000⟩

def parseSocket (text : String) : Option SocketAddr :=
  if text = "127.0.0.1:9000" then some backendAddress else none

def parseUri : UriParser := fun path => some (path, none)

def serving (audience : String) (limits : Limits) : EdgeConfig where
  listen := ⟨.ofOctets 127 0 0 1, 8443⟩
  backend := "127.0.0.1:9000"
  audience
  publicKey := ""
  tls := ⟨some "server.crt", some "server.key", none, "edge.invalid"⟩
  limits

/-- A rate of one verification per second, and a cache that is large enough
for it. -/
def slow : Limits :=
  { maxCapabilityVerificationsPerSecond := 1, replayCapacity := 1024 }

end EdgeConfigWitness

open EdgeConfigWitness in
theorem validated_config_servable_edge_a :
    ∃ door, buildFrontDoor parseUri (FixedBytes.replicate 32 7)
      (serving "edge-a" .default) false = .ok door := by
  have hvalid : (serving "edge-a" .default).validate parseSocket parseUri =
      .ok () := by decide
  exact (validated_config_servable_iff hvalid (FixedBytes.replicate 32 7)
    false).mpr ⟨by decide, by decide⟩

namespace EdgeConfigWitness

def verifier (publicKey : Key) : CapabilityVerifier :=
  ⟨publicKey, "edge-a", (serving "edge-a" slow).maxLifetime,
    (serving "edge-a" slow).clockSkew⟩

/-- The front door as the first builder leaves it. -/
def door (publicKey : Key) : FrontDoor :=
  ⟨verifier publicKey, 4096, defaultRelayPath, false, ⟨256, 0⟩, 128 * 1024,
    ⟨128 * 1024, KeyTable.empty, MinQueue.empty⟩⟩

theorem door_withReplayCapacity (publicKey : Key) :
    (door publicKey).withReplayCapacity 1024 = .error .invalidLimits := by
  have hretention : (door publicKey).verifier.replayRetentionSecs = 311 := by
    simp only [door, verifier, CapabilityVerifier.replayRetentionSecs,
      EdgeConfig.maxLifetime_asSecs, EdgeConfig.clockSkew_asSecs]
    rfl
  have hcheck : require (saturatingMul
      (door publicKey).verificationRateLimiter.limit 311 ≤ 1024)
      EdgeConfigError.invalidLimits = .error .invalidLimits :=
    if_neg (show ¬ saturatingMul 256 311 ≤ 1024 by decide)
  rw [FrontDoor.withReplayCapacity, hretention, hcheck]
  rfl

end EdgeConfigWitness

open EdgeConfigWitness in
/-- Two validated configurations that are not served: a slash in the audience,
and a cache that only covers a low rate. -/
theorem validated_config_not_servable :
    (serving "edge/a" .default).validate parseSocket parseUri = .ok () ∧
    (serving "edge-a" slow).validate parseSocket parseUri = .ok () ∧
    ∀ publicKey,
      buildFrontDoor parseUri publicKey (serving "edge/a" .default) false =
        .error (.capability .invalidAudience) ∧
      buildFrontDoor parseUri publicKey (serving "edge-a" slow) false =
        .error (.config "invalid replay capacity" .invalidLimits) := by
  refine ⟨by decide, by decide, fun publicKey => ⟨rfl, ?_⟩⟩
  have hverifier : CapabilityVerifier.new publicKey
      (serving "edge-a" slow).audience (serving "edge-a" slow).maxLifetime
      (serving "edge-a" slow).clockSkew = .ok (verifier publicKey) := rfl
  have hdoor : FrontDoor.withPath parseUri (verifier publicKey)
      (serving "edge-a" slow).limits.maxTokenBytes
      (serving "edge-a" slow).relayPath = .ok (door publicKey) := rfl
  have hcapacity := door_withReplayCapacity publicKey
  simp only [buildFrontDoor, hverifier, withoutContext, bind, Except.bind,
    hdoor, withContext]
  rw [show (serving "edge-a" slow).limits.replayCapacity = 1024 from rfl,
    hcapacity]

end Shph.Edge
