/-
Path profiles of SNAP: their fields with the defaults of each, and the checks
that every part of a profile has to pass.  How the standard library reads an
address is a parameter.
-/
import Shph.ControlPlanePlan
import Shph.Identity
import Shph.Library.Binary64

namespace Shph.SnapPath

open ByteCodec Checked ControlPlane Identity

def profileVersion : UInt32 := 1

def maxProfileBytes : Nat := 1024 * 1024

def maxDirectEndpoints : Nat := 16

def maxBridges : Nat := 32

def maxRetryRounds : UInt32 := 12

def maxRetryAttempts : UInt32 := 1024

def defaultAdapterOrder : List String :=
  ["direct-tcp", "bridge-onion-tcp", "bridge-tls", "bridge-ws", "edge-relay",
    "shroud-tcp", "mesh-dtn-local", "mule-usb"]

def knownAdapters : List String :=
  ["direct-tcp", "bridge-onion-tcp", "bridge-tls", "bridge-ws", "shroud-tcp",
    "mesh-dtn-local", "mule-usb", "edge-relay", "quic", "quic-standard",
    "offline-mesh", "data-mule"]

/-- What the readers of the two formats report is left to them. -/
inductive SnapError where
  | invalid (message : String)
  | tooLarge
  | json
  | toml
deriving Repr, DecidableEq

/-- Which of its entries a profile uses. -/
inductive SnapMode where
  | auto
  | directOnly
  | bridgesOnly
  | onionOnly
deriving Repr, DecidableEq

inductive RoundOrder where
  | stable
  | rotate
  | shuffle
deriving Repr, DecidableEq

structure TransportPreferences where
  adapterOrder : List String
deriving Repr, DecidableEq

/-- The rounds over the candidates, and the delays between them. -/
structure RetryPolicy where
  rounds : UInt32
  backoffBaseSec : Binary64
  backoffMaxSec : Binary64
  jitterRatio : Binary64
  roundOrder : RoundOrder
  shuffleSeed : Option UInt64
  maxTotalAttempts : UInt32
  maxElapsedSec : Binary64
deriving Repr, DecidableEq

/-- An address where the peer itself is. -/
structure DirectEndpoint where
  ip : String
  port : UInt16
  transport : String
  adapter : String
  tlsEnabled : Bool
  sni : Option String
  edgeLabel : Option String
  priority : UInt16
  weight : UInt16
  timeoutSec : Option Binary64
  allowedFallback : List String
deriving Repr, DecidableEq

structure OperatorServiceContract where
  owner : String
  serviceId : String
  authorizationRef : String
deriving Repr, DecidableEq

/-- A relay on the way to the peer. -/
structure Bridge where
  label : String
  ip : String
  port : UInt16
  keyFile : Option String
  routeFile : Option String
  transport : String
  adapter : String
  tlsEnabled : Bool
  sni : Option String
  edgeLabel : Option String
  priority : UInt16
  weight : UInt16
  timeoutSec : Option Binary64
  allowedFallback : List String
  tlsCaFile : Option String
  tlsCertSha256 : Option String
  wsPath : Option String
  shroudProfile : Option String
  operatorServiceContract : Option OperatorServiceContract
deriving Repr, DecidableEq

structure EdgeProfile where
  host : String
  port : UInt16
  tlsRequired : Bool
  notes : String
deriving Repr, DecidableEq

/-- The edge profiles are listed by their labels. -/
structure SnapProfile where
  version : UInt32
  profileName : String
  mode : SnapMode
  peerAlias : String
  connectTimeoutSec : Binary64
  directEndpoints : List DirectEndpoint
  bridges : List Bridge
  retryPolicy : RetryPolicy
  edgeProfiles : List (String × EdgeProfile)
  transportPreferences : TransportPreferences
deriving Repr, DecidableEq

section Defaults

def defaultTcp : String := "tcp"

def defaultDirectAdapter : String := "direct-tcp"

def defaultPriority : UInt16 := 100

def defaultWeight : UInt16 := 100

def defaultOnionTransport : String := "onion-tcp"

def defaultOnionAdapter : String := "bridge-onion-tcp"

def defaultProfileName : String := "default"

/-- 8.0 -/
def defaultConnectTimeout : Binary64 := ⟨0x4020000000000000⟩

def defaultRounds : UInt32 := 1

/-- 0.6 -/
def defaultBackoffBase : Binary64 := ⟨0x3fe3333333333333⟩

/-- 8.0 -/
def defaultBackoffMax : Binary64 := ⟨0x4020000000000000⟩

/-- 0.15 -/
def defaultJitter : Binary64 := ⟨0x3fc3333333333333⟩

def RetryPolicy.default : RetryPolicy where
  rounds := defaultRounds
  backoffBaseSec := defaultBackoffBase
  backoffMaxSec := defaultBackoffMax
  jitterRatio := defaultJitter
  roundOrder := .stable
  shuffleSeed := none
  maxTotalAttempts := 0
  maxElapsedSec := ⟨0⟩

def TransportPreferences.default : TransportPreferences :=
  ⟨defaultAdapterOrder⟩

end Defaults

/-- A bound with the text it has in a message. -/
structure Bound where
  value : Binary64
  text : String

namespace Bound

def zero : Bound := ⟨⟨0⟩, "0"⟩

def fifth : Bound := ⟨⟨0x3fc999999999999a⟩, "0.2"⟩

def half : Bound := ⟨⟨0x3fe0000000000000⟩, "0.5"⟩

def sixty : Bound := ⟨⟨0x404e000000000000⟩, "60"⟩

def twoMinutes : Bound := ⟨⟨0x405e000000000000⟩, "120"⟩

def hour : Bound := ⟨⟨0x40ac200000000000⟩, "3600"⟩

end Bound

def validateRange (field : String) (value : Binary64) (min max : Bound) :
    Except SnapError Unit :=
  require (value.within min.value max.value = true) (.invalid
    (field ++ " must be between " ++ min.text ++ " and " ++ max.text))

def validateOptionalTimeout (field : String) (value : Option Binary64) :
    Except SnapError Unit :=
  match value with
  | some value => validateRange field value .fifth .twoMinutes
  | none => .ok ()

def validateAdapter (adapter : String) : Except SnapError Unit :=
  require (adapter ∈ knownAdapters)
    (.invalid ("unsupported adapter name: " ++ adapter))

def validateAdapterOrder (order : List String) : Except SnapError Unit :=
  checkEach validateAdapter order

def validateFallbackNames (names : List String) : Except SnapError Unit :=
  checkEach validateAdapter names

def validatePriorityWeight (priority weight : UInt16) :
    Except SnapError Unit := do
  require (priority ≤ 1000) (.invalid "priority must not exceed 1000")
  require (1 ≤ weight ∧ weight ≤ 1000)
    (.invalid "weight must be between 1 and 1000")

def validateText (field value : String) (max : Nat) : Except SnapError Unit :=
  require (¬ isBlank value = true ∧ (textBytes value).length ≤ max ∧
      value.toList.any isControl = false)
    (.invalid (field ++ " is invalid"))

/-- A text without white space or a slash. -/
def validateHost (field value : String) : Except SnapError Unit := do
  validateText field value 253
  require (value.toList.any isWhitespace = false ∧ '/' ∉ value.toList)
    (.invalid (field ++ " is invalid"))

def validateIp (text : AddressText) (field value : String) :
    Except SnapError Unit :=
  require ((text.parseIp value).isSome = true)
    (.invalid (field ++ " must be a literal IP address"))

def validatePort (field : String) (value : UInt16) : Except SnapError Unit :=
  require (value ≠ 0) (.invalid (field ++ " must be non-zero"))

def validateWsPath (value : String) : Except SnapError Unit :=
  require (value.toList.head? = some '/' ∧ (textBytes value).length ≤ 1024 ∧
      value.toList.any (fun char => isWhitespace char || isControl char) =
        false)
    (.invalid "ws_path must be an absolute path without whitespace")

/-- The longest delay is not below the first, and two minutes at most. -/
def RetryPolicy.validate (policy : RetryPolicy) : Except SnapError Unit := do
  require (1 ≤ policy.rounds ∧ policy.rounds ≤ maxRetryRounds)
    (.invalid ("retry_policy.rounds must be between 1 and " ++
      toString maxRetryRounds.toNat))
  validateRange "retry_policy.backoff_base_sec" policy.backoffBaseSec .zero
    .twoMinutes
  validateRange "retry_policy.backoff_max_sec" policy.backoffMaxSec .zero
    .twoMinutes
  require (¬ policy.backoffMaxSec.place < policy.backoffBaseSec.place)
    (.invalid "retry_policy.backoff_max_sec must be >= backoff_base_sec")
  validateRange "retry_policy.jitter_ratio" policy.jitterRatio .zero .half
  require (policy.maxTotalAttempts ≤ maxRetryAttempts)
    (.invalid ("retry_policy.max_total_attempts must not exceed " ++
      toString maxRetryAttempts.toNat))
  validateRange "retry_policy.max_elapsed_sec" policy.maxElapsedSec .zero
    .hour
  require (∀ seed ∈ policy.shuffleSeed, seed ≤ 2147483647)
    (.invalid "retry_policy.shuffle_seed must not exceed 2147483647")

def OperatorServiceContract.validate (contract : OperatorServiceContract) :
    Except SnapError Unit := do
  validateText "operator_service_contract.owner" contract.owner 128
  validateText "operator_service_contract.service_id" contract.serviceId 128
  validateText "operator_service_contract.authorization_ref"
    contract.authorizationRef 128

/-- The transport that goes with an adapter of a direct endpoint. -/
def directTransport (adapter : String) : Option String :=
  match adapter with
  | "direct-tcp" => some "tcp"
  | "quic" => some "quic"
  | "quic-standard" => some "quic-standard"
  | "offline-mesh" => some "offline-mesh"
  | "data-mule" => some "data-mule"
  | _ => none

/-- The adapter says which transport there has to be. -/
def DirectEndpoint.validate (text : AddressText) (endpoint : DirectEndpoint) :
    Except SnapError Unit := do
  validateIp text "direct endpoint ip" endpoint.ip
  validatePort "direct endpoint port" endpoint.port
  validateAdapter endpoint.adapter
  let expected ← valueOr (directTransport endpoint.adapter)
    (.invalid ("direct_endpoints adapter '" ++ endpoint.adapter ++
      "' is not a SHPH direct transport"))
  require (endpoint.transport = expected)
    (.invalid ("direct_endpoints adapter '" ++ endpoint.adapter ++
      "' requires transport '" ++ expected ++ "'"))
  require (endpoint.tlsEnabled = false ∧ endpoint.sni = none ∧
      endpoint.edgeLabel = none)
    (.invalid "direct endpoints cannot configure TLS, SNI, or edge_label")
  validatePriorityWeight endpoint.priority endpoint.weight
  validateOptionalTimeout "direct endpoint timeout_sec" endpoint.timeoutSec
  validateFallbackNames endpoint.allowedFallback

/-- The transport that goes with an adapter of a bridge. -/
def bridgeTransport (adapter : String) : String :=
  match adapter with
  | "quic" => "quic"
  | "quic-standard" => "quic-standard"
  | "offline-mesh" => "offline-mesh"
  | "data-mule" => "data-mule"
  | _ => "onion-tcp"

/-- The adapters that need a file of keys. -/
def needsKeyFile : List String :=
  ["bridge-onion-tcp", "bridge-tls", "bridge-ws", "shroud-tcp", "edge-relay",
    "mesh-dtn-local", "mule-usb"]

def requiresTls : List String :=
  ["bridge-tls", "bridge-ws", "shroud-tcp", "edge-relay"]

def localAdapters : List String := ["mesh-dtn-local", "mule-usb"]

def shroudProfiles : List String :=
  ["low-latency", "balanced", "bulk", "interactive", "stealth-safe",
    "default", "bulk-transfer"]

/-- Check a value that may be missing. -/
def checkSome {A : Type} (check : A → Except SnapError Unit) :
    Option A → Except SnapError Unit
  | some value => check value
  | none => .ok ()

def isHexDigit (byte : UInt8) : Bool :=
  (0x30 ≤ byte && byte ≤ 0x39) || (0x41 ≤ byte && byte ≤ 0x46) ||
    (0x61 ≤ byte && byte ≤ 0x66)

namespace Bridge

/-- The checks behind the one for a new label. -/
def validateFields (text : AddressText)
    (edgeProfiles : List (String × EdgeProfile)) (bridge : Bridge) :
    Except SnapError Unit := do
  validateIp text "bridge ip" bridge.ip
  validatePort "bridge port" bridge.port
  require (bridge.transport = bridgeTransport bridge.adapter)
    (.invalid ("bridge adapter '" ++ bridge.adapter ++
      "' requires transport '" ++ bridgeTransport bridge.adapter ++ "'"))
  validateAdapter bridge.adapter
  require (bridge.adapter ≠ "direct-tcp")
    (.invalid "bridge adapter cannot be direct-tcp")
  require (bridge.adapter ∈ needsKeyFile → bridge.keyFile ≠ none)
    (.invalid (bridge.adapter ++
      " requires key_file in a Python-compatible SNAP profile"))
  validatePriorityWeight bridge.priority bridge.weight
  validateOptionalTimeout "bridge timeout_sec" bridge.timeoutSec
  validateFallbackNames bridge.allowedFallback
  require (bridge.adapter = "bridge-onion-tcp" → bridge.edgeLabel = none ∧
      bridge.tlsEnabled = false ∧ bridge.sni = none)
    (.invalid "bridge-onion-tcp cannot configure TLS, SNI, or edge_label")
  require (bridge.adapter = "bridge-onion-tcp" → bridge.keyFile ≠ none)
    (.invalid "bridge-onion-tcp requires key_file")
  require (bridge.adapter ∈ requiresTls → bridge.tlsEnabled = true ∧
      bridge.sni ≠ none ∧ bridge.sni ≠ some "")
    (.invalid (bridge.adapter ++
      " requires tls_enabled=true and a non-empty sni"))
  match bridge.edgeLabel with
  | some label =>
      require (label ∈ edgeProfiles.map Prod.fst)
        (.invalid ("edge_label references an unknown edge profile: " ++
          label))
  | none =>
      require (bridge.adapter ∉ requiresTls)
        (.invalid (bridge.adapter ++ " requires edge_label"))
  require (bridge.adapter = "bridge-ws" → bridge.wsPath ≠ none)
    (.invalid "bridge-ws requires ws_path")
  checkSome (fun path => do
    validateWsPath path
    require (bridge.adapter = "bridge-ws" ∨ bridge.adapter = "shroud-tcp")
      (.invalid "ws_path is only valid for bridge-ws or shroud-tcp"))
    bridge.wsPath
  checkSome (fun profile =>
    require (bridge.adapter = "shroud-tcp" ∧ profile ∈ shroudProfiles)
      (.invalid "invalid shroud_profile for this bridge"))
    bridge.shroudProfile
  checkSome (fun contract => do
    require (bridge.adapter ∉ localAdapters)
      (.invalid ("operator_service_contract is only valid for network " ++
        "bridges and relays"))
    contract.validate) bridge.operatorServiceContract
  checkSome (fun pin =>
    require ((textBytes pin).length = 64 ∧
        (textBytes pin).all isHexDigit = true)
      (.invalid "tls_cert_sha256 must be a 64-character SHA-256 hex value"))
    bridge.tlsCertSha256
  require (bridge.tlsCaFile ≠ none → bridge.tlsEnabled = true)
    (.invalid "tls_ca_file requires tls_enabled=true")
  checkSome (validateText "key_file" · 4096) bridge.keyFile
  checkSome (validateText "route_file" · 4096) bridge.routeFile
  checkSome (validateText "tls_ca_file" · 4096) bridge.tlsCaFile

/-- Check a bridge and add its label to those that were seen. -/
def validate (text : AddressText)
    (edgeProfiles : List (String × EdgeProfile)) (labels : List String)
    (bridge : Bridge) : Except SnapError (List String) := do
  validateText "bridge label" bridge.label 128
  require (bridge.label ∉ labels)
    (.invalid ("duplicate bridge label: " ++ bridge.label))
  bridge.validateFields text edgeProfiles
  pure (bridge.label :: labels)

end Bridge

/-- The notes may be empty. -/
def EdgeProfile.validate (label : String) (edge : EdgeProfile) :
    Except SnapError Unit := do
  validateText "edge profile label" label 128
  validateHost "edge profile host" edge.host
  validatePort "edge profile port" edge.port
  require ((textBytes edge.notes).length ≤ 2048 ∧
      edge.notes.toList.any isControl = false)
    (.invalid ("edge_profiles[" ++ label ++ "].notes is invalid"))

end Shph.SnapPath
