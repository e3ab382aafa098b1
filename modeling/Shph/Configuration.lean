/-
The configuration file of the program as a value, and the checks it has to
pass before it is used or saved: sizes, the form of endpoints and addresses,
and which settings go together.
-/
import Shph.TcpUnderlay

namespace Shph.Configuration

open Checked ControlPlane Delimited

inductive ConfigError where
  | io (kind : IoErrorKind) (message : String)
  | parse (message : String)
  | serialize (message : String)
  | invalid (message : String)
deriving Repr, DecidableEq

def maxConfigBytes : Nat := 2 ^ 20

def maxPeers : Nat := 1024

def maxListEntries : Nat := 1024

def maxDnsServers : Nat := 32

def maxAliasBytes : Nat := 128

def maxEndpointBytes : Nat := 512

def maxProfileBytes : Nat := 64

def maxStartupPayloadBytes : Nat := 64 * 1024

section Settings

structure PeerConfig where
  aliasName : String
  endpoint : String
  pubkey : String
  signPubkey : Option String
deriving Repr, DecidableEq

inductive ObfuscationMode where
  | direct
  | shadowsocks
  | tls
  | h3
deriving Repr, DecidableEq

structure ShadowsocksConfig where
  server : String
  method : String
  password : String
deriving Repr, DecidableEq

structure TlsConfig where
  serverName : String
  caCert : Option String
  pinSha256 : Option String
deriving Repr, DecidableEq

structure ObfuscationConfig where
  mode : ObfuscationMode
  shadowsocks : Option ShadowsocksConfig
  tls : Option TlsConfig
deriving Repr, DecidableEq

structure StealthConfig where
  profile : String
  shroudProfile : String
deriving Repr, DecidableEq

inductive SessionRole where
  | listen
  | connect
deriving Repr, DecidableEq

structure ReconnectConfig where
  enabled : Option Bool
  maxAttempts : Option UInt32
  initialDelayMs : Option UInt64
  maxDelayMs : Option UInt64
deriving Repr, DecidableEq

structure SessionConfig where
  role : SessionRole
  bind : Option String
  peer : Option String
  transportPeer : Option String
  snapProfile : Option String
  timeoutSecs : Option UInt64
  handshakeProfile : Option HandshakeProfile
  underlay : Option String
  quicCert : Option String
  quicKey : Option String
  phantomOne : Bool
  shroud3Adaptive : Bool
  negotiateEnvelopePolicy : Bool
  phantomOneProfile : String
  reconnect : Option ReconnectConfig
  startupPayload : Option String
deriving Repr, DecidableEq

inductive TransportAdapterConfig where
  | tcp
  | offlineMesh (nodeId peerId spoolDir : String) (pollIntervalMs : UInt64)
      (maxIdleEntries : UInt32)
  | dataMule (inboxDir outboxDir : String)
      (pollIntervalMs maxFileBytes maxTotalBytes maxAgeMs : UInt64)
deriving Repr, DecidableEq

inductive IdentityProviderConfig where
  | software
  | hsmPkcs11 (modulePath tokenLabel : String) (slot : UInt64)
      (keyLabel : String)
  | yubikeyPiv (slot : String) (pin : Option String)
  | tpmBinding (aikKeyHandle : String) (pcrProfile : Option String)
deriving Repr, DecidableEq

structure PqcConfig where
  enabled : Bool
  transitionLabel : String
  hybridContext : String
  kemTag : String
deriving Repr, DecidableEq

structure ShamirConfig where
  enabled : Bool
  threshold : UInt64
  shares : UInt64
deriving Repr, DecidableEq

structure RatchetAuditConfig where
  journalPath : String
  maxEntries : UInt64
deriving Repr, DecidableEq

structure RoadmapConfig where
  transport : TransportAdapterConfig
  identity : IdentityProviderConfig
  pqc : PqcConfig
  shamir : ShamirConfig
  ratchetAudit : RatchetAuditConfig
deriving Repr, DecidableEq

structure Config where
  interfaceName : String
  localEndpoint : String
  peers : List PeerConfig
  obfuscation : Option ObfuscationConfig
  stealth : Option StealthConfig
  roadmap : Option RoadmapConfig
  controlPlane : Option ControlPlaneConfig
  session : Option SessionConfig
deriving Repr, DecidableEq

end Settings

section Text

def isAscii (text : String) : Bool :=
  text.toList.all fun char => char.toNat < 128

/-- `u8::is_ascii_control`. -/
def isAsciiControl (char : Char) : Bool :=
  char.toNat < 32 || char.toNat == 127

/-- `u8::is_ascii_whitespace`. -/
def isAsciiWhitespace (char : Char) : Bool :=
  char == ' ' || char == '\t' || char == '\n' || char == '\r' ||
    char.toNat == 12

def isAsciiAlphanumeric (char : Char) : Bool := char.isAlphanum

/-- Neither control characters nor white space of ASCII. -/
def asciiUnbroken (text : String) : Bool :=
  !text.toList.any fun char => isAsciiControl char || isAsciiWhitespace char

/-- `str::to_ascii_lowercase`. -/
def toAsciiLowercase (text : String) : String :=
  String.ofList (text.toList.map Char.toLower)

/-- `str::parse::<SocketAddr>`: an IPv6 address stands in brackets and may
have a scope, and the port has no sign. -/
def parsePort (digits : List Char) : Option UInt16 :=
  if digits = [] then none else (readU16 0 digits).toOption

/-- The scope of an IPv6 address, the digits of a `u32`. -/
def isScope (digits : List Char) : Bool :=
  digits ≠ [] && digits.all Char.isDigit &&
    Nat.ofDigitChars 10 digits 0 < 2 ^ 32

/-- An address with or without a scope. -/
def parseScoped (parseIp : String → Option IpAddr) (chars : List Char) :
    Option IpAddr :=
  match cutFirst ['%'] chars with
  | none => parseIp (String.ofList chars)
  | some (address, scope) =>
      if isScope scope then parseIp (String.ofList address) else none

def parseSocketAddr (parseIp : String → Option IpAddr) (text : String) :
    Option SocketAddr :=
  match text.toList with
  | '[' :: rest => do
      let (address, portText) ← cutFirst [']', ':'] rest
      let ip ← parseScoped parseIp address
      let port ← parsePort portText
      if isIpv4 ip then none else some { ip, port }
  | chars => do
      let (address, portText) ← cutLast ':' chars
      let ip ← parseIp (String.ofList address)
      let port ← parsePort portText
      if isIpv4 ip then some { ip, port } else none

end Text

section Validation

variable (parseIp : String → Option IpAddr)

def validateText (label value : String) (maxBytes : Nat)
    (allowEmpty : Bool) : Except ConfigError Unit :=
  require (¬ ((allowEmpty = false ∧ value = "") ∨
      maxBytes < value.utf8ByteSize ∨ isAscii value = false ∨
      asciiUnbroken value = false))
    (.invalid (label ++ " must be non-empty ASCII text of at most " ++
      toString maxBytes ++
      " bytes without whitespace or control characters"))

def validateInterfaceName (value : String) : Except ConfigError Unit := do
  validateText "interface_name" value 15 false
  require (value.toList.all fun char => isAsciiAlphanumeric char ||
      char == '_' || char == '-' || char == '.' || char == ':')
    (.invalid "interface_name contains unsupported characters")

def validatePathText (label value : String) : Except ConfigError Unit :=
  require (¬ (value = "" ∨ maxEndpointBytes < value.utf8ByteSize ∨
      Char.ofNat 0 ∈ value.toList))
    (.invalid (label ++ " is empty or too long"))

def validateKeyText (label value : String) : Except ConfigError Unit :=
  require (¬ (value = "" ∨ 512 < value.utf8ByteSize ∨
      isAscii value = false ∨ asciiUnbroken value = false))
    (.invalid (label ++ " must be bounded ASCII text without whitespace"))

def parseEndpoint (label value : String) : Except ConfigError Endpoint :=
  match Endpoint.parse value with
  | .ok endpoint => .ok endpoint
  | .error error => .error (.invalid (label ++ ": " ++ error))

def validateEndpoint (label value : String) : Except ConfigError Unit := do
  require (¬ (maxEndpointBytes < value.utf8ByteSize ∨
      asciiUnbroken value = false ∨ '@' ∈ value.toList ∨
      '/' ∈ value.toList))
    (.invalid (label ++ " is not a valid host:port"))
  let endpoint ← parseEndpoint label value
  require (¬ (endpoint.host = "" ∨
      maxEndpointBytes < endpoint.host.utf8ByteSize))
    (.invalid (label ++ " host is empty or too long"))

def validateDnsName (label value : String) : Except ConfigError Unit := do
  validateText label value 253 false
  require (¬ (value.toList.head? = some '.' ∨ value.toList.getLast? = some '.' ∨
      ['.', '.'] <:+: value.toList))
    (.invalid (label ++ " is not a valid DNS name"))

/-- The address and the prefix of a CIDR. -/
def parseCidr (label value : String) :
    Except ConfigError (IpAddr × Nat × String) := do
  let (address, bits) ← valueOr (splitOnce '/' value)
    (.invalid (label ++ " must be an IP/prefix"))
  let ip ← valueOr (parseIp address)
    (.invalid (label ++ " has an invalid IP address"))
  let value ← valueOr (parseU8 bits)
    (.invalid (label ++ " has an invalid prefix"))
  return (ip, value, bits)

def validateCidr (label value : String) : Except ConfigError Unit := do
  let (ip, bits, _) ← parseCidr parseIp label value
  require (bits ≤ maxBits ip)
    (.invalid (label ++ " has an invalid CIDR prefix; maximum is /" ++
      toString (maxBits ip)))

def validateSingleHostCidr (label value : String) :
    Except ConfigError Unit := do
  validateCidr parseIp label value
  let (ip, _, bits) ← parseCidr parseIp label value
  require (bits = toString (maxBits ip))
    (.invalid (label ++ " must be a single-host route"))
  require (¬ (isUnspecified ip ∨ isLoopback ip ∨ isMulticast ip))
    (.invalid (label ++ " must be a unicast, non-loopback address"))

def validateList {A : Type} (label : String) (values : Option (List A))
    (maximum : Nat) : Except ConfigError Unit :=
  require (∀ entries ∈ values, entries.length ≤ maximum)
    (.invalid (label ++ " exceeds the maximum of " ++ toString maximum ++
      " entries"))

/-- Check a value if there is one. -/
def ifSome {A : Type} (value : Option A)
    (check : A → Except ConfigError Unit) : Except ConfigError Unit :=
  match value with
  | some value => check value
  | none => .ok ()

def validateDnsServer (server : String) : Except ConfigError Unit := do
  let ip ← valueOr (parseIp server)
    (.invalid ("control_plane.dns_servers entry is not an IP address: " ++
      server))
  require (¬ (isUnspecified ip ∨ isMulticast ip))
    (.invalid "control_plane.dns_servers entries must be unicast addresses")

def validateControlPlane (control : ControlPlaneConfig) :
    Except ConfigError Unit := do
  if control.applyInterfaceAddress.getD false then
    let cidr ← valueOr control.interfaceCidr (.invalid
      "apply_interface_address=true requires control_plane.interface_cidr")
    validateCidr parseIp "control_plane.interface_cidr" cidr
  else
    ifSome control.interfaceCidr
      (validateCidr parseIp "control_plane.interface_cidr")
  validateList "control_plane.route_cidrs" control.routeCidrs maxListEntries
  checkEach (validateCidr parseIp "control_plane.route_cidrs entry")
    (control.routeCidrs.getD [])
  validateList "control_plane.underlay_bypass_cidrs"
    control.underlayBypassCidrs maxListEntries
  checkEach (validateSingleHostCidr parseIp
      "control_plane.underlay_bypass_cidrs entry")
    (control.underlayBypassCidrs.getD [])
  validateList "control_plane.dns_servers" control.dnsServers maxDnsServers
  require (¬ (control.applyDns.getD false = true ∧
      control.dnsServers.getD [] = []))
    (.invalid "apply_dns=true requires at least one DNS server")
  checkEach (validateDnsServer parseIp) (control.dnsServers.getD [])

def validateRole (session : SessionConfig) : Except ConfigError Unit :=
  match session.role with
  | .listen => ifSome session.bind (validateEndpoint "session.bind")
  | .connect => do
      let peer ← valueOr session.peer
        (.invalid "connect sessions require session.peer")
      validateEndpoint "session.peer" peer

/-- What stands behind the scheme. -/
def proxyText (value : String) : Option String :=
  ((stripFront "socks5://" value).or (stripFront "socks5h://" value)).or
    (stripFront "tor://" value)

/-- A loopback address with a port. -/
def torProxy (proxy : String) : Bool :=
  (parseSocketAddr parseIp proxy).any fun address =>
    isLoopback address.ip && address.port ≠ 0

def validateUnderlay (underlay : String) : Except ConfigError Unit := do
  let value := trim underlay
  if value = "direct" then .ok ()
  else
    let proxy ← valueOr (proxyText value) (.invalid
      ("session.underlay must be direct, socks5://host:port, or " ++
        "tor://loopback:port"))
    validateEndpoint "session.underlay proxy" proxy
    require (¬ ((stripFront "tor://" value).isSome ∧
        torProxy parseIp proxy = false))
      (.invalid
        "Tor proxy must be a literal loopback address with nonzero port")

def validateReconnect (reconnect : ReconnectConfig) :
    Except ConfigError Unit := do
  require (¬ (reconnect.enabled.getD false = true ∧
      reconnect.maxAttempts.getD 0 = 0))
    (.invalid "enabled reconnect requires max_attempts greater than zero")
  require (∀ attempts ∈ reconnect.maxAttempts, attempts ≤ 100)
    (.invalid "session.reconnect.max_attempts cannot exceed 100")
  require (∀ delay ∈ reconnect.initialDelayMs, 1 ≤ delay ∧ delay ≤ 60000)
    (.invalid
      "session.reconnect.initial_delay_ms must be between 1 and 60000")
  require (∀ delay ∈ reconnect.maxDelayMs, 1 ≤ delay ∧ delay ≤ 300000)
    (.invalid "session.reconnect.max_delay_ms must be between 1 and 300000")
  require (∀ initial ∈ reconnect.initialDelayMs,
      ∀ maximum ∈ reconnect.maxDelayMs, initial ≤ maximum)
    (.invalid "session.reconnect.max_delay_ms must be >= initial_delay_ms")

def validateSession (session : SessionConfig) : Except ConfigError Unit := do
  require (¬ (session.shroud3Adaptive = true ∧ session.phantomOne = true))
    (.invalid ("session.shroud3_adaptive cannot be combined with " ++
      "session.phantom_one"))
  validateRole session
  ifSome session.transportPeer (validateEndpoint "session.transport_peer")
  ifSome session.snapProfile (validatePathText "session.snap_profile")
  require (∀ timeout ∈ session.timeoutSecs, 1 ≤ timeout ∧ timeout ≤ 3600)
    (.invalid "session.timeout_secs must be between 1 and 3600")
  ifSome session.underlay (validateUnderlay parseIp)
  ifSome session.quicCert (validatePathText "session.quic_cert")
  ifSome session.quicKey (validatePathText "session.quic_key")
  validateText "session.phantom_one_profile" session.phantomOneProfile
    maxProfileBytes false
  ifSome session.reconnect validateReconnect
  require (∀ payload ∈ session.startupPayload,
      payload.utf8ByteSize ≤ maxStartupPayloadBytes)
    (.invalid ("session.startup_payload exceeds " ++
      toString maxStartupPayloadBytes ++ " bytes"))

/-- The peers in order, with the lower-case aliases seen so far. -/
def validatePeers : List String → List PeerConfig → Except ConfigError Unit
  | _, [] => .ok ()
  | aliases, peer :: rest => do
      validateText "peer alias" peer.aliasName maxAliasBytes false
      require (toAsciiLowercase peer.aliasName ∉ aliases)
        (.invalid ("peer aliases must be unique: " ++ peer.aliasName))
      validateEndpoint "peer endpoint" peer.endpoint
      validateKeyText "peer public key" peer.pubkey
      ifSome peer.signPubkey (validateKeyText "peer signing public key")
      validatePeers (toAsciiLowercase peer.aliasName :: aliases) rest

def validateShadowsocks (shadowsocks : ShadowsocksConfig) :
    Except ConfigError Unit := do
  validateEndpoint "obfuscation.shadowsocks.server" shadowsocks.server
  validateText "obfuscation.shadowsocks.method" shadowsocks.method
    maxProfileBytes false
  validateText "obfuscation.shadowsocks.password" shadowsocks.password
    maxStartupPayloadBytes false

def validateTls (tls : TlsConfig) : Except ConfigError Unit := do
  validateDnsName "obfuscation.tls.server_name" tls.serverName
  ifSome tls.caCert (validatePathText "obfuscation.tls.ca_cert")
  ifSome tls.pinSha256 fun pin =>
    validateText "obfuscation.tls.pin_sha256" pin 128 false

def validateObfuscation (obfuscation : ObfuscationConfig) :
    Except ConfigError Unit := do
  ifSome obfuscation.shadowsocks validateShadowsocks
  ifSome obfuscation.tls validateTls

def validateStealth (stealth : StealthConfig) : Except ConfigError Unit := do
  validateText "stealth.profile" stealth.profile maxProfileBytes false
  validateText "stealth.shroud_profile" stealth.shroudProfile maxProfileBytes
    false

def Config.validate (config : Config) : Except ConfigError Unit := do
  validateInterfaceName config.interfaceName
  validateEndpoint "local_endpoint" config.localEndpoint
  require (config.peers.length ≤ maxPeers)
    (.invalid ("peers exceeds the maximum of " ++ toString maxPeers ++
      " entries"))
  validatePeers [] config.peers
  ifSome config.obfuscation validateObfuscation
  ifSome config.stealth validateStealth
  ifSome config.controlPlane (validateControlPlane parseIp)
  ifSome config.session (validateSession parseIp)

end Validation

end Shph.Configuration
