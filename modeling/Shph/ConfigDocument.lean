/-
The configuration as a document: the tables its sections are read from and
written to.  What was written for a configuration is read as the same
configuration.
-/
import Shph.Configuration
import Shph.Library.TomlTree

namespace Shph.Configuration

open ControlPlane TomlTree Toml
def ofBool (value : Bool) : Toml := .boolean value

def ofUInt32 (value : UInt32) : Toml := .integer value.toNat

def ofUInt64 (value : UInt64) : Toml := .integer value.toNat

def ofStrings (values : List String) : Toml := .array (values.map .string)

def readStrings : Toml → Option (List String) := readList asString

section Reading

def peerFields : List String :=
  ["alias", "endpoint", "pubkey", "sign_pubkey"]

/-- Only the key a peer signs with may be missing. -/
def readPeer (value : Toml) : Option PeerConfig := do
  let fields ← strictStructOf peerFields value
  pure {
    aliasName := ← fields.required asString "alias"
    endpoint := ← fields.required asString "endpoint"
    pubkey := ← fields.required asString "pubkey"
    signPubkey := ← fields.defaultedNone asString "sign_pubkey" }

/-- A mode goes by its name. -/
def obfuscationModes : List (String × ObfuscationMode) :=
  [("direct", .direct), ("shadowsocks", .shadowsocks), ("tls", .tls),
    ("h3", .h3)]

def shadowsocksFields : List String := ["server", "method", "password"]

/-- All three are required. -/
def readShadowsocks (value : Toml) : Option ShadowsocksConfig := do
  let fields ← strictStructOf shadowsocksFields value
  pure {
    server := ← fields.required asString "server"
    method := ← fields.required asString "method"
    password := ← fields.required asString "password" }

def tlsFields : List String := ["server_name", "ca_cert", "pin_sha256"]

/-- What is pinned may be missing. -/
def readTls (value : Toml) : Option TlsConfig := do
  let fields ← strictStructOf tlsFields value
  pure {
    serverName := ← fields.required asString "server_name"
    caCert := ← fields.optional asString "ca_cert"
    pinSha256 := ← fields.optional asString "pin_sha256" }

def obfuscationFields : List String := ["mode", "shadowsocks", "tls"]

/-- A mode, and the settings it may need. -/
def readObfuscation (value : Toml) : Option ObfuscationConfig := do
  let fields ← strictStructOf obfuscationFields value
  pure {
    mode := ← fields.required (readVariant obfuscationModes) "mode"
    shadowsocks := ← fields.optional readShadowsocks "shadowsocks"
    tls := ← fields.optional readTls "tls" }

def stealthFields : List String := ["profile", "shroud_profile"]

def readStealth (value : Toml) : Option StealthConfig := do
  let fields ← strictStructOf stealthFields value
  pure {
    profile := ← fields.required asString "profile"
    shroudProfile := ← fields.required asString "shroud_profile" }

def controlPlaneFields : List String :=
  ["apply_interface_address", "interface_cidr", "apply_routes",
    "route_cidrs", "underlay_bypass_cidrs", "apply_dns", "dns_servers",
    "dry_run"]

/-- Any setting of the control plane may be missing. -/
def readControlPlane (value : Toml) : Option ControlPlaneConfig := do
  let fields ← strictStructOf controlPlaneFields value
  pure {
    applyInterfaceAddress :=
      ← fields.optional asBool "apply_interface_address"
    interfaceCidr := ← fields.optional asString "interface_cidr"
    applyRoutes := ← fields.optional asBool "apply_routes"
    routeCidrs := ← fields.optional readStrings "route_cidrs"
    underlayBypassCidrs :=
      ← fields.defaultedNone readStrings "underlay_bypass_cidrs"
    applyDns := ← fields.optional asBool "apply_dns"
    dnsServers := ← fields.optional readStrings "dns_servers"
    dryRun := ← fields.optional asBool "dry_run" }

def reconnectFields : List String :=
  ["enabled", "max_attempts", "initial_delay_ms", "max_delay_ms"]

def readReconnect (value : Toml) : Option ReconnectConfig := do
  let fields ← strictStructOf reconnectFields value
  pure {
    enabled := ← fields.optional asBool "enabled"
    maxAttempts := ← fields.optional readUInt32 "max_attempts"
    initialDelayMs := ← fields.optional readUInt64 "initial_delay_ms"
    maxDelayMs := ← fields.optional readUInt64 "max_delay_ms" }

def sessionRoles : List (String × SessionRole) :=
  [("listen", .listen), ("connect", .connect)]

def handshakeProfiles : List (String × HandshakeProfile) :=
  [("secure-default", .secureDefault), ("classical-lab", .classicalLab)]

def defaultPhantomOneProfile : String := "medium"

def sessionFields : List String :=
  ["role", "bind", "peer", "transport_peer", "snap_profile", "timeout_secs",
    "handshake_profile", "underlay", "quic_cert", "quic_key", "phantom_one",
    "shroud3_adaptive", "negotiate_envelope_policy", "phantom_one_profile",
    "reconnect", "startup_payload"]

/-- The switches are off where nothing is said of them. -/
def readSession (value : Toml) : Option SessionConfig := do
  let fields ← strictStructOf sessionFields value
  pure {
    role := ← fields.required (readVariant sessionRoles) "role"
    bind := ← fields.optional asString "bind"
    peer := ← fields.optional asString "peer"
    transportPeer := ← fields.defaultedNone asString "transport_peer"
    snapProfile := ← fields.defaultedNone asString "snap_profile"
    timeoutSecs := ← fields.optional readUInt64 "timeout_secs"
    handshakeProfile := ← fields.defaultedNone
      (readVariant handshakeProfiles) "handshake_profile"
    underlay := ← fields.defaultedNone asString "underlay"
    quicCert := ← fields.defaultedNone asString "quic_cert"
    quicKey := ← fields.defaultedNone asString "quic_key"
    phantomOne := ← fields.defaulted asBool false "phantom_one"
    shroud3Adaptive := ← fields.defaulted asBool false "shroud3_adaptive"
    negotiateEnvelopePolicy := ← fields.defaulted asBool false
      "negotiate_envelope_policy"
    phantomOneProfile := ← fields.defaulted asString
      defaultPhantomOneProfile "phantom_one_profile"
    reconnect := ← fields.optional readReconnect "reconnect"
    startupPayload := ← fields.optional asString "startup_payload" }

def defaultPollIntervalMs : UInt64 := 250

def defaultMaxIdleEntries : UInt32 := 1024

def defaultMaxFileBytes : UInt64 := 32 * 1024

def defaultMaxTotalBytes : UInt64 := 4 * 1024 * 1024

def defaultMaxAgeMs : UInt64 := 24 * 60 * 60 * 1000

/-- The kind says which fields are read; others are ignored. -/
def readTransport (value : Toml) : Option TransportAdapterConfig := do
  let (kind, content) ← tagged "kind" value
  match kind with
  | "tcp" => pure .tcp
  | "offline_mesh" =>
      let fields ← structOf ["node_id", "peer_id", "spool_dir",
        "poll_interval_ms", "max_idle_entries"] content
      pure (.offlineMesh
        (← fields.defaulted asString "" "node_id")
        (← fields.defaulted asString "" "peer_id")
        (← fields.defaulted asString "" "spool_dir")
        (← fields.defaulted readUInt64 defaultPollIntervalMs
          "poll_interval_ms")
        (← fields.defaulted readUInt32 defaultMaxIdleEntries
          "max_idle_entries"))
  | "data_mule" =>
      let fields ← structOf ["inbox_dir", "outbox_dir", "poll_interval_ms",
        "max_file_bytes", "max_total_bytes", "max_age_ms"] content
      pure (.dataMule
        (← fields.defaulted asString "" "inbox_dir")
        (← fields.defaulted asString "" "outbox_dir")
        (← fields.defaulted readUInt64 defaultPollIntervalMs
          "poll_interval_ms")
        (← fields.defaulted readUInt64 defaultMaxFileBytes "max_file_bytes")
        (← fields.defaulted readUInt64 defaultMaxTotalBytes
          "max_total_bytes")
        (← fields.defaulted readUInt64 defaultMaxAgeMs "max_age_ms"))
  | _ => none

/-- The same for the kinds of keys. -/
def readIdentity (value : Toml) : Option IdentityProviderConfig := do
  let (kind, content) ← tagged "kind" value
  match kind with
  | "software" => pure .software
  | "hsm_pkcs11" =>
      let fields ← structOf ["module_path", "token_label", "slot",
        "key_label"] content
      pure (.hsmPkcs11
        (← fields.defaulted asString "" "module_path")
        (← fields.defaulted asString "" "token_label")
        (← fields.defaulted readUInt64 0 "slot")
        (← fields.defaulted asString "" "key_label"))
  | "yubikey_piv" =>
      let fields ← structOf ["slot", "pin"] content
      pure (.yubikeyPiv
        (← fields.defaulted asString "" "slot")
        (← fields.defaultedNone asString "pin"))
  | "tpm_binding" =>
      let fields ← structOf ["aik_key_handle", "pcr_profile"] content
      pure (.tpmBinding
        (← fields.defaulted asString "" "aik_key_handle")
        (← fields.defaultedNone asString "pcr_profile"))
  | _ => none

def defaultTransitionLabel : String := "shph-hybrid-v1"

def defaultHybridContext : String := "shph-pqc-kem"

def defaultKemTag : String := "mlkem768"

/-- Only the switch has no default. -/
def readPqc (value : Toml) : Option PqcConfig := do
  let fields ← structOf ["enabled", "transition_label", "hybrid_context",
    "kem_tag"] value
  pure {
    enabled := ← fields.required asBool "enabled"
    transitionLabel := ← fields.defaulted asString
      defaultTransitionLabel "transition_label"
    hybridContext := ← fields.defaulted asString defaultHybridContext
      "hybrid_context"
    kemTag := ← fields.defaulted asString defaultKemTag "kem_tag" }

def readShamir (value : Toml) : Option ShamirConfig := do
  let fields ← structOf ["enabled", "threshold", "shares"] value
  pure {
    enabled := ← fields.required asBool "enabled"
    threshold := ← fields.defaulted readUInt64 0 "threshold"
    shares := ← fields.defaulted readUInt64 0 "shares" }

def readRatchetAudit (value : Toml) : Option RatchetAuditConfig := do
  let fields ← structOf ["journal_path", "max_entries"] value
  pure {
    journalPath := ← fields.defaulted asString "" "journal_path"
    maxEntries := ← fields.defaulted readUInt64 0 "max_entries" }

def PqcConfig.default : PqcConfig where
  enabled := false
  transitionLabel := defaultTransitionLabel
  hybridContext := defaultHybridContext
  kemTag := defaultKemTag

/-- A section that is missing is not one without fields, whose numbers are zero.
-/
def ShamirConfig.default : ShamirConfig where
  enabled := false
  threshold := 2
  shares := 3

def RatchetAuditConfig.default : RatchetAuditConfig where
  journalPath := "~/.shph/ratchet_audit.jsonl"
  maxEntries := 2048

/-- Every section of the roadmap has its defaults. -/
def readRoadmap (value : Toml) : Option RoadmapConfig := do
  let fields ← structOf ["transport", "identity", "pqc", "shamir",
    "ratchet_audit"] value
  pure {
    transport := ← fields.defaulted readTransport .tcp "transport"
    identity := ← fields.defaulted readIdentity .software "identity"
    pqc := ← fields.defaulted readPqc .default "pqc"
    shamir := ← fields.defaulted readShamir .default "shamir"
    ratchetAudit := ← fields.defaulted readRatchetAudit .default
      "ratchet_audit" }

def configFields : List String :=
  ["interface_name", "local_endpoint", "peers", "obfuscation", "stealth",
    "roadmap", "control_plane", "session"]

/-- Unknown names are refused, but not in the roadmap. -/
def Config.ofDocument (document : Toml) : Option Config := do
  let fields ← strictStructOf configFields document
  pure {
    interfaceName := ← fields.required asString "interface_name"
    localEndpoint := ← fields.required asString "local_endpoint"
    peers := ← fields.required (readList readPeer) "peers"
    obfuscation := ← fields.optional readObfuscation "obfuscation"
    stealth := ← fields.optional readStealth "stealth"
    roadmap := ← fields.optional readRoadmap "roadmap"
    controlPlane := ← fields.optional readControlPlane "control_plane"
    session := ← fields.optional readSession "session" }

end Reading

section Writing

/-- What is written of a peer; a key that is missing is left out. -/
def PeerConfig.members (peer : PeerConfig) : List (String × Option Toml) :=
  [("alias", some (.string peer.aliasName)),
    ("endpoint", some (.string peer.endpoint)),
    ("pubkey", some (.string peer.pubkey)),
    ("sign_pubkey", peer.signPubkey.map .string)]

def PeerConfig.toToml (peer : PeerConfig) : Toml := tableOf peer.members

def obfuscationModeName : ObfuscationMode → String
  | .direct => "direct"
  | .shadowsocks => "shadowsocks"
  | .tls => "tls"
  | .h3 => "h3"

def ShadowsocksConfig.members (shadowsocks : ShadowsocksConfig) :
    List (String × Option Toml) :=
  [("server", some (.string shadowsocks.server)),
    ("method", some (.string shadowsocks.method)),
    ("password", some (.string shadowsocks.password))]

def ShadowsocksConfig.toToml (shadowsocks : ShadowsocksConfig) : Toml :=
  tableOf shadowsocks.members

def TlsConfig.members (tls : TlsConfig) : List (String × Option Toml) :=
  [("server_name", some (.string tls.serverName)),
    ("ca_cert", tls.caCert.map .string),
    ("pin_sha256", tls.pinSha256.map .string)]

def TlsConfig.toToml (tls : TlsConfig) : Toml := tableOf tls.members

def ObfuscationConfig.members (obfuscation : ObfuscationConfig) :
    List (String × Option Toml) :=
  [("mode", some (.string (obfuscationModeName obfuscation.mode))),
    ("shadowsocks", obfuscation.shadowsocks.map ShadowsocksConfig.toToml),
    ("tls", obfuscation.tls.map TlsConfig.toToml)]

def ObfuscationConfig.toToml (obfuscation : ObfuscationConfig) : Toml :=
  tableOf obfuscation.members

def StealthConfig.members (stealth : StealthConfig) :
    List (String × Option Toml) :=
  [("profile", some (.string stealth.profile)),
    ("shroud_profile", some (.string stealth.shroudProfile))]

def StealthConfig.toToml (stealth : StealthConfig) : Toml :=
  tableOf stealth.members

/-- A setting that is missing is left out. -/
def controlPlaneMembers (control : ControlPlaneConfig) :
    List (String × Option Toml) :=
  [("apply_interface_address", control.applyInterfaceAddress.map ofBool),
    ("interface_cidr", control.interfaceCidr.map .string),
    ("apply_routes", control.applyRoutes.map ofBool),
    ("route_cidrs", control.routeCidrs.map ofStrings),
    ("underlay_bypass_cidrs", control.underlayBypassCidrs.map ofStrings),
    ("apply_dns", control.applyDns.map ofBool),
    ("dns_servers", control.dnsServers.map ofStrings),
    ("dry_run", control.dryRun.map ofBool)]

def controlPlaneToToml (control : ControlPlaneConfig) : Toml :=
  tableOf (controlPlaneMembers control)

def ReconnectConfig.members (reconnect : ReconnectConfig) :
    List (String × Option Toml) :=
  [("enabled", reconnect.enabled.map ofBool),
    ("max_attempts", reconnect.maxAttempts.map ofUInt32),
    ("initial_delay_ms", reconnect.initialDelayMs.map ofUInt64),
    ("max_delay_ms", reconnect.maxDelayMs.map ofUInt64)]

def ReconnectConfig.toToml (reconnect : ReconnectConfig) : Toml :=
  tableOf reconnect.members

def sessionRoleName : SessionRole → String
  | .listen => "listen"
  | .connect => "connect"

def handshakeProfileName : HandshakeProfile → String
  | .secureDefault => "secure-default"
  | .classicalLab => "classical-lab"

def SessionConfig.members (session : SessionConfig) :
    List (String × Option Toml) :=
  [("role", some (.string (sessionRoleName session.role))),
    ("bind", session.bind.map .string),
    ("peer", session.peer.map .string),
    ("transport_peer", session.transportPeer.map .string),
    ("snap_profile", session.snapProfile.map .string),
    ("timeout_secs", session.timeoutSecs.map ofUInt64),
    ("handshake_profile", session.handshakeProfile.map fun profile =>
      .string (handshakeProfileName profile)),
    ("underlay", session.underlay.map .string),
    ("quic_cert", session.quicCert.map .string),
    ("quic_key", session.quicKey.map .string),
    ("phantom_one", some (ofBool session.phantomOne)),
    ("shroud3_adaptive", some (ofBool session.shroud3Adaptive)),
    ("negotiate_envelope_policy",
      some (ofBool session.negotiateEnvelopePolicy)),
    ("phantom_one_profile", some (.string session.phantomOneProfile)),
    ("reconnect", session.reconnect.map ReconnectConfig.toToml),
    ("startup_payload", session.startupPayload.map .string)]

def SessionConfig.toToml (session : SessionConfig) : Toml :=
  tableOf session.members

/-- The tag of an adapter. -/
def TransportAdapterConfig.kind : TransportAdapterConfig → String
  | .tcp => "tcp"
  | .offlineMesh .. => "offline_mesh"
  | .dataMule .. => "data_mule"

def TransportAdapterConfig.members :
    TransportAdapterConfig → List (String × Option Toml)
  | .tcp => []
  | .offlineMesh nodeId peerId spoolDir pollIntervalMs maxIdleEntries =>
      [("node_id", some (.string nodeId)),
        ("peer_id", some (.string peerId)),
        ("spool_dir", some (.string spoolDir)),
        ("poll_interval_ms", some (ofUInt64 pollIntervalMs)),
        ("max_idle_entries", some (ofUInt32 maxIdleEntries))]
  | .dataMule inboxDir outboxDir pollIntervalMs maxFileBytes maxTotalBytes
      maxAgeMs =>
      [("inbox_dir", some (.string inboxDir)),
        ("outbox_dir", some (.string outboxDir)),
        ("poll_interval_ms", some (ofUInt64 pollIntervalMs)),
        ("max_file_bytes", some (ofUInt64 maxFileBytes)),
        ("max_total_bytes", some (ofUInt64 maxTotalBytes)),
        ("max_age_ms", some (ofUInt64 maxAgeMs))]

/-- The fields stand beside their tag. -/
def TransportAdapterConfig.toToml (transport : TransportAdapterConfig) :
    Toml :=
  tableOf (("kind", some (.string transport.kind)) :: transport.members)

def IdentityProviderConfig.kind : IdentityProviderConfig → String
  | .software => "software"
  | .hsmPkcs11 .. => "hsm_pkcs11"
  | .yubikeyPiv .. => "yubikey_piv"
  | .tpmBinding .. => "tpm_binding"

def IdentityProviderConfig.members :
    IdentityProviderConfig → List (String × Option Toml)
  | .software => []
  | .hsmPkcs11 modulePath tokenLabel slot keyLabel =>
      [("module_path", some (.string modulePath)),
        ("token_label", some (.string tokenLabel)),
        ("slot", some (ofUInt64 slot)),
        ("key_label", some (.string keyLabel))]
  | .yubikeyPiv slot pin =>
      [("slot", some (.string slot)), ("pin", pin.map .string)]
  | .tpmBinding aikKeyHandle pcrProfile =>
      [("aik_key_handle", some (.string aikKeyHandle)),
        ("pcr_profile", pcrProfile.map .string)]

def IdentityProviderConfig.toToml (identity : IdentityProviderConfig) :
    Toml :=
  tableOf (("kind", some (.string identity.kind)) :: identity.members)

def PqcConfig.members (pqc : PqcConfig) : List (String × Option Toml) :=
  [("enabled", some (ofBool pqc.enabled)),
    ("transition_label", some (.string pqc.transitionLabel)),
    ("hybrid_context", some (.string pqc.hybridContext)),
    ("kem_tag", some (.string pqc.kemTag))]

def PqcConfig.toToml (pqc : PqcConfig) : Toml := tableOf pqc.members

def ShamirConfig.members (shamir : ShamirConfig) :
    List (String × Option Toml) :=
  [("enabled", some (ofBool shamir.enabled)),
    ("threshold", some (ofUInt64 shamir.threshold)),
    ("shares", some (ofUInt64 shamir.shares))]

def ShamirConfig.toToml (shamir : ShamirConfig) : Toml := tableOf shamir.members

def RatchetAuditConfig.members (audit : RatchetAuditConfig) :
    List (String × Option Toml) :=
  [("journal_path", some (.string audit.journalPath)),
    ("max_entries", some (ofUInt64 audit.maxEntries))]

def RatchetAuditConfig.toToml (audit : RatchetAuditConfig) : Toml :=
  tableOf audit.members

/-- All sections are written, also where they are the defaults. -/
def RoadmapConfig.members (roadmap : RoadmapConfig) :
    List (String × Option Toml) :=
  [("transport", some roadmap.transport.toToml),
    ("identity", some roadmap.identity.toToml),
    ("pqc", some roadmap.pqc.toToml), ("shamir", some roadmap.shamir.toToml),
    ("ratchet_audit", some roadmap.ratchetAudit.toToml)]

def RoadmapConfig.toToml (roadmap : RoadmapConfig) : Toml :=
  tableOf roadmap.members

def Config.members (config : Config) : List (String × Option Toml) :=
  [("interface_name", some (.string config.interfaceName)),
    ("local_endpoint", some (.string config.localEndpoint)),
    ("peers", some (.array (config.peers.map PeerConfig.toToml))),
    ("obfuscation", config.obfuscation.map ObfuscationConfig.toToml),
    ("stealth", config.stealth.map StealthConfig.toToml),
    ("roadmap", config.roadmap.map RoadmapConfig.toToml),
    ("control_plane", config.controlPlane.map controlPlaneToToml),
    ("session", config.session.map SessionConfig.toToml)]

/-- What is serialized of a configuration. -/
def Config.document (config : Config) : Toml := tableOf config.members

end Writing

section Reread

/-- Scalars are read as they were written. -/
@[simp] theorem rereads_string : Rereads asString .string := fun _ => rfl

@[simp] theorem rereads_ofBool : Rereads asBool ofBool := fun _ => rfl

@[simp] theorem rereads_ofUInt32 : Rereads readUInt32 ofUInt32 :=
  readUInt32_integer

@[simp] theorem rereads_ofUInt64 : Rereads readUInt64 ofUInt64 :=
  readUInt64_integer

@[simp] theorem rereads_ofStrings : Rereads readStrings ofStrings :=
  readList_array rereads_string

/-- So is every section. -/
@[simp] theorem readPeer_toToml : Rereads readPeer PeerConfig.toToml := by
  intro peer
  obtain ⟨fields, hfields, -, hget⟩ := @strictStructOf_tableOf peerFields
    peer.members rfl (by decide)
  simp only [PeerConfig.members, List.forall_mem_cons] at hget
  obtain ⟨halias, hendpoint, hpubkey, hsign, -⟩ := hget
  rw [readPeer, PeerConfig.toToml, hfields]
  simp [required_written halias, required_written hendpoint,
    required_written hpubkey, defaultedNone_written hsign]

@[simp] theorem readShadowsocks_toToml :
    Rereads readShadowsocks ShadowsocksConfig.toToml := by
  intro shadowsocks
  obtain ⟨fields, hfields, -, hget⟩ :=
    @strictStructOf_tableOf shadowsocksFields shadowsocks.members rfl
      (by decide)
  simp only [ShadowsocksConfig.members, List.forall_mem_cons] at hget
  obtain ⟨hserver, hmethod, hpassword, -⟩ := hget
  rw [readShadowsocks, ShadowsocksConfig.toToml, hfields]
  simp [required_written hserver, required_written hmethod,
    required_written hpassword]

@[simp] theorem readTls_toToml : Rereads readTls TlsConfig.toToml := by
  intro tls
  obtain ⟨fields, hfields, htable, hget⟩ := @strictStructOf_tableOf tlsFields
    tls.members rfl (by decide)
  simp only [TlsConfig.members, List.forall_mem_cons] at hget
  obtain ⟨hserver, hcert, hpin, -⟩ := hget
  rw [readTls, TlsConfig.toToml, hfields]
  simp [required_written hserver, optional_written htable hcert,
    optional_written htable hpin]

@[simp] theorem readObfuscation_toToml :
    Rereads readObfuscation ObfuscationConfig.toToml := by
  intro obfuscation
  obtain ⟨fields, hfields, htable, hget⟩ :=
    @strictStructOf_tableOf obfuscationFields obfuscation.members rfl
      (by decide)
  simp only [ObfuscationConfig.members, List.forall_mem_cons] at hget
  obtain ⟨hmode, hshadowsocks, htls, -⟩ := hget
  have hvariant : fields.required (readVariant obfuscationModes) "mode" =
      some obfuscation.mode := by
    rw [Fields.required, hmode]
    cases obfuscation.mode <;> rfl
  rw [readObfuscation, ObfuscationConfig.toToml, hfields]
  simp [hvariant, optional_written htable hshadowsocks,
    optional_written htable htls]

@[simp] theorem readStealth_toToml :
    Rereads readStealth StealthConfig.toToml := by
  intro stealth
  obtain ⟨fields, hfields, -, hget⟩ := @strictStructOf_tableOf stealthFields
    stealth.members rfl (by decide)
  simp only [StealthConfig.members, List.forall_mem_cons] at hget
  obtain ⟨hprofile, hshroud, -⟩ := hget
  rw [readStealth, StealthConfig.toToml, hfields]
  simp [required_written hprofile, required_written hshroud]

@[simp] theorem readControlPlane_toToml :
    Rereads readControlPlane controlPlaneToToml := by
  intro control
  obtain ⟨fields, hfields, htable, hget⟩ :=
    @strictStructOf_tableOf controlPlaneFields (controlPlaneMembers control)
      rfl (by decide)
  simp only [controlPlaneMembers, List.forall_mem_cons] at hget
  obtain ⟨haddress, hcidr, happlyRoutes, hroutes, hbypass, happlyDns, hdns,
    hdryRun, -⟩ := hget
  rw [readControlPlane, controlPlaneToToml, hfields]
  simp [optional_written htable haddress, optional_written htable hcidr,
    optional_written htable happlyRoutes, optional_written htable hroutes,
    defaultedNone_written hbypass, optional_written htable happlyDns,
    optional_written htable hdns, optional_written htable hdryRun]

@[simp] theorem readReconnect_toToml :
    Rereads readReconnect ReconnectConfig.toToml := by
  intro reconnect
  obtain ⟨fields, hfields, htable, hget⟩ :=
    @strictStructOf_tableOf reconnectFields reconnect.members rfl (by decide)
  simp only [ReconnectConfig.members, List.forall_mem_cons] at hget
  obtain ⟨henabled, hattempts, hinitial, hmax, -⟩ := hget
  rw [readReconnect, ReconnectConfig.toToml, hfields]
  simp [optional_written htable henabled, optional_written htable hattempts,
    optional_written htable hinitial, optional_written htable hmax]

/-- The role and the profile of the handshake go by their names. -/
@[simp] theorem readSession_toToml :
    Rereads readSession SessionConfig.toToml := by
  intro session
  obtain ⟨fields, hfields, htable, hget⟩ :=
    @strictStructOf_tableOf sessionFields session.members rfl (by decide)
  simp only [SessionConfig.members, List.forall_mem_cons] at hget
  obtain ⟨hrole, hbind, hpeer, htransport, hsnap, htimeout, hhandshake,
    hunderlay, hcert, hkey, hphantom, hshroud, hnegotiate, hprofile,
    hreconnect, hpayload, -⟩ := hget
  have hvariant : fields.required (readVariant sessionRoles) "role" =
      some session.role := by
    rw [Fields.required, hrole]
    cases session.role <;> rfl
  have hprofiles : Rereads (readVariant handshakeProfiles) fun profile =>
      .string (handshakeProfileName profile) := by
    intro profile
    cases profile <;> rfl
  rw [readSession, SessionConfig.toToml, hfields]
  simp only [hvariant, optional_written htable hbind,
    optional_written htable hpeer,
    defaultedNone_written htransport, defaultedNone_written hsnap,
    optional_written htable htimeout,
    defaultedNone_written hhandshake hprofiles, defaultedNone_written hunderlay,
    defaultedNone_written hcert, defaultedNone_written hkey,
    defaulted_written hphantom, defaulted_written hshroud,
    defaulted_written hnegotiate, defaulted_written hprofile,
    optional_written htable hreconnect, optional_written htable hpayload,
    rereads_string, rereads_ofBool, rereads_ofUInt64, readReconnect_toToml,
    bind, Option.bind, pure]

/-- By cases on the kind, which is read from the tag. -/
@[simp] theorem readTransport_toToml :
    Rereads readTransport TransportAdapterConfig.toToml := by
  intro transport
  cases transport with
  | tcp => rfl
  | offlineMesh nodeId peerId spoolDir pollIntervalMs maxIdleEntries =>
      obtain ⟨rest, fields, htag, hfields, -, hget⟩ := @tagged_tableOf
        ["node_id", "peer_id", "spool_dir", "poll_interval_ms",
          "max_idle_entries"]
        (TransportAdapterConfig.offlineMesh nodeId peerId spoolDir
          pollIntervalMs maxIdleEntries).members "kind" "offline_mesh" rfl
        (by decide)
      simp only [TransportAdapterConfig.members, List.forall_mem_cons] at hget
      obtain ⟨hnode, hpeer, hdir, hpoll, hidle, -⟩ := hget
      rw [readTransport, TransportAdapterConfig.toToml,
        TransportAdapterConfig.kind, htag]
      simp [hfields, defaulted_written hnode, defaulted_written hpeer,
        defaulted_written hdir, defaulted_written hpoll,
        defaulted_written hidle]
  | dataMule inboxDir outboxDir pollIntervalMs maxFileBytes maxTotalBytes
      maxAgeMs =>
      obtain ⟨rest, fields, htag, hfields, -, hget⟩ := @tagged_tableOf
        ["inbox_dir", "outbox_dir", "poll_interval_ms", "max_file_bytes",
          "max_total_bytes", "max_age_ms"]
        (TransportAdapterConfig.dataMule inboxDir outboxDir pollIntervalMs
          maxFileBytes maxTotalBytes maxAgeMs).members "kind" "data_mule" rfl
        (by decide)
      simp only [TransportAdapterConfig.members, List.forall_mem_cons] at hget
      obtain ⟨hinbox, houtbox, hpoll, hfile, htotal, hage, -⟩ := hget
      rw [readTransport, TransportAdapterConfig.toToml,
        TransportAdapterConfig.kind, htag]
      simp [hfields, defaulted_written hinbox, defaulted_written houtbox,
        defaulted_written hpoll, defaulted_written hfile,
        defaulted_written htotal, defaulted_written hage]

@[simp] theorem readIdentity_toToml :
    Rereads readIdentity IdentityProviderConfig.toToml := by
  intro identity
  cases identity with
  | software => rfl
  | hsmPkcs11 modulePath tokenLabel slot keyLabel =>
      obtain ⟨rest, fields, htag, hfields, -, hget⟩ := @tagged_tableOf
        ["module_path", "token_label", "slot", "key_label"]
        (IdentityProviderConfig.hsmPkcs11 modulePath tokenLabel slot
          keyLabel).members "kind" "hsm_pkcs11" rfl (by decide)
      simp only [IdentityProviderConfig.members, List.forall_mem_cons] at hget
      obtain ⟨hmodule, htoken, hslot, hkey, -⟩ := hget
      rw [readIdentity, IdentityProviderConfig.toToml,
        IdentityProviderConfig.kind, htag]
      simp [hfields, defaulted_written hmodule, defaulted_written htoken,
        defaulted_written hslot, defaulted_written hkey]
  | yubikeyPiv slot pin =>
      obtain ⟨rest, fields, htag, hfields, -, hget⟩ := @tagged_tableOf
        ["slot", "pin"] (IdentityProviderConfig.yubikeyPiv slot pin).members
        "kind" "yubikey_piv" rfl (by decide)
      simp only [IdentityProviderConfig.members, List.forall_mem_cons] at hget
      obtain ⟨hslot, hpin, -⟩ := hget
      rw [readIdentity, IdentityProviderConfig.toToml,
        IdentityProviderConfig.kind, htag]
      simp [hfields, defaulted_written hslot, defaultedNone_written hpin]
  | tpmBinding aikKeyHandle pcrProfile =>
      obtain ⟨rest, fields, htag, hfields, -, hget⟩ := @tagged_tableOf
        ["aik_key_handle", "pcr_profile"]
        (IdentityProviderConfig.tpmBinding aikKeyHandle pcrProfile).members
        "kind" "tpm_binding" rfl (by decide)
      simp only [IdentityProviderConfig.members, List.forall_mem_cons] at hget
      obtain ⟨hhandle, hpcr, -⟩ := hget
      rw [readIdentity, IdentityProviderConfig.toToml,
        IdentityProviderConfig.kind, htag]
      simp [hfields, defaulted_written hhandle, defaultedNone_written hpcr]

@[simp] theorem readPqc_toToml : Rereads readPqc PqcConfig.toToml := by
  intro pqc
  obtain ⟨fields, hfields, -, hget⟩ := @structOf_tableOf
    ["enabled", "transition_label", "hybrid_context", "kem_tag"] pqc.members
    rfl (by decide)
  simp only [PqcConfig.members, List.forall_mem_cons] at hget
  obtain ⟨henabled, hlabel, hcontext, htag, -⟩ := hget
  rw [readPqc, PqcConfig.toToml, hfields]
  simp [required_written henabled, defaulted_written hlabel,
    defaulted_written hcontext, defaulted_written htag]

@[simp] theorem readShamir_toToml : Rereads readShamir ShamirConfig.toToml := by
  intro shamir
  obtain ⟨fields, hfields, -, hget⟩ := @structOf_tableOf
    ["enabled", "threshold", "shares"] shamir.members rfl (by decide)
  simp only [ShamirConfig.members, List.forall_mem_cons] at hget
  obtain ⟨henabled, hthreshold, hshares, -⟩ := hget
  rw [readShamir, ShamirConfig.toToml, hfields]
  simp [required_written henabled, defaulted_written hthreshold,
    defaulted_written hshares]

@[simp] theorem readRatchetAudit_toToml :
    Rereads readRatchetAudit RatchetAuditConfig.toToml := by
  intro audit
  obtain ⟨fields, hfields, -, hget⟩ := @structOf_tableOf
    ["journal_path", "max_entries"] audit.members rfl (by decide)
  simp only [RatchetAuditConfig.members, List.forall_mem_cons] at hget
  obtain ⟨hpath, hmax, -⟩ := hget
  rw [readRatchetAudit, RatchetAuditConfig.toToml, hfields]
  simp [defaulted_written hpath, defaulted_written hmax]

@[simp] theorem readRoadmap_toToml :
    Rereads readRoadmap RoadmapConfig.toToml := by
  intro roadmap
  obtain ⟨fields, hfields, -, hget⟩ := @structOf_tableOf
    ["transport", "identity", "pqc", "shamir", "ratchet_audit"]
    roadmap.members rfl (by decide)
  simp only [RoadmapConfig.members, List.forall_mem_cons] at hget
  obtain ⟨htransport, hidentity, hpqc, hshamir, haudit, -⟩ := hget
  rw [readRoadmap, RoadmapConfig.toToml, hfields]
  simp [defaulted_written htransport, defaulted_written hidentity,
    defaulted_written hpqc, defaulted_written hshamir, defaulted_written haudit]

/-- The document of a configuration is read as that configuration. -/
theorem ofDocument_document (config : Config) :
    Config.ofDocument config.document = some config := by
  obtain ⟨fields, hfields, htable, hget⟩ := @strictStructOf_tableOf
    configFields config.members rfl (by decide)
  simp only [Config.members, List.forall_mem_cons] at hget
  obtain ⟨hname, hlocal, hpeers, hobfuscation, hstealth, hroadmap, hcontrol,
    hsession, -⟩ := hget
  have hlist : fields.required (readList readPeer) "peers" =
      some config.peers := by
    rw [Fields.required, hpeers]
    exact readList_array readPeer_toToml config.peers
  rw [Config.ofDocument, Config.document, hfields]
  simp [required_written hname, required_written hlocal, hlist,
    optional_written htable hobfuscation, optional_written htable hstealth,
    optional_written htable hroadmap, optional_written htable hcontrol,
    optional_written htable hsession]

end Reread

end Shph.Configuration
