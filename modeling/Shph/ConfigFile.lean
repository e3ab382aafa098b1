/-
The configuration file.  A save replaces the file in one step by a text that
the TOML library writes; a load checks the path, the permissions and the size
before it parses the text.  Only a load knows a limit of the size, so what was
saved comes back just when it is within that limit.
-/
import Shph.ConfigMigration
import Shph.ControlPlane
import Shph.KeyStoreReload

namespace Shph.Configuration

open ByteCodec Checked ControlPlane OrderedTable TomlTree

/-- The words of the system for its failures, and of the library for bytes
that are no text. -/
structure StdTexts where
  failure : IoErrorKind → String
  notUtf8 : Bytes → String

section Errors

variable (texts : StdTexts)

/-- The errors of the checks on paths, which all count as invalid input. -/
def invalidInput {A : Type} : Except ShphError A → Except ConfigError A
  | .ok value => .ok value
  | .error error =>
      .error (.io .invalidInput (displayError texts.failure error))

/-- The errors of the system's own calls. -/
def systemCall {A : Type} : Except ShphError A → Except ConfigError A
  | .ok value => .ok value
  | .error (.io kind) => .error (.io kind (texts.failure kind))
  | .error error => .error (.io .other (displayError texts.failure error))

def serializedText : Except String String → Except ConfigError String
  | .ok text => .ok text
  | .error message => .error (.serialize message)

def ensureNoReparse (disk : SecretDisk) (path : SecretPath) :
    Except ConfigError Unit :=
  invalidInput texts (disk.ensureNoReparseComponents path)

end Errors

section Saving

/-- The calls of a save that the system refuses, with the error of each. -/
abbrev SaveFaults := SecretWriteStep → Option (IoErrorKind × String)

def SaveFaults.attempt (faults : SaveFaults) (step : SecretWriteStep) :
    Except ConfigError Unit :=
  match faults step with
  | none => .ok ()
  | some (kind, message) => .error (.io kind message)

/-- A check that is left out if the path names no directory. -/
def ifNamed (parent : SecretPath) (check : Except ConfigError Unit) :
    Except ConfigError Unit :=
  if parent = [] then .ok () else check

/-- The new file takes the place of the old one in one step, after everything
was written to a temporary file that no failure leaves behind.  A failure
after that step is reported although the file was replaced. -/
def Config.save (codec : TomlCodec) (parseIp : String → Option IpAddr)
    (texts : StdTexts) (faults : SaveFaults) (disk : SecretDisk)
    (path : SecretPath) (config : Config) :
    Except ConfigError Unit × SecretDisk :=
  let parent := path.dropLast
  let made := if parent = [] then disk else disk.createDirAll parent
  let makeDirectory := do
    config.validate parseIp
    let contents ← serializedText (codec.write config)
    ifNamed parent (ensureNoReparse texts disk parent)
    ifNamed parent (faults.attempt .createDirAll)
    return contents
  let replaceFile := do
    ifNamed parent (ensureNoReparse texts made parent)
    ensureNoReparse texts made path
    faults.attempt .createTempFile
    faults.attempt .restrictPerms
    faults.attempt .writeAll
    faults.attempt .syncAll
    ensureNoReparse texts made parent
    ensureNoReparse texts made path
    faults.attempt .persistOver
  match makeDirectory with
  | .error error => (.error error, disk)
  | .ok contents =>
      match replaceFile with
      | .error error => (.error error, made)
      | .ok () => (faults.attempt .syncParentDir,
          made.put path (.file secretFileMode (textBytes contents)))

end Saving

section Loading

variable (texts : StdTexts)

def openConfigReadonly (disk : SecretDisk) (path : SecretPath) :
    Except ConfigError Bytes := do
  let file ← invalidInput texts (disk.openReadonlyNoReparse path)
  let node ← systemCall texts (disk.metadata path)
  let mode := String.ofList (Nat.toDigits 8 node.mode)
  require (node.mode &&& 0o077 = 0) (.io .permissionDenied
    ("configuration file is group/other accessible (mode " ++ mode ++
      "); refusing to load"))
  return file

def oversized : ConfigError :=
  .io .invalidData ("configuration exceeds " ++ toString maxConfigBytes ++
    " bytes")

/-- The bytes of the file.  The length is checked once in the metadata and
once on what was read. -/
def readBounded (disk : SecretDisk) (path : SecretPath) :
    Except ConfigError Bytes := do
  ensureNoReparse texts disk path
  let file ← openConfigReadonly texts disk path
  require (file.length ≤ maxConfigBytes) oversized
  let bytes := file.take (maxConfigBytes + 1)
  require (bytes.length ≤ maxConfigBytes) oversized
  return bytes

def Config.load (codec : TomlCodec) (parseIp : String → Option IpAddr)
    (disk : SecretDisk) (path : SecretPath) : Except ConfigError Config := do
  let bytes ← readBounded texts disk path
  let contents ← valueOr (String.fromUTF8? ⟨bytes.toArray⟩)
    (.io .invalidData ("configuration is not valid UTF-8: " ++
      texts.notUtf8 bytes))
  Config.parse codec parseIp contents

end Loading

section Disk

variable {texts : StdTexts} {disk newDisk : SecretDisk} {path : SecretPath}
  {data : Bytes} {faults : SaveFaults} {codec : TomlCodec}
  {parseIp : String → Option IpAddr} {config : Config}

theorem invalidInput_eq_ok_iff {A : Type} {result : Except ShphError A}
    {value : A} :
    invalidInput texts result = .ok value ↔ result = .ok value := by
  cases result <;> simp [invalidInput]

theorem serializedText_eq_ok_iff {result : Except String String}
    {text : String} :
    serializedText result = .ok text ↔ result = .ok text := by
  cases result <;> simp [serializedText]

/-- A save that succeeded left the text of a valid configuration in a file of
the owner alone, at the end of a path without links. -/
theorem save_eq_ok
    (hsave : config.save codec parseIp texts faults disk path =
      (.ok (), newDisk)) :
    ∃ contents, codec.write config = .ok contents ∧
      config.validate parseIp = .ok () ∧
      newDisk.lstat path =
        .ok (some (.file secretFileMode (textBytes contents))) ∧
      newDisk.ensureNoReparseComponents path = .ok () := by
  simp only [Config.save] at hsave
  split at hsave
  · cases (Prod.mk.inj hsave).1
  · rename_i contents hmake
    split at hsave
    · cases (Prod.mk.inj hsave).1
    · rename_i hreplace
      rw [then_eq_ok] at hmake
      obtain ⟨hvalid, hmake⟩ := hmake
      rw [bind_eq_ok] at hmake
      obtain ⟨written, hwrite, hmake⟩ := hmake
      rw [then_eq_ok, then_eq_ok] at hmake
      obtain ⟨-, -, hmake⟩ := hmake
      cases hmake
      rw [then_eq_ok, then_eq_ok] at hreplace
      obtain ⟨-, hpath, -⟩ := hreplace
      rw [ensureNoReparse, invalidInput_eq_ok_iff] at hpath
      refine ⟨contents, serializedText_eq_ok_iff.mp hwrite, hvalid, ?_⟩
      rw [← (Prod.mk.inj hsave).2]
      exact ⟨SecretDisk.lstat_put_self _,
        SecretDisk.ensureNoReparseComponents_put _ hpath⟩

/-- Such a file is read whole if it is within the limit. -/
theorem readBounded_saved
    (hfile : disk.lstat path = .ok (some (.file secretFileMode data)))
    (hpath : disk.ensureNoReparseComponents path = .ok ()) :
    readBounded texts disk path =
      if data.length ≤ maxConfigBytes then .ok data
      else .error oversized := by
  have hmetadata : disk.metadata path = .ok (.file secretFileMode data) := by
    rw [SecretDisk.metadata, hfile]
  have hnode : disk.openReadonlyNoReparse path = .ok data := by
    simp only [SecretDisk.openReadonlyNoReparse, hpath, hmetadata, bind,
      Except.bind, pure, Except.pure]
  have hmode : secretFileMode &&& 0o077 = 0 := by decide
  have hopen : openConfigReadonly texts disk path = .ok data := by
    have hcall : systemCall texts (disk.metadata path) =
        .ok (.file secretFileMode data) := by
      rw [hmetadata]
      rfl
    rw [openConfigReadonly, bind_eq_ok]
    refine ⟨data, invalidInput_eq_ok_iff.mpr hnode, ?_⟩
    rw [bind_eq_ok]
    refine ⟨_, hcall, ?_⟩
    rw [then_eq_ok, require_eq_ok_iff]
    exact ⟨hmode, rfl⟩
  have hcheck : ensureNoReparse texts disk path = .ok () := by
    rw [ensureNoReparse, hpath]
    rfl
  rw [readBounded, hcheck, hopen]
  generalize maxConfigBytes = limit
  by_cases hfits : data.length ≤ limit
  · have htake : data.take (limit + 1) = data :=
      List.take_of_length_le (by omega)
    simp only [require, htake, if_pos hfits, bind, Except.bind, pure,
      Except.pure]
  · simp only [require, if_neg hfits, bind, Except.bind]

end Disk

section Reload

variable {texts : StdTexts} {codec : TomlCodec}
  {parseIp : String → Option IpAddr} {config : Config} {text : String}
  {faults : SaveFaults} {disk newDisk : SecretDisk} {path : SecretPath}

/-- What the library writes for a configuration it reads as the document of
that configuration. -/
def TomlCodec.RoundTrips (codec : TomlCodec) : Prop :=
  ∀ config text, codec.write config = .ok text →
    codec.read text = .ok config.document

/-- No session is written with the older version. -/
theorem lookup_shroudVersion (session : SessionConfig) :
    (ofEntries (membersOf session.members)).lookup "shroud_version" =
      none := by
  rw [List.lookup_eq_none_iff]
  intro entry hentry
  rw [bne_iff_ne]
  intro hsame
  have hkey := keys_membersOf.subset
    (mem_keys_ofEntries.mp (List.mem_map_of_mem hentry))
  rw [← hsame] at hkey
  simp [SessionConfig.members] at hkey

/-- The document of a configuration is not migrated. -/
theorem migrate_document (config : Config) :
    migrate config.document = .ok config.document := by
  have hnames : (config.members.map Prod.fst).Nodup := by
    simp [Config.members]
  have hsession : (ofEntries (membersOf config.members)).lookup "session" =
      config.session.map SessionConfig.toToml :=
    lookup_membersOf hnames (by simp [Config.members])
  rw [Config.document, tableOf, Toml.ofMembers]
  cases hsome : config.session with
  | none =>
      rw [hsome] at hsession
      rw [migrate, hsession]
      rfl
  | some session =>
      rw [hsome] at hsession
      have htable : (config.session.map SessionConfig.toToml).bind
          Toml.asTable = some (ofEntries (membersOf session.members)) := by
        rw [hsome]
        rfl
      have hkeep : migrateSession
          (legacyProfile (.table (ofEntries (membersOf config.members))))
          (ofEntries (membersOf session.members)) =
            .ok (ofEntries (membersOf session.members)) := by
        rw [migrateSession, lookup_shroudVersion]
      rw [hsome, ← hsession] at htable
      have hsame : insert "session"
          (.table (ofEntries (membersOf session.members)))
          (ofEntries (membersOf config.members)) =
            ofEntries (membersOf config.members) :=
        insert_lookup (ofEntries_inOrder _) hsession
      simp only [migrate, htable, hkeep, hsame, bind, Except.bind, pure,
        Except.pure]

/-- A written configuration that is valid is parsed as it was. -/
theorem parse_written (hreads : codec.read text = .ok config.document)
    (hvalid : config.validate parseIp = .ok ()) :
    Config.parse codec parseIp text = .ok config := by
  simp only [Config.parse, hreads, parsed, migrate_document,
    ofDocument_document, valueOr, hvalid, bind, Except.bind, pure, Except.pure]

/-- What a load makes of the file that a save left behind. -/
theorem load_saved (hreads : codec.RoundTrips)
    (hsave : config.save codec parseIp texts faults disk path =
      (.ok (), newDisk)) :
    ∃ contents, codec.write config = .ok contents ∧
      Config.load texts codec parseIp newDisk path =
        if contents.utf8ByteSize ≤ maxConfigBytes then .ok config
        else .error oversized := by
  obtain ⟨contents, hwrite, hvalid, hfile, hpath⟩ := save_eq_ok hsave
  refine ⟨contents, hwrite, ?_⟩
  have hparse := parse_written (hreads config contents hwrite) hvalid
  have hsize : (textBytes contents).length = contents.utf8ByteSize := rfl
  rw [Config.load, readBounded_saved hfile hpath, hsize]
  split
  · simp only [bind, Except.bind, fromUTF8?_textBytes, valueOr, hparse]
  · rfl

/-- A saved configuration is loaded again as it was if and only if its text is
within the limit of the loader. -/
theorem config_reloads_iff (hreads : codec.RoundTrips)
    (hsave : config.save codec parseIp texts faults disk path =
      (.ok (), newDisk)) :
    Config.load texts codec parseIp newDisk path = .ok config ↔
      ∀ contents, codec.write config = .ok contents →
        contents.utf8ByteSize ≤ maxConfigBytes := by
  obtain ⟨contents, hwrite, hload⟩ := load_saved hreads hsave
  rw [hload]
  constructor
  · intro hok other hother
    rw [hwrite] at hother
    cases hother
    by_contra hlarge
    rw [if_neg hlarge] at hok
    cases hok
  · intro hfits
    exact if_pos (hfits contents hwrite)

end Reload

section Samples

def noFaults : SaveFaults := fun _ => none

def plainTexts : StdTexts := ⟨fun _ => "os error", fun _ => "invalid utf-8"⟩

def emptyDisk : SecretDisk := ⟨fun _ => .ok none⟩

def configPath : SecretPath := ["config.toml"]

/-- The library at the text of one configuration. -/
def singleCodec (known : Config) (text : String) : TomlCodec where
  write config :=
    if config = known then .ok text else .error "unsupported"
  read contents :=
    if contents = text then .ok known.document else .error "expected a table"
  mismatch _ := "missing field"

theorem singleCodec_roundTrips (known : Config) (text : String) :
    (singleCodec known text).RoundTrips := by
  intro config contents hwrite
  simp only [singleCodec] at hwrite ⊢
  split at hwrite
  · rename_i hsame
    cases hwrite
    rw [if_pos rfl, hsame]
  · cases hwrite

theorem singleCodec_write (known : Config) (text : String) :
    (singleCodec known text).write known = .ok text :=
  if_pos rfl

/-- A valid configuration is saved to an empty disk. -/
theorem save_single {known : Config} {text : String}
    {parseIp : String → Option IpAddr}
    (hvalid : known.validate parseIp = .ok ()) :
    known.save (singleCodec known text) parseIp plainTexts noFaults emptyDisk
        configPath =
      (.ok (), emptyDisk.put configPath
        (.file secretFileMode (textBytes text))) := by
  have hcheck : ensureNoReparse plainTexts emptyDisk configPath = .ok () := rfl
  have hparent : configPath.dropLast = [] := rfl
  have hnothing : ensureNoReparse plainTexts emptyDisk [] = .ok () := rfl
  simp only [Config.save, hvalid, singleCodec_write, serializedText, hparent,
    ifNamed, if_true, hcheck, hnothing, SaveFaults.attempt, noFaults, bind,
    Except.bind, pure, Except.pure]

/-- The configuration the program starts from. -/
def defaultConfig : Config where
  interfaceName := "shph0"
  localEndpoint := "0.0.0.0:51820"
  peers := []
  obfuscation := none
  stealth := none
  roadmap := none
  controlPlane := none
  session := none

def defaultText : String :=
  "interface_name = \"shph0\"\nlocal_endpoint = \"0.0.0.0:51820\"\n" ++
    "peers = []\n"

theorem defaultConfig_valid (parseIp : String → Option IpAddr) :
    defaultConfig.validate parseIp = .ok () := by
  have hname : validateInterfaceName "shph0" = .ok () := by decide +kernel
  have hendpoint : validateEndpoint "local_endpoint" "0.0.0.0:51820" =
      .ok () := by
    decide +kernel
  simp only [Config.validate, defaultConfig, hname, hendpoint, validatePeers,
    List.length_nil, Nat.zero_le, require, if_true, ifSome, bind, Except.bind]

/-- A client with one peer, through which it routes and asks for names. -/
def clientConfig : Config :=
  { defaultConfig with
    peers := [⟨"office", "192.0.2.10:7000",
      "CwsLCwsLCwsLCwsLCwsLCwsLCwsLCwsLCwsLCwsLCws=", none⟩]
    controlPlane := some {
      applyInterfaceAddress := some true
      interfaceCidr := some "10.8.0.2/24"
      applyRoutes := some true
      routeCidrs := some ["10.1.0.0/16"]
      underlayBypassCidrs := none
      applyDns := some true
      dnsServers := some ["10.8.0.1"]
      dryRun := none }
    session := some {
      role := .connect
      bind := none
      peer := some "192.0.2.10:7000"
      transportPeer := none
      snapProfile := none
      timeoutSecs := some 30
      handshakeProfile := some .secureDefault
      underlay := none
      quicCert := none
      quicKey := none
      phantomOne := false
      shroud3Adaptive := false
      negotiateEnvelopePolicy := true
      phantomOneProfile := "medium"
      reconnect := none
      startupPayload := none } }

def clientText : String :=
  "interface_name = \"shph0\"\nlocal_endpoint = \"0.0.0.0:51820\"\n" ++
    "\n[[peers]]\nalias = \"office\"\nendpoint = \"192.0.2.10:7000\"\n" ++
    "pubkey = \"CwsLCwsLCwsLCwsLCwsLCwsLCwsLCwsLCwsLCwsLCws=\"\n" ++
    "\n[control_plane]\napply_interface_address = true\n" ++
    "interface_cidr = \"10.8.0.2/24\"\napply_routes = true\n" ++
    "route_cidrs = [\"10.1.0.0/16\"]\napply_dns = true\n" ++
    "dns_servers = [\"10.8.0.1\"]\n" ++
    "\n[session]\nrole = \"connect\"\npeer = \"192.0.2.10:7000\"\n" ++
    "timeout_secs = 30\nhandshake_profile = \"secure-default\"\n" ++
    "phantom_one = false\nshroud3_adaptive = false\n" ++
    "negotiate_envelope_policy = true\nphantom_one_profile = \"medium\"\n"

def clientAddresses (text : String) : Option IpAddr :=
  if text = "10.8.0.2" then some (.ofOctets 10 8 0 2)
  else if text = "10.1.0.0" then some (.ofOctets 10 1 0 0)
  else if text = "10.8.0.1" then some (.ofOctets 10 8 0 1)
  else none

theorem clientConfig_valid :
    clientConfig.validate clientAddresses = .ok () := by
  decide +kernel

theorem client_config_reloads :
    Config.load plainTexts (singleCodec clientConfig clientText)
      clientAddresses (emptyDisk.put configPath
        (.file secretFileMode (textBytes clientText))) configPath =
      .ok clientConfig := by
  refine (config_reloads_iff (singleCodec_roundTrips _ _)
    (save_single clientConfig_valid)).mpr ?_
  intro contents hwrite
  rw [singleCodec_write] at hwrite
  cases hwrite
  decide +kernel

/-- A journal whose name is this long; no check of a configuration looks at
it. -/
def wideConfig (letters : Nat) : Config :=
  { defaultConfig with
    roadmap := some {
      transport := .tcp
      identity := .software
      pqc := PqcConfig.default
      shamir := ShamirConfig.default
      ratchetAudit :=
        ⟨String.ofList (List.replicate letters 'j'), 2048⟩ } }

def wideText (letters : Nat) : String :=
  defaultText ++
    "\n[roadmap.transport]\nkind = \"tcp\"\n" ++
    "\n[roadmap.identity]\nkind = \"software\"\n" ++
    "\n[roadmap.pqc]\nenabled = false\n" ++
    "transition_label = \"shph-hybrid-v1\"\n" ++
    "hybrid_context = \"shph-pqc-kem\"\nkem_tag = \"mlkem768\"\n" ++
    "\n[roadmap.shamir]\nenabled = false\nthreshold = 2\nshares = 3\n" ++
    "\n[roadmap.ratchet_audit]\njournal_path = \"" ++
    String.ofList (List.replicate letters 'j') ++
    "\"\nmax_entries = 2048\n"

theorem lt_wideText (letters : Nat) :
    letters < (wideText letters).utf8ByteSize := by
  have hletters : (String.ofList (List.replicate letters 'j')).utf8ByteSize =
      letters := by
    rw [String.utf8ByteSize_ofList]
    induction letters with
    | zero => rfl
    | succ letters ih =>
        rw [List.replicate_succ, String.utf8Len_cons, ih]
        rfl
  have hlast : ("\"\nmax_entries = 2048\n" : String).utf8ByteSize = 21 := by
    decide
  simp only [wideText, String.utf8ByteSize_append, hletters, hlast]
  omega

def wideCodec : TomlCodec :=
  singleCodec (wideConfig maxConfigBytes) (wideText maxConfigBytes)

/-- A configuration with so long a name is saved, and refused when it is to be
loaded. -/
theorem wide_config_is_lost :
    wideCodec.RoundTrips ∧
      ∃ newDisk,
        (wideConfig maxConfigBytes).save wideCodec (fun _ => none) plainTexts
            noFaults emptyDisk configPath = (.ok (), newDisk) ∧
        Config.load plainTexts wideCodec (fun _ => none) newDisk configPath =
          .error oversized := by
  have hvalid : (wideConfig maxConfigBytes).validate (fun _ => none) = .ok () :=
    defaultConfig_valid _
  have hsave := @save_single _ (wideText maxConfigBytes) _ hvalid
  refine ⟨singleCodec_roundTrips _ _, _, hsave, ?_⟩
  obtain ⟨contents, hwrite, hload⟩ :=
    load_saved (singleCodec_roundTrips _ _) hsave
  rw [singleCodec_write] at hwrite
  cases hwrite
  exact hload.trans (if_neg (lt_wideText maxConfigBytes).not_ge)

end Samples

end Shph.Configuration
