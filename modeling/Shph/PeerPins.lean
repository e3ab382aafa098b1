/-
The commands that pin a peer.  Both write the configuration and then the key
store, one file after the other, and each save may fail before or after it has
replaced its file.
-/
import Shph.KeyStore

namespace Shph

open ControlPlane

/-- What became of a save: the file was replaced, it was left as it was, or it
was replaced and the call failed after that. -/
inductive SaveOutcome where
  | written
  | refused (error : ShphError)
  | unsynced (error : ShphError)
deriving Repr, DecidableEq

namespace SaveOutcome

def result : SaveOutcome → Except ShphError Unit
  | .written => .ok ()
  | .refused error => .error error
  | .unsynced error => .error error

/-- The file after the save. -/
def file {α : Type} (outcome : SaveOutcome) (old : Option α) (new : α) :
    Option α :=
  match outcome with
  | .refused _ => old
  | _ => some new

end SaveOutcome

structure PeerConfig where
  aliasName : String
  endpoint : String
  pubkey : String
  signPubkey : Option String
deriving Repr, DecidableEq

/-- The part of the configuration that lists the peers. -/
structure PeerFile where
  peers : List PeerConfig
deriving Repr, DecidableEq

/-- The two files of a workspace. -/
structure Workspace (prims : Primitives) where
  config : Option PeerFile
  keystore : Option (KeyStore prims)

/-- What the system does with the calls of one command; loads and the draws of
a new identity may fail, and every save has its outcome. -/
structure PinFaults where
  loadConfig : Option ShphError
  createConfig : SaveOutcome
  saveConfig : SaveOutcome
  loadKeystore : Option ShphError
  dhSeed : Option Key
  signSeed : Option Key
  createKeystore : SaveOutcome
  saveKeystore : SaveOutcome

/-- The keys a command pins for an alias. -/
structure AliasPin where
  aliasName : String
  pubkey : String
  signPubkey : String
deriving Repr, DecidableEq

def formatEndpoint (host : String) (port : UInt16) : String :=
  if ':' ∈ host.toList ∧ host.toList.head? ≠ some '[' then
    s!"[{host}]:{port.toNat}"
  else s!"{host}:{port.toNat}"

def validatePubkeyB64Named (input label : String) : Except ShphError Unit := do
  let raw ← okOr (Base64.decode input)
    (.invalidArgument s!"{label} must be base64")
  ensure (raw.length = 32)
    (.invalidArgument s!"{label} must decode to 32 bytes")

def validatePubkeyB64 (input : String) : Except ShphError Unit :=
  validatePubkeyB64Named input "pubkey"

/-- `envPassword` is the variable `SHPH_KEYSTORE_PASSWORD`. -/
def KeyStore.new (prims : Primitives) (config : KeyStoreConfig)
    (envPassword : Option String) (dhSeed signSeed : Option Key) :
    Except ShphError (KeyStore prims) := do
  let dhSeed ← okOr dhSeed ringError
  let signSeed ← okOr signSeed ringError
  return { identity := .fromSeeds prims dhSeed signSeed
           contacts := .empty
           config := ⟨config.password <|> envPassword⟩ }

def toPeerConfigs {prims : Primitives} (keystore : KeyStore prims) :
    List PeerConfig :=
  keystore.contacts.entries.map fun entry =>
    { aliasName := entry.2.aliasName
      endpoint := s!"{entry.2.endpoint.host}:{entry.2.endpoint.port.toNat}"
      pubkey := entry.2.pubkeyB64
      signPubkey := entry.2.signPubkeyB64 }

section Commands

variable {prims : Primitives} (envPassword : Option String)
  (faults : PinFaults)

/-- The key store that was loaded takes its password from the environment. -/
def loadKeystoreFile (keystore : KeyStore prims) :
    Except ShphError (KeyStore prims) :=
  match faults.loadKeystore with
  | some error => .error error
  | none => .ok { keystore with config := ⟨envPassword⟩ }

def loadPeerFile (config : PeerFile) : Except ShphError PeerFile :=
  match faults.loadConfig with
  | some error => .error error
  | none => .ok config

def newKeystore (prims : Primitives) : Except ShphError (KeyStore prims) :=
  KeyStore.new prims ⟨none⟩ envPassword faults.dhSeed faults.signSeed

structure AddPeer where
  aliasName : String
  host : String
  port : UInt16
  pubkeyB64 : String
  signPubkeyB64 : String
deriving Repr, DecidableEq

namespace AddPeer

def pin (peer : AddPeer) : AliasPin :=
  ⟨peer.aliasName, peer.pubkeyB64, peer.signPubkeyB64⟩

def peerConfig (peer : AddPeer) : PeerConfig :=
  ⟨peer.aliasName, formatEndpoint peer.host peer.port, peer.pubkeyB64,
    some peer.signPubkeyB64⟩

def contact (peer : AddPeer) : Contact :=
  ⟨peer.aliasName, ⟨peer.host, peer.port⟩, peer.pubkeyB64,
    some peer.signPubkeyB64⟩

/-- The configuration the peer is added to. -/
def openConfig (workspace : Workspace prims) : Except ShphError PeerFile :=
  match workspace.config with
  | some config => loadPeerFile faults config
  | none => .ok ⟨[]⟩

/-- The checks before the first file is written, and the configuration they
are made against. -/
def accept (peer : AddPeer) (workspace : Workspace prims) :
    Except ShphError PeerFile := do
  ensure (¬ isBlank peer.aliasName) (.invalidArgument "alias cannot be empty")
  ensure (peer.port ≠ 0) (.invalidArgument "port must be > 0")
  validatePubkeyB64 peer.pubkeyB64
  validatePubkeyB64Named peer.signPubkeyB64 "sign_pubkey"
  let config ← openConfig faults workspace
  ensure (∀ entry ∈ config.peers, entry.aliasName ≠ peer.aliasName)
    (.invalidArgument "peer alias already exists")
  return config

/-- The key store the contact is added to. -/
def openKeystore (workspace : Workspace prims) :
    Except ShphError (KeyStore prims) :=
  match workspace.keystore with
  | some keystore => loadKeystoreFile envPassword faults keystore
  | none => newKeystore envPassword faults prims

end AddPeer

def handleAddPeer (peer : AddPeer) (workspace : Workspace prims) :
    Except ShphError Unit × Workspace prims :=
  match peer.accept faults workspace with
  | .error error => (.error error, workspace)
  | .ok config =>
      let config := PeerFile.mk (config.peers ++ [peer.peerConfig])
      let workspace :=
        { workspace with
          config := faults.saveConfig.file workspace.config config }
      match faults.saveConfig.result with
      | .error error => (.error error, workspace)
      | .ok () =>
          match AddPeer.openKeystore envPassword faults workspace with
          | .error error => (.error error, workspace)
          | .ok keystore =>
              let keystore := keystore.addContact peer.contact
              (faults.saveKeystore.result,
                { workspace with keystore :=
                    faults.saveKeystore.file workspace.keystore keystore })

/-- What a join ticket says about the host. -/
structure JoinPeer where
  endpoint : String
  serverIdentityB64 : String
  serverSigningB64 : String
deriving Repr, DecidableEq

def JoinPeer.pin (ticket : JoinPeer) : AliasPin :=
  ⟨"host", ticket.serverIdentityB64, ticket.serverSigningB64⟩

/-- Load the key store, or make one and save it. -/
def ensureKeystore (workspace : Workspace prims) :
    Except ShphError (KeyStore prims) × Workspace prims :=
  match workspace.keystore with
  | some keystore =>
      (loadKeystoreFile envPassword faults keystore, workspace)
  | none =>
      match newKeystore envPassword faults prims with
      | .error error => (.error error, workspace)
      | .ok keystore =>
          ((faults.createKeystore.result).map fun _ => keystore,
            { workspace with
              keystore := faults.createKeystore.file none keystore })

/-- Load the configuration, or make one from the contacts and save it. -/
def ensureConfig (keystore : KeyStore prims) (workspace : Workspace prims) :
    Except ShphError PeerFile × Workspace prims :=
  match workspace.config with
  | some config => (loadPeerFile faults config, workspace)
  | none =>
      let config := PeerFile.mk (toPeerConfigs keystore)
      ((faults.createConfig.result).map fun _ => config,
        { workspace with config := faults.createConfig.file none config })

def ensureWorkspace (workspace : Workspace prims) :
    Except ShphError (PeerFile × KeyStore prims) × Workspace prims :=
  match ensureKeystore envPassword faults workspace with
  | (.error error, workspace) => (.error error, workspace)
  | (.ok keystore, workspace) =>
      match ensureConfig faults keystore workspace with
      | (.error error, workspace) => (.error error, workspace)
      | (.ok config, workspace) => (.ok (config, keystore), workspace)

/-- Pin the keys in the key store, unless others are pinned. -/
def pinContact (keystore : KeyStore prims) (pin : AliasPin)
    (endpoint : String) : Except ShphError (KeyStore prims) :=
  match keystore.contacts.get pin.aliasName with
  | some existing => do
      ensure (existing.pubkeyB64 = pin.pubkey ∧
          existing.signPubkeyB64 = some pin.signPubkey ∧
          formatEndpoint existing.endpoint.host existing.endpoint.port =
            endpoint)
        (.auth s!"peer pin '{pin.aliasName}' changed; refusing to overwrite it")
      return keystore
  | none =>
      match Endpoint.parse endpoint with
      | .error error =>
          .error (.invalidArgument s!"invalid peer endpoint: {error}")
      | .ok parsed => .ok (keystore.addContact
          ⟨pin.aliasName, parsed, pin.pubkey, some pin.signPubkey⟩)

/-- Pin the keys in the configuration, unless others are pinned. -/
def pinPeerConfig (config : PeerFile) (pin : AliasPin) (endpoint : String) :
    Except ShphError PeerFile :=
  match config.peers.find? fun peer => peer.aliasName = pin.aliasName with
  | some existing => do
      ensure (existing.pubkey = pin.pubkey ∧
          existing.signPubkey = some pin.signPubkey ∧
          existing.endpoint = endpoint)
        (.auth (s!"configured peer pin '{pin.aliasName}' changed; " ++
          "refusing to overwrite it"))
      return config
  | none => .ok ⟨config.peers ++
      [⟨pin.aliasName, endpoint, pin.pubkey, some pin.signPubkey⟩]⟩

def ensurePeerPin (config : PeerFile) (keystore : KeyStore prims)
    (pin : AliasPin) (endpoint : String) :
    Except ShphError (PeerFile × KeyStore prims) := do
  let keystore ← pinContact keystore pin endpoint
  let config ← pinPeerConfig config pin endpoint
  return (config, keystore)

/-- Save the configuration and then the key store. -/
def savePinned (config : PeerFile) (keystore : KeyStore prims)
    (workspace : Workspace prims) : Except ShphError Unit × Workspace prims :=
  let workspace :=
    { workspace with config := faults.saveConfig.file workspace.config config }
  match faults.saveConfig.result with
  | .error error => (.error error, workspace)
  | .ok () =>
      (faults.saveKeystore.result,
        { workspace with
          keystore := faults.saveKeystore.file workspace.keystore keystore })

/-- The part of a join that pins the host and saves, before the session is
started. -/
def handleJoin (ticket : JoinPeer) (workspace : Workspace prims) :
    Except ShphError Unit × Workspace prims :=
  match ensureWorkspace envPassword faults workspace with
  | (.error error, workspace) => (.error error, workspace)
  | (.ok (config, keystore), workspace) =>
      match ensurePeerPin config keystore ticket.pin ticket.endpoint with
      | .error error => (.error error, workspace)
      | .ok (config, keystore) => savePinned faults config keystore workspace

end Commands

end Shph
