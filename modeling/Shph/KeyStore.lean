/-
The key store: an identity and its contacts, written as JSON to one file.
With a password the JSON is encrypted first and the file holds the envelope.
Saving replaces the file atomically with permissions for its owner alone;
loading checks the path, the permissions and the size before it parses.
-/
import Shph.Library.JsonLayout
import Shph.Library.KeyTable
import Shph.TcpUnderlay

namespace Shph

open ByteCodec JsonLayout

def maxKeystoreBytes : Nat := 2 ^ 20

def keystoreFormatVersion : UInt8 := 1

def keystorePbkdf2Iterations : UInt32 := 600000

def keystoreMinPbkdf2Iterations : UInt32 := 100000

def keystoreMaxPbkdf2Iterations : UInt32 := 1000000

def keystoreSaltBytes : Nat := 16

def keystoreNonceBytes : Nat := 12

def keystoreFormat : String := "shph-encrypted-keystore"

def keystoreKdf : String := "pbkdf2-hmac-sha256"

/-- The associated data of every encrypted key store. -/
def keystoreAad : Bytes := textBytes "shph-encrypted-keystore-v1"

structure Contact where
  aliasName : String
  endpoint : ControlPlane.Endpoint
  pubkeyB64 : String
  signPubkeyB64 : Option String
deriving Repr, DecidableEq

/-- A hash map is the list of its entries in the order in which it is walked;
two maps are the same when they hold the same value for every key. -/
abbrev Contacts := KeyTable String Contact

structure KeyStoreConfig where
  password : Option String
deriving Repr, DecidableEq

/-- What a key store file says, before the keys in it are checked. -/
structure StoredKeyStore where
  identityPrivateB64 : String
  identityPublicB64 : String
  signSeedB64 : Option String
  contacts : Contacts
  config : KeyStoreConfig

structure StoredEncryptedKeyStore where
  format : String
  version : UInt8
  kdf : String
  iterations : UInt32
  saltB64 : String
  nonceB64 : String
  ciphertextB64 : String
deriving Repr, DecidableEq

/-- A key pair is only ever made from its two seeds. -/
structure SeededKeyPair (prims : Primitives) where
  pair : IdentityKeyPair
  pair_eq : pair = .fromSeeds prims pair.privateKey pair.signSeed

structure KeyStore (prims : Primitives) where
  identity : SeededKeyPair prims
  contacts : Contacts
  config : KeyStoreConfig

namespace SeededKeyPair

def fromSeeds (prims : Primitives) (dhSeed signSeed : Key) :
    SeededKeyPair prims :=
  ⟨.fromSeeds prims dhSeed signSeed, rfl⟩

/-- Without a signing seed the seed of the key exchange serves for both. -/
def fromPrivateKey (prims : Primitives) (privateBytes : Key) :
    SeededKeyPair prims :=
  fromSeeds prims privateBytes privateBytes

def fromBase64 (prims : Primitives) (privateB64 : String)
    (publicB64 : Option String) : Except ShphError (SeededKeyPair prims) := do
  let privateRaw ← okOr (Base64.decode privateB64)
    (.crypto "invalid private key base64")
  let privateArr ← okOr (FixedBytes.ofBytes? 32 privateRaw)
    (.crypto "private key must be 32 bytes")
  let pair := fromPrivateKey prims privateArr
  match publicB64 with
  | none => return pair
  | some publicB64 =>
      let expected ← okOr (Base64.decode publicB64)
        (.crypto "invalid public key base64")
      ensure (expected = pair.pair.publicKey.val)
        (.crypto "public key does not match private key")
      return pair

end SeededKeyPair

section Json

def writeString (text : String) : List Char := FlatJson.quote text.toList

def writeNumber (number : Nat) : List Char := Nat.toDigits 10 number

def writeOption : Option String → List Char
  | none => "null".toList
  | some text => writeString text

def ControlPlane.Endpoint.write (endpoint : ControlPlane.Endpoint)
    (layout : Layout) (depth : Nat) : List Char :=
  object layout depth
    [("host", writeString endpoint.host),
      ("port", writeNumber endpoint.port.toNat)]

def Contact.write (contact : Contact) (layout : Layout) (depth : Nat) :
    List Char :=
  object layout depth
    [("alias", writeString contact.aliasName),
      ("endpoint", contact.endpoint.write layout (depth + 1)),
      ("pubkey_b64", writeString contact.pubkeyB64),
      ("sign_pubkey_b64", writeOption contact.signPubkeyB64)]

/-- The password is skipped, so the configuration is an empty object. -/
def KeyStoreConfig.write (_config : KeyStoreConfig) (layout : Layout)
    (depth : Nat) : List Char :=
  object layout depth []

def StoredKeyStore.write (stored : StoredKeyStore) (layout : Layout) : String :=
  String.ofList (object layout 0
    [("identity_private_b64", writeString stored.identityPrivateB64),
      ("identity_public_b64", writeString stored.identityPublicB64),
      ("sign_seed_b64", writeOption stored.signSeedB64),
      ("contacts", object layout 1 (stored.contacts.entries.map fun entry =>
        (entry.1, entry.2.write layout 2))),
      ("config", stored.config.write layout 1)])

def StoredEncryptedKeyStore.write (encrypted : StoredEncryptedKeyStore)
    (layout : Layout) : String :=
  String.ofList (object layout 0
    [("format", writeString encrypted.format),
      ("version", writeNumber encrypted.version.toNat),
      ("kdf", writeString encrypted.kdf),
      ("iterations", writeNumber encrypted.iterations.toNat),
      ("salt_b64", writeString encrypted.saltB64),
      ("nonce_b64", writeString encrypted.nonceB64),
      ("ciphertext_b64", writeString encrypted.ciphertextB64)])

def StoredKeyStore.toVec (stored : StoredKeyStore) : Bytes :=
  textBytes (stored.write .compact)

def StoredKeyStore.toVecPretty (stored : StoredKeyStore) : Bytes :=
  textBytes (stored.write .pretty)

def StoredEncryptedKeyStore.toVecPretty (encrypted : StoredEncryptedKeyStore) :
    Bytes :=
  textBytes (encrypted.write .pretty)

/-- The reading side of the JSON library: texts become values, values become
the two stored forms, and `getStr` is a member of an object if it is a
string.  Every refusal carries the text of its error. -/
structure JsonReader where
  Value : Type
  fromStr : String → Except String Value
  getStr : Value → String → Option String
  storedOf : Value → Except String StoredKeyStore
  encryptedOf : Value → Except String StoredEncryptedKeyStore
  fromSlice : Bytes → Except String StoredKeyStore

end Json

/-- A JSON error as the program's error. -/
def serialized {α : Type} : Except String α → Except ShphError α
  | .ok value => .ok value
  | .error message => .error (.serialization message)

section Encryption

/-- The cipher of the key store with its associated data, and the derivation
of its key from the password.  The cipher may refuse a message that is too
long. -/
structure KeyStoreCipher where
  encrypt : Key → AeadNonce → (msg aad : Bytes) → Option Bytes
  decrypt : Key → AeadNonce → (msg aad : Bytes) → Option Bytes
  pbkdf2 : (iterations : Nat) → (salt password : Bytes) → Key
  decrypt_encrypt : ∀ {key nonce msg aad ciphertext},
    encrypt key nonce msg aad = some ciphertext →
      decrypt key nonce ciphertext aad = some msg
  encrypt_length : ∀ {key nonce msg aad ciphertext},
    encrypt key nonce msg aad = some ciphertext →
      ciphertext.length = msg.length + 16

variable (cipher : KeyStoreCipher)

def deriveKeystoreKey (password : String) (salt : Bytes)
    (iterations : UInt32) : Key :=
  cipher.pbkdf2 (max iterations.toNat 1) salt (textBytes password)

/-- The random bytes of one encryption; each draw may fail. -/
structure KeyStoreDraws where
  salt : Option (FixedBytes keystoreSaltBytes)
  nonce : Option (FixedBytes keystoreNonceBytes)

def encryptKeystore (draws : KeyStoreDraws) (stored : StoredKeyStore)
    (password : String) : Except ShphError StoredEncryptedKeyStore := do
  let plaintext := stored.toVec
  let salt ← okOr draws.salt ringError
  let nonce ← okOr draws.nonce ringError
  let key := deriveKeystoreKey cipher password salt.val keystorePbkdf2Iterations
  let ciphertext ← okOr (cipher.encrypt key nonce plaintext keystoreAad)
    (.keyStore "keystore encryption failed")
  return { format := keystoreFormat
           version := keystoreFormatVersion
           kdf := keystoreKdf
           iterations := keystorePbkdf2Iterations
           saltB64 := Base64.encode salt.val
           nonceB64 := Base64.encode nonce.val
           ciphertextB64 := Base64.encode ciphertext }

def decodeExact (value : String) (expected : Nat) (label : String) :
    Except ShphError (FixedBytes expected) := do
  let decoded ← okOr (Base64.decode value)
    (.keyStore s!"invalid {label} base64")
  okOr (FixedBytes.ofBytes? expected decoded)
    (.keyStore s!"{label} must be {expected} bytes")

def decryptKeystore (reader : JsonReader) (encrypted : StoredEncryptedKeyStore)
    (password : String) : Except ShphError StoredKeyStore := do
  ensure (encrypted.version = keystoreFormatVersion ∧
      encrypted.format = keystoreFormat ∧ encrypted.kdf = keystoreKdf ∧
      keystoreMinPbkdf2Iterations ≤ encrypted.iterations ∧
      encrypted.iterations ≤ keystoreMaxPbkdf2Iterations)
    (.keyStore "unsupported encrypted keystore format")
  let salt ← decodeExact encrypted.saltB64 keystoreSaltBytes "keystore salt"
  let nonce ← decodeExact encrypted.nonceB64 keystoreNonceBytes "keystore nonce"
  let ciphertext ← okOr (Base64.decode encrypted.ciphertextB64)
    (.keyStore "invalid keystore ciphertext")
  let key := deriveKeystoreKey cipher password salt.val encrypted.iterations
  let plaintext ← okOr (cipher.decrypt key nonce ciphertext keystoreAad)
    (.keyStore "invalid keystore password or ciphertext")
  serialized (reader.fromSlice plaintext)

end Encryption

section Disk

/-- A path as its components, the root being the component of an absolute path
before the others. -/
abbrev SecretPath := List String

inductive SecretNode where
  | symlink
  | directory (mode : Nat)
  | file (mode : Nat) (bytes : Bytes)
deriving Repr, DecidableEq

def SecretNode.mode : SecretNode → Nat
  | .symlink => 0o120777
  | .directory mode => mode
  | .file mode _ => mode

/-- What the system says about a path without following a link at its end; an
error is any other than that nothing is there. -/
structure SecretDisk where
  lstat : SecretPath → Except IoErrorKind (Option SecretNode)

def SecretPath.display : SecretPath → String
  | "/" :: rest => "/" ++ "/".intercalate rest
  | components => "/".intercalate components

/-- The directory of a file, the current one if the path names none. -/
def parentDirectory (path : SecretPath) : SecretPath :=
  if path.dropLast = [] then ["."] else path.dropLast

/-- The path and its parents up to the root. -/
def pathComponents (path : SecretPath) : List SecretPath :=
  path.inits.reverse.filter (· ≠ [])

namespace SecretDisk

def checkComponent (disk : SecretDisk) (component : SecretPath) :
    Except ShphError Unit :=
  match disk.lstat component with
  | .ok (some .symlink) => .error (.invalidArgument
      s!"refusing to traverse symlink component '{component.display}'")
  | .ok _ => .ok ()
  | .error kind => .error (.io kind)

def checkComponents (disk : SecretDisk) :
    List SecretPath → Except ShphError Unit
  | [] => .ok ()
  | component :: rest => do
      disk.checkComponent component
      disk.checkComponents rest

def ensureNoReparseComponents (disk : SecretDisk) (path : SecretPath) :
    Except ShphError Unit :=
  disk.checkComponents (pathComponents path)

/-- Make the directories of a path that are missing. -/
def createDirAll (disk : SecretDisk) (dir : SecretPath) : SecretDisk where
  lstat path :=
    match disk.lstat path with
    | .ok none =>
        if path ∈ pathComponents dir then .ok (some (.directory 0o40755))
        else .ok none
    | found => found

def put (disk : SecretDisk) (path : SecretPath) (node : SecretNode) :
    SecretDisk where
  lstat other := if other = path then .ok (some node) else disk.lstat other

def metadata (disk : SecretDisk) (path : SecretPath) :
    Except ShphError SecretNode :=
  match disk.lstat path with
  | .ok (some node) => .ok node
  | .ok none => .error (.io .notFound)
  | .error kind => .error (.io kind)

def assertSecretFilePerms (disk : SecretDisk) (path : SecretPath) :
    Except ShphError Unit := do
  let node ← disk.metadata path
  let mode := String.ofList (Nat.toDigits 8 node.mode)
  ensure (node.mode &&& 0o077 = 0)
    (.invalidArgument (s!"keystore file is group/other accessible (mode {mode}"
      ++ "); refusing to load a leaky key file"))

/-- The contents of a regular file. -/
def openReadonlyNoReparse (disk : SecretDisk) (path : SecretPath) :
    Except ShphError Bytes := do
  disk.ensureNoReparseComponents path
  let node ← disk.metadata path
  disk.ensureNoReparseComponents path
  match node with
  | .file _ bytes => return bytes
  | _ => .error (.invalidArgument "path must reference a regular file")

end SecretDisk

/-- The calls of one atomic write that the system may refuse. -/
inductive SecretWriteStep where
  | createDirAll
  | createTempFile
  | restrictPerms
  | writeAll
  | syncAll
  | persistOver
  | syncParentDir
deriving Repr, DecidableEq

abbrev SecretWriteFaults := SecretWriteStep → Option IoErrorKind

def SecretWriteFaults.attempt (faults : SecretWriteFaults)
    (step : SecretWriteStep) : Except ShphError Unit :=
  match faults step with
  | none => .ok ()
  | some kind => .error (.io kind)

def secretFileMode : Nat := 0o100600

/-- The new file takes the place of the old one in one step, after everything
was written to a temporary file that no failure leaves behind.  A failure
after that step is reported although the file was replaced. -/
def atomicSecretWrite (faults : SecretWriteFaults) (disk : SecretDisk)
    (path : SecretPath) (data : Bytes) :
    Except ShphError Unit × SecretDisk :=
  let dir := parentDirectory path
  let made := disk.createDirAll dir
  let makeDirectory := do
    disk.ensureNoReparseComponents dir
    faults.attempt .createDirAll
  let replaceFile := do
    made.ensureNoReparseComponents dir
    made.ensureNoReparseComponents path
    faults.attempt .createTempFile
    faults.attempt .restrictPerms
    faults.attempt .writeAll
    faults.attempt .syncAll
    made.ensureNoReparseComponents dir
    made.ensureNoReparseComponents path
    faults.attempt .persistOver
  match makeDirectory with
  | .error error => (.error error, disk)
  | .ok () =>
      match replaceFile with
      | .error error => (.error error, made)
      | .ok () => (faults.attempt .syncParentDir,
          made.put path (.file secretFileMode data))

end Disk

namespace KeyStore

variable {prims : Primitives} (cipher : KeyStoreCipher)

def addContact (store : KeyStore prims) (contact : Contact) : KeyStore prims :=
  { store with contacts := store.contacts.set contact.aliasName contact }

def stored (store : KeyStore prims) : StoredKeyStore where
  identityPrivateB64 := Base64.encode store.identity.pair.privateKey.val
  identityPublicB64 := Base64.encode store.identity.pair.publicKey.val
  signSeedB64 := some (Base64.encode store.identity.pair.signSeed.val)
  contacts := store.contacts
  config := store.config

/-- The bytes of the file. -/
def serialize (store : KeyStore prims) (draws : KeyStoreDraws) :
    Except ShphError Bytes :=
  match store.config.password with
  | some password => do
      ensure (password ≠ "") (.keyStore "keystore password cannot be empty")
      let encrypted ← encryptKeystore cipher draws store.stored password
      return encrypted.toVecPretty
  | none => .ok store.stored.toVecPretty

def save (store : KeyStore prims) (draws : KeyStoreDraws)
    (faults : SecretWriteFaults) (disk : SecretDisk) (path : SecretPath) :
    Except ShphError Unit × SecretDisk :=
  match store.serialize cipher draws with
  | .error error => (.error error, disk)
  | .ok data => atomicSecretWrite faults disk path data

end KeyStore

def base64Decode32 (b64 label : String) : Except ShphError Key := do
  let raw ← okOr (Base64.decode b64) (.crypto s!"invalid {label} base64")
  okOr (FixedBytes.ofBytes? 32 raw) (.crypto s!"{label} must be 32 bytes")

/-- The keys of a stored key store.  Older files have no signing seed. -/
def StoredKeyStore.identity (prims : Primitives) (stored : StoredKeyStore) :
    Except ShphError (SeededKeyPair prims) :=
  match stored.signSeedB64 with
  | some seedB64 => do
      let dhSeed ← base64Decode32 stored.identityPrivateB64 "identity private"
      let signSeed ← base64Decode32 seedB64 "signing seed"
      let id := SeededKeyPair.fromSeeds prims dhSeed signSeed
      let storedPub ← base64Decode32 stored.identityPublicB64 "identity public"
      ensure (id.pair.publicKey = storedPub)
        (.crypto "public key does not match private key")
      return id
  | none => SeededKeyPair.fromBase64 prims stored.identityPrivateB64
      (some stored.identityPublicB64)

namespace KeyStore

variable (prims : Primitives) (cipher : KeyStoreCipher) (reader : JsonReader)

/-- The bytes of the file, if it is not too large.  The length is checked once
in the metadata and once on what was read. -/
def readBounded (disk : SecretDisk) (path : SecretPath) :
    Except ShphError Bytes := do
  disk.ensureNoReparseComponents path
  disk.assertSecretFilePerms path
  let file ← disk.openReadonlyNoReparse path
  ensure (file.length ≤ maxKeystoreBytes)
    (.invalidArgument (s!"keystore file too large ({file.length} bytes > " ++
      s!"{maxKeystoreBytes}); refusing to load"))
  let buf := file.take (maxKeystoreBytes + 1)
  ensure (buf.length ≤ maxKeystoreBytes)
    (.invalidArgument (s!"keystore file exceeds the {maxKeystoreBytes}-byte " ++
      "safety limit; refusing to load"))
  return buf

/-- Read the text of a key store, with the password if it is encrypted. -/
def parse (contents : String) (password envPassword : Option String) :
    Except ShphError StoredKeyStore := do
  let value ← serialized (reader.fromStr contents)
  if reader.getStr value "format" = some keystoreFormat then
    let encrypted ← serialized (reader.encryptedOf value)
    let password ← okOr (password <|> envPassword)
      (.keyStore ("encrypted keystore requires SHPH_KEYSTORE_PASSWORD or an " ++
        "explicit password"))
    decryptKeystore cipher reader encrypted password
  else serialized (reader.storedOf value)

/-- `envPassword` is the variable `SHPH_KEYSTORE_PASSWORD`. -/
def load (disk : SecretDisk) (path : SecretPath)
    (password envPassword : Option String) :
    Except ShphError (KeyStore prims) := do
  let buf ← readBounded disk path
  let contents ← okOr (String.fromUTF8? ⟨buf.toArray⟩)
    (.invalidArgument "keystore is not valid UTF-8")
  let stored ← parse cipher reader contents password envPassword
  let identity ← stored.identity prims
  return { identity
           contacts := stored.contacts
           config := ⟨password <|> envPassword <|> stored.config.password⟩ }

end KeyStore

end Shph
