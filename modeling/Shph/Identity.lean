/-
Signed identity records: their structure checks, the canonical bytes that are
signed and hashed, and their verification.  SHA-256 and Ed25519 verification
are a parameter.
-/
import Shph.Handshake
import Shph.Library.Checked
import Shph.Library.FieldCode
import Shph.Library.SortOrder
import Shph.Word

namespace Shph.Identity

open ByteCodec Checked SortOrder

def identityRecordVersion : UInt16 := 1

def maxRecordBytes : Nat := 64 * 1024

def maxKeys : Nat := 32

def maxEndpoints : Nat := 32

def maxCapabilities : Nat := 64

def maxStringBytes : Nat := 256

def maxAlgorithmBytes : Nat := 96

def maxPublicKeyBytes : Nat := 8 * 1024

def maxClockSkewSecs : Nat := 24 * 60 * 60

def maxRecordLifetimeSecs : Nat := 90 * 24 * 60 * 60

def identityIdDomain : Bytes := textBytes "shph/identity-id/v1"

def keyIdDomain : Bytes := textBytes "shph/key-id/v1"

def recordDomain : Bytes := textBytes "shph/identity-record/v1"

def profileEd25519 : String := "ed25519"

def algorithmEd25519 : String := "ed25519"

def algorithmX25519 : String := "x25519"

inductive IdentityError where
  | invalidRecord (message : String)
  | invalidSignature
  | unsupportedAlgorithm (name : String)
  | notYetValid
  | expired
  | replay
  | conflict (sequence : UInt64)
  | notFound
  | providerUnavailable (message : String)
  | io
deriving Repr, DecidableEq

abbrev Hash32 := FixedBytes 32

/-- What the records rest on. -/
structure RecordCrypto where
  sha256 : Bytes → Hash32
  ed25519Verify : Bytes → Bytes → Bytes → Bool

inductive KeyRole where
  | rootSigning
  | operationalSigning
  | identityBinding
  | keyEstablishment
  | recoverySigning
deriving Repr, DecidableEq

namespace KeyRole

def code : KeyRole → UInt8
  | rootSigning => 1
  | operationalSigning => 2
  | identityBinding => 3
  | keyEstablishment => 4
  | recoverySigning => 5

/-- Only the root key and the one for recovery sign records. -/
def acceptsRecordSignature : KeyRole → Bool
  | rootSigning => true
  | recoverySigning => true
  | _ => false

def roleString : KeyRole → String
  | rootSigning => "root-signing"
  | operationalSigning => "operational-signing"
  | identityBinding => "identity-binding"
  | keyEstablishment => "key-establishment"
  | recoverySigning => "recovery-signing"

end KeyRole

structure IdentityKey where
  keyId : Hash32
  role : KeyRole
  algorithm : String
  publicKey : Bytes
  notBefore : UInt64
  notAfter : UInt64
  previousKeyId : Option Hash32
deriving Repr, DecidableEq

structure IdentityEndpoint where
  transport : String
  address : String
  priority : UInt16
deriving Repr, DecidableEq

structure RecordSignature where
  keyId : Hash32
  algorithm : String
  signature : Bytes
deriving Repr, DecidableEq

inductive RecordStatus where
  | active
  | revoked (revokedAt : UInt64) (reason : String)
deriving Repr, DecidableEq

/-- What a subject says of itself, linked to what it said before. -/
structure IdentityRecord where
  version : UInt16
  subject : Hash32
  signatureProfile : String
  sequence : UInt64
  issuedAt : UInt64
  expiresAt : UInt64
  previousRecord : Option Hash32
  status : RecordStatus
  keys : List IdentityKey
  endpoints : List IdentityEndpoint
  capabilities : List String
  signatures : List RecordSignature
deriving Repr, DecidableEq

/-- Whose record it should be, and when it is looked at. -/
structure VerificationPolicy where
  nowSecs : UInt64
  clockSkewSecs : UInt64
  expectedSubject : Option Hash32
  requirePqcSignature : Bool
deriving Repr, DecidableEq

structure VerificationResult where
  subject : Hash32
  pqcAuthenticated : Bool
deriving Repr, DecidableEq

/-- A byte of the alphabet tokens are written in. -/
def tokenByte (byte : UInt8) : Bool :=
  (0x30 ≤ byte && byte ≤ 0x39) || (0x41 ≤ byte && byte ≤ 0x5a) ||
    (0x61 ≤ byte && byte ≤ 0x7a) || byte == 0x2d || byte == 0x5f ||
    byte == 0x2e || byte == 0x2b || byte == 0x3a

/-- The characters of the Unicode category of controls. -/
def isControl (char : Char) : Bool :=
  char.toNat ≤ 0x1f || (0x7f ≤ char.toNat && char.toNat ≤ 0x9f)

/-- Not empty, within its bound, and of the alphabet of tokens. -/
def validateToken (label value : String) (maxBytes : Nat) :
    Except IdentityError Unit := do
  require (textBytes value ≠ [] ∧ (textBytes value).length ≤ maxBytes)
    (.invalidRecord (label ++ " is empty or exceeds " ++ toString maxBytes ++
      " bytes"))
  require ((textBytes value).all tokenByte)
    (.invalidRecord (label ++ " contains unsupported characters"))

def validateText (label value : String) (maxBytes : Nat) :
    Except IdentityError Unit :=
  require (textBytes value ≠ [] ∧ (textBytes value).length ≤ maxBytes ∧
    ¬ value.toList.any isControl)
    (.invalidRecord (label ++
      " is empty, too long, or contains control characters"))

def validateEndpoint (endpoint : IdentityEndpoint) :
    Except IdentityError Unit := do
  validateToken "transport" endpoint.transport maxStringBytes
  validateText "endpoint address" endpoint.address maxStringBytes

/-- Of an algorithm that is not known only the size is bounded. -/
def validateKeyMaterial (algorithm : String) (publicKey : Bytes) :
    Except IdentityError Unit := do
  validateToken "algorithm" algorithm maxAlgorithmBytes
  require (publicKey ≠ [] ∧ publicKey.length ≤ maxPublicKeyBytes)
    (.invalidRecord "public key has an invalid size")
  require (algorithm = algorithmEd25519 ∨ algorithm = algorithmX25519 →
    publicKey.length = 32)
    (.invalidRecord (algorithm ++ " public key must be 32 bytes"))

/-- A byte string behind its length in 32 bits. -/
def appendBytes (bytes : Bytes) : Bytes := bigEndian 4 bytes.length ++ bytes

def appendString (text : String) : Bytes := appendBytes (textBytes text)

/-- The items of a list behind their number in 32 bits. -/
def appendList {α : Type} (code : α → Bytes) (items : List α) : Bytes :=
  bigEndian 4 items.length ++ items.flatMap code

def deriveIdentityId (crypto : RecordCrypto) (rootPublicKey : Bytes) :
    Hash32 :=
  crypto.sha256 (identityIdDomain ++ appendBytes rootPublicKey)

def deriveKeyId (crypto : RecordCrypto) (role : KeyRole) (algorithm : String)
    (publicKey : Bytes) : Hash32 :=
  crypto.sha256 (keyIdDomain ++ [role.code] ++ appendString algorithm ++
    appendBytes publicKey)

namespace IdentityKey

def validate (crypto : RecordCrypto) (key : IdentityKey) :
    Except IdentityError Unit := do
  validateKeyMaterial key.algorithm key.publicKey
  require (key.keyId = deriveKeyId crypto key.role key.algorithm
    key.publicKey) (.invalidRecord ("key id does not match " ++
      key.role.roleString ++ " key material"))
  require (key.notBefore ≤ key.notAfter)
    (.invalidRecord "key expiration precedes key activation")
  require (key.previousKeyId ≠ some key.keyId)
    (.invalidRecord "key cannot supersede itself")

/-- The order of the keys in the canonical bytes. -/
def le : IdentityKey → IdentityKey → Bool :=
  andThen (byPart (fun key => key.keyId.val) lexLe)
    (andThen (byPart (fun key => key.role.code.toNat) fun a b => decide (a ≤ b))
      (byPart (fun key => textBytes key.algorithm) lexLe))

def canonical (key : IdentityKey) : Bytes :=
  [key.role.code] ++ appendString key.algorithm ++ key.keyId.val ++
    appendBytes key.publicKey ++ bigEndian 8 key.notBefore.toNat ++
      bigEndian 8 key.notAfter.toNat ++
        FieldCode.optional FixedBytes.val key.previousKeyId

end IdentityKey

namespace IdentityEndpoint

def le : IdentityEndpoint → IdentityEndpoint → Bool :=
  andThen (byPart (fun endpoint => textBytes endpoint.transport) lexLe)
    (andThen (byPart (fun endpoint => textBytes endpoint.address) lexLe)
      (byPart (fun endpoint => endpoint.priority.toNat)
        fun a b => decide (a ≤ b)))

def canonical (endpoint : IdentityEndpoint) : Bytes :=
  appendString endpoint.transport ++ appendString endpoint.address ++
    bigEndian 2 endpoint.priority.toNat

end IdentityEndpoint

namespace RecordSignature

def le : RecordSignature → RecordSignature → Bool :=
  andThen (byPart (fun signature => signature.keyId.val) lexLe)
    (andThen (byPart (fun signature => textBytes signature.algorithm) lexLe)
      (byPart (fun signature => signature.signature) lexLe))

def canonical (signature : RecordSignature) : Bytes :=
  signature.keyId.val ++ appendString signature.algorithm ++
    appendBytes signature.signature

end RecordSignature

def capabilityLe : String → String → Bool := byPart textBytes lexLe

def RecordStatus.canonical : RecordStatus → Bytes
  | .active => [0]
  | .revoked revokedAt reason =>
      1 :: (bigEndian 8 revokedAt.toNat ++ appendString reason)

namespace IdentityRecord

/-- The first root signing key. -/
def rootKey (record : IdentityRecord) : Option IdentityKey :=
  record.keys.find? fun key => key.role = .rootSigning

def validateStatus (record : IdentityRecord) : Except IdentityError Unit :=
  match record.status with
  | .active => .ok ()
  | .revoked revokedAt reason => do
      require (record.issuedAt ≤ revokedAt ∧ revokedAt ≤ record.expiresAt)
        (.invalidRecord "revocation timestamp is outside the record lifetime")
      validateText "revocation reason" reason maxStringBytes

/-- The subject is the hash of the root key. -/
def validateSubjectBinding (crypto : RecordCrypto) (record : IdentityRecord) :
    Except IdentityError Unit := do
  let root ← valueOr record.rootKey
    (.invalidRecord "record has no root signing key")
  require (record.subject = deriveIdentityId crypto root.publicKey)
    (.invalidRecord "record subject is not bound to the root signing key")

/-- All that is checked before there are signatures. -/
def validateStructureWithoutSignatures (crypto : RecordCrypto)
    (record : IdentityRecord) : Except IdentityError Unit := do
  require (record.version = identityRecordVersion)
    (.invalidRecord ("unsupported record version " ++
      toString record.version.toNat))
  require (record.sequence ≠ 0)
    (.invalidRecord "record sequence must start at one")
  require (record.sequence = 1 → record.previousRecord = none)
    (.invalidRecord "initial record cannot reference a previous record")
  require (1 < record.sequence → record.previousRecord ≠ none)
    (.invalidRecord "non-initial record must reference a previous record")
  require (record.issuedAt < record.expiresAt)
    (.invalidRecord "record expiration must be after issuance")
  require (record.expiresAt.toNat - record.issuedAt.toNat ≤
    maxRecordLifetimeSecs)
    (.invalidRecord "record lifetime exceeds the safety limit")
  validateToken "signature profile" record.signatureProfile maxAlgorithmBytes
  require (record.keys ≠ [] ∧ record.keys.length ≤ maxKeys)
    (.invalidRecord ("record must contain between one and " ++
      toString maxKeys ++ " keys"))
  checkDistinct (IdentityKey.validate crypto) (fun _ => .ok ())
    IdentityKey.keyId (.invalidRecord "record contains duplicate key ids") []
    record.keys
  require ((record.keys.filter fun key => key.role = .rootSigning).length = 1)
    (.invalidRecord "record must contain exactly one root signing key")
  record.validateSubjectBinding crypto
  require (record.endpoints.length ≤ maxEndpoints)
    (.invalidRecord ("record contains more than " ++ toString maxEndpoints ++
      " endpoints"))
  checkDistinct validateEndpoint (fun _ => .ok ())
    (fun endpoint => (endpoint.transport, endpoint.address, endpoint.priority))
    (.invalidRecord "record contains duplicate endpoints") [] record.endpoints
  require (record.capabilities.length ≤ maxCapabilities)
    (.invalidRecord ("record contains more than " ++
      toString maxCapabilities ++ " capabilities"))
  checkDistinct (validateToken "capability" · maxStringBytes)
    (fun _ => .ok ()) id
    (.invalidRecord "record contains duplicate capabilities") []
    record.capabilities
  record.validateStatus

/-- The checks on one signature before it is known to be new. -/
def validateSignatureShape (signature : RecordSignature) :
    Except IdentityError Unit := do
  require (signature.signature ≠ [] ∧
    signature.signature.length ≤ maxPublicKeyBytes)
    (.invalidRecord "record signature has an invalid size")
  validateToken "signature algorithm" signature.algorithm maxAlgorithmBytes

/-- The key a signature names. -/
def signatureKey (record : IdentityRecord) (signature : RecordSignature) :
    Except IdentityError IdentityKey :=
  valueOr (record.keys.find? fun key => key.keyId = signature.keyId)
    (.invalidRecord "record signature references an unknown key")

def validateSignatureKey (record : IdentityRecord)
    (signature : RecordSignature) : Except IdentityError Unit := do
  let key ← record.signatureKey signature
  require (key.algorithm = signature.algorithm ∧
    key.role.acceptsRecordSignature) (.invalidRecord
      "record signature key is not authorized for record signing")

/-- All are by keys that may sign, and one is by the root key. -/
def validateSignatures (record : IdentityRecord) :
    Except IdentityError Unit := do
  require (record.signatures ≠ [])
    (.invalidRecord "record must contain at least one signature")
  let root ← valueOr record.rootKey
    (.invalidRecord "record has no root signing key")
  checkDistinct validateSignatureShape record.validateSignatureKey
    (fun signature => (signature.keyId, signature.algorithm))
    (.invalidRecord "record contains duplicate signatures") []
    record.signatures
  require (record.signatures.any fun signature =>
    signature.keyId = root.keyId) (.invalidRecord
      "record must include a signature by the root signing key")

def validateStructure (crypto : RecordCrypto) (record : IdentityRecord) :
    Except IdentityError Unit := do
  record.validateStructureWithoutSignatures crypto
  record.validateSignatures

/-- The bytes of a record whose structure has been checked. -/
def payloadBytes (record : IdentityRecord) : Bytes :=
  recordDomain ++ bigEndian 2 record.version.toNat ++ record.subject.val ++
    appendString record.signatureProfile ++
    bigEndian 8 record.sequence.toNat ++ bigEndian 8 record.issuedAt.toNat ++
    bigEndian 8 record.expiresAt.toNat ++
    FieldCode.optional FixedBytes.val record.previousRecord ++
    record.status.canonical ++
    appendList IdentityKey.canonical (record.keys.mergeSort IdentityKey.le) ++
    appendList IdentityEndpoint.canonical
      (record.endpoints.mergeSort IdentityEndpoint.le) ++
    appendList appendString (record.capabilities.mergeSort capabilityLe)

/-- What the signatures are made over. -/
def canonicalPayload (crypto : RecordCrypto) (record : IdentityRecord) :
    Except IdentityError Bytes := do
  record.validateStructureWithoutSignatures crypto
  pure record.payloadBytes

/-- The bytes that are hashed. -/
def hashInput (crypto : RecordCrypto) (record : IdentityRecord) :
    Except IdentityError Bytes := do
  record.validateStructure crypto
  let payload ← record.canonicalPayload crypto
  pure (recordDomain ++ appendBytes payload ++
    appendList RecordSignature.canonical
      (record.signatures.mergeSort RecordSignature.le))

def recordHash (crypto : RecordCrypto) (record : IdentityRecord) :
    Except IdentityError Hash32 := do
  let input ← record.hashInput crypto
  pure (crypto.sha256 input)

/-- The key has to be valid when the record was issued, and now up to the skew.
-/
def verifySignature (crypto : RecordCrypto) (record : IdentityRecord)
    (policy : VerificationPolicy) (payload : Bytes)
    (signature : RecordSignature) : Except IdentityError Unit := do
  let key ← record.signatureKey signature
  require (key.notBefore ≤ record.issuedAt ∧ record.issuedAt ≤ key.notAfter)
    (.invalidRecord
      "record signature key was not valid when the record was issued")
  require (key.notBefore.toNat ≤ saturatingAdd policy.nowSecs.toNat
    policy.clockSkewSecs.toNat) .notYetValid
  require (policy.nowSecs.toNat ≤ saturatingAdd key.notAfter.toNat
    policy.clockSkewSecs.toNat) .expired
  require (signature.algorithm = algorithmEd25519)
    (.unsupportedAlgorithm signature.algorithm)
  require (key.publicKey.length = 32 ∧ signature.signature.length = 64)
    (.invalidRecord "Ed25519 record signature has the wrong size")
  require (crypto.ed25519Verify key.publicKey payload signature.signature)
    .invalidSignature

def verify (crypto : RecordCrypto) (record : IdentityRecord)
    (policy : VerificationPolicy) :
    Except IdentityError VerificationResult := do
  require (policy.clockSkewSecs.toNat ≤ maxClockSkewSecs)
    (.invalidRecord "verification clock skew exceeds the safety limit")
  record.validateStructure crypto
  record.validateSubjectBinding crypto
  require (∀ expected ∈ policy.expectedSubject, expected = record.subject)
    (.invalidRecord "record subject does not match the expected identity")
  require (record.issuedAt.toNat ≤ saturatingAdd policy.nowSecs.toNat
    policy.clockSkewSecs.toNat) .notYetValid
  require (policy.nowSecs.toNat ≤ saturatingAdd record.expiresAt.toNat
    policy.clockSkewSecs.toNat) .expired
  require (record.signatureProfile = profileEd25519)
    (.unsupportedAlgorithm record.signatureProfile)
  let payload ← record.canonicalPayload crypto
  checkEach (record.verifySignature crypto policy payload) record.signatures
  require (record.signatures ≠ []) .invalidSignature
  require (policy.requirePqcSignature = false) (.unsupportedAlgorithm
    "a post-quantum signature is required by policy")
  pure ⟨record.subject, false⟩

end IdentityRecord

end Shph.Identity
