/-
The handshake: signed hellos, the hybrid key exchange and the derivation of
the two directional session keys.  Randomness and the clock are arguments, in
the order the calls read them; the primitives are a parameter.
-/
import Shph.Library.Base64
import Shph.Library.Record
import Shph.SessionCipher

namespace Shph

open ByteCodec

def maxSignedPayloadBytes : Nat := 1400

def maxPeerPins : Nat := 4096

def mlKem768CiphertextBytes : Nat := 1088

def mlKem768PublicKeyBytes : Nat := 1184

def maxHkdfOutputBytes : Nat := 255 * 32

def maxHkdfContextBytes : Nat := 256 * 1024

/-- The bytes of a string. -/
def textBytes (text : String) : Bytes := text.toUTF8.data.toList

theorem textBytes_eq_flatMap (text : String) :
    textBytes text = text.toList.flatMap String.utf8EncodeChar := by
  rw [textBytes, String.toUTF8_eq_toByteArray, ← String.utf8Encode_toList]
  simp [List.utf8Encode]

theorem fromUTF8?_textBytes (text : String) :
    String.fromUTF8? ⟨(textBytes text).toArray⟩ = some text := by
  have hbytes : (⟨(textBytes text).toArray⟩ : ByteArray) =
      text.toByteArray := ByteArray.ext rfl
  rw [hbytes, String.fromUTF8?, dif_pos text.isValidUTF8]
  rfl

theorem eq_textBytes_of_fromUTF8? {bytes : Bytes} {text : String}
    (htext : String.fromUTF8? ⟨bytes.toArray⟩ = some text) :
    bytes = textBytes text := by
  unfold String.fromUTF8? at htext
  split at htext
  · rw [← Option.some.inj htext]
    rfl
  · simp at htext

theorem textBytes_append (front rest : String) :
    textBytes (front ++ rest) = textBytes front ++ textBytes rest := by
  unfold textBytes
  simp [String.toUTF8_eq_toByteArray, String.toByteArray_append]

/-- The primitives the handshake is built on: X25519, Ed25519, SHA-256, HKDF
and ML-KEM-768.  Both parties of an X25519 exchange compute one secret, and a
decapsulation key recovers what was encapsulated to its public key. -/
structure Primitives where
  x25519Public : Key → Key
  diffieHellman : Key → Key → Key
  diffieHellman_comm : ∀ left right : Key,
    diffieHellman left (x25519Public right) =
      diffieHellman right (x25519Public left)
  ed25519Public : Key → Key
  ed25519Sign : Key → Bytes → Bytes
  ed25519Verify : Key → Bytes → Bytes → Bool
  sha256 : Bytes → FixedBytes 32
  hkdfExpand : (salt inputKey : Bytes) → (width : Nat) →
    Option (FixedBytes width)
  DecapsulationKey : Type
  decapsulationKey : FixedBytes 64 → DecapsulationKey
  encapsulationKey : DecapsulationKey → FixedBytes mlKem768PublicKeyBytes
  encapsulate : FixedBytes mlKem768PublicKeyBytes → Key →
    Option (FixedBytes mlKem768CiphertextBytes × Key)
  decapsulate : DecapsulationKey → FixedBytes mlKem768CiphertextBytes → Key
  decapsulate_encapsulate : ∀ {key coins ciphertext shared},
    encapsulate (encapsulationKey key) coins = some (ciphertext, shared) →
      decapsulate key ciphertext = shared

def ringError : ShphError := .crypto "ring operation failed"

structure IdentityKeyPair where
  privateKey : Key
  publicKey : Key
  signingPublic : Key
  signSeed : Key
deriving Repr, DecidableEq

namespace IdentityKeyPair

def fromSeeds (prims : Primitives) (dhSeed signSeed : Key) :
    IdentityKeyPair where
  privateKey := dhSeed
  publicKey := prims.x25519Public dhSeed
  signingPublic := prims.ed25519Public signSeed
  signSeed := signSeed

/-- Each of the two random seeds may fail to be drawn. -/
def generate (prims : Primitives) (dhSeed signSeed : Option Key) :
    Except ShphError IdentityKeyPair := do
  let dhSeed ← okOr dhSeed ringError
  let signSeed ← okOr signSeed ringError
  return fromSeeds prims dhSeed signSeed

def deriveShared (prims : Primitives) (pair : IdentityKeyPair)
    (peerPublic : Key) : Key :=
  prims.diffieHellman pair.privateKey peerPublic

def signHandshake (prims : Primitives) (pair : IdentityKeyPair)
    (transcript : Bytes) : String :=
  Base64.encode (prims.ed25519Sign pair.signSeed transcript)

end IdentityKeyPair

def verifyHandshakeSignature (prims : Primitives) (transcript : Bytes)
    (signatureB64 : String) (peerSignPublic : Key) :
    Except ShphError Unit := do
  let sig ← okOr (Base64.decode signatureB64)
    (.handshake "invalid signature encoding")
  ensure (prims.ed25519Verify peerSignPublic transcript sig)
    (.handshake "signature verification failed")

/-- Accumulate the differences of all byte pairs and compare once. -/
def constantTimeEq (left right : Bytes) : Bool :=
  if left.length ≠ right.length then false
  else
    (left.zip right).foldl (fun diff pair => diff ||| (pair.1 ^^^ pair.2))
      (0 : UInt8) == 0

def hkdfSha256Into (prims : Primitives) (inputKey : Bytes)
    (info : List Bytes) (width : Nat) : Except ShphError (FixedBytes width) := do
  ensure (width ≤ maxHkdfOutputBytes)
    (.crypto "HKDF output exceeds the SHA-256 expansion limit")
  let salt := info.flatten
  ensure (salt.length < 2 ^ 64) (.crypto "HKDF context length overflow")
  ensure (salt.length ≤ maxHkdfContextBytes)
    (.crypto "HKDF context exceeds the 256 KiB safety limit")
  okOr (prims.hkdfExpand salt inputKey width)
    (.crypto "invalid number of blocks, too large output")

structure PqcKeypair (prims : Primitives) where
  encapKey : FixedBytes mlKem768PublicKeyBytes
  decapKey : prims.DecapsulationKey

namespace PqcKeypair

def generate (prims : Primitives) (seed : Option (FixedBytes 64)) :
    Except ShphError (PqcKeypair prims) := do
  let seed ← okOr seed ringError
  return { encapKey := prims.encapsulationKey (prims.decapsulationKey seed)
           decapKey := prims.decapsulationKey seed }

def encapPublicBytes {prims : Primitives} (pair : PqcKeypair prims) : Bytes :=
  pair.encapKey.val

def decapsulate {prims : Primitives} (pair : PqcKeypair prims)
    (ciphertext : Bytes) : Except ShphError Key := do
  let ciphertext ← okOr (FixedBytes.ofBytes? _ ciphertext)
    (.crypto "invalid ML-KEM ciphertext length")
  return prims.decapsulate pair.decapKey ciphertext

def encapsulateAgainst (prims : Primitives) (peerEncapPub : Bytes)
    (coins : Key) : Except ShphError (Bytes × Key) := do
  let peer ← okOr (FixedBytes.ofBytes? _ peerEncapPub)
    (.crypto "invalid ML-KEM peer public key length")
  let sealed ← okOr (prims.encapsulate peer coins)
    (.crypto "invalid ML-KEM peer public key")
  return (sealed.1.val, sealed.2)

end PqcKeypair

inductive HandshakeProfile where
  | secureDefault
  | classicalLab
deriving Repr, DecidableEq

namespace HandshakeProfile

def asStr : HandshakeProfile → String
  | secureDefault => "secure-default"
  | classicalLab => "classical-lab"

def protocolTag : HandshakeProfile → String
  | secureDefault => "shph/5/secure-default"
  | classicalLab => "shph/5/classical-lab"

def usesPqc : HandshakeProfile → Bool
  | secureDefault => true
  | classicalLab => false

end HandshakeProfile

structure Hello where
  proto : String
  profile : HandshakeProfile
  identityPubB64 : String
  signPubB64 : String
  pqcPubB64 : Option String
  pqcCtB64 : Option String
  ephemeralPubB64 : String
  nonceB64 : String
  timestampSecs : UInt64
  sig : String
deriving Repr, DecidableEq

structure HandshakeMaterial (prims : Primitives) where
  localEphemeral : IdentityKeyPair
  localNonce : Key
  profile : HandshakeProfile
  localPqc : Option (PqcKeypair prims)
  localHello : Hello
  pqShared : Option Key
  pqCiphertext : Option Bytes

structure PeerPin where
  identityPublic : Key
  signingPublic : Key
deriving Repr, DecidableEq

/-- A list of pins of a size the constructors accept. -/
structure PeerPolicy where
  pins : List PeerPin
  pins_ne_nil : pins ≠ []
  pins_length_le : pins.length ≤ maxPeerPins

namespace PeerPolicy

def new (pins : List PeerPin) : Except ShphError PeerPolicy :=
  if hempty : pins = [] then .error (.auth "peer policy cannot be empty")
  else if hlength : pins.length ≤ maxPeerPins then
    .ok ⟨pins, hempty, hlength⟩
  else .error (.auth "peer policy exceeds the 4096-pin safety limit")

def single (pin : PeerPin) : PeerPolicy := ⟨[pin], by simp, by simp [maxPeerPins]⟩

def allows (policy : PeerPolicy) (identityPublic signingPublic : Key) : Bool :=
  policy.pins.any fun pin =>
    constantTimeEq pin.identityPublic.val identityPublic.val &&
      constantTimeEq pin.signingPublic.val signingPublic.val

end PeerPolicy

/-- Append one part to the signed payload, whose buffer is bounded. -/
def appendSignedPart (buffer part : Bytes) : Except ShphError Bytes := do
  ensure (buffer.length + part.length < 2 ^ 64)
    (.handshake "signed payload length overflow")
  ensure (buffer.length + part.length ≤ maxSignedPayloadBytes)
    (.handshake "signed payload exceeds handshake limit")
  return buffer ++ part

/-- What a hello says about its sender, decoded. -/
@[ext]
structure PeerKeys where
  identity : Key
  signing : Key
  pqc : Option Bytes
  ephemeral : Key
  nonce : Key
  timestamp : UInt64
deriving Repr, DecidableEq

/-- The payload that is signed when a hello is built, and checked when the
local material and the peer's hello are validated: the parts one after the
other, without separators. -/
def signedPayload (profile : HandshakeProfile) (keys : PeerKeys) :
    Except ShphError Bytes := do
  let payload ← appendSignedPart [] (textBytes profile.protocolTag)
  let payload ← appendSignedPart payload keys.identity.val
  let payload ← appendSignedPart payload keys.signing.val
  let payload ← match keys.pqc with
    | some pqc => appendSignedPart payload pqc
    | none => pure payload
  let payload ← appendSignedPart payload keys.ephemeral.val
  let payload ← appendSignedPart payload keys.nonce.val
  appendSignedPart payload (bigEndian 8 keys.timestamp.toNat)

/-- The random draws and the clock reading of one hello, in the order they are
made; `none` is a draw that failed or a clock before the epoch. -/
structure HelloDraws where
  ephemeralSeed : Option Key
  ephemeralSignSeed : Option Key
  nonce : Option Key
  now : Option UInt64
  pqcSeed : Option (FixedBytes 64)

def absDiff (left right : Nat) : Nat :=
  if left < right then right - left else left - right

def clockError : ShphError := .handshake "system clock before unix epoch"

/-- A keypair is drawn only for the profile that uses one. -/
def generateLocalPqc (prims : Primitives) (profile : HandshakeProfile)
    (seed : Option (FixedBytes 64)) :
    Except ShphError (Option (PqcKeypair prims)) :=
  if profile.usesPqc then some <$> PqcKeypair.generate prims seed
  else pure none

def buildHelloWithProfile (prims : Primitives) (localIdentity : IdentityKeyPair)
    (profile : HandshakeProfile) (draws : HelloDraws) :
    Except ShphError (HandshakeMaterial prims) := do
  let localEphemeral ← IdentityKeyPair.generate prims draws.ephemeralSeed
    draws.ephemeralSignSeed
  let localNonce ← okOr draws.nonce ringError
  let timestampSecs ← okOr draws.now clockError
  let localPqc ← generateLocalPqc prims profile draws.pqcSeed
  let pqcPub := localPqc.map PqcKeypair.encapPublicBytes
  let payload ← signedPayload profile
    { identity := localIdentity.publicKey
      signing := localIdentity.signingPublic
      pqc := pqcPub
      ephemeral := localEphemeral.publicKey
      nonce := localNonce
      timestamp := timestampSecs }
  let localHello : Hello :=
    { proto := profile.protocolTag
      profile := profile
      identityPubB64 := Base64.encode localIdentity.publicKey.val
      signPubB64 := Base64.encode localIdentity.signingPublic.val
      pqcPubB64 := pqcPub.map Base64.encode
      pqcCtB64 := none
      ephemeralPubB64 := Base64.encode localEphemeral.publicKey.val
      nonceB64 := Base64.encode localNonce.val
      timestampSecs := timestampSecs
      sig := localIdentity.signHandshake prims payload }
  return { localEphemeral, localNonce, profile, localPqc, localHello
           pqShared := none, pqCiphertext := none }

def b64Decode (inputB64 what : String) : Except ShphError Bytes :=
  okOr (Base64.decode inputB64) (.handshake s!"invalid {what} encoding")

def decode32 (inputB64 what : String) : Except ShphError Key := do
  let raw ← b64Decode inputB64 what
  okOr (FixedBytes.ofBytes? 32 raw) (.handshake s!"{what} must be 32 bytes")

/-- Decode an optional field; an absent field is not an error. -/
def b64DecodeOptional (inputB64 : Option String) (what : String) :
    Except ShphError (Option Bytes) :=
  match inputB64 with
  | some inputB64 => some <$> b64Decode inputB64 what
  | none => pure none

section

variable {prims : Primitives}

/-- The post-quantum part of the local material must fit the profile. -/
def validateLocalPqc (material : HandshakeMaterial prims) :
    Except ShphError Unit :=
  if material.profile.usesPqc then do
    let localPqc ← okOr material.localPqc (.handshake "missing local PQ keypair")
    let encodedPublic ← okOr material.localHello.pqcPubB64
      (.handshake "missing local PQ public key")
    let localPqcPublic ← b64Decode encodedPublic "local PQ public key"
    ensure (localPqcPublic = localPqc.encapPublicBytes)
      (.handshake "local hello PQ key does not match handshake material")
  else
    ensure (¬ (material.localPqc.isSome ∨ material.localHello.pqcPubB64.isSome ∨
        material.pqShared.isSome ∨ material.pqCiphertext.isSome ∨
        material.localHello.pqcCtB64.isSome))
      (.handshake "classical profile contains post-quantum material")

def checkLocalProfile (material : HandshakeMaterial prims) :
    Except ShphError Unit :=
  ensure (material.localHello.proto = material.profile.protocolTag ∧
      material.localHello.profile = material.profile)
    (.handshake "local protocol profile mismatch")

def checkPeerProfile (material : HandshakeMaterial prims) (peerHello : Hello) :
    Except ShphError Unit :=
  ensure (peerHello.profile = material.profile ∧
      peerHello.proto = material.profile.protocolTag)
    (.handshake "protocol mismatch")

def validateLocalMaterial (localIdentity : IdentityKeyPair)
    (material : HandshakeMaterial prims) : Except ShphError Unit := do
  checkLocalProfile material
  let hello := material.localHello
  let localIdentityRaw ← decode32 hello.identityPubB64 "local identity"
  ensure (constantTimeEq localIdentityRaw.val localIdentity.publicKey.val)
    (.handshake "local hello identity does not match the configured identity")
  let localSignPublic ← decode32 hello.signPubB64 "local signing key"
  ensure (constantTimeEq localSignPublic.val localIdentity.signingPublic.val)
    (.handshake
      "local hello signing key does not match the configured identity")
  let localEphemeralRaw ← decode32 hello.ephemeralPubB64 "local ephemeral"
  ensure (constantTimeEq localEphemeralRaw.val
      material.localEphemeral.publicKey.val)
    (.handshake "local hello ephemeral key does not match handshake material")
  let localNonce ← decode32 hello.nonceB64 "local nonce"
  ensure (constantTimeEq localNonce.val material.localNonce.val)
    (.handshake "local hello nonce does not match handshake material")
  validateLocalPqc material
  let localPqcPublic ← b64DecodeOptional hello.pqcPubB64 "local PQ public key"
  let payload ← signedPayload material.profile
    { identity := localIdentityRaw
      signing := localSignPublic
      pqc := localPqcPublic
      ephemeral := localEphemeralRaw
      nonce := localNonce
      timestamp := hello.timestampSecs }
  verifyHandshakeSignature prims payload hello.sig localSignPublic
  match hello.pqcCtB64 with
  | some encodedCiphertext => do
      let ciphertext ← b64Decode encodedCiphertext "local PQ ciphertext"
      ensure (material.pqCiphertext = some ciphertext)
        (.handshake
          "local hello PQ ciphertext does not match handshake material")
  | none => pure ()

/-- Decode the peer's hello, in the order of the checks: the three public
values, the clock window, the signing key and the optional key. -/
def decodePeerHello (profile : HandshakeProfile) (peerHello : Hello)
    (now : Option UInt64) : Except ShphError PeerKeys := do
  let identity ← decode32 peerHello.identityPubB64 "peer identity"
  let ephemeral ← decode32 peerHello.ephemeralPubB64 "peer ephemeral"
  let nonce ← decode32 peerHello.nonceB64 "peer nonce"
  let now ← okOr now clockError
  ensure (absDiff now.toNat peerHello.timestampSecs.toNat ≤ 300)
    (.handshake "peer timestamp out of window")
  let signing ← decode32 peerHello.signPubB64 "peer signing key"
  let pqc ← b64DecodeOptional peerHello.pqcPubB64 "peer PQ public key"
  ensure (profile.usesPqc = pqc.isSome)
    (.handshake "peer post-quantum profile material mismatch")
  return { identity, signing, pqc, ephemeral, nonce
           timestamp := peerHello.timestampSecs }

def verifyPeerSignature (prims : Primitives) (profile : HandshakeProfile)
    (keys : PeerKeys) (sig : String) : Except ShphError Unit := do
  let payload ← signedPayload profile keys
  verifyHandshakeSignature prims payload sig keys.signing

def verifyHelloSignature (localIdentity : IdentityKeyPair)
    (material : HandshakeMaterial prims) (peerHello : Hello)
    (policy : PeerPolicy) (now : Option UInt64) : Except ShphError Unit := do
  validateLocalMaterial localIdentity material
  checkPeerProfile material peerHello
  checkLocalProfile material
  ensure (peerHello.pqcCtB64 = none)
    (.handshake
      "peer PQ ciphertext must be sent as a separate handshake frame")
  let peer ← decodePeerHello material.profile peerHello now
  ensure (∀ pqc ∈ peer.pqc, pqc.length = mlKem768PublicKeyBytes)
    (.handshake "peer PQ public key must be 1184 bytes")
  verifyPeerSignature prims material.profile peer peerHello.sig
  ensure (policy.allows peer.identity peer.signing)
    (.auth "peer identity and signing key are not pinned")

/-- What one call of the derivation has established about the session before
it hashes anything. -/
structure SessionInputs where
  profile : HandshakeProfile
  initiator : Bool
  localKeys : PeerKeys
  peerKeys : PeerKeys
  ciphertext : Option Bytes
  shared : Bytes

/-- The post-quantum secret, present exactly for the profile that uses it. -/
def sessionPqShared (material : HandshakeMaterial prims) :
    Except ShphError (Option Key) :=
  if material.profile.usesPqc then
    some <$> okOr material.pqShared
      (.handshake "missing post-quantum shared secret (downgrade blocked)")
  else do
    ensure (material.pqShared = none)
      (.handshake "classical lab profile cannot carry post-quantum material")
    return none

def sessionPqCiphertext (material : HandshakeMaterial prims) :
    Except ShphError (Option Bytes) :=
  if material.profile.usesPqc then do
    let ciphertext ← okOr material.pqCiphertext
      (.handshake "missing post-quantum ciphertext binding (downgrade blocked)")
    ensure (ciphertext.length = mlKem768CiphertextBytes)
      (.handshake "invalid post-quantum ciphertext binding length")
    return some ciphertext
  else return none

/-- The part of `verify_and_derive_with_profile` that can refuse: it runs
every check of the peer a second time, at its own reading of the clock. -/
def sessionInputs (localIdentity : IdentityKeyPair)
    (material : HandshakeMaterial prims) (peerHello : Hello) (initiator : Bool)
    (policy : PeerPolicy) (firstNow secondNow : Option UInt64) :
    Except ShphError SessionInputs := do
  verifyHelloSignature localIdentity material peerHello policy firstNow
  let profile := material.profile
  checkPeerProfile material peerHello
  checkLocalProfile material
  let peerKeys ← decodePeerHello profile peerHello secondNow
  verifyPeerSignature prims profile peerKeys peerHello.sig
  let ecdhShared :=
    material.localEphemeral.deriveShared prims peerKeys.ephemeral
  ensure (ecdhShared ≠ FixedBytes.replicate 32 0)
    (.handshake "peer X25519 public key produced an all-zero shared secret")
  let pqShared ← sessionPqShared material
  let ciphertext ← sessionPqCiphertext material
  let shared := ecdhShared.val ++
    (pqShared.getD (FixedBytes.replicate 32 0)).val
  let hello := material.localHello
  let identity ← decode32 hello.identityPubB64 "local identity"
  let signing ← decode32 hello.signPubB64 "local signing key"
  let ephemeral ← decode32 hello.ephemeralPubB64 "local ephemeral"
  let pqc ← b64DecodeOptional hello.pqcPubB64 "local PQ public key"
  let localKeys : PeerKeys :=
    { identity, signing, pqc, ephemeral
      nonce := material.localNonce
      timestamp := hello.timestampSecs }
  return { profile, initiator, localKeys, peerKeys, ciphertext
           shared := shared.take (if profile.usesPqc then 64 else 32) }

namespace SessionInputs

/-- The smaller identity key comes first, whichever side it is on. -/
def inIdentityOrder {α : Type} (inputs : SessionInputs) (field : PeerKeys → α) :
    α × α :=
  if lexLe inputs.localKeys.identity.val inputs.peerKeys.identity.val then
    (field inputs.localKeys, field inputs.peerKeys)
  else (field inputs.peerKeys, field inputs.localKeys)

def initiatorIdentity (inputs : SessionInputs) : Key :=
  if inputs.initiator then inputs.localKeys.identity
  else inputs.peerKeys.identity

end SessionInputs

/-- A transcript field has a 4-byte label length and an 8-byte value length. -/
def transcriptLayout : Record.Layout := ⟨4, 8⟩

def transcriptField (label : String) (value : Bytes) : List (Bytes × Bytes) :=
  [(textBytes label, value)]

/-- A presence flag, and after it the value under the same label. -/
def transcriptOptionalField (label : String) (value : Option Bytes) :
    List (Bytes × Bytes) :=
  transcriptField label [if value.isSome then 1 else 0] ++
    match value with
    | some value => transcriptField label value
    | none => []

def transcriptU64 (label : String) (value : UInt64) : List (Bytes × Bytes) :=
  transcriptField label (bigEndian 8 value.toNat)

def transcriptFields (inputs : SessionInputs) : List (Bytes × Bytes) :=
  let (firstIdentity, secondIdentity) := inputs.inIdentityOrder (·.identity)
  let (firstSigning, secondSigning) := inputs.inIdentityOrder (·.signing)
  let (firstEphemeral, secondEphemeral) := inputs.inIdentityOrder (·.ephemeral)
  let (firstNonce, secondNonce) := inputs.inIdentityOrder (·.nonce)
  let (firstTimestamp, secondTimestamp) := inputs.inIdentityOrder (·.timestamp)
  let (firstPqc, secondPqc) := inputs.inIdentityOrder (·.pqc)
  transcriptField "domain" (textBytes "shph/handshake-transcript-v2") ++
  transcriptField "protocol" (textBytes inputs.profile.protocolTag) ++
  transcriptField "profile" (textBytes inputs.profile.asStr) ++
  transcriptField "initiator-identity" inputs.initiatorIdentity.val ++
  transcriptField "peer-a-identity" firstIdentity.val ++
  transcriptField "peer-a-signing" firstSigning.val ++
  transcriptOptionalField "peer-a-pqc" firstPqc ++
  transcriptField "peer-a-ephemeral" firstEphemeral.val ++
  transcriptField "peer-a-nonce" firstNonce.val ++
  transcriptU64 "peer-a-timestamp" firstTimestamp ++
  transcriptField "peer-b-identity" secondIdentity.val ++
  transcriptField "peer-b-signing" secondSigning.val ++
  transcriptOptionalField "peer-b-pqc" secondPqc ++
  transcriptField "peer-b-ephemeral" secondEphemeral.val ++
  transcriptField "peer-b-nonce" secondNonce.val ++
  transcriptU64 "peer-b-timestamp" secondTimestamp ++
  transcriptOptionalField "pqc-ciphertext" inputs.ciphertext

/-- The bytes fed to the transcript hasher. -/
def transcript (inputs : SessionInputs) : Bytes :=
  Record.encodeFields transcriptLayout (transcriptFields inputs)

structure SessionKeys where
  sendNonce : Nat
  recvNonce : Nat
  sendKey : Key
  recvKey : Key
deriving Repr, DecidableEq

structure HandshakeState where
  peerFingerprintHex : String
  peerIdentityPubkeyB64 : String
  peerSigningPubkeyB64 : String
  sessionKeys : SessionKeys
  transcriptHashHex : String
deriving Repr, DecidableEq

def hexDigit (value : Nat) : Char :=
  if value < 10 then Char.ofNat (48 + value) else Char.ofNat (87 + value)

def hexEncode (bytes : Bytes) : String :=
  String.ofList (bytes.flatMap fun byte =>
    [hexDigit (byte.toNat / 16), hexDigit (byte.toNat % 16)])

def computeFingerprintHex (prims : Primitives) (publicKeyRaw : Bytes) :
    String :=
  hexEncode (prims.sha256 (textBytes "shph-fingerprint-v1" ++ publicKeyRaw)).val

/-- The key of one direction: the direction is part of the HKDF context. -/
def directionKey (prims : Primitives) (inputs : SessionInputs)
    (transcriptHash : FixedBytes 32) (direction : String) :
    Except ShphError Key :=
  hkdfSha256Into prims inputs.shared
    [textBytes "shph-session-v2", textBytes inputs.profile.protocolTag,
      transcriptHash.val, textBytes direction] 32

def deriveSession (prims : Primitives) (inputs : SessionInputs) :
    Except ShphError HandshakeState := do
  let transcriptHash := prims.sha256 (transcript inputs)
  let sendDirection := if inputs.initiator then "initiator" else "responder"
  let recvDirection := if inputs.initiator then "responder" else "initiator"
  let sendKey ← directionKey prims inputs transcriptHash sendDirection
  let recvKey ← directionKey prims inputs transcriptHash recvDirection
  return {
    peerFingerprintHex :=
      computeFingerprintHex prims inputs.peerKeys.identity.val
    peerIdentityPubkeyB64 := Base64.encode inputs.peerKeys.identity.val
    peerSigningPubkeyB64 := Base64.encode inputs.peerKeys.signing.val
    sessionKeys := { sendNonce := 0, recvNonce := 0, sendKey, recvKey }
    transcriptHashHex := hexEncode transcriptHash.val }

def verifyAndDeriveWithProfile (localIdentity : IdentityKeyPair)
    (material : HandshakeMaterial prims) (peerHello : Hello) (initiator : Bool)
    (policy : PeerPolicy) (firstNow secondNow : Option UInt64) :
    Except ShphError HandshakeState := do
  let inputs ← sessionInputs localIdentity material peerHello initiator policy
    firstNow secondNow
  deriveSession prims inputs

/-- The ciphertext is returned for the transport to send and kept, with its
secret, in the material. -/
def finalizeInitiatorPq (localIdentity : IdentityKeyPair) (peerHello : Hello)
    (policy : PeerPolicy) (now : Option UInt64) (coins : Key)
    (material : HandshakeMaterial prims) :
    Except ShphError Bytes × HandshakeMaterial prims :=
  let encapsulated : Except ShphError (Bytes × Key) := do
    ensure material.profile.usesPqc
      (.handshake "classical lab profile does not use post-quantum exchange")
    verifyHelloSignature localIdentity material peerHello policy now
    let peerPqcPubB64 ← okOr peerHello.pqcPubB64
      (.handshake "missing peer PQ public key")
    let peerPqcPub ← b64Decode peerPqcPubB64 "peer PQ public key"
    PqcKeypair.encapsulateAgainst prims peerPqcPub coins
  match encapsulated with
  | .error error => (.error error, material)
  | .ok (ciphertext, shared) =>
      (.ok ciphertext,
        { material with
          localHello := { material.localHello with
            pqcCtB64 := some (Base64.encode ciphertext) }
          pqShared := some shared
          pqCiphertext := some ciphertext })

def absorbResponderPq (localIdentity : IdentityKeyPair) (peerHello : Hello)
    (peerCt : Bytes) (policy : PeerPolicy) (now : Option UInt64)
    (material : HandshakeMaterial prims) :
    Except ShphError Unit × HandshakeMaterial prims :=
  let decapsulated : Except ShphError Key := do
    verifyHelloSignature localIdentity material peerHello policy now
    ensure material.profile.usesPqc
      (.handshake "classical lab profile does not use post-quantum exchange")
    let localPqc ← okOr material.localPqc (.handshake "missing local PQ keypair")
    localPqc.decapsulate peerCt
  match decapsulated with
  | .error error => (.error error, material)
  | .ok shared =>
      (.ok (), { material with
        pqShared := some shared, pqCiphertext := some peerCt })

end

end Shph
