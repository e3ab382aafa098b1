/-
Capability tokens: the claims an issuer signs, the checks a verifier makes on
a token, and the cache that remembers which nonces have been used.
-/
import Shph.Handshake
import Shph.Library.Checked
import Shph.Library.KeyTable
import Shph.Library.MinQueue
import Shph.Word

namespace Shph.Edge

open ByteCodec Checked

def capabilityVersion : String := "phantom-one.1"

def signingDomain : Bytes := textBytes "SHPH-EDGE-CAPABILITY/PHANTOM-ONE/1" ++ [0]

def nonceLen : Nat := 16

def maxTokenLen : Nat := 4096

def maxAudienceLen : Nat := 64

abbrev Nonce := FixedBytes nonceLen

/-- Durations are in nanoseconds. -/
abbrev Duration := Nat

def Duration.asSecs (duration : Duration) : Nat := duration / 10 ^ 9

inductive CapabilityError where
  | malformed
  | invalidSignature
  | invalidAudience
  | invalidLifetime
  | lifetimeTooLong
  | notYetValid
  | expired
  | audienceMismatch
  | replay
  | invalidSigningKey
deriving Repr, DecidableEq

structure CapabilityClaims where
  audience : String
  issuedAt : UInt64
  expiresAt : UInt64
  nonce : Nonce
deriving Repr, DecidableEq

namespace CapabilityClaims

/-- A byte no audience may hold: a control character, a blank or a slash. -/
def forbiddenByte (byte : UInt8) : Bool :=
  byte ≤ 0x20 || byte == 0x2f || byte == 0x5c

def validateShape (claims : CapabilityClaims) (now : Nat)
    (maxLifetime : Duration) : Except CapabilityError Unit := do
  let audience := textBytes claims.audience
  require (audience ≠ [] ∧ audience.length ≤ maxAudienceLen) .invalidAudience
  require (audience.all (· < 0x80) ∧ ¬ audience.any forbiddenByte)
    .invalidAudience
  require (claims.issuedAt < claims.expiresAt) .invalidLifetime
  require (claims.expiresAt.toNat - claims.issuedAt.toNat ≤
    maxLifetime.asSecs) .lifetimeTooLong
  require (claims.issuedAt.toNat ≤ now) .notYetValid
  require (now < claims.expiresAt.toNat) .expired

def encode (claims : CapabilityClaims) : Except CapabilityError Bytes := do
  let audience := textBytes claims.audience
  require (audience.length ≤ 255) .invalidAudience
  pure (UInt8.ofNat audience.length :: audience ++
    bigEndian 8 claims.issuedAt.toNat ++ bigEndian 8 claims.expiresAt.toNat ++
      claims.nonce.val)

def decode (payload : Bytes) : Except CapabilityError CapabilityClaims := do
  require (1 + 8 + 8 + nonceLen ≤ payload.length) .malformed
  let audienceLen := (payload.headD 0).toNat
  require (audienceLen ≠ 0 ∧ audienceLen ≤ maxAudienceLen ∧
    1 + audienceLen + 8 + 8 + nonceLen = payload.length) .malformed
  let audience ← valueOr (String.fromUTF8?
    ⟨(slice payload 1 audienceLen).toArray⟩) .malformed
  let issuedAt := ofBigEndian (slice payload (1 + audienceLen) 8)
  let expiresAt := ofBigEndian (slice payload (1 + audienceLen + 8) 8)
  let nonce ← valueOr (FixedBytes.ofBytes? nonceLen
    (payload.drop (1 + audienceLen + 8 + 8))) .malformed
  pure ⟨audience, .ofNat issuedAt, .ofNat expiresAt, nonce⟩

end CapabilityClaims

/-- Ed25519: a signature has 64 bytes, and its own public key accepts it. -/
structure Ed25519 where
  publicKey : Key → Key
  sign : Key → Bytes → FixedBytes 64
  verify : Key → Bytes → Bytes → Bool
  verify_sign : ∀ seed message,
    verify (publicKey seed) message (sign seed message).val = true

def signingInput (payload : Bytes) : Bytes := signingDomain ++ payload

/-- The version every token starts with, and the dot behind it. -/
def tokenStart : List Char := capabilityVersion.toList ++ ['.']

/-- The text in front of the first dot and the text behind it. -/
def splitOnce : List Char → Option (List Char × List Char)
  | [] => none
  | char :: rest =>
      if char = '.' then some ([], rest)
      else (splitOnce rest).map fun parts => (char :: parts.1, parts.2)

structure CapabilityIssuer where
  seed : Key
  maxLifetime : Duration

namespace CapabilityIssuer

def publicKey (ed : Ed25519) (issuer : CapabilityIssuer) : Key :=
  ed.publicKey issuer.seed

def issue (ed : Ed25519) (issuer : CapabilityIssuer)
    (claims : CapabilityClaims) : Except CapabilityError String := do
  claims.validateShape claims.issuedAt.toNat issuer.maxLifetime
  let payload ← claims.encode
  let signature := ed.sign issuer.seed (signingInput payload)
  pure (String.ofList (tokenStart ++ Base64.encodeUrlDigits payload ++ '.' ::
    Base64.encodeUrlDigits signature.val))

end CapabilityIssuer

structure CapabilityVerifier where
  publicKey : Key
  audience : String
  maxLifetime : Duration
  clockSkew : Duration
deriving Repr, DecidableEq

structure VerifiedCapability where
  claims : CapabilityClaims
  validFrom : Nat
  replayExpiresAt : Nat
deriving Repr, DecidableEq

namespace CapabilityVerifier

def new (publicKey : Key) (audience : String)
    (maxLifetime clockSkew : Duration) :
    Except CapabilityError CapabilityVerifier :=
  let shape : CapabilityClaims :=
    ⟨audience, 1, 2, FixedBytes.replicate nonceLen 0⟩
  match shape.validateShape 1 maxLifetime with
  | .ok _ => .ok ⟨publicKey, audience, maxLifetime, clockSkew⟩
  | .error _ => .error .invalidAudience

def replayRetentionSecs (verifier : CapabilityVerifier) : Nat :=
  saturatingAdd (saturatingAdd verifier.maxLifetime.asSecs
    (saturatingMul verifier.clockSkew.asSecs 2)) 1

/-- The payload and the signature a token carries. -/
def parseToken (token : String) : Except CapabilityError (Bytes × Bytes) := do
  require (token.utf8ByteSize ≤ maxTokenLen) .malformed
  let encoded ← valueOr (token.toList.dropPrefix? tokenStart) .malformed
  let parts ← valueOr (splitOnce encoded) .malformed
  let payload ← valueOr (Base64.decodeUrlDigits parts.1) .malformed
  let signature ← valueOr (Base64.decodeUrlDigits parts.2) .malformed
  require (signature.length = 64) .malformed
  pure (payload, signature)

/-- The checks on claims whose signature has been verified. -/
def checkClaims (verifier : CapabilityVerifier) (claims : CapabilityClaims)
    (now : Nat) : Except CapabilityError VerifiedCapability := do
  let skew := verifier.clockSkew.asSecs
  require (claims.audience = verifier.audience) .audienceMismatch
  require (claims.issuedAt.toNat ≤ saturatingAdd now skew) .notYetValid
  require (now - skew < claims.expiresAt.toNat) .expired
  let lifetime ← valueOr
    (checkedSub claims.expiresAt.toNat claims.issuedAt.toNat) .invalidLifetime
  require (lifetime ≠ 0) .invalidLifetime
  require (lifetime ≤ verifier.maxLifetime.asSecs) .lifetimeTooLong
  pure ⟨claims, claims.issuedAt.toNat - skew,
    saturatingAdd claims.expiresAt.toNat skew⟩

def verifyForReplay (ed : Ed25519) (verifier : CapabilityVerifier)
    (token : String) (now : Nat) :
    Except CapabilityError VerifiedCapability := do
  let (payload, signature) ← parseToken token
  require (ed.verify verifier.publicKey (signingInput payload) signature)
    .invalidSignature
  let claims ← CapabilityClaims.decode payload
  verifier.checkClaims claims now

end CapabilityVerifier

/-- The order of the pairs the heap compares: the expiry first, then the
nonce. -/
def expiryLe (left right : Nat × Nonce) : Prop :=
  left.1 < right.1 ∨ left.1 = right.1 ∧ lexLe left.2.val right.2.val = true

instance : DecidableRel expiryLe := fun left right =>
  inferInstanceAs (Decidable (left.1 < right.1 ∨
    left.1 = right.1 ∧ lexLe left.2.val right.2.val = true))

instance : Std.Total expiryLe where
  total left right := by
    rcases Nat.lt_trichotomy left.1 right.1 with hlt | heq | hgt
    · exact Or.inl (Or.inl hlt)
    · rcases lexLe_total left.2.val right.2.val with hle | hge
      · exact Or.inl (Or.inr ⟨heq, hle⟩)
      · exact Or.inr (Or.inr ⟨heq.symm, hge⟩)
    · exact Or.inr (Or.inl hgt)

instance : IsTrans (Nat × Nonce) expiryLe where
  trans left middle right hfirst hsecond := by
    rcases hfirst with hlt | ⟨heq, hle⟩
    · rcases hsecond with hlt' | ⟨heq', _⟩
      · exact Or.inl (Nat.lt_trans hlt hlt')
      · exact Or.inl (heq' ▸ hlt)
    · rcases hsecond with hlt' | ⟨heq', hle'⟩
      · exact Or.inl (heq ▸ hlt')
      · exact Or.inr ⟨heq.trans heq', lexLe_trans hle hle'⟩

structure ReplayCache where
  capacity : Nat
  entries : KeyTable Nonce Nat
  expirations : MinQueue expiryLe

namespace ReplayCache

def new (capacity : Nat) : Except CapabilityError ReplayCache := do
  require (capacity ≠ 0 ∧ capacity ≤ 1000000) .malformed
  pure ⟨capacity, KeyTable.empty, MinQueue.empty⟩

def len (cache : ReplayCache) : Nat := cache.entries.size

/-- One expired pair leaves the heap, and the map if it is still there. -/
def dropExpired (cache : ReplayCache) (expiresAt : Nat) (nonce : Nonce) :
    ReplayCache :=
  { cache with
    expirations := cache.expirations.pop
    entries :=
      if cache.entries.get nonce = some expiresAt then
        cache.entries.erase nonce
      else cache.entries }

/-- The first argument bounds the turns of the loop; every turn takes a pair
off the heap. -/
def pruneLoop (now : Nat) : Nat → ReplayCache → ReplayCache
  | 0, cache => cache
  | turns + 1, cache =>
      match cache.expirations.peek with
      | none => cache
      | some (expiresAt, nonce) =>
          if now < expiresAt then cache
          else pruneLoop now turns (cache.dropExpired expiresAt nonce)

def prune (cache : ReplayCache) (now : Nat) : ReplayCache :=
  pruneLoop now cache.expirations.size cache

/-- Whether a nonce is in the map with an expiry that has not passed. -/
def holdsLive (cache : ReplayCache) (nonce : Nonce) (now : Nat) : Bool :=
  (cache.entries.get nonce).any fun expiry => now < expiry

def insert (cache : ReplayCache) (nonce : Nonce) (expiresAt now : Nat) :
    Bool × ReplayCache :=
  if cache.holdsLive nonce now then (false, cache)
  else
    let pruned := cache.prune now
    if expiresAt ≤ now ∨ pruned.entries.contains nonce then (false, pruned)
    else if pruned.capacity ≤ pruned.len then (false, pruned)
    else
      (true, { pruned with
        entries := pruned.entries.set nonce expiresAt
        expirations := pruned.expirations.push (expiresAt, nonce) })

def consume (cache : ReplayCache) (verified : VerifiedCapability)
    (now : Nat) : Except CapabilityError CapabilityClaims × ReplayCache :=
  if now < verified.validFrom then (.error .notYetValid, cache)
  else if verified.replayExpiresAt ≤ now then (.error .expired, cache)
  else
    match cache.insert verified.claims.nonce verified.replayExpiresAt now with
    | (true, next) => (.ok verified.claims, next)
    | (false, next) => (.error .replay, next)

end ReplayCache

end Shph.Edge
