/-
The front door of the edge: a request is screened, takes a slot of the rate
limiter, has its capability verified and, later, commits it to the replay
cache.  Requests are served side by side, so the limiter's word is changed by
compare-and-exchange steps of many requests in any order, and any number of
verified requests can wait for the cache.
-/
import Shph.Capability

namespace Shph.Edge

open ByteCodec Checked

def defaultRelayPath : String := "/phantom-one/v1"

def maxRelayPathBytes : Nat := 128

def defaultReplayCapacity : Nat := 128 * 1024

def defaultMaxVerificationsPerSecond : Nat := 256

def maxVerificationRate : Nat := 100000

def rateCountBits : Nat := 20

def rateCountMask : Nat := 2 ^ rateCountBits - 1

inductive EdgeConfigError where
  | tooLarge
  | malformed
  | invalidBackend
  | invalidAudience
  | incompleteTls
  | invalidServerName
  | invalidRelayPath
  | invalidLimits
deriving Repr, DecidableEq

/-- The limiter's word has the window in its high and the count in its low
bits. -/
structure VerificationRateLimiter where
  limit : Nat
  state : Nat
deriving Repr, DecidableEq

namespace VerificationRateLimiter

def new (limit : Nat) : Option VerificationRateLimiter :=
  if 1 ≤ limit ∧ limit ≤ maxVerificationRate then some ⟨limit, 0⟩ else none

/-- One turn of the loop up to its exchange: the word to store in place of the
observed one, or nothing when the request is turned away. -/
def nextWord (limit window observed : Nat) : Option Nat :=
  let previousWindow := observed >>> rateCountBits
  let previousCount := observed &&& rateCountMask
  if previousWindow < window then
    some ((window <<< rateCountBits) % 2 ^ 64 ||| 1)
  else if window < previousWindow ∨ limit ≤ previousCount then none
  else some (observed + 1)

end VerificationRateLimiter

inductive Method where
  | options
  | get
  | post
  | put
  | delete
  | head
  | trace
  | connect
  | patch
  | extension (token : String)
deriving Repr, DecidableEq

/-- What the front door reads of a request.  A capability header whose value
is not visible ASCII has no text. -/
structure Request where
  method : Method
  path : String
  query : Option String
  capabilities : List (Option String)
deriving Repr, DecidableEq

structure FrontDoorResponse where
  status : Nat
  contentType : String
  body : Bytes
deriving Repr, DecidableEq

namespace FrontDoorResponse

def plain (status : Nat) (body : String) : FrontDoorResponse :=
  ⟨status, "text/plain; charset=utf-8", textBytes body⟩

def notFound : FrontDoorResponse := plain 404 "not found\n"

def methodNotAllowed : FrontDoorResponse := plain 405 "method not allowed\n"

def unauthorized : FrontDoorResponse := plain 401 "unauthorized\n"

def tooManyRequests : FrontDoorResponse := plain 429 "too many requests\n"

def serviceUnavailable : FrontDoorResponse :=
  plain 503 "temporarily unavailable\n"

end FrontDoorResponse

inductive FrontDoorDecision where
  | relay
  | fallback (response : FrontDoorResponse)
deriving Repr, DecidableEq

inductive FrontDoorPreparation where
  | verified (capability : VerifiedCapability)
  | fallback (decision : FrontDoorDecision)
deriving Repr, DecidableEq

structure FrontDoor where
  verifier : CapabilityVerifier
  maxTokenBytes : Nat
  relayPath : String
  uniformFallback : Bool
  verificationRateLimiter : VerificationRateLimiter
  replayCapacity : Nat
  replayCache : ReplayCache

/-- How a text is read as a URI: its path and its query. -/
abbrev UriParser := String → Option (String × Option String)

def validateRelayPath (parseUri : UriParser) (path : String) :
    Except EdgeConfigError Unit := do
  let bytes := textBytes path
  require (bytes ≠ [] ∧ bytes.length ≤ maxRelayPathBytes ∧
    bytes.all (· < 0x80) ∧ bytes.head? = some 0x2f ∧
    ¬ bytes.any fun byte => byte ≤ 0x20 || byte == 0x7f || byte == 0x3f ||
      byte == 0x23 || byte == 0x5c) .invalidRelayPath
  let uri ← valueOr (parseUri path) .invalidRelayPath
  require (uri.1 = path ∧ uri.2 = none) .invalidRelayPath

/-- The error of a cache that cannot be made is one of the limits. -/
def newCache (capacity : Nat) : Except EdgeConfigError ReplayCache :=
  match ReplayCache.new capacity with
  | .ok cache => .ok cache
  | .error _ => .error .invalidLimits

/-- Seconds since the epoch; before it there are none. -/
def unixNow (wall : Int) : Except CapabilityError Nat :=
  if 0 ≤ wall then .ok (wall.toNat / 10 ^ 9) else .error .malformed

namespace FrontDoor

def withPath (parseUri : UriParser) (verifier : CapabilityVerifier)
    (maxTokenBytes : Nat) (relayPath : String) :
    Except EdgeConfigError FrontDoor := do
  validateRelayPath parseUri relayPath
  let replayCache ← newCache defaultReplayCapacity
  let limiter ← valueOr
    (VerificationRateLimiter.new defaultMaxVerificationsPerSecond)
    .invalidLimits
  pure ⟨verifier, maxTokenBytes, relayPath, false, limiter,
    defaultReplayCapacity, replayCache⟩

def withReplayCapacity (door : FrontDoor) (capacity : Nat) :
    Except EdgeConfigError FrontDoor := do
  require (saturatingMul door.verificationRateLimiter.limit
    door.verifier.replayRetentionSecs ≤ capacity) .invalidLimits
  let replayCache ← newCache capacity
  pure { door with replayCapacity := capacity, replayCache }

def withMaxVerificationsPerSecond (door : FrontDoor) (rate : Nat) :
    Except EdgeConfigError FrontDoor := do
  require (saturatingMul rate door.verifier.replayRetentionSecs ≤
    door.replayCapacity) .invalidLimits
  let limiter ← valueOr (VerificationRateLimiter.new rate) .invalidLimits
  pure { door with verificationRateLimiter := limiter }

def withUniformFallback (door : FrontDoor) (enabled : Bool) : FrontDoor :=
  { door with uniformFallback := enabled }

def normalize (door : FrontDoor) (decision : FrontDoorDecision) :
    FrontDoorDecision :=
  match decision with
  | .relay => .relay
  | .fallback response =>
      .fallback (if door.uniformFallback then .notFound else response)

def fallback (door : FrontDoor) (response : FrontDoorResponse) :
    FrontDoorPreparation :=
  .fallback (door.normalize (.fallback response))

/-- The checks of a request up to the limiter; they leave the token. -/
def screen (door : FrontDoor) (request : Request) :
    Except FrontDoorPreparation String := do
  require (request.path = door.relayPath ∧ request.query = none)
    (door.fallback .notFound)
  require (request.method = .post) (door.fallback .methodNotAllowed)
  let raw ← valueOr (match request.capabilities with
    | [capability] => capability
    | _ => none) (door.fallback .unauthorized)
  require (raw.utf8ByteSize ≤ door.maxTokenBytes) (door.fallback .unauthorized)
  pure raw

/-- What follows on a slot of the limiter.  A clock before the epoch counts
as zero. -/
def verifyAdmitted (ed : Ed25519) (door : FrontDoor) (raw : String)
    (wall : Int) : FrontDoorPreparation :=
  match door.verifier.verifyForReplay ed raw (wall.toNat / 10 ^ 9) with
  | .ok verified => .verified verified
  | .error _ => door.fallback .unauthorized

def prepare (ed : Ed25519) (door : FrontDoor) (request : Request)
    (acquired : Bool) (wall : Int) : FrontDoorPreparation :=
  match door.screen request with
  | .error preparation => preparation
  | .ok raw =>
      if acquired then door.verifyAdmitted ed raw wall
      else door.fallback .tooManyRequests

def commitVerified (door : FrontDoor) (verified : VerifiedCapability)
    (wall : Int) (cache : ReplayCache) : FrontDoorDecision × ReplayCache :=
  match unixNow wall with
  | .error _ => (door.normalize (.fallback .unauthorized), cache)
  | .ok now =>
      match cache.consume verified now with
      | (.ok _, next) => (door.normalize .relay, next)
      | (.error _, next) => (door.normalize (.fallback .unauthorized), next)

end FrontDoor

/-- How far a request has come. -/
inductive Progress where
  | arrived (request : Request)
  | acquiring (raw : String) (startedAt : Nat) (observed : Nat)
  | verified (capability : VerifiedCapability)
  | answered (decision : FrontDoorDecision)
deriving Repr, DecidableEq

/-- The front door with the requests it is serving.  The two clocks are in
nanoseconds: the time since the limiter was made, and the wall clock relative
to the epoch.  The limiter's earlier words are kept, latest first, since a
relaxed load may still return one of them. -/
structure System where
  door : FrontDoor
  earlierWords : List Nat
  requests : List Progress
  elapsed : Nat
  wall : Int

/-- What a scheduler can let happen next. -/
inductive Action where
  | tick (elapsed : Nat) (wall : Int)
  | arrive (request : Request)
  | start (index age : Nat)
  | exchange (index : Nat) (spurious : Bool) (age : Nat)
  | commit (index : Nat)
  | cancel (index : Nat)
deriving Repr, DecidableEq

/-- What a step shows to the outside. -/
inductive Event where
  | quiet
  | admitted (startedAt : Nat)
  | turnedAway
  | accepted (capability : VerifiedCapability) (now : Nat)
  | refused (capability : VerifiedCapability)
deriving Repr, DecidableEq

namespace System

def new (door : FrontDoor) (wall : Int) : System :=
  ⟨door, [], [], 0, wall⟩

/-- The one-second window a request that started at an instant is in. -/
def windowOf (startedAt : Nat) : Nat := startedAt / 10 ^ 9

/-- A load returns the present word or an earlier one. -/
def load (system : System) (age : Nat) : Option Nat :=
  (system.door.verificationRateLimiter.state :: system.earlierWords)[age]?

def setRequest (system : System) (index : Nat) (progress : Progress) :
    System :=
  { system with requests := system.requests.set index progress }

def setWord (system : System) (word : Nat) : System :=
  { system with
    door.verificationRateLimiter.state := word
    earlierWords := system.door.verificationRateLimiter.state ::
      system.earlierWords }

def setCache (system : System) (cache : ReplayCache) : System :=
  { system with door.replayCache := cache }

/-- The request is screened and, if it gets to the limiter, reads the
monotonic clock and then the word. -/
def startRequest (system : System) (index age : Nat) : System :=
  match system.requests[index]?, system.load age with
  | some (.arrived request), some observed =>
      match system.door.screen request with
      | .ok raw =>
          system.setRequest index (.acquiring raw system.elapsed observed)
      | .error (.fallback decision) =>
          system.setRequest index (.answered decision)
      | .error (.verified _) => system
  | _, _ => system

/-- The state of a request behind its preparation. -/
def progressOf : FrontDoorPreparation → Progress
  | .verified capability => .verified capability
  | .fallback decision => .answered decision

/-- One turn of the limiter's loop.  The exchange can fail without a cause. -/
def exchangeWord (ed : Ed25519) (system : System) (index : Nat)
    (spurious : Bool) (age : Nat) : Event × System :=
  match system.requests[index]? with
  | some (.acquiring raw startedAt observed) =>
      match VerificationRateLimiter.nextWord
        system.door.verificationRateLimiter.limit (windowOf startedAt)
        observed with
      | none =>
          (.turnedAway, system.setRequest index
            (progressOf (system.door.fallback .tooManyRequests)))
      | some next =>
          if observed = system.door.verificationRateLimiter.state ∧
              spurious = false then
            (.admitted startedAt, (system.setWord next).setRequest index
              (progressOf (system.door.verifyAdmitted ed raw system.wall)))
          else
            match system.load age with
            | some actual =>
                (.quiet, system.setRequest index
                  (.acquiring raw startedAt actual))
            | none => (.quiet, system)
  | _ => (.quiet, system)

def commitRequest (system : System) (index : Nat) : Event × System :=
  match system.requests[index]? with
  | some (.verified capability) =>
      match system.door.commitVerified capability system.wall
        system.door.replayCache with
      | (.relay, cache) =>
          (.accepted capability (system.wall.toNat / 10 ^ 9),
            (system.setCache cache).setRequest index (.answered .relay))
      | (.fallback response, cache) =>
          (.refused capability, (system.setCache cache).setRequest index
            (.answered (.fallback response)))
  | _ => (.quiet, system)

/-- A shutdown answers requests that wait for the cache. -/
def cancelRequest (system : System) (index : Nat) : System :=
  match system.requests[index]? with
  | some (.verified _) =>
      system.setRequest index (.answered (.fallback .serviceUnavailable))
  | some (.arrived _) =>
      system.setRequest index (.answered (.fallback .serviceUnavailable))
  | _ => system

def step (ed : Ed25519) (system : System) : Action → Event × System
  | .tick elapsed wall =>
      (.quiet, { system with
        elapsed := system.elapsed + elapsed, wall := system.wall + wall })
  | .arrive request =>
      (.quiet, { system with
        requests := system.requests ++ [.arrived request] })
  | .start index age => (.quiet, system.startRequest index age)
  | .exchange index spurious age => system.exchangeWord ed index spurious age
  | .commit index => system.commitRequest index
  | .cancel index => (.quiet, system.cancelRequest index)

end System

end Shph.Edge
