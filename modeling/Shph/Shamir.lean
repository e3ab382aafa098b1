/-
Shamir sharing over the field with 257 elements: every byte of a secret is the
constant term of its own polynomial, and a share holds the values of all of
them at one point, as 16-bit words in Base64.
-/
import Shph.Error
import Shph.Library.Base64
import Shph.Word

namespace Shph

open ByteCodec

def shamirPrime : Nat := 257

def maxShamirPayloadBytes : Nat := 256 * 1024

def maxShamirSecretBytes : Nat := maxShamirPayloadBytes / 2

def maxShamirRecoveryBytes : Nat := 8 * 1024 * 1024

def maxShamirPayloadB64Bytes : Nat := (maxShamirPayloadBytes + 2) / 3 * 4

structure ShamirConfig where
  enabled : Bool
  threshold : Nat
  shares : Nat
deriving Repr, DecidableEq

structure ShamirShare where
  index : UInt8
  payloadB64 : String
deriving Repr, DecidableEq

inductive ShamirError where
  | invalidPolicy
  | tooFewShares
  | badShareCount
  | decodeFailed
deriving Repr, DecidableEq

def ShamirError.toShphError : ShamirError → ShphError
  | invalidPolicy => .config "invalid Shamir policy"
  | tooFewShares => .config "insufficient Shamir shares"
  | badShareCount => .protocol "invalid Shamir share count"
  | decodeFailed => .protocol "failed to decode Shamir share"

/-- The policies both operations refuse. -/
def ShamirConfig.invalid (config : ShamirConfig) : Prop :=
  config.threshold = 0 ∨ config.shares = 0 ∨
    config.shares < config.threshold ∨ 255 < config.shares

instance (config : ShamirConfig) : Decidable config.invalid :=
  inferInstanceAs (Decidable (_ ∨ _ ∨ _ ∨ _))

def validateShamirConfig (config : ShamirConfig) : Except ShphError Unit :=
  ensure (¬ (config.enabled = true ∧ config.invalid))
    (.config "invalid Shamir policy")

def encodeU16Array (values : List UInt16) : String :=
  Base64.encode (values.flatMap fun value => littleEndian 2 value.toNat)

/-- `chunks_exact(2)`, each chunk read as a little-endian word. -/
def u16Chunks : Bytes → List UInt16
  | low :: high :: rest =>
      UInt16.ofNat (ofLittleEndian [low, high]) :: u16Chunks rest
  | _ => []

def decodeU16Array (rawB64 : String) : Except ShphError (List UInt16) := do
  ensure (rawB64.utf8ByteSize ≤ maxShamirPayloadB64Bytes)
    (.resourceExhausted "Shamir share payload exceeds the safety limit")
  let raw ← okOr (Base64.decode rawB64) (.protocol "invalid share payload")
  ensure (raw.length % 2 = 0) (.protocol "invalid share payload length")
  ensure (raw.length ≤ maxShamirPayloadBytes)
    (.resourceExhausted "Shamir share payload exceeds the safety limit")
  return u16Chunks raw

/-- A source of 64-bit words. -/
structure RandomSource where
  State : Type
  nextU64 : State → UInt64 × State

/-- Rejection sampling; `fuel` bounds the number of draws. -/
def sampleFieldElement (source : RandomSource) (prime : Nat) :
    Nat → source.State → Option (Nat × source.State)
  | 0, _ => none
  | fuel + 1, state =>
      let threshold := 2 ^ 64 / prime * prime
      let (value, state) := source.nextU64 state
      if value.toNat < threshold then some (value.toNat % prime, state)
      else sampleFieldElement source prime fuel state

def gfEval (coeffs : List Nat) (x p : Nat) : Nat :=
  coeffs.reverse.foldl (fun result coeff => (result * x + coeff) % p) 0

/-- The loop of the extended Euclidean algorithm, on signed words. -/
def gfInvLoop (t newT r newR : Int) : Int × Int :=
  if newR = 0 then (t, r)
  else
    let quotient := r.tdiv newR
    gfInvLoop newT (t - quotient * newT) newR (r - quotient * newR)
termination_by newR.natAbs
decreasing_by
  rw [Int.mul_comm, ← Int.tmod_def, Int.natAbs_tmod]
  exact Nat.mod_lt _ (Int.natAbs_pos.mpr ‹_›)

def gfInv (x p : Nat) : Nat :=
  let (t, r) := gfInvLoop 0 1 p x
  if r ≠ 1 then 0
  else if t < 0 then ((t + p) % 2 ^ 64).toNat
  else t.toNat

/-- One turn of the inner loop, which passes over the point itself. -/
def lagrangeStep (prime xi i : Nat) (products : Nat × Nat)
    (entry : (Nat × Nat) × Nat) : Nat × Nat :=
  if i = entry.2 then products
  else
    (products.1 * (prime + wrappingSub prime (entry.1.1 % prime)) % prime %
        prime,
      products.2 * ((prime + xi - entry.1.1) % prime) % prime)

def lagrangeWeight (points : List (Nat × Nat)) (prime xi i : Nat) : Nat :=
  let (num, den) := points.zipIdx.foldl (lagrangeStep prime xi i) (1, 1)
  num * gfInv den prime % prime

def gfLagrangeOrigin (points : List (Nat × Nat)) (prime : Nat) : Nat :=
  points.zipIdx.foldl
    (fun out entry =>
      (out + entry.1.2 * lagrangeWeight points prime entry.1.1 entry.2) %
        prime)
    0 % prime

def sampleCoefficients (source : RandomSource) (fuel : Nat) :
    Nat → source.State → Option (List Nat × source.State)
  | 0, state => some ([], state)
  | count + 1, state => do
      let (coeff, state) ← sampleFieldElement source shamirPrime fuel state
      let (coeffs, state) ← sampleCoefficients source fuel count state
      return (coeff :: coeffs, state)

/-- Append to the row of every share the value of one polynomial there. -/
def pushValues (coeffs : List Nat) (rows : List (List UInt16)) :
    List (List UInt16) :=
  rows.mapIdx fun idx row =>
    row ++ [UInt16.ofNat (gfEval coeffs (idx + 1) shamirPrime)]

/-- The loop over the bytes of the secret. -/
def splitRows (source : RandomSource) (fuel threshold : Nat) :
    Bytes → source.State → List (List UInt16) → Option (List (List UInt16))
  | [], _, rows => some rows
  | byte :: secret, state, rows => do
      let (coeffs, state) ←
        sampleCoefficients source fuel (threshold - 1) state
      splitRows source fuel threshold secret state
        (pushValues (byte.toNat :: coeffs) rows)

def splitSecret (source : RandomSource) (fuel : Nat) (state : source.State)
    (secret : Bytes) (config : ShamirConfig) :
    Except ShphError (List ShamirShare) :=
  if config.enabled = false then .ok []
  else do
    ensure (¬ config.invalid) ShamirError.invalidPolicy.toShphError
    ensure (secret.length ≤ maxShamirSecretBytes)
      (.resourceExhausted "Shamir secret exceeds the safety limit")
    let rows ← okOr
      (splitRows source fuel config.threshold secret state
        (List.replicate config.shares []))
      (.internal "sampling did not finish")
    return rows.mapIdx fun idx row =>
      { index := UInt8.ofNat (idx + 1), payloadB64 := encodeU16Array row }

/-- What the loop over the shares has collected. -/
structure Recovery where
  decoded : List (Nat × List UInt16)
  lens : Finset Nat
  indices : Finset UInt8
  decodedBytes : Nat

def Recovery.empty : Recovery :=
  { decoded := [], lens := ∅, indices := ∅, decodedBytes := 0 }

def Recovery.add (config : ShamirConfig) (recovery : Recovery)
    (share : ShamirShare) : Except ShphError Recovery :=
  match decodeU16Array share.payloadB64 with
  | .error _ => .error ShamirError.decodeFailed.toShphError
  | .ok values => do
      let decodedBytes ← okOr
        (checkedAdd recovery.decodedBytes (saturatingMul values.length 2))
        (.resourceExhausted "Shamir recovery input is too large")
      ensure (decodedBytes ≤ maxShamirRecoveryBytes)
        (.resourceExhausted "Shamir recovery input exceeds the safety limit")
      ensure (¬ (share.index = 0 ∨ config.shares < share.index.toNat))
        ShamirError.badShareCount.toShphError
      ensure (share.index ∉ recovery.indices)
        ShamirError.badShareCount.toShphError
      ensure (¬ ∃ value ∈ values, 256 < value)
        ShamirError.decodeFailed.toShphError
      return {
        decoded :=
          if recovery.decoded.length < config.threshold then
            recovery.decoded ++ [(share.index.toNat, values)]
          else recovery.decoded
        lens := insert values.length recovery.lens
        indices := insert share.index recovery.indices
        decodedBytes }

/-- One byte of the secret, from the values of the first shares. -/
def recoverByte (config : ShamirConfig) (decoded : List (Nat × List UInt16))
    (byteIndex : Nat) : UInt8 :=
  let points := (decoded.take config.threshold).map fun entry =>
    (entry.1, (entry.2.getD byteIndex 0).toNat)
  UInt8.ofNat (gfLagrangeOrigin points 257)

def recoverSecretFromShares (shares : List ShamirShare)
    (config : ShamirConfig) : Except ShphError Bytes :=
  if config.enabled = false then .ok []
  else do
    validateShamirConfig config
    ensure (¬ shares.length < config.threshold)
      ShamirError.tooFewShares.toShphError
    ensure (¬ config.shares < shares.length)
      ShamirError.badShareCount.toShphError
    let recovery ← shares.foldlM (Recovery.add config) Recovery.empty
    ensure (¬ recovery.indices.card < config.threshold)
      ShamirError.tooFewShares.toShphError
    ensure (recovery.lens.card = 1) ShamirError.badShareCount.toShphError
    let first ← okOr recovery.decoded.head?
      ShamirError.decodeFailed.toShphError
    return (List.range first.2.length).map
      (recoverByte config recovery.decoded)

end Shph
