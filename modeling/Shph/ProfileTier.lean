/-
Profile padding: every payload is carried in a frame of one of the discrete
sizes of its tier.  The frame holds a marker, the tier, the payload's length,
the payload and random bytes.
-/
import Shph.Error
import Shph.Library.Bytes

namespace Shph

open ByteCodec

/-- The random generator of a session.  A number drawn from a range lies in
it, and filling a buffer yields as many bytes as were asked for. -/
structure Rng where
  State : Type
  nextU32 : State → UInt32 × State
  genRange : State → (low high : Nat) → Nat × State
  tryFillBytes : State → Nat → Option Bytes × State
  genRange_mem : ∀ {state low high}, low ≤ high →
    low ≤ (genRange state low high).1 ∧ (genRange state low high).1 ≤ high
  tryFillBytes_length : ∀ {state count bytes},
    (tryFillBytes state count).1 = some bytes → bytes.length = count

/-- Filling a buffer never fails, as with a seeded generator. -/
def Rng.Infallible (rng : Rng) : Prop :=
  ∀ state count, (rng.tryFillBytes state count).1.isSome = true

theorem Rng.Infallible.fills {rng : Rng} (hrng : rng.Infallible)
    {state next : rng.State} {count : Nat}
    (hfill : rng.tryFillBytes state count = (none, next)) : False := by
  have hsome := hrng state count
  rw [hfill] at hsome
  cases hsome

/-- A generator that always draws the least it may. -/
def Rng.zeros : Rng where
  State := Unit
  nextU32 := fun state => (0, state)
  genRange := fun state low _ => (low, state)
  tryFillBytes := fun state count => (some (List.replicate count 0), state)
  genRange_mem := fun hle => ⟨Nat.le_refl _, hle⟩
  tryFillBytes_length := by
    intro state count bytes hbytes
    rw [← Option.some.inj hbytes, List.length_replicate]

inductive ProfileTier where
  | low
  | medium
  | high
  | tunedLow
  | tunedMedium
  | tunedHigh
deriving Repr, DecidableEq

namespace ProfileTier

def asStr : ProfileTier → String
  | low => "low"
  | medium => "medium"
  | high => "high"
  | tunedLow => "tuned-low"
  | tunedMedium => "tuned-medium"
  | tunedHigh => "tuned-high"

def id : ProfileTier → UInt8
  | low => 0
  | medium => 1
  | high => 2
  | tunedLow => 3
  | tunedMedium => 4
  | tunedHigh => 5

def fromId (id : UInt8) : Option ProfileTier :=
  if id = 0 then some low
  else if id = 1 then some medium
  else if id = 2 then some high
  else if id = 3 then some tunedLow
  else if id = 4 then some tunedMedium
  else if id = 5 then some tunedHigh
  else none

def baseTiers : ProfileTier → List Nat
  | low => [128, 256]
  | medium => [128, 256, 512, 1024, 1360]
  | high => [512, 1024, 1360]
  | tunedLow => [64, 96, 128, 192, 256, 512, 768]
  | tunedMedium => [128, 256, 512, 768, 1024, 1360]
  | tunedHigh => [512, 768, 1024, 1280, 1360]

def lowJitterBytes : Nat := 7

/-- Whether a length belongs to the tier's canonical sizes, jitter included. -/
def acceptsFrameLen (profile : ProfileTier) (len : Nat) : Bool :=
  match profile with
  | low =>
      decide (128 ≤ len ∧ len ≤ 128 + lowJitterBytes) ||
        decide (256 ≤ len ∧ len ≤ 256 + lowJitterBytes)
  | tunedLow =>
      profile.baseTiers.any fun base => decide (base ≤ len ∧ len ≤ base + 3)
  | medium | high | tunedMedium | tunedHigh => profile.baseTiers.contains len

end ProfileTier

def profileMagic : Bytes := [0x53, 0x50, 0x41, 0x44]

def profileHeaderBytes : Nat := 7

/-- Rejection sampling; `fuel` bounds the number of draws. -/
def sampleUniformBelow (rng : Rng) (upper : Nat) :
    Nat → rng.State → Option (Nat × rng.State)
  | 0, _ => none
  | fuel + 1, state =>
      if upper ≤ 1 then some (0, state)
      else
        let range := 2 ^ 32
        let limit := range - range % upper
        let (sample, state) := rng.nextU32 state
        if sample.toNat < limit then some (sample.toNat % upper, state)
        else sampleUniformBelow rng upper fuel state

/-- The bounds that are used divide the range, so the first draw is taken. -/
theorem sampleUniformBelow_of_dvd (rng : Rng) {upper : Nat}
    (hupper : 1 < upper) (hdvd : upper ∣ 2 ^ 32) (fuel : Nat)
    (state : rng.State) :
    sampleUniformBelow rng upper (fuel + 1) state =
      some ((rng.nextU32 state).1.toNat % upper, (rng.nextU32 state).2) := by
  have hmod : 2 ^ 32 % upper = 0 := Nat.mod_eq_zero_of_dvd hdvd
  have hsample := (rng.nextU32 state).1.toNat_lt
  simp only [sampleUniformBelow, hmod, Nat.sub_zero]
  rw [if_neg (by omega), if_pos hsample]

def profileJitterBound : ProfileTier → Nat
  | .tunedLow => 3
  | _ => ProfileTier.lowJitterBytes

/-- The extra bytes of a frame: only the two low tiers draw any. -/
def profileJitter (rng : Rng) (profile : ProfileTier) (state : rng.State) :
    Option (Nat × rng.State) :=
  if profile = .low ∨ profile = .tunedLow then
    sampleUniformBelow rng (profileJitterBound profile + 1) 1 state
  else some (0, state)

/-- The base size of the frame for a payload, or why there is none. -/
def profileBase (profile : ProfileTier) (payload : Bytes) :
    Except ShphError Nat := do
  ensure (profileHeaderBytes + payload.length < 2 ^ 64)
    (.obfuscation "profile payload length overflow")
  let base ← okOr
    (profile.baseTiers.find? fun size =>
      decide (profileHeaderBytes + payload.length ≤ size))
    (.obfuscation
      s!"{profile.asStr} profile cannot carry a {payload.length}-byte payload")
  ensure (payload.length < 2 ^ 16) (.obfuscation "profile payload exceeds u16")
  return base

def applyProfileIntoWithRng (rng : Rng) (profile : ProfileTier)
    (payload : Bytes) (state : rng.State) :
    Except ShphError Bytes × rng.State :=
  match profileBase profile payload with
  | .error error => (.error error, state)
  | .ok base =>
      match profileJitter rng profile state with
      | none => (.error (.internal "sampling did not finish"), state)
      | some (jitter, state) =>
          if base + jitter ≤ 2 ^ 16 - 1 then
            let header := profileMagic ++ [profile.id] ++
              bigEndian 2 payload.length
            let tail := base + jitter - (profileHeaderBytes + payload.length)
            if tail = 0 then (.ok (header ++ payload), state)
            else
              match rng.tryFillBytes state tail with
              | (none, state) =>
                  (.error (.crypto "OS randomness unavailable"), state)
              | (some padding, state) =>
                  (.ok (header ++ payload ++ padding), state)
          else
            (.error (.obfuscation "profile frame length exceeds u16"), state)

/-- A frame without the marker is passed on unchanged. -/
def removeProfileInPlace (profile : ProfileTier) (framed : Bytes) :
    Except ShphError Bytes :=
  if framed.length < profileMagic.length ∨
      framed.take profileMagic.length ≠ profileMagic then .ok framed
  else do
    ensure (profileHeaderBytes ≤ framed.length)
      (.obfuscation "profile envelope is truncated")
    ensure (framed[profileMagic.length]? = some profile.id)
      (.obfuscation "profile envelope tier mismatch")
    ensure (profile.acceptsFrameLen framed.length)
      (.obfuscation "profile envelope size is not a canonical tier")
    let payloadLen := ofBigEndian (slice framed 5 2)
    ensure (payloadLen ≤ framed.length - profileHeaderBytes)
      (.obfuscation "profile envelope payload length exceeds frame")
    return slice framed profileHeaderBytes payloadLen

theorem ProfileTier.acceptsFrameLen_le {profile : ProfileTier} {len : Nat}
    (haccepts : profile.acceptsFrameLen len = true) : len ≤ 1360 := by
  cases profile with
  | low =>
      simp only [acceptsFrameLen, Bool.or_eq_true,
        decide_eq_true_eq] at haccepts
      simp only [lowJitterBytes] at haccepts
      omega
  | tunedLow =>
      rw [acceptsFrameLen, List.any_eq_true] at haccepts
      obtain ⟨base, hbase, hlen⟩ := haccepts
      rw [decide_eq_true_eq] at hlen
      have hbound : ∀ size ∈ tunedLow.baseTiers, size ≤ 768 := by decide
      have hle := hbound base hbase
      omega
  | medium | high | tunedMedium | tunedHigh =>
      rw [acceptsFrameLen, List.contains_iff_mem] at haccepts
      revert len
      decide

theorem profileBase_eq_ok {profile : ProfileTier} {payload : Bytes}
    {base : Nat} (hbase : profileBase profile payload = .ok base) :
    base ∈ profile.baseTiers ∧ profileHeaderBytes + payload.length ≤ base ∧
      payload.length < 2 ^ 16 := by
  simp only [profileBase, bind_eq_ok_iff, ensure_eq_ok_iff, okOr_eq_ok_iff,
    exists_const, pure_eq_ok_iff] at hbase
  obtain ⟨_, _, hfind, hshort, rfl⟩ := hbase
  refine ⟨List.mem_of_find?_eq_some hfind, ?_, hshort⟩
  simpa using List.find?_some hfind

theorem profileJitter_le {rng : Rng} {profile : ProfileTier}
    {state next : rng.State} {jitter : Nat}
    (hjitter : profileJitter rng profile state = some (jitter, next)) :
    jitter ≤ profileJitterBound profile ∧
      (jitter ≠ 0 → profile = .low ∨ profile = .tunedLow) := by
  unfold profileJitter at hjitter
  split at hjitter
  · rename_i hlow
    have hdvd : 1 < profileJitterBound profile + 1 ∧
        profileJitterBound profile + 1 ∣ 2 ^ 32 := by
      rcases hlow with rfl | rfl
      · exact ⟨by decide, by decide⟩
      · exact ⟨by decide, by decide⟩
    rw [sampleUniformBelow_of_dvd rng hdvd.1 hdvd.2, Option.some.injEq,
      Prod.mk.injEq] at hjitter
    refine ⟨?_, fun _ => hlow⟩
    rw [← hjitter.1]
    exact Nat.le_of_lt_succ (Nat.mod_lt _ (Nat.succ_pos _))
  · rw [Option.some.injEq, Prod.mk.injEq] at hjitter
    rw [← hjitter.1]
    exact ⟨Nat.zero_le _, fun hne => absurd rfl hne⟩

/-- Sender and receiver agree on the sizes: a base tier with its jitter is
canonical. -/
theorem ProfileTier.acceptsFrameLen_base {profile : ProfileTier}
    {base jitter : Nat} (hbase : base ∈ profile.baseTiers)
    (hjitter : jitter ≤ profileJitterBound profile ∧
      (jitter ≠ 0 → profile = .low ∨ profile = .tunedLow)) :
    profile.acceptsFrameLen (base + jitter) = true := by
  obtain ⟨hbound, hzero⟩ := hjitter
  cases profile with
  | low =>
      simp only [baseTiers, List.mem_cons, List.not_mem_nil, or_false] at hbase
      simp only [profileJitterBound, lowJitterBytes] at hbound
      simp only [acceptsFrameLen, Bool.or_eq_true, decide_eq_true_eq]
      simp only [lowJitterBytes]
      omega
  | tunedLow =>
      rw [acceptsFrameLen, List.any_eq_true]
      refine ⟨base, hbase, ?_⟩
      simp only [profileJitterBound] at hbound
      rw [decide_eq_true_eq]
      omega
  | medium | high | tunedMedium | tunedHigh =>
      have hnone : jitter = 0 := by
        by_contra hne
        simpa using hzero hne
      rw [hnone, Nat.add_zero, acceptsFrameLen, List.contains_iff_mem]
      exact hbase

/-- What the padder builds: header, payload and padding, of canonical size. -/
theorem applyProfileIntoWithRng_ok {rng : Rng} {profile : ProfileTier}
    {payload framed : Bytes} {state : rng.State}
    (hok : (applyProfileIntoWithRng rng profile payload state).1 =
      .ok framed) :
    ∃ padding, framed = profileMagic ++ ([profile.id] ++
        (bigEndian 2 payload.length ++ (payload ++ padding))) ∧
      payload.length < 2 ^ 16 ∧
      profile.acceptsFrameLen framed.length = true := by
  unfold applyProfileIntoWithRng at hok
  cases hbase : profileBase profile payload with
  | error error => simp [hbase] at hok
  | ok base =>
      obtain ⟨hmem, hroom, hshort⟩ := profileBase_eq_ok hbase
      cases hjitter : profileJitter rng profile state with
      | none => simp [hbase, hjitter] at hok
      | some drawn =>
          obtain ⟨jitter, next⟩ := drawn
          have haccepts := ProfileTier.acceptsFrameLen_base hmem
            (profileJitter_le hjitter)
          have hbuilt (padding : Bytes) (hlength : padding.length =
                base + jitter - (profileHeaderBytes + payload.length))
              (hframed : profileMagic ++ [profile.id] ++
                bigEndian 2 payload.length ++ payload ++ padding = framed) :
              ∃ padding, framed = profileMagic ++ ([profile.id] ++
                  (bigEndian 2 payload.length ++ (payload ++ padding))) ∧
                payload.length < 2 ^ 16 ∧
                profile.acceptsFrameLen framed.length = true := by
            refine ⟨padding, ?_, hshort, ?_⟩
            · rw [← hframed]
              simp only [List.append_assoc]
            · have htotal : framed.length = base + jitter := by
                rw [← hframed]
                simp only [List.length_append, bigEndian_length, hlength,
                  List.length_cons, List.length_nil, profileMagic,
                  profileHeaderBytes] at hroom ⊢
                omega
              rw [htotal]
              exact haccepts
          simp only [hbase, hjitter] at hok
          split at hok
          · split at hok
            · rename_i hnone
              rw [Except.ok.injEq] at hok
              exact hbuilt [] hnone.symm (by rw [List.append_nil]; exact hok)
            · split at hok
              · simp at hok
              · rename_i padding _ hfill
                rw [Except.ok.injEq] at hok
                exact hbuilt padding
                  (rng.tryFillBytes_length (by rw [hfill])) hok
          · simp at hok

/-- Removing the envelope of a padded payload gives the payload back. -/
theorem removeProfileInPlace_applied {rng : Rng} {profile : ProfileTier}
    {payload framed : Bytes} {state : rng.State}
    (hok : (applyProfileIntoWithRng rng profile payload state).1 =
      .ok framed) :
    removeProfileInPlace profile framed = .ok payload := by
  obtain ⟨padding, rfl, hshort, haccepts⟩ := applyProfileIntoWithRng_ok hok
  have hlength : ofBigEndian (bigEndian 2 payload.length) = payload.length :=
    ofBigEndian_bigEndian (by simpa using hshort)
  have hfield : slice (profileMagic ++ ([profile.id] ++
      (bigEndian 2 payload.length ++ (payload ++ padding)))) 5 2 =
        bigEndian 2 payload.length := rfl
  have hbody : slice (profileMagic ++ ([profile.id] ++
      (bigEndian 2 payload.length ++ (payload ++ padding))))
        profileHeaderBytes payload.length = payload :=
    @slice_append (profileMagic ++ ([profile.id] ++
      bigEndian 2 payload.length)) _ _ _ _ rfl rfl
  have hmarked : ¬ ((profileMagic ++ ([profile.id] ++
      (bigEndian 2 payload.length ++ (payload ++ padding)))).length <
        profileMagic.length ∨
      (profileMagic ++ ([profile.id] ++ (bigEndian 2 payload.length ++
        (payload ++ padding)))).take profileMagic.length ≠ profileMagic) := by
    rw [List.take_left, List.length_append]
    simp
  rw [removeProfileInPlace, if_neg hmarked]
  simp only [bind_eq_ok_iff, ensure_eq_ok_iff, exists_const, pure,
    Except.pure, hfield, hlength, hbody, and_true]
  refine ⟨?_, rfl, haccepts, ?_⟩
  · simp only [List.length_append, bigEndian_length, List.length_cons,
      List.length_nil, profileMagic, profileHeaderBytes]
    omega
  · simp only [List.length_append, bigEndian_length, List.length_cons,
      List.length_nil, profileMagic, profileHeaderBytes]
    omega

end Shph
