/-
The bounds of the shaping.  The choices of a profile are gone through twice,
once to add their weights up and once to find the one a sample falls on; both
go by the same choices, so the second walk ends at one of them.
-/
import Shph.Shroud3Envelope

namespace Shph.Shroud3

open ByteCodec

/-- `decode`, on a copy of the datagram. -/
def decode (datagram : Bytes) (pathMtu : Nat) : Except ShphError Bytes := do
  validateDatagramBounds datagram.length pathMtu
  decodeInPlace datagram pathMtu

section Loops

variable (base quantum minimum maxWireSize : Nat)

/-- The first loop over the choices: the weights of those that fit. -/
def weighBins (bins : List Shroud3JointBin) (totalWeight : Nat) : Nat :=
  match bins with
  | [] => totalWeight
  | bin :: rest =>
      match shapeTarget base quantum bin with
      | some target =>
          if minimum ≤ target ∧ target ≤ maxWireSize then
            weighBins rest (saturatingAdd totalWeight bin.weight.toNat)
          else weighBins rest totalWeight
      | none => weighBins rest totalWeight

/-- The second loop: the choice a sample falls on, or nothing at its end. -/
def walkBins (bins : List Shroud3JointBin) (sample : Nat) :
    Option JointShape :=
  match bins with
  | [] => none
  | bin :: rest =>
      match shapeTarget base quantum bin with
      | none => walkBins rest sample
      | some target =>
          if target < minimum ∨ maxWireSize < target then walkBins rest sample
          else if sample < bin.weight.toNat then
            some ⟨target, bin.shapingDelay, false⟩
          else walkBins rest (sample - bin.weight.toNat)

end Loops

/-- The sum of the weights of some choices. -/
def weightOf (choices : List (Shroud3JointBin × Nat)) : Nat :=
  (choices.map fun choice => choice.1.weight.toNat).sum

/-- Both loops go by the choices that fit. -/
theorem weighBins_eq (profile : Shroud3JointProfile)
    (minimum maxWireSize : Nat) :
    weighBins (alignUp minimum profile.sizeQuantum) profile.sizeQuantum
        minimum maxWireSize profile.bins 0 =
      (fittingBins profile minimum maxWireSize).foldl
        (fun total choice => saturatingAdd total choice.1.weight.toNat) 0 := by
  unfold fittingBins
  dsimp only
  generalize alignUp minimum profile.sizeQuantum = base
  generalize 0 = total
  induction profile.bins generalizing total with
  | nil => rfl
  | cons bin bins ih =>
      rw [weighBins, List.filterMap_cons]
      cases htarget : shapeTarget base profile.sizeQuantum bin with
      | none => exact ih total
      | some target =>
          dsimp only
          split
          · exact ih _
          · exact ih total

theorem walkBins_eq (profile : Shroud3JointProfile)
    (minimum maxWireSize sample : Nat) :
    walkBins (alignUp minimum profile.sizeQuantum) profile.sizeQuantum
        minimum maxWireSize profile.bins sample =
      pickBin (fittingBins profile minimum maxWireSize) sample := by
  unfold fittingBins
  dsimp only
  generalize alignUp minimum profile.sizeQuantum = base
  induction profile.bins generalizing sample with
  | nil => rfl
  | cons bin bins ih =>
      rw [walkBins, List.filterMap_cons]
      cases htarget : shapeTarget base profile.sizeQuantum bin with
      | none => exact ih sample
      | some target =>
          dsimp only
          by_cases hfits : minimum ≤ target ∧ target ≤ maxWireSize
          · rw [if_pos hfits, if_neg (by omega)]
            dsimp only
            rw [pickBin]
            split
            · rfl
            · exact ih _
          · rw [if_neg hfits, if_pos (by omega)]
            exact ih sample

/-- A sample below the weight of the choices falls on one of them. -/
theorem pickBin_isSome {choices : List (Shroud3JointBin × Nat)} {sample : Nat}
    (hsample : sample < weightOf choices) :
    (pickBin choices sample).isSome = true := by
  induction choices generalizing sample with
  | nil => simp [weightOf] at hsample
  | cons choice choices ih =>
      obtain ⟨bin, target⟩ := choice
      rw [pickBin]
      split
      · rfl
      · apply ih
        simp only [weightOf, List.map_cons, List.sum_cons] at hsample ⊢
        omega

/-- Below the largest number nothing saturates. -/
theorem foldl_saturatingAdd {choices : List (Shroud3JointBin × Nat)}
    {total : Nat} (hroom : total + weightOf choices ≤ u64Max) :
    choices.foldl (fun total choice =>
        saturatingAdd total choice.1.weight.toNat) total =
      total + weightOf choices := by
  induction choices generalizing total with
  | nil => rfl
  | cons choice choices ih =>
      simp only [weightOf, List.map_cons, List.sum_cons] at hroom ⊢
      rw [List.foldl_cons, saturatingAdd, Nat.min_eq_left (by omega),
        ih (by unfold weightOf; omega), weightOf]
      omega

theorem weightOf_le {choices : List (Shroud3JointBin × Nat)} :
    weightOf choices ≤ choices.length * 2 ^ 32 := by
  unfold weightOf
  refine Nat.le_trans (List.sum_le_card_nsmul _ (2 ^ 32) ?_) (by simp)
  simp only [List.forall_mem_map]
  exact fun choice _ => Nat.le_of_lt choice.1.weight.toNat_lt

/-- What a validated profile is. -/
structure Shroud3JointProfile.Valid (profile : Shroud3JointProfile)
    (maxDelay : Nat) : Prop where
  bins_le : profile.bins.length ≤ maxShroud3ProfileBins
  delay_le : ∀ bin ∈ profile.bins, bin.shapingDelay ≤ maxDelay

theorem delay_le_of_foldlM {bins : List Shroud3JointBin} {maxDelay : Nat}
    {seen result : Nat × Bool}
    (hfold : bins.foldlM (Shroud3JointProfile.validateBin maxDelay) seen =
      .ok result) : ∀ bin ∈ bins, bin.shapingDelay ≤ maxDelay := by
  induction bins generalizing seen with
  | nil => simp
  | cons bin bins ih =>
      rw [List.foldlM_cons, bind_eq_ok_iff] at hfold
      obtain ⟨next, hbin, hrest⟩ := hfold
      simp only [Shroud3JointProfile.validateBin, bind_eq_ok_iff,
        ensure_eq_ok_iff] at hbin
      obtain ⟨-, -, -, hdelay, -⟩ := hbin
      exact List.forall_mem_cons.mpr ⟨hdelay, ih hrest⟩

theorem Shroud3JointProfile.valid_of_validate {profile : Shroud3JointProfile}
    {maxDelay : Nat} (hvalid : profile.validate maxDelay = .ok ()) :
    profile.Valid maxDelay := by
  simp only [validate, bind_eq_ok_iff, ensure_eq_ok_iff] at hvalid
  obtain ⟨-, -, -, hbins, ⟨total, hasZero⟩, hfold, -⟩ := hvalid
  exact ⟨hbins.2, delay_le_of_foldlM hfold⟩

/-- What the bounds need of a validated configuration. -/
structure Shroud3Config.Valid (config : Shroud3Config) : Prop where
  padding_le : config.maxPaddingBytes ≤ maxShroud3PaddingBytes
  profiles : ∀ mode, (config.profile mode).Valid config.maxShapingDelay

theorem Shroud3Config.valid_of_validate {config : Shroud3Config}
    (hvalid : config.validate = .ok ()) : config.Valid := by
  simp only [validate, bind_eq_ok_iff, ensure_eq_ok_iff] at hvalid
  obtain ⟨_, hbounds, _, hinteractive, _, hbursty, _, hsustained, hqueue⟩ :=
    hvalid
  refine ⟨hbounds.2.2.2.2.2.2.2.2.2.2.2.2.1, fun mode => ?_⟩
  cases mode with
  | interactive => exact Shroud3JointProfile.valid_of_validate hinteractive
  | bursty => exact Shroud3JointProfile.valid_of_validate hbursty
  | sustained => exact Shroud3JointProfile.valid_of_validate hsustained
  | queuePressure => exact Shroud3JointProfile.valid_of_validate hqueue

theorem target_of_mem_fittingBins {profile : Shroud3JointProfile}
    {minimum maxWireSize target : Nat} {bin : Shroud3JointBin}
    (hmem : (bin, target) ∈ fittingBins profile minimum maxWireSize) :
    shapeTarget (alignUp minimum profile.sizeQuantum) profile.sizeQuantum bin =
      some target := by
  obtain ⟨choice, -, hfits⟩ := List.mem_filterMap.mp hmem
  split at hfits
  · rename_i size hsize
    split at hfits
    · cases hfits
      exact hsize
    · cases hfits
  · cases hfits

namespace AdaptiveShroud3

variable {rng : Rng}

/-- The size no datagram of a call is larger than. -/
def maxWireSize (engine : AdaptiveShroud3 rng) (minimum pathMtu : Nat) : Nat :=
  min pathMtu (saturatingAdd minimum engine.config.maxPaddingBytes)

/-- The weights of a mode's choices for a datagram of at least `minimum`
bytes. -/
def totalWeight (engine : AdaptiveShroud3 rng) (mode : Shroud3WorkloadMode)
    (minimum pathMtu : Nat) : Nat :=
  let profile := engine.config.profile mode
  weighBins (alignUp minimum profile.sizeQuantum) profile.sizeQuantum minimum
    (engine.maxWireSize minimum pathMtu) profile.bins 0

/-- Where the walk through a mode's choices ends for a sample. -/
def walk (engine : AdaptiveShroud3 rng) (mode : Shroud3WorkloadMode)
    (minimum pathMtu sample : Nat) : Option JointShape :=
  let profile := engine.config.profile mode
  walkBins (alignUp minimum profile.sizeQuantum) profile.sizeQuantum minimum
    (engine.maxWireSize minimum pathMtu) profile.bins sample

/-- The selection as the two loops make it. -/
def weighAndWalk (engine : AdaptiveShroud3 rng) (mode : Shroud3WorkloadMode)
    (minimum pathMtu : Nat) (rngState : rng.State) : JointShape × rng.State :=
  if engine.totalWeight mode minimum pathMtu = 0 then
    (⟨minimum, 0, true⟩, rngState)
  else
    let drawn := rng.genRange rngState 0
      (engine.totalWeight mode minimum pathMtu - 1)
    ((engine.walk mode minimum pathMtu drawn.1).getD ⟨minimum, 0, true⟩,
      drawn.2)

theorem selectJointShape_eq (engine : AdaptiveShroud3 rng)
    (mode : Shroud3WorkloadMode) (minimum pathMtu : Nat)
    (rngState : rng.State) :
    engine.selectJointShape mode minimum pathMtu rngState =
      engine.weighAndWalk mode minimum pathMtu rngState := by
  simp only [selectJointShape, weighAndWalk, totalWeight, walk, maxWireSize,
    weighBins_eq, walkBins_eq]

/-- The walk goes through all choices without an end although some fit. -/
def FallsThrough (engine : AdaptiveShroud3 rng) (mode : Shroud3WorkloadMode)
    (minimum pathMtu : Nat) (rngState : rng.State) : Prop :=
  engine.totalWeight mode minimum pathMtu ≠ 0 ∧
    engine.walk mode minimum pathMtu (rng.genRange rngState 0
      (engine.totalWeight mode minimum pathMtu - 1)).1 = none

theorem not_fallsThrough {engine : AdaptiveShroud3 rng}
    (hvalid : engine.config.Valid) (mode : Shroud3WorkloadMode)
    (minimum pathMtu : Nat) (rngState : rng.State) :
    ¬ engine.FallsThrough mode minimum pathMtu rngState := by
  rintro ⟨hweight, hwalk⟩
  have hcount : (fittingBins (engine.config.profile mode) minimum
      (engine.maxWireSize minimum pathMtu)).length ≤ maxShroud3ProfileBins :=
    Nat.le_trans (List.length_filterMap_le _ _) (hvalid.profiles mode).bins_le
  have htotal : engine.totalWeight mode minimum pathMtu =
      weightOf (fittingBins (engine.config.profile mode) minimum
        (engine.maxWireSize minimum pathMtu)) := by
    have hroom := @weightOf_le (fittingBins (engine.config.profile mode)
      minimum (engine.maxWireSize minimum pathMtu))
    rw [totalWeight, weighBins_eq, foldl_saturatingAdd, Nat.zero_add]
    unfold maxShroud3ProfileBins at hcount
    unfold u64Max
    omega
  have hdrawn : (rng.genRange rngState 0
      (engine.totalWeight mode minimum pathMtu - 1)).1 ≤
        engine.totalWeight mode minimum pathMtu - 1 :=
    (rng.genRange_mem (Nat.zero_le _)).2
  rw [walk, walkBins_eq] at hwalk
  have hsome : (pickBin (fittingBins (engine.config.profile mode) minimum
      (engine.maxWireSize minimum pathMtu)) (rng.genRange rngState 0
        (engine.totalWeight mode minimum pathMtu - 1)).1).isSome = true :=
    pickBin_isSome (by omega)
  rw [hwalk] at hsome
  cases hsome

/-- What is selected for a mode: nothing extra, or a choice of its profile. -/
theorem selectJointShape_cases {engine : AdaptiveShroud3 rng}
    (hvalid : engine.config.Valid) (mode : Shroud3WorkloadMode)
    (minimum pathMtu : Nat) (rngState : rng.State) :
    (engine.selectJointShape mode minimum pathMtu rngState).1 =
        ⟨minimum, 0, true⟩ ∨
      ∃ bin ∈ (engine.config.profile mode).bins,
        (engine.selectJointShape mode minimum pathMtu
          rngState).1.shapingDelay = bin.shapingDelay ∧
        shapeTarget (alignUp minimum (engine.config.profile mode).sizeQuantum)
            (engine.config.profile mode).sizeQuantum bin =
          some (engine.selectJointShape mode minimum pathMtu
            rngState).1.targetSize := by
  rw [selectJointShape_eq, weighAndWalk]
  split
  · exact Or.inl rfl
  · rename_i hweight
    cases hwalk : engine.walk mode minimum pathMtu
        (rng.genRange rngState 0 _).1 with
    | none =>
        exact absurd ⟨hweight, hwalk⟩
          (not_fallsThrough hvalid mode minimum pathMtu rngState)
    | some shape =>
        simp only [hwalk, Option.getD_some]
        rw [walk, walkBins_eq] at hwalk
        obtain ⟨bin, hmem, hdelay⟩ := pickBin_mem hwalk
        refine Or.inr ⟨bin, (mem_fittingBins hmem).1, hdelay, ?_⟩
        exact target_of_mem_fittingBins hmem

/-- The datagram of a call that succeeds, with the selection behind it. -/
theorem encode_selected {engine next : AdaptiveShroud3 rng}
    {payload bytes : Bytes} {pathMtu : Nat} {observation : Shroud3Observation}
    (hencode : engine.encode payload pathMtu observation = (.ok bytes, next)) :
    ∃ shape, (engine.selectJointShape next.mode
        (payload.length + shroud3HeaderBytes) pathMtu
        engine.rngState).1 = shape ∧
      next.pendingDelay = shape.shapingDelay ∧
      bytes.length = shape.targetSize := by
  unfold encode at hencode
  cases hvalid : validatePayloadForPath payload.length pathMtu with
  | error error =>
      rw [hvalid] at hencode
      cases hencode
  | ok minimum =>
      obtain ⟨-, -, rfl, hminimum⟩ :=
        validatePayloadForPath_eq_ok_iff.mp hvalid
      simp only [hvalid] at hencode
      split at hencode
      · cases hencode
      split at hencode
      · cases hencode
      split at hencode
      · cases hencode
      split at hencode
      · cases hencode
      rename_i padding rngState hfill
      cases hencode
      refine ⟨_, rfl, rfl, ?_⟩
      have hpadding := rng.tryFillBytes_length (congrArg Prod.fst hfill)
      have hleast := (selectJointShape_shaped engine (engine.planTransition
        (engine.observedMode (engine.windowSample payload.length
          observation.observedAt) observation.queueAge)
        observation.observedAt).mode hminimum engine.rngState).minimum_le
      simp only [datagram, shroud3Magic, List.length_append,
        List.length_cons, List.length_nil, bigEndian_length, hpadding,
        shroud3HeaderBytes] at hleast ⊢
      omega

/-- A call with an earlier instant than the last one fails. -/
theorem encode_not_backwards {engine next : AdaptiveShroud3 rng}
    {payload bytes : Bytes} {pathMtu last : Nat}
    {observation : Shroud3Observation}
    (hencode : engine.encode payload pathMtu observation = (.ok bytes, next))
    (hlast : last ∈ engine.lastObservation) :
    ¬ observation.observedAt < last := by
  intro hlt
  have hbackwards : engine.lastObservation.any (observation.observedAt < ·) =
      true := by
    rw [Option.mem_def.mp hlast]
    simpa using hlt
  unfold encode at hencode
  cases hvalid : validatePayloadForPath payload.length pathMtu with
  | error error =>
      rw [hvalid] at hencode
      cases hencode
  | ok minimum =>
      simp only [hvalid, hbackwards, if_true] at hencode
      cases hencode

/-- A payload and a path that the encoder takes. -/
def Admitted (payload : Bytes) (pathMtu : Nat) : Prop :=
  pathMtu ≤ maxShroud3DatagramBytes ∧ payload ≠ [] ∧
    payload.length + shroud3HeaderBytes ≤ pathMtu

/-- The bounds of the shaping, for every state of an engine whose
configuration is validated.  The generator is asked for padding last, so one
that fails is the only other way to fail. -/
theorem shaping_bounds {engine : AdaptiveShroud3 rng}
    (hconfig : engine.config.validate = .ok ()) (payload : Bytes)
    (pathMtu : Nat) (observation : Shroud3Observation) :
    (∀ bytes next,
      engine.encode payload pathMtu observation = (.ok bytes, next) →
        bytes.length ≤ pathMtu ∧
        bytes.length - payload.length - 7 ≤ engine.config.maxPaddingBytes ∧
        next.pendingDelay ≤ engine.config.maxShapingDelay ∧
        (bytes.length = payload.length + 7 ∨
          ∃ bin ∈ (engine.config.profile next.mode).bins,
            shapeTarget (alignUp (payload.length + 7)
                (engine.config.profile next.mode).sizeQuantum)
              (engine.config.profile next.mode).sizeQuantum bin =
                some bytes.length) ∧
        ∀ limit, bytes.length ≤ limit → limit ≤ maxShroud3DatagramBytes →
          decode bytes limit = .ok payload) ∧
    (∀ mode minimum rngState,
      engine.selectJointShape mode minimum pathMtu rngState =
          engine.weighAndWalk mode minimum pathMtu rngState ∧
        ¬ engine.FallsThrough mode minimum pathMtu rngState) ∧
    (rng.Infallible →
      ((∃ error, (engine.encode payload pathMtu observation).1 =
          .error error) ↔
        ¬ Admitted payload pathMtu ∨
          ∃ last ∈ engine.lastObservation,
            observation.observedAt < last)) := by
  have hvalid := Shroud3Config.valid_of_validate hconfig
  refine ⟨?_, fun mode minimum rngState =>
    ⟨engine.selectJointShape_eq mode minimum pathMtu rngState,
      not_fallsThrough hvalid mode _ _ _⟩, ?_⟩
  · intro bytes next hencode
    rcases encode_cases engine payload pathMtu observation with
      ⟨error, herror⟩ | ⟨sent, after, hsent, hemits⟩
    · rw [herror] at hencode
      cases hencode
    rw [hsent] at hencode
    cases hencode
    obtain ⟨shape, hshape, hdelay, hlength⟩ := encode_selected hsent
    obtain ⟨hleast, hmost⟩ := hemits.length_le
    have hselected := selectJointShape_cases hvalid next.mode
      (payload.length + shroud3HeaderBytes) pathMtu engine.rngState
    have hshaped := selectJointShape_shaped engine next.mode
      (Nat.le_trans hleast hmost) engine.rngState
    rw [hshape] at hselected hshaped
    refine ⟨hmost, ?_, ?_, ?_, ?_⟩
    · have hpadded := hshaped.le_padded
      unfold shroud3HeaderBytes at hpadded
      omega
    · rw [hdelay]
      rcases hselected with rfl | ⟨bin, hbin, hsame, -⟩
      · exact Nat.zero_le _
      · rw [hsame]
        exact (hvalid.profiles next.mode).delay_le bin hbin
    · rw [hlength]
      rcases hselected with rfl | ⟨bin, hbin, -, htarget⟩
      · exact Or.inl rfl
      · exact Or.inr ⟨bin, hbin, htarget⟩
    · intro limit hlimit hadmitted
      have hheader : shroud3HeaderBytes ≤ bytes.length := by omega
      have hbounds : validateDatagramBounds bytes.length limit = .ok () :=
        ensure_eq_ok_iff.mpr
          ⟨Nat.le_trans hheader hlimit, hadmitted, hheader, hlimit⟩
      rw [decode, bind_eq_ok_iff]
      exact ⟨(), hbounds,
        hemits.decodeInPlace_eq hvalid.padding_le hadmitted hlimit⟩
  · intro hrng
    constructor
    · rintro ⟨error, herror⟩
      by_contra hok
      rw [not_or, not_not] at hok
      obtain ⟨⟨hpath, hnonempty, hfits⟩, hclock⟩ := hok
      obtain ⟨bytes, next, hencode, -⟩ := encode_of_fits hrng hpath hnonempty
        hfits fun last hlast => Nat.le_of_not_lt fun hlt =>
          hclock ⟨last, hlast, hlt⟩
      rw [hencode] at herror
      cases herror
    · intro hfails
      rcases encode_cases engine payload pathMtu observation with
        ⟨error, herror⟩ | ⟨bytes, next, hencode, hemits⟩
      · exact ⟨error, by rw [herror]⟩
      · exfalso
        rcases hfails with hrefused | ⟨last, hlast, hlt⟩
        · obtain ⟨hleast, hmost⟩ := hemits.length_le
          exact hrefused ⟨hemits.path, by simpa using hemits.nonempty,
            by omega⟩
        · exact encode_not_backwards hencode hlast hlt

end AdaptiveShroud3

namespace ShapingWitness

/-- An engine with the default configuration that has seen nothing. -/
def fresh : AdaptiveShroud3 .zeros where
  config := .default
  rngState := ()
  mode := .interactive
  history := .replicate _ ⟨0, none⟩
  historyLen := 0
  historyNext := 0
  pendingMode := none
  pendingCount := 0
  lastObservation := none
  lastTransition := none
  burstLength := 0
  pendingDelay := 0
  metrics := .default

theorem shaping_bounds_fresh :
    ∃ bytes next, fresh.encode [1, 2, 3] 1200 ⟨5, 0⟩ = (.ok bytes, next) ∧
      bytes.length ≤ 1200 ∧ decode bytes 1200 = .ok [1, 2, 3] := by
  obtain ⟨hsent, -, hfails⟩ := @AdaptiveShroud3.shaping_bounds .zeros
    fresh Shroud3Config.default_validate [1, 2, 3] 1200 ⟨5, 0⟩
  cases hencode : fresh.encode [1, 2, 3] 1200 ⟨5, 0⟩ with
  | mk result next =>
      cases result with
      | ok bytes =>
          obtain ⟨hlength, -, -, -, hdecode⟩ := hsent bytes next hencode
          exact ⟨bytes, next, rfl, hlength, hdecode 1200 hlength (by decide)⟩
      | error error =>
          exfalso
          have hrefused := (hfails fun _ _ => rfl).mp
            ⟨error, congrArg Prod.fst hencode⟩
          rcases hrefused with hnot | ⟨last, hlast, -⟩
          · exact hnot ⟨by decide, by decide, by decide⟩
          · cases hlast

end ShapingWitness

end Shph.Shroud3
