/-
The envelope of a Shroud 3 datagram.  What the engine emits fits the path it
was asked to fit, and decodes to the payload under any limit that is not
smaller than the datagram.
-/
import Shph.Shroud3

namespace Shph.Shroud3

open ByteCodec

theorem mem_fittingBins {profile : Shroud3JointProfile}
    {minimum maxWireSize target : Nat} {bin : Shroud3JointBin}
    (hmem : (bin, target) ∈ fittingBins profile minimum maxWireSize) :
    bin ∈ profile.bins ∧ minimum ≤ target ∧ target ≤ maxWireSize := by
  obtain ⟨choice, hchoice, hfits⟩ := List.mem_filterMap.mp hmem
  split at hfits
  · rename_i size hsize
    split at hfits
    · rename_i hbounds
      cases hfits
      exact ⟨hchoice, hbounds⟩
    · cases hfits
  · cases hfits

theorem pickBin_mem {choices : List (Shroud3JointBin × Nat)} {sample : Nat}
    {shape : JointShape} (hpick : pickBin choices sample = some shape) :
    ∃ bin, (bin, shape.targetSize) ∈ choices ∧
      shape.shapingDelay = bin.shapingDelay := by
  induction choices generalizing sample with
  | nil => cases hpick
  | cons choice choices ih =>
      obtain ⟨bin, target⟩ := choice
      rw [pickBin] at hpick
      split at hpick
      · cases hpick
        exact ⟨bin, List.mem_cons_self, rfl⟩
      · obtain ⟨other, hmem, hdelay⟩ := ih hpick
        exact ⟨other, List.mem_cons_of_mem _ hmem, hdelay⟩

namespace AdaptiveShroud3

variable {rng : Rng}

/-- What the engine chooses for a payload that needs `minimum` bytes. -/
structure Shaped (config : Shroud3Config) (minimum pathMtu : Nat)
    (shape : JointShape) : Prop where
  minimum_le : minimum ≤ shape.targetSize
  le_path : shape.targetSize ≤ pathMtu
  le_padded : shape.targetSize ≤ minimum + config.maxPaddingBytes
  delay : shape.shapingDelay = 0 ∨ ∃ mode, ∃ bin ∈ (config.profile mode).bins,
    shape.shapingDelay = bin.shapingDelay

theorem shaped_minimum {config : Shroud3Config} {minimum pathMtu : Nat}
    (hminimum : minimum ≤ pathMtu) (fallback : Bool) :
    Shaped config minimum pathMtu ⟨minimum, 0, fallback⟩ where
  minimum_le := Nat.le_refl _
  le_path := hminimum
  le_padded := Nat.le_add_right _ _
  delay := Or.inl rfl

theorem selectJointShape_shaped (engine : AdaptiveShroud3 rng)
    (mode : Shroud3WorkloadMode) {minimum pathMtu : Nat}
    (hminimum : minimum ≤ pathMtu) (rngState : rng.State) :
    Shaped engine.config minimum pathMtu
      (engine.selectJointShape mode minimum pathMtu rngState).1 := by
  unfold selectJointShape
  dsimp only
  split
  · exact shaped_minimum hminimum true
  · cases hpick : pickBin (fittingBins (engine.config.profile mode) minimum
        (min pathMtu (saturatingAdd minimum engine.config.maxPaddingBytes)))
        (rng.genRange rngState 0 _).1 with
    | none => exact shaped_minimum hminimum true
    | some shape =>
        obtain ⟨bin, hmem, hdelay⟩ := pickBin_mem hpick
        obtain ⟨hbin, hleast, hmost⟩ := mem_fittingBins hmem
        have hpadded : saturatingAdd minimum engine.config.maxPaddingBytes ≤
            minimum + engine.config.maxPaddingBytes := Nat.min_le_left _ _
        exact ⟨hleast, Nat.le_trans hmost (Nat.min_le_left _ _),
          Nat.le_trans hmost (Nat.le_trans (Nat.min_le_right _ _) hpadded),
          Or.inr ⟨mode, bin, hbin, hdelay⟩⟩

/-- What a call that succeeds emits, and what it leaves. -/
structure Emits (engine : AdaptiveShroud3 rng) (payload : Bytes)
    (pathMtu : Nat) (observation : Shroud3Observation) (bytes : Bytes)
    (next : AdaptiveShroud3 rng) : Prop where
  datagram_eq : ∃ shape padding, bytes = datagram payload shape.targetSize
      padding ∧
    padding.length = shape.targetSize - (payload.length + shroud3HeaderBytes) ∧
    Shaped engine.config (payload.length + shroud3HeaderBytes) pathMtu shape ∧
    next.pendingDelay = shape.shapingDelay
  path : pathMtu ≤ maxShroud3DatagramBytes
  nonempty : payload.length ≠ 0
  config_eq : next.config = engine.config
  lastObservation_eq : next.lastObservation = some observation.observedAt

theorem validatePayloadForPath_eq_ok_iff {payloadLen pathMtu minimum : Nat} :
    validatePayloadForPath payloadLen pathMtu = .ok minimum ↔
      pathMtu ≤ maxShroud3DatagramBytes ∧ payloadLen ≠ 0 ∧
        minimum = payloadLen + shroud3HeaderBytes ∧ minimum ≤ pathMtu := by
  simp only [validatePayloadForPath, bind_eq_ok_iff, ensure_eq_ok_iff,
    okOr_eq_ok_iff, checkedAdd, pure_eq_ok_iff]
  unfold maxShroud3DatagramBytes shroud3HeaderBytes u64Max
  constructor
  · rintro ⟨-, hpath, -, hpayload, -, -, sum, hsum, -, hfits, rfl⟩
    rw [Option.ite_none_right_eq_some, Option.some.injEq] at hsum
    exact ⟨hpath.2, hpayload, hsum.2.symm, hfits⟩
  · rintro ⟨hpath, hpayload, rfl, hfits⟩
    refine ⟨(), by omega, (), hpayload, (), by omega, _, if_pos (by omega), (),
      hfits, rfl⟩

/-- What one call can do. -/
theorem encode_cases (engine : AdaptiveShroud3 rng) (payload : Bytes)
    (pathMtu : Nat) (observation : Shroud3Observation) :
    (∃ error, engine.encode payload pathMtu observation =
      (.error error, engine)) ∨
    ∃ bytes next, engine.encode payload pathMtu observation =
      (.ok bytes, next) ∧
        Emits engine payload pathMtu observation bytes next := by
  unfold encode
  cases hvalid : validatePayloadForPath payload.length pathMtu with
  | error error => exact Or.inl ⟨error, rfl⟩
  | ok minimum =>
      obtain ⟨hpath, hnonempty, rfl, hminimum⟩ :=
        validatePayloadForPath_eq_ok_iff.mp hvalid
      dsimp only
      split
      · exact Or.inl ⟨_, rfl⟩
      · split
        · exact Or.inl ⟨_, rfl⟩
        · split
          · exact Or.inl ⟨_, rfl⟩
          · split
            · exact Or.inl ⟨_, rfl⟩
            · rename_i padding rngState hfill
              have hlength := rng.tryFillBytes_length
                (congrArg Prod.fst hfill)
              exact Or.inr ⟨_, _, rfl, ⟨_, padding, rfl, hlength,
                selectJointShape_shaped engine _ hminimum _, rfl⟩, hpath,
                hnonempty, rfl, rfl⟩

/-- Nothing stops a call with a payload that fits, if time does not run
backwards and the generator works. -/
theorem encode_of_fits {engine : AdaptiveShroud3 rng} {payload : Bytes}
    {pathMtu : Nat} {observation : Shroud3Observation}
    (hrng : rng.Infallible)
    (hpath : pathMtu ≤ maxShroud3DatagramBytes) (hnonempty : payload ≠ [])
    (hfits : payload.length + shroud3HeaderBytes ≤ pathMtu)
    (hmonotone : ∀ last ∈ engine.lastObservation,
      last ≤ observation.observedAt) :
    ∃ bytes next, engine.encode payload pathMtu observation =
      (.ok bytes, next) ∧
        Emits engine payload pathMtu observation bytes next := by
  rcases encode_cases engine payload pathMtu observation with
    ⟨error, herror⟩ | hok
  · exfalso
    have hvalid : validatePayloadForPath payload.length pathMtu =
        .ok (payload.length + shroud3HeaderBytes) :=
      validatePayloadForPath_eq_ok_iff.mpr
        ⟨hpath, by simpa using hnonempty, rfl, hfits⟩
    have hlater : engine.lastObservation.any (observation.observedAt < ·) =
        false := by
      rw [Option.any_eq_false]
      intro last hlast
      simpa using hmonotone last hlast
    have hsmall (mode : Shroud3WorkloadMode) : ¬ 2 ^ 16 ≤
        (engine.selectJointShape mode (payload.length + shroud3HeaderBytes)
          pathMtu engine.rngState).1.targetSize := by
      have hle := (selectJointShape_shaped engine mode hfits
        engine.rngState).le_path
      unfold maxShroud3DatagramBytes at hpath
      omega
    unfold maxShroud3DatagramBytes at hpath
    unfold shroud3HeaderBytes at hfits
    unfold encode at herror
    simp only [hvalid, hlater] at herror
    rw [if_neg (by decide), if_neg (by omega), if_neg (hsmall _)] at herror
    split at herror
    · rename_i hfill
      exact hrng.fills hfill
    · cases herror
  · exact hok

theorem Emits.length_le {engine next : AdaptiveShroud3 rng}
    {payload bytes : Bytes} {pathMtu : Nat} {observation : Shroud3Observation}
    (hemits : Emits engine payload pathMtu observation bytes next) :
    payload.length + shroud3HeaderBytes ≤ bytes.length ∧
      bytes.length ≤ pathMtu := by
  obtain ⟨shape, padding, rfl, hpadding, hshaped, -⟩ := hemits.datagram_eq
  have hleast := hshaped.minimum_le
  have hmost := hshaped.le_path
  simp only [datagram, shroud3Magic, shroud3HeaderBytes, List.length_append,
    List.length_cons, List.length_nil, bigEndian_length] at *
  omega

/-- The delay of the default profiles. -/
theorem Emits.delay_lt {engine next : AdaptiveShroud3 rng}
    {payload bytes : Bytes} {pathMtu : Nat} {observation : Shroud3Observation}
    (hconfig : engine.config = .default)
    (hemits : Emits engine payload pathMtu observation bytes next) :
    next.pendingDelay < fromMillis 1000 := by
  obtain ⟨shape, -, -, -, hshaped, hdelay⟩ := hemits.datagram_eq
  have hbins : ∀ mode, ∀ bin ∈ (Shroud3Config.default.profile mode).bins,
      bin.shapingDelay < fromMillis 1000 := by
    intro mode
    cases mode <;> decide
  rw [hdelay]
  rcases hshaped.delay with hzero | ⟨mode, bin, hbin, heq⟩
  · rw [hzero]
    decide
  · rw [heq]
    rw [hconfig] at hbin
    exact hbins mode bin hbin

/-- A receiver whose limit is not smaller than the datagram reads the
payload. -/
theorem Emits.decodeInPlace_eq {engine next : AdaptiveShroud3 rng}
    {payload bytes : Bytes} {pathMtu limit : Nat}
    {observation : Shroud3Observation}
    (hpadding : engine.config.maxPaddingBytes ≤ maxShroud3PaddingBytes)
    (hemits : Emits engine payload pathMtu observation bytes next)
    (hlimit : limit ≤ maxShroud3DatagramBytes) (hfits : bytes.length ≤ limit) :
    decodeInPlace bytes limit = .ok payload := by
  have hpath := hemits.path
  have hnonempty := hemits.nonempty
  obtain ⟨hleast, hmost⟩ := hemits.length_le
  obtain ⟨shape, padding, rfl, hlength, hshaped, -⟩ := hemits.datagram_eq
  have hpadded := hshaped.le_padded
  have hminimum := hshaped.minimum_le
  have htarget := hshaped.le_path
  unfold maxShroud3DatagramBytes at hpath hlimit
  unfold maxShroud3PaddingBytes at hpadding
  have hsize : (datagram payload shape.targetSize padding).length =
      shape.targetSize := by
    simp only [datagram, shroud3Magic, List.length_append, List.length_cons,
      List.length_nil, bigEndian_length, hlength, shroud3HeaderBytes] at *
    omega
  have hpayload : slice (datagram payload shape.targetSize padding)
      shroud3HeaderBytes payload.length = payload := by
    unfold datagram
    rw [List.append_assoc]
    exact slice_append (by simp [shroud3Magic, shroud3HeaderBytes]) rfl
  have hpayloadLen : ofBigEndian
      (slice (datagram payload shape.targetSize padding) 3 2) =
        payload.length := by
    change ofBigEndian (bigEndian 2 payload.length) = _
    refine ofBigEndian_bigEndian ?_
    unfold shroud3HeaderBytes at hminimum
    omega
  have hdeclared : ofBigEndian
      (slice (datagram payload shape.targetSize padding) 5 2) =
        shape.targetSize := by
    change ofBigEndian (bigEndian 2 shape.targetSize) = _
    exact ofBigEndian_bigEndian (by omega)
  simp only [decodeInPlace, validateDatagramBounds, bind_eq_ok_iff,
    ensure_eq_ok_iff, hpayloadLen, hdeclared, hsize, hpayload, pure,
    Except.pure, exists_const]
  rw [hsize] at hfits
  unfold maxShroud3DatagramBytes maxShroud3PaddingBytes
  unfold shroud3HeaderBytes at hminimum hpadded ⊢
  exact ⟨by omega, ⟨rfl, rfl⟩, trivial, ⟨hnonempty, by omega, by omega⟩,
    trivial⟩

end AdaptiveShroud3

end Shph.Shroud3
