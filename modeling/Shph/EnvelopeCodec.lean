/-
The wire format of an offer.  The bytes that decode are exactly the encodings
of the offers that a peer may make, so that a decoded offer encodes to the
bytes it came from and can be negotiated with.
-/
import Shph.EnvelopeAgreement
import Shph.Library.Layout

namespace Shph

open ByteCodec

namespace EnvelopeOffer

/-- The widths of the fourteen fields of an encoded offer. -/
def offerWidths : List Nat := [9, 32, 1, 1, 1, 2, 2, 15, 9, 2, 2, 16, 16, 19]

theorem slices_encode (offer : EnvelopeOffer) :
    slices 0 offerWidths offer.encode = offer.encodedFields :=
  slices_flatten (encodedFields_lengths offer)

section Fields

variable {bytes : Bytes}

theorem byteAt_eq_iff {index : Nat} {byte : UInt8}
    (hindex : index < bytes.length) :
    byteAt bytes index = byte ↔ slice bytes index 1 = [byte] := by
  rw [byteAt, List.getD_eq_getElem _ _ hindex, slice,
    List.drop_eq_getElem_cons hindex, List.take_succ_cons, List.take_zero,
    List.cons.injEq]
  exact (and_iff_left rfl).symm

theorem number16_eq_iff {offset : Nat} {number : UInt16}
    (hfits : offset + 2 ≤ bytes.length) :
    UInt16.ofNat (numberAt bytes offset 2) = number ↔
      slice bytes offset 2 = bigEndian 2 number.toNat :=
  ofBigEndian_eq_toNat16_iff (slice_length hfits)

theorem number32_eq_iff {offset : Nat} {number : UInt32}
    (hfits : offset + 4 ≤ bytes.length) :
    UInt32.ofNat (numberAt bytes offset 4) = number ↔
      slice bytes offset 4 = bigEndian 4 number.toNat :=
  ofBigEndian_eq_toNat32_iff (slice_length hfits)

theorem number64_eq_iff {offset : Nat} {number : UInt64}
    (hfits : offset + 8 ≤ bytes.length) :
    UInt64.ofNat (numberAt bytes offset 8) = number ↔
      slice bytes offset 8 = bigEndian 8 number.toNat :=
  ofBigEndian_eq_toNat64_iff (slice_length hfits)

/-- The weights as the decoder reads them. -/
def weightsAt (bytes : Bytes) : Vector UInt16 7 :=
  Vector.ofFn fun index => UInt16.ofNat (numberAt bytes (49 + index * 2) 2)

theorem slice_selection (hlength : bytes.length = offerBytes) :
    slice bytes 48 15 = byteAt bytes 48 :: (weightsAt bytes).toList.flatMap
      fun weight => bigEndian 2 weight.toNat := by
  unfold offerBytes at hlength
  have htag : slice bytes 48 1 = [byteAt bytes 48] :=
    (byteAt_eq_iff (by omega)).mp rfl
  have hweight : ∀ offset, offset + 2 ≤ bytes.length →
      slice bytes offset 2 =
        bigEndian 2 (UInt16.ofNat (numberAt bytes offset 2)).toNat :=
    fun offset hfits => (number16_eq_iff hfits).mp rfl
  have hfields := flatten_slices_eq_slice 48 [1, 2, 2, 2, 2, 2, 2, 2] bytes
  simp only [slices, List.flatten_cons, List.flatten_nil, htag] at hfields
  rw [hweight 49 (by omega), hweight 51 (by omega), hweight 53 (by omega),
    hweight 55 (by omega), hweight 57 (by omega), hweight 59 (by omega),
    hweight 61 (by omega)] at hfields
  exact hfields.symm

theorem decodeSelection_eq_ok_iff (hlength : bytes.length = offerBytes)
    {selection : SizeSelection} :
    decodeSelection bytes = .ok selection ↔
      slice bytes 48 15 = selectionBytes selection := by
  rw [slice_selection hlength]
  change (if byteAt bytes 48 = 0 ∧ weightsAt bytes = Vector.replicate 7 0 then
      Except.ok SizeSelection.firstFit
    else if byteAt bytes 48 = 1 then .ok (.weighted (weightsAt bytes))
    else .error (ShphError.protocol "invalid policy selection")) =
      .ok selection ↔ _
  constructor
  · intro hdecode
    split_ifs at hdecode with hfirst hweighted
    · rw [← Except.ok.inj hdecode, selectionBytes, hfirst.1, hfirst.2]
      rfl
    · rw [← Except.ok.inj hdecode, selectionBytes, hweighted]
  · intro hbytes
    cases selection with
    | firstFit =>
        obtain ⟨htag, hweights⟩ := List.cons.inj hbytes
        have hzero : weightsAt bytes = Vector.replicate 7 0 :=
          Vector.toList_inj.mp (weightBytes_inj (by simp) hweights)
        rw [if_pos ⟨htag, hzero⟩]
    | weighted weights =>
        obtain ⟨htag, hweights⟩ := List.cons.inj hbytes
        have hsame : weightsAt bytes = weights :=
          Vector.toList_inj.mp (weightBytes_inj (by simp) hweights)
        rw [if_neg (by simp [htag]), if_pos htag, hsame]

theorem slice_paddingBudget (hlength : bytes.length = offerBytes) :
    slice bytes 63 9 = byteAt bytes 63 ::
      bigEndian 8 (UInt64.ofNat (numberAt bytes 64 8)).toNat := by
  unfold offerBytes at hlength
  have hflag : slice bytes 63 1 = [byteAt bytes 63] :=
    (byteAt_eq_iff (by omega)).mp rfl
  have hbudget : slice bytes 64 8 =
      bigEndian 8 (UInt64.ofNat (numberAt bytes 64 8)).toNat :=
    (number64_eq_iff (by omega)).mp rfl
  have hfields := flatten_slices_eq_slice 63 [1, 8] bytes
  simp only [slices, List.flatten_cons, List.flatten_nil, hflag] at hfields
  rw [hbudget, List.append_nil] at hfields
  exact hfields.symm

theorem decodePaddingBudget_eq_ok_iff (hlength : bytes.length = offerBytes)
    {config next : PhantomOneConfig} (hnone : config.paddingBudget = none) :
    decodePaddingBudget bytes config = .ok next ↔
      slice bytes 63 9 = paddingBudgetBytes next.paddingBudget ∧
        next = { config with paddingBudget := next.paddingBudget } := by
  rw [slice_paddingBudget hlength]
  unfold decodePaddingBudget
  dsimp only
  constructor
  · intro hdecode
    split_ifs at hdecode with hzero hone
    · rw [← Except.ok.inj hdecode, hzero.1, hzero.2]
      refine ⟨?_, rfl⟩
      rw [hnone]
      rfl
    · rw [← Except.ok.inj hdecode, hone]
      exact ⟨rfl, rfl⟩
  · rintro ⟨hbytes, hnext⟩
    obtain ⟨hflag, hvalue⟩ := List.cons.inj hbytes
    have hsame := uint64_bytes_inj hvalue
    cases hbudget : next.paddingBudget with
    | none =>
        rw [hbudget] at hflag hsame hnext
        rw [if_pos ⟨hflag, hsame⟩, hnext, ← hnone]
    | some budget =>
        rw [hbudget] at hflag hsame hnext
        rw [if_neg (by simp [hflag]), if_pos (by simpa using hflag), hsame,
          hnext]
        rfl

theorem decodeBudget_eq_iff {offset : Nat} {budget : FrameBudget}
    (hfits : offset + 16 ≤ bytes.length) :
    decodeBudget bytes offset = budget ↔
      slice bytes offset 16 = budgetBytes budget := by
  have hframes : slice bytes offset 8 =
      bigEndian 8 (decodeBudget bytes offset).maxFrames.toNat :=
    (number64_eq_iff (by omega)).mp rfl
  have hpayload : slice bytes (offset + 8) 8 =
      bigEndian 8 (decodeBudget bytes offset).maxPayloadBytes.toNat :=
    (number64_eq_iff (by omega)).mp rfl
  have hfields := flatten_slices_eq_slice offset [8, 8] bytes
  simp only [slices, List.flatten_cons, List.flatten_nil, hframes, hpayload,
    List.append_nil] at hfields
  change budgetBytes (decodeBudget bytes offset) = slice bytes offset 16
    at hfields
  rw [← hfields]
  exact ⟨fun h => congrArg budgetBytes h, fun h => budgetBytes_inj h⟩

/-- A cover policy as the decoder reads it. -/
def coverAt (bytes : Bytes) : CoverPolicy where
  intervalMs := UInt32.ofNat (numberAt bytes 109 4)
  idleTimeoutMs := UInt32.ofNat (numberAt bytes 113 4)
  maximumBytes := UInt64.ofNat (numberAt bytes 117 8)
  overheadPercent := UInt16.ofNat (numberAt bytes 125 2)

theorem slice_cover (hlength : bytes.length = offerBytes)
    (hflag : byteAt bytes 108 = 1) :
    slice bytes 108 19 = coverBytes (some (coverAt bytes)) := by
  unfold offerBytes at hlength
  have htag : slice bytes 108 1 = [1] := (byteAt_eq_iff (by omega)).mp hflag
  have hinterval : slice bytes 109 4 =
      bigEndian 4 (coverAt bytes).intervalMs.toNat :=
    (number32_eq_iff (by omega)).mp rfl
  have hidle : slice bytes 113 4 =
      bigEndian 4 (coverAt bytes).idleTimeoutMs.toNat :=
    (number32_eq_iff (by omega)).mp rfl
  have hmaximum : slice bytes 117 8 =
      bigEndian 8 (coverAt bytes).maximumBytes.toNat :=
    (number64_eq_iff (by omega)).mp rfl
  have hpercent : slice bytes 125 2 =
      bigEndian 2 (coverAt bytes).overheadPercent.toNat :=
    (number16_eq_iff (by omega)).mp rfl
  have hfields := flatten_slices_eq_slice 108 [1, 4, 4, 8, 2] bytes
  simp only [slices, List.flatten_cons, List.flatten_nil, htag] at hfields
  rw [hinterval, hidle, hmaximum, hpercent, List.append_nil] at hfields
  exact hfields.symm

theorem slice_noCover_iff (hlength : bytes.length = offerBytes) :
    slice bytes 108 19 = coverBytes none ↔
      byteAt bytes 108 = 0 ∧ (bytes.drop 109).all (· == 0) = true := by
  unfold offerBytes at hlength
  have hrest : slice bytes 109 18 = bytes.drop 109 := by
    rw [slice, List.take_of_length_le]
    rw [List.length_drop]
    omega
  have hfields := flatten_slices_eq_slice 108 [1, 18] bytes
  simp only [slices, List.flatten_cons, List.flatten_nil] at hfields
  rw [hrest, (byteAt_eq_iff (by omega)).mp rfl, List.append_nil] at hfields
  have hdrop : (bytes.drop 109).length = 18 := by
    rw [List.length_drop]
    omega
  change slice bytes 108 19 = 0 :: List.replicate 18 0 ↔ _
  rw [← show [byteAt bytes 108] ++ bytes.drop 109 = slice bytes 108 19
    from hfields]
  rw [List.singleton_append, List.cons.injEq, List.eq_replicate_iff]
  simp [hdrop]

theorem decodeCover_eq_ok_iff (hlength : bytes.length = offerBytes)
    {cover : Option CoverPolicy} :
    decodeCover bytes = .ok cover ↔
      slice bytes 108 19 = coverBytes cover ∧ validateCover cover = .ok () := by
  have hcover : ∀ policy, slice bytes 108 19 = coverBytes (some policy) →
      byteAt bytes 108 = 1 := by
    intro policy hbytes
    have hfields := flatten_slices_eq_slice 108 [1, 18] bytes
    unfold offerBytes at hlength
    simp only [slices, List.flatten_cons, List.flatten_nil] at hfields
    rw [(byteAt_eq_iff (by omega)).mp rfl] at hfields
    have hsame := hfields.trans hbytes
    exact (List.cons.inj hsame).1
  unfold decodeCover
  by_cases hnone : byteAt bytes 108 = 0 ∧ (bytes.drop 109).all (· == 0) = true
  · rw [if_pos hnone]
    have hbytes := (slice_noCover_iff hlength).mpr hnone
    rw [hbytes]
    constructor
    · intro hdecode
      rw [← Except.ok.inj hdecode]
      exact ⟨rfl, rfl⟩
    · rintro ⟨hsame, -⟩
      rw [coverBytes_inj hsame]
  · rw [if_neg hnone]
    by_cases hflag : byteAt bytes 108 = 1
    · rw [if_pos hflag, slice_cover hlength hflag, bind_eq_ok_iff]
      constructor
      · rintro ⟨⟨⟩, hvalid, hpolicy⟩
        rw [← Except.ok.inj hpolicy]
        exact ⟨rfl, hvalid⟩
      · rintro ⟨hsame, hvalid⟩
        rw [← coverBytes_inj hsame] at hvalid ⊢
        exact ⟨(), hvalid, rfl⟩
    · rw [if_neg hflag]
      constructor
      · intro hdecode
        cases hdecode
      · rintro ⟨hbytes, -⟩
        cases cover with
        | none => exact absurd ((slice_noCover_iff hlength).mp hbytes) hnone
        | some policy => exact absurd (hcover policy hbytes) hflag

theorem decodeBinding_eq_ok_iff (hlength : bytes.length = offerBytes)
    {profile : ProfileTier} {config next : PhantomOneConfig}
    (hunbound : config.profileBound = false)
    (hmedium : config.profile = .medium) :
    decodeBinding bytes profile config = .ok next ↔
      slice bytes 43 1 = [if next.profileBound then 1 else 0] ∧
      next.profile = profile ∧
      (next.profileBound = false → next.profile = .medium) ∧
      next = { config with
        profile := next.profile, profileBound := next.profileBound } := by
  unfold offerBytes at hlength
  have hflag : ∀ flag, slice bytes 43 1 = [flag] ↔ byteAt bytes 43 = flag :=
    fun flag => (byteAt_eq_iff (by omega)).symm
  rw [hflag]
  unfold decodeBinding
  constructor
  · intro hdecode
    split_ifs at hdecode with hzero hone
    · rw [← Except.ok.inj hdecode, hunbound, hmedium]
      exact ⟨hzero.1, hzero.2.symm, fun _ => rfl,
        by rw [← hmedium, ← hunbound]⟩
    · rw [← Except.ok.inj hdecode]
      exact ⟨hone, rfl, by simp [PhantomOneConfig.withProfile], rfl⟩
  · rintro ⟨hbyte, hprofile, hdefault, hnext⟩
    cases hbound : next.profileBound with
    | false =>
        rw [hbound] at hbyte
        have hsame : profile = .medium := by rw [← hprofile, hdefault hbound]
        rw [if_pos ⟨hbyte, hsame⟩, hnext, hbound, hprofile, hsame, ← hmedium,
          ← hunbound]
    | true =>
        rw [hbound] at hbyte
        have hone : byteAt bytes 43 = 1 := hbyte
        rw [if_neg (by simp [hone]), if_pos hone, hnext, hbound, hprofile]
        rfl

/-- The configuration in the bytes of an offer. -/
theorem decodeConfig_eq_ok_iff (hlength : bytes.length = offerBytes)
    {profile : ProfileTier} {config : PhantomOneConfig} :
    decodeConfig bytes profile = .ok config ↔
      config.validate = .ok () ∧ config.profile = profile ∧
      (config.profileBound = false → config.profile = .medium) ∧
      slice bytes 43 1 = [if config.profileBound then 1 else 0] ∧
      slice bytes 44 2 = bigEndian 2 config.minPadding ∧
      slice bytes 46 2 = bigEndian 2 config.maxPadding ∧
      slice bytes 48 15 = selectionBytes config.selection ∧
      slice bytes 63 9 = paddingBudgetBytes config.paddingBudget := by
  have hwidth : ∀ offset, offset + 2 ≤ 127 →
      (slice bytes offset 2).length = 2 := by
    intro offset hoffset
    unfold offerBytes at hlength
    exact slice_length (by omega)
  have hnumber : ∀ offset number, offset + 2 ≤ 127 → number < 256 ^ 2 →
      (numberAt bytes offset 2 = number ↔
        slice bytes offset 2 = bigEndian 2 number) :=
    fun offset number hoffset hsmall =>
      ofBigEndian_eq_iff (hwidth offset hoffset) hsmall
  simp only [decodeConfig, PhantomOneConfig.new, PhantomOneConfig.withSelection,
    bind_eq_ok_iff, pure_eq_ok_iff]
  constructor
  · rintro ⟨_, ⟨⟨⟩, -, rfl⟩, bound, hbound, selection, hselection, _,
      ⟨⟨⟩, hvalid, rfl⟩, hbudget⟩
    obtain ⟨hflag, hprofile, hdefault, hsame⟩ :=
      (decodeBinding_eq_ok_iff hlength rfl rfl).mp hbound
    have hmin : bound.minPadding = numberAt bytes 44 2 := by rw [hsame]
    have hmax : bound.maxPadding = numberAt bytes 46 2 := by rw [hsame]
    have hnone : ({ bound with selection } : PhantomOneConfig).paddingBudget =
        none := by rw [hsame]
    obtain ⟨hbytes, hnext⟩ :=
      (decodePaddingBudget_eq_ok_iff hlength hnone).mp hbudget
    have hpadding := paddingFits_of_validate hvalid
    refine ⟨?_, ?_, ?_, ?_, ?_, ?_, ?_, hbytes⟩
    · rw [hnext]
      exact hvalid
    · rw [hnext]
      exact hprofile
    · rw [hnext]
      exact hdefault
    · rw [hnext]
      exact hflag
    · rw [hnext, ← hnumber 44 _ (by omega) hpadding.1]
      exact hmin.symm
    · rw [hnext, ← hnumber 46 _ (by omega) hpadding.2]
      exact hmax.symm
    · rw [hnext]
      exact (decodeSelection_eq_ok_iff hlength).mp hselection
  · rintro ⟨hvalid, hprofile, hdefault, hflag, hmin, hmax, hselection,
      hbudget⟩
    have hpadding := paddingFits_of_validate hvalid
    rw [← hnumber 44 _ (by omega) hpadding.1] at hmin
    rw [← hnumber 46 _ (by omega) hpadding.2] at hmax
    have hplain : (PhantomOneConfig.mk .medium (numberAt bytes 44 2)
        (numberAt bytes 46 2) false .firstFit none).validate = .ok () := by
      rw [hmin, hmax]
      simp only [PhantomOneConfig.validate, bind_eq_ok_iff, ensure_eq_ok_iff,
        exists_const] at hvalid ⊢
      exact ⟨rfl, hvalid.2⟩
    refine ⟨_, ⟨(), hplain, rfl⟩,
      { config with selection := .firstFit, paddingBudget := none }, ?_,
      config.selection, (decodeSelection_eq_ok_iff hlength).mpr hselection,
      { config with paddingBudget := none }, ⟨(), hvalid, rfl⟩, ?_⟩
    · refine (decodeBinding_eq_ok_iff hlength rfl rfl).mpr
        ⟨hflag, hprofile, hdefault, ?_⟩
      rw [hmin, hmax]
    · exact (decodePaddingBudget_eq_ok_iff hlength rfl).mpr ⟨hbudget, rfl⟩

end Fields

/-- The offers that a peer may make. -/
structure WellFormed (offer : EnvelopeOffer) : Prop where
  config : offer.config.validate = .ok ()
  unbound : offer.config.profileBound = false →
    offer.config.profile = .medium
  profiles : offer.supportedProfiles ≠ 0 ∧
    offer.supportedProfiles &&& ~~~profileMask = 0 ∧
    offer.supportedProfiles &&& profileBit offer.config.profile ≠ 0
  supported : [0, 1, 2, 3, 4, 5].forM
    (checkProfile offer.config offer.supportedProfiles) = .ok ()
  outbound : validatePathMtu offer.outboundFrameLimit.toNat = .ok ()
  inbound : validatePathMtu offer.inboundFrameLimit.toNat = .ok ()
  outboundBudget : offer.outboundBudget.validate = .ok ()
  inboundBudget : offer.inboundBudget.validate = .ok ()
  cover : validateCover offer.cover = .ok ()

theorem fromId_eq_some_iff {id : UInt8} {profile : ProfileTier} :
    ProfileTier.fromId id = some profile ↔ id = profile.id := by
  constructor
  · intro hid
    unfold ProfileTier.fromId at hid
    split_ifs at hid
    all_goals
      rw [Option.some.injEq] at hid
      rw [← hid]
      assumption
  · rintro rfl
    exact ProfileTier.fromId_id profile

/-- The fields of an encoded offer, one by one. -/
theorem slices_eq_iff {bytes : Bytes} {offer : EnvelopeOffer} :
    slices 0 offerWidths bytes = offer.encodedFields ↔
      slice bytes 0 9 = policyMagic ∧ slice bytes 9 32 = offer.binding.val ∧
      slice bytes 41 1 = [offer.config.profile.id] ∧
      slice bytes 42 1 = [offer.supportedProfiles] ∧
      slice bytes 43 1 = [if offer.config.profileBound then 1 else 0] ∧
      slice bytes 44 2 = bigEndian 2 offer.config.minPadding ∧
      slice bytes 46 2 = bigEndian 2 offer.config.maxPadding ∧
      slice bytes 48 15 = selectionBytes offer.config.selection ∧
      slice bytes 63 9 = paddingBudgetBytes offer.config.paddingBudget ∧
      slice bytes 72 2 = bigEndian 2 offer.outboundFrameLimit.toNat ∧
      slice bytes 74 2 = bigEndian 2 offer.inboundFrameLimit.toNat ∧
      slice bytes 76 16 = budgetBytes offer.outboundBudget ∧
      slice bytes 92 16 = budgetBytes offer.inboundBudget ∧
      slice bytes 108 19 = coverBytes offer.cover := by
  simp only [slices, offerWidths, encodedFields, List.cons.injEq,
    Nat.reduceAdd, Nat.zero_add, and_true]

/-- Decoding accepts exactly the encodings of the offers a peer may make. -/
theorem decode_eq_ok_iff {bytes : Bytes} {offer : EnvelopeOffer} :
    decode bytes = .ok offer ↔ offer.WellFormed ∧ bytes = offer.encode := by
  have hfields : bytes.length = offerBytes →
      (bytes = offer.encode ↔
        slices 0 offerWidths bytes = offer.encodedFields) := by
    intro hlength
    constructor
    · rintro rfl
      exact slices_encode offer
    · intro hslices
      rw [encode, ← hslices, flatten_slices (by rw [hlength]; rfl)]
  constructor
  · intro hdecode
    simp only [decode, bind_eq_ok_iff, ensure_eq_ok_iff, okOr_eq_ok_iff,
      exists_const, pure_eq_ok_iff, FixedBytes.ofBytes?_eq_some_iff] at hdecode
    obtain ⟨⟨hlength, hmagic⟩, profile, hprofile, hmask, config, hconfig, _,
      hout, _, hin, _, houtBudget, _, hinBudget, _, hsupported, cover, hcover,
      binding, hbinding, rfl⟩ := hdecode
    obtain ⟨hvalid, hsame, hunbound, hflag, hmin, hmax, hselection, hbudget⟩ :=
      (decodeConfig_eq_ok_iff hlength).mp hconfig
    obtain ⟨hcoverBytes, hcoverValid⟩ :=
      (decodeCover_eq_ok_iff hlength).mp hcover
    refine ⟨⟨hvalid, hunbound, ?_, hsupported, hout, hin, houtBudget,
      hinBudget, hcoverValid⟩, (hfields hlength).mpr (slices_eq_iff.mpr ?_)⟩
    · rw [hsame]
      exact hmask
    · unfold offerBytes at hlength
      refine ⟨hmagic, hbinding, ?_, (byteAt_eq_iff (by omega)).mp rfl, hflag,
        hmin, hmax, hselection, hbudget, (number16_eq_iff (by omega)).mp rfl,
        (number16_eq_iff (by omega)).mp rfl,
        (decodeBudget_eq_iff (by omega)).mp rfl,
        (decodeBudget_eq_iff (by omega)).mp rfl, hcoverBytes⟩
      rw [hsame]
      exact (byteAt_eq_iff (by omega)).mp (fromId_eq_some_iff.mp hprofile)
  · rintro ⟨⟨hvalid, hunbound, hmask, hsupported, hout, hin, houtBudget,
      hinBudget, hcoverValid⟩, hbytes⟩
    have hlength : bytes.length = offerBytes := by
      rw [hbytes, encode_length]
    obtain ⟨hmagic, hbinding, hprofile, hprofiles, hflag, hmin, hmax,
      hselection, hbudget, houtLimit, hinLimit, houtBytes, hinBytes,
      hcoverBytes⟩ := slices_eq_iff.mp ((hfields hlength).mp hbytes)
    have hconfig := (decodeConfig_eq_ok_iff hlength).mpr ⟨hvalid, rfl,
      hunbound, hflag, hmin, hmax, hselection, hbudget⟩
    have hcover := (decodeCover_eq_ok_iff hlength).mpr
      ⟨hcoverBytes, hcoverValid⟩
    have hwidth : bytes.length = 127 := hlength
    have hid : ProfileTier.fromId (byteAt bytes 41) =
        some offer.config.profile := fromId_eq_some_iff.mpr
      ((byteAt_eq_iff (by omega)).mpr hprofile)
    have hmaskByte : byteAt bytes 42 = offer.supportedProfiles :=
      (byteAt_eq_iff (by omega)).mpr hprofiles
    have hout16 : UInt16.ofNat (numberAt bytes 72 2) =
        offer.outboundFrameLimit := (number16_eq_iff (by omega)).mpr houtLimit
    have hin16 : UInt16.ofNat (numberAt bytes 74 2) =
        offer.inboundFrameLimit := (number16_eq_iff (by omega)).mpr hinLimit
    have hout128 : decodeBudget bytes 76 = offer.outboundBudget :=
      (decodeBudget_eq_iff (by omega)).mpr houtBytes
    have hin128 : decodeBudget bytes 92 = offer.inboundBudget :=
      (decodeBudget_eq_iff (by omega)).mpr hinBytes
    simp only [decode, bind_eq_ok_iff, ensure_eq_ok_iff, okOr_eq_ok_iff,
      exists_const, pure_eq_ok_iff, FixedBytes.ofBytes?_eq_some_iff, hmaskByte,
      hout16, hin16, hout128, hin128]
    exact ⟨⟨hlength, hmagic⟩, _, hid, hmask, _, hconfig, _, hout, _, hin, _,
      houtBudget, _, hinBudget, _, hsupported, _, hcover, _, hbinding, rfl⟩

/-- The configuration can be used with every profile of the set. -/
def SupportsAll (config : PhantomOneConfig) (mask : UInt8) : Prop :=
  ∀ profile, mask &&& profileBit profile ≠ 0 →
    ∃ selected, profileConfig config profile = .ok selected

theorem checkProfile_eq_ok_iff {config : PhantomOneConfig} {mask : UInt8}
    (profile : ProfileTier) :
    checkProfile config mask profile.id = .ok () ↔
      (mask &&& profileBit profile ≠ 0 →
        ∃ selected, profileConfig config profile = .ok selected) := by
  have hbit : (1 : UInt8) <<< profile.id = profileBit profile := rfl
  rw [checkProfile, hbit]
  by_cases hmember : mask &&& profileBit profile ≠ 0
  · rw [if_pos hmember]
    simp only [bind_eq_ok_iff, okOr_eq_ok_iff, ProfileTier.fromId_id,
      Option.some.injEq, exists_eq_left', pure, Except.pure, hmember,
      forall_const, ne_eq, not_false_eq_true, and_true]
  · rw [if_neg hmember]
    simp only [hmember, false_implies]

theorem forM_checkProfile_iff {config : PhantomOneConfig} {mask : UInt8} :
    [0, 1, 2, 3, 4, 5].forM (checkProfile config mask) = .ok () ↔
      SupportsAll config mask := by
  have hall : SupportsAll config mask ↔
      checkProfile config mask 0 = .ok () ∧
      checkProfile config mask 1 = .ok () ∧
      checkProfile config mask 2 = .ok () ∧
      checkProfile config mask 3 = .ok () ∧
      checkProfile config mask 4 = .ok () ∧
      checkProfile config mask 5 = .ok () := by
    constructor
    · intro hsupports
      exact ⟨(checkProfile_eq_ok_iff .low).mpr (hsupports _),
        (checkProfile_eq_ok_iff .medium).mpr (hsupports _),
        (checkProfile_eq_ok_iff .high).mpr (hsupports _),
        (checkProfile_eq_ok_iff .tunedLow).mpr (hsupports _),
        (checkProfile_eq_ok_iff .tunedMedium).mpr (hsupports _),
        (checkProfile_eq_ok_iff .tunedHigh).mpr (hsupports _)⟩
    · rintro ⟨hlow, hmedium, hhigh, htunedLow, htunedMedium, htunedHigh⟩
        profile
      cases profile with
      | low => exact (checkProfile_eq_ok_iff .low).mp hlow
      | medium => exact (checkProfile_eq_ok_iff .medium).mp hmedium
      | high => exact (checkProfile_eq_ok_iff .high).mp hhigh
      | tunedLow => exact (checkProfile_eq_ok_iff .tunedLow).mp htunedLow
      | tunedMedium =>
          exact (checkProfile_eq_ok_iff .tunedMedium).mp htunedMedium
      | tunedHigh => exact (checkProfile_eq_ok_iff .tunedHigh).mp htunedHigh
  rw [hall]
  simp [List.forM_cons, bind_eq_ok_iff, pure, Except.pure,
    Unique.exists_iff]

/-- Only a profile's own bit meets it. -/
theorem profileBit_and_ne_zero_iff {left right : ProfileTier} :
    profileBit left &&& profileBit right ≠ 0 ↔ left = right := by
  cases left <;> cases right <;> decide

theorem profileBit_mask (profile : ProfileTier) :
    profileBit profile &&& ~~~profileMask = 0 := by
  cases profile <;> decide

theorem or_and_eq_zero_iff {left right mask : UInt8} :
    (left ||| right) &&& mask = 0 ↔ left &&& mask = 0 ∧ right &&& mask = 0 := by
  simp only [← UInt8.toBitVec_inj, UInt8.toBitVec_and, UInt8.toBitVec_or,
    UInt8.toBitVec_zero, BitVec.and_or_distrib_right, BitVec.or_eq_zero_iff]

/-- What the sets that `with_supported_profiles` builds are like. -/
theorem foldlM_addProfile {config : PhantomOneConfig}
    {profiles : List ProfileTier} {mask next : UInt8}
    (hmask : mask &&& ~~~profileMask = 0) (hsupports : SupportsAll config mask)
    (hnext : profiles.foldlM (addProfile config) mask = .ok next) :
    next &&& ~~~profileMask = 0 ∧ SupportsAll config next := by
  induction profiles generalizing mask with
  | nil =>
      rw [List.foldlM_nil] at hnext
      cases hnext
      exact ⟨hmask, hsupports⟩
  | cons profile profiles ih =>
      simp only [List.foldlM_cons, bind_eq_ok_iff, addProfile, ensure_eq_ok_iff,
        exists_const, pure_eq_ok_iff] at hnext
      obtain ⟨_, ⟨-, selected, hselected, rfl⟩, hnext⟩ := hnext
      refine ih (or_and_eq_zero_iff.mpr ⟨hmask, profileBit_mask profile⟩) ?_
        hnext
      intro other hmember
      by_cases hold : mask &&& profileBit other = 0
      · have hother : profileBit profile &&& profileBit other ≠ 0 := by
          intro hzero
          exact hmember (or_and_eq_zero_iff.mpr ⟨hold, hzero⟩)
        rw [← profileBit_and_ne_zero_iff.mp hother]
        exact ⟨selected, hselected⟩
      · exact hsupports other hold

theorem profileConfig_self {config : PhantomOneConfig}
    (hvalid : config.validate = .ok ()) :
    profileConfig config config.profile = .ok config := by
  unfold profileConfig
  cases hbound : config.profileBound with
  | true =>
      have hsame : config.withProfile config.profile = config := by
        rw [PhantomOneConfig.withProfile, ← hbound]
      simp [hsame, hvalid, bind, Except.bind, pure, Except.pure]
  | false => simp [hvalid, bind, Except.bind, pure, Except.pure]

/-- The set of one profile. -/
theorem supportsAll_profileBit {config : PhantomOneConfig}
    (hvalid : config.validate = .ok ()) :
    SupportsAll config (profileBit config.profile) := by
  intro profile hmember
  rw [← profileBit_and_ne_zero_iff.mp hmember]
  exact ⟨config, profileConfig_self hvalid⟩

section Constructors

variable {offer next : EnvelopeOffer}

theorem new_wellFormed {transcriptHex : String} {config : PhantomOneConfig}
    {frameLimit : Nat}
    (hunbound : config.profileBound = false → config.profile = .medium)
    (hoffer : new transcriptHex config frameLimit = .ok offer) :
    offer.WellFormed := by
  simp only [new, bind_eq_ok_iff, pure_eq_ok_iff] at hoffer
  obtain ⟨binding, -, _, hlimit, ⟨⟩, hvalid, rfl⟩ := hoffer
  have hnarrow : (UInt16.ofNat frameLimit).toNat = frameLimit := by
    rw [validatePathMtu, ensure_eq_ok_iff] at hlimit
    unfold phantomOneMaxEnvelopeBytes at hlimit
    rw [UInt16.toNat_ofNat']
    omega
  have hbit : profileBit config.profile &&& profileBit config.profile ≠ 0 :=
    profileBit_and_ne_zero_iff.mpr rfl
  refine ⟨hvalid, hunbound, ⟨?_, profileBit_mask _, hbit⟩,
    forM_checkProfile_iff.mpr (supportsAll_profileBit hvalid), ?_, ?_, rfl,
    rfl, rfl⟩
  · intro hzero
    change profileBit config.profile = 0 at hzero
    rw [hzero] at hbit
    exact hbit rfl
  · change validatePathMtu (UInt16.ofNat frameLimit).toNat = _
    rw [hnarrow]
    exact hlimit
  · change validatePathMtu (UInt16.ofNat frameLimit).toNat = _
    rw [hnarrow]
    exact hlimit

theorem withSupportedProfiles_wellFormed {profiles : List ProfileTier}
    (hwell : offer.WellFormed)
    (hnext : offer.withSupportedProfiles profiles = .ok next) :
    next.WellFormed := by
  simp only [withSupportedProfiles, bind_eq_ok_iff, ensure_eq_ok_iff,
    exists_const, pure_eq_ok_iff] at hnext
  obtain ⟨-, mask, hmask, hpreferred, -, rfl⟩ := hnext
  have hempty : SupportsAll offer.config 0 := by
    intro profile hmember
    simp at hmember
  obtain ⟨hbits, hsupports⟩ := foldlM_addProfile (by decide) hempty hmask
  refine { hwell with
    profiles := ⟨?_, hbits, hpreferred⟩
    supported := forM_checkProfile_iff.mpr hsupports }
  intro hzero
  change mask = 0 at hzero
  rw [hzero] at hpreferred
  simp at hpreferred

theorem withDirectionalLimits_wellFormed {outbound inbound : Nat}
    (hwell : offer.WellFormed)
    (hnext : offer.withDirectionalLimits outbound inbound = .ok next) :
    next.WellFormed := by
  simp only [withDirectionalLimits, bind_eq_ok_iff, ensure_eq_ok_iff,
    exists_const, pure_eq_ok_iff] at hnext
  obtain ⟨_, hout, _, hin, houtShort, hinShort, rfl⟩ := hnext
  refine { hwell with outbound := ?_, inbound := ?_ }
  · change validatePathMtu (UInt16.ofNat outbound).toNat = _
    rw [UInt16.toNat_ofNat', Nat.mod_eq_of_lt houtShort]
    exact hout
  · change validatePathMtu (UInt16.ofNat inbound).toNat = _
    rw [UInt16.toNat_ofNat', Nat.mod_eq_of_lt hinShort]
    exact hin

theorem withDirectionalBudgets_wellFormed {outbound inbound : FrameBudget}
    (hwell : offer.WellFormed)
    (hnext : offer.withDirectionalBudgets outbound inbound = .ok next) :
    next.WellFormed := by
  simp only [withDirectionalBudgets, bind_eq_ok_iff, pure_eq_ok_iff] at hnext
  obtain ⟨_, hout, _, hin, rfl⟩ := hnext
  exact { hwell with outboundBudget := hout, inboundBudget := hin }

theorem withCover_wellFormed {cover : Option CoverPolicy}
    (hwell : offer.WellFormed) (hnext : offer.withCover cover = .ok next) :
    next.WellFormed := by
  simp only [withCover, bind_eq_ok_iff, pure_eq_ok_iff] at hnext
  obtain ⟨_, hcover, rfl⟩ := hnext
  exact { hwell with cover := hcover }

end Constructors

theorem minByKey_mem {mismatches : ProfileTier → Nat}
    {profiles : List ProfileTier} {profile : ProfileTier}
    (hprofile : minByKey mismatches profiles = some profile) :
    profile ∈ profiles := by
  induction profiles generalizing profile with
  | nil => cases hprofile
  | cons first rest ih =>
      rw [minByKey] at hprofile
      split at hprofile
      · cases hprofile
        exact List.mem_cons_self
      · rename_i other hother
        split at hprofile
        · cases hprofile
          exact List.mem_cons_of_mem _ (ih hother)
        · cases hprofile
          exact List.mem_cons_self

theorem minByKey_isSome {mismatches : ProfileTier → Nat}
    {profiles : List ProfileTier} (hprofiles : profiles ≠ []) :
    ∃ profile, minByKey mismatches profiles = some profile := by
  obtain ⟨first, rest, rfl⟩ := List.exists_cons_of_ne_nil hprofiles
  rw [minByKey]
  split
  · exact ⟨_, rfl⟩
  · split
    · exact ⟨_, rfl⟩
    · exact ⟨_, rfl⟩

/-- The profiles that a set has. -/
theorem mem_filterMap_fromId {mask : UInt8} {profile : ProfileTier} :
    profile ∈ (([0, 1, 2, 3, 4, 5].filter fun id : UInt8 =>
      mask &&& (1 <<< id) ≠ 0).filterMap ProfileTier.fromId) ↔
      mask &&& profileBit profile ≠ 0 := by
  have hlisted : profile.id ∈ ([0, 1, 2, 3, 4, 5] : List UInt8) := by
    cases profile <;> decide
  have hbit : (1 : UInt8) <<< profile.id = profileBit profile := rfl
  simp only [List.mem_filterMap, List.mem_filter, decide_eq_true_eq]
  constructor
  · rintro ⟨id, ⟨-, hmember⟩, hid⟩
    rw [fromId_eq_some_iff.mp hid] at hmember
    exact hmember
  · intro hmember
    exact ⟨profile.id, ⟨hlisted, hmember⟩, ProfileTier.fromId_id profile⟩

/-- The profile that is selected is one of the common ones. -/
theorem selectProfile_mem {common : UInt8} {left right profile : ProfileTier}
    (hselect : selectProfile common left right = some profile) :
    common &&& profileBit profile ≠ 0 :=
  mem_filterMap_fromId.mp (minByKey_mem hselect)

theorem selectProfile_isSome {common : UInt8} {left right : ProfileTier}
    (hleft : common &&& profileBit left ≠ 0) :
    ∃ profile, selectProfile common left right = some profile := by
  apply minByKey_isSome
  exact List.ne_nil_of_mem (mem_filterMap_fromId.mpr hleft)

/-- An offer that a peer may make agrees with itself. -/
theorem negotiate_self {offer : EnvelopeOffer} (hwell : offer.WellFormed) :
    ∃ policy, offer.negotiate offer = .ok policy := by
  have hcommon : offer.supportedProfiles &&& offer.supportedProfiles =
      offer.supportedProfiles := UInt8.and_self
  obtain ⟨-, -, hpreferred⟩ := hwell.profiles
  obtain ⟨profile, hprofile⟩ : ∃ profile, selectProfile
      offer.supportedProfiles offer.config.profile offer.config.profile =
        some profile := selectProfile_isSome hpreferred
  obtain ⟨config, hconfig⟩ := forM_checkProfile_iff.mp hwell.supported profile
    (selectProfile_mem hprofile)
  have hsame : samePolicySettings offer.config offer.config = true :=
    samePolicySettings_iff.mpr ⟨rfl, rfl, rfl, rfl, rfl⟩
  rw [← hcommon] at hprofile
  exact ⟨_, negotiate_eq_ok_iff.mpr ⟨⟨rfl, hsame, rfl⟩, profile, hprofile,
    config, hconfig, ⟨config, hconfig⟩, rfl⟩⟩

end EnvelopeOffer

namespace PhantomOneConfig

def default : PhantomOneConfig :=
  { profile := .medium, minPadding := 0, maxPadding := 64
    profileBound := false, selection := .firstFit, paddingBudget := none }

/-- The configurations that the constructors make.  The fields of a
configuration are private. -/
inductive Composed : PhantomOneConfig → Prop
  | new {minPadding maxPadding : Nat} {config : PhantomOneConfig} :
      new minPadding maxPadding = .ok config → Composed config
  | default : Composed default
  | forProfile (profile : ProfileTier) : Composed (forProfile profile)
  | withProfile {config : PhantomOneConfig} (profile : ProfileTier) :
      Composed config → Composed (config.withProfile profile)
  | withSelection {config next : PhantomOneConfig}
      {selection : SizeSelection} : Composed config →
      config.withSelection selection = .ok next → Composed next
  | withPaddingBudget {config : PhantomOneConfig} (bytes : UInt64) :
      Composed config → Composed (config.withPaddingBudget bytes)

/-- A configuration without a bound profile has the default one. -/
theorem Composed.medium {config : PhantomOneConfig}
    (hcomposed : config.Composed) (hunbound : config.profileBound = false) :
    config.profile = .medium := by
  induction hcomposed with
  | new hnew =>
      simp only [PhantomOneConfig.new, bind_eq_ok_iff, pure_eq_ok_iff] at hnew
      obtain ⟨_, -, rfl⟩ := hnew
      rfl
  | default => rfl
  | forProfile profile => cases hunbound
  | withProfile profile _ _ => cases hunbound
  | withSelection _ hnext ih =>
      simp only [PhantomOneConfig.withSelection, bind_eq_ok_iff, pure_eq_ok_iff]
        at hnext
      obtain ⟨_, -, rfl⟩ := hnext
      exact ih hunbound
  | withPaddingBudget bytes _ ih => exact ih hunbound

end PhantomOneConfig

namespace EnvelopeOffer

/-- The offers that `new` and the calls after it make. -/
inductive Composed : EnvelopeOffer → Prop
  | new {transcriptHex : String} {config : PhantomOneConfig}
      {frameLimit : Nat} {offer : EnvelopeOffer} : config.Composed →
      new transcriptHex config frameLimit = .ok offer → Composed offer
  | withSupportedProfiles {offer next : EnvelopeOffer}
      {profiles : List ProfileTier} : Composed offer →
      offer.withSupportedProfiles profiles = .ok next → Composed next
  | withDirectionalLimits {offer next : EnvelopeOffer}
      {outbound inbound : Nat} : Composed offer →
      offer.withDirectionalLimits outbound inbound = .ok next → Composed next
  | withDirectionalBudgets {offer next : EnvelopeOffer}
      {outbound inbound : FrameBudget} : Composed offer →
      offer.withDirectionalBudgets outbound inbound = .ok next → Composed next
  | withCover {offer next : EnvelopeOffer} {cover : Option CoverPolicy} :
      Composed offer → offer.withCover cover = .ok next → Composed next

theorem Composed.wellFormed {offer : EnvelopeOffer}
    (hcomposed : offer.Composed) : offer.WellFormed := by
  induction hcomposed with
  | new hconfig hnew => exact new_wellFormed hconfig.medium hnew
  | withSupportedProfiles _ hnext ih =>
      exact withSupportedProfiles_wellFormed ih hnext
  | withDirectionalLimits _ hnext ih =>
      exact withDirectionalLimits_wellFormed ih hnext
  | withDirectionalBudgets _ hnext ih =>
      exact withDirectionalBudgets_wellFormed ih hnext
  | withCover _ hnext ih => exact withCover_wellFormed ih hnext

/-- The offers that are made decode from their encodings, and each byte string
that decodes is the encoding of an offer that can be negotiated. -/
theorem offer_codec_canonical :
    (∀ offer : EnvelopeOffer, offer.Composed →
      decode offer.encode = .ok offer) ∧
    (∀ (bytes : Bytes) (offer : EnvelopeOffer), decode bytes = .ok offer →
      offer.encode = bytes ∧
        ∃ policy, offer.negotiate offer = .ok policy) ∧
    ∀ (left right : Bytes) (offer : EnvelopeOffer),
      decode left = .ok offer → decode right = .ok offer → left = right := by
  refine ⟨?_, ?_, ?_⟩
  · intro offer hcomposed
    exact decode_eq_ok_iff.mpr ⟨hcomposed.wellFormed, rfl⟩
  · intro bytes offer hdecode
    obtain ⟨hwell, hbytes⟩ := decode_eq_ok_iff.mp hdecode
    exact ⟨hbytes.symm, negotiate_self hwell⟩
  · intro left right offer hleft hright
    obtain ⟨-, hleft⟩ := decode_eq_ok_iff.mp hleft
    obtain ⟨-, hright⟩ := decode_eq_ok_iff.mp hright
    rw [hleft, hright]

end EnvelopeOffer

namespace EnvelopeWitness

open EnvelopeOffer

/-- The cover policy of the offer. -/
def coverPolicy : CoverPolicy := ⟨1000, 60000, 4096, 10⟩

/-- The offer with one limit, with cover added. -/
def coveredOffer : EnvelopeOffer :=
  { offerOf 1360 with cover := some coverPolicy }

theorem coveredOffer_composed : coveredOffer.Composed := by
  have hconfig : config.Composed :=
    .new (show PhantomOneConfig.new 0 0 = .ok config by decide)
  have hplain : (offerOf 1360).Composed :=
    .new hconfig (new_offerOf (by decide))
  have hcover : (offerOf 1360).withCover (some coverPolicy) =
      .ok coveredOffer := by decide
  exact .withCover hplain hcover

/-- An offer with cover decodes from its encoding and agrees with itself. -/
theorem offer_codec_canonical_covered :
    coveredOffer.Composed ∧
      decode coveredOffer.encode = .ok coveredOffer ∧
      ∃ policy, coveredOffer.negotiate coveredOffer = .ok policy := by
  have hdecode := offer_codec_canonical.1 _ coveredOffer_composed
  exact ⟨coveredOffer_composed, hdecode,
    (offer_codec_canonical.2.1 _ _ hdecode).2⟩

end EnvelopeWitness

end Shph
