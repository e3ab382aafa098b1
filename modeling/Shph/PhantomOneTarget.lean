/-
The two functions that agree on the size of a frame.  One chooses a size, the
other checks a size it is given and derives the bounds anew; every size that
is chosen passes the check, so that only the choice can refuse a payload.
-/
import Shph.PhantomOneSession

namespace Shph

open ByteCodec

/-- A sample below the weight of the eligible tiers picks one of them. -/
theorem pickWeighted_of_lt {bounds : TargetBounds} {classes : List (Nat × Nat)}
    {sample : Nat}
    (hsample : sample < ((classes.filter fun entry =>
      bounds.contains entry.1).map Prod.snd).sum) :
    ∃ tier weight, pickWeighted bounds classes sample = some tier ∧
      (tier, weight) ∈ classes ∧ bounds.contains tier = true := by
  induction classes generalizing sample with
  | nil => simp at hsample
  | cons entry rest ih =>
      obtain ⟨tier, weight⟩ := entry
      by_cases hcontains : bounds.contains tier = true
      · rw [List.filter_cons, if_pos hcontains, List.map_cons,
          List.sum_cons] at hsample
        by_cases hlight : sample < weight
        · exact ⟨tier, weight, by simp [pickWeighted, hcontains, hlight],
            List.mem_cons_self, hcontains⟩
        · have hrest : sample - weight < ((rest.filter fun entry =>
              bounds.contains entry.1).map Prod.snd).sum := by omega
          obtain ⟨picked, heavy, hpick, hmem, hfits⟩ := ih hrest
          exact ⟨picked, heavy, by simp [pickWeighted, hcontains, hlight, hpick],
            List.mem_cons_of_mem _ hmem, hfits⟩
      · rw [List.filter_cons, if_neg hcontains] at hsample
        obtain ⟨picked, heavy, hpick, hmem, hfits⟩ := ih hsample
        exact ⟨picked, heavy, by simp [pickWeighted, hcontains, hpick],
          List.mem_cons_of_mem _ hmem, hfits⟩

/-- Every error that the computation may return is of this kind. -/
def FailsWith {α : Type} (kind : ShphError → Prop)
    (computation : Except ShphError α) : Prop :=
  ∀ error, computation = .error error → kind error

section FailsWith

variable {α β : Type} {kind : ShphError → Prop}

theorem failsWith_ok (value : α) : FailsWith kind (.ok value) := by
  intro error herror
  cases herror

theorem failsWith_ensure {condition : Prop} [Decidable condition]
    {error : ShphError} (hkind : kind error) :
    FailsWith kind (ensure condition error) := by
  intro other hother
  unfold ensure at hother
  split at hother
  · cases hother
  · cases hother
    exact hkind

theorem failsWith_okOr {value : Option α} {error : ShphError}
    (hkind : kind error) : FailsWith kind (okOr value error) := by
  intro other hother
  cases value with
  | some value => cases hother
  | none =>
      cases hother
      exact hkind

theorem failsWith_bind {first : Except ShphError α}
    {rest : α → Except ShphError β} (hfirst : FailsWith kind first)
    (hrest : ∀ value, FailsWith kind (rest value)) :
    FailsWith kind (first >>= rest) := by
  intro error herror
  cases first with
  | error other =>
      cases herror
      exact hfirst error rfl
  | ok value => exact hrest value error herror

end FailsWith

namespace PhantomOneEncoder

variable {rng : Rng}

theorem jitterBound_canonical {profile : ProfileTier} {jitter : Nat}
    (hjitter : jitter ≤ jitterBound profile) :
    jitter ≤ profileJitterBound profile ∧
      (jitter ≠ 0 → profile = .low ∨ profile = .tunedLow) := by
  unfold jitterBound at hjitter
  unfold profileJitterBound ProfileTier.lowJitterBytes
  cases profile <;> simp_all

theorem validate_failsWith (config : PhantomOneConfig) :
    FailsWith (fun error => ∀ text, error ≠ .internal text)
      config.validate := by
  unfold PhantomOneConfig.validate
  refine failsWith_bind (failsWith_ensure (by simp)) fun _ => ?_
  exact failsWith_bind (failsWith_ensure (by simp)) fun _ =>
    failsWith_ensure (by simp)

/-- No check of the bounds fails with an internal error. -/
theorem targetBounds_failsWith (encoder : PhantomOneEncoder rng)
    (payloadLen pathMtu : Nat) :
    FailsWith (fun error => ∀ text, error ≠ .internal text)
      (encoder.targetBounds payloadLen pathMtu) := by
  unfold targetBounds
  refine failsWith_bind (validate_failsWith encoder.config) fun _ => ?_
  refine failsWith_bind (failsWith_ensure (by simp)) fun _ => ?_
  refine failsWith_bind (failsWith_ensure (by simp)) fun _ => ?_
  refine failsWith_bind (failsWith_ensure (by simp)) fun _ => ?_
  refine failsWith_bind (failsWith_okOr (by simp)) fun _ => ?_
  refine failsWith_bind (failsWith_okOr (by simp)) fun _ => ?_
  refine failsWith_bind (failsWith_ensure (by simp)) fun _ => ?_
  refine failsWith_bind (failsWith_okOr (by simp)) fun _ => ?_
  exact failsWith_bind (failsWith_ensure (by simp)) fun _ => failsWith_ok _

/-- What a chosen size is good for. -/
structure Chosen (encoder : PhantomOneEncoder rng)
    (payloadLen pathMtu target : Nat) : Prop where
  valid : encoder.config.validate = .ok ()
  path : phantomOneHeaderBytes ≤ pathMtu ∧ pathMtu ≤ phantomOneMaxEnvelopeBytes
  payload_le : payloadLen ≤ phantomOneMaxPayloadBytes
  sequence : encoder.nextSequence.isSome = true
  least : phantomOneHeaderBytes + payloadLen + encoder.config.minPadding ≤
    target
  padded : target ≤
    phantomOneHeaderBytes + payloadLen + encoder.config.maxPadding
  budget : target ≤
    phantomOneHeaderBytes + payloadLen + encoder.remainingPadding
  fits : target ≤ pathMtu
  canonical : encoder.config.profileBound = true →
    encoder.config.profile.acceptsFrameLen target = true

section Choice

variable {encoder : PhantomOneEncoder rng} {payloadLen pathMtu : Nat}
  {bounds : TargetBounds}

/-- Every size within the bounds will do, if it is canonical where it must
be. -/
theorem chosen_of_contains
    (hbounds : encoder.targetBounds payloadLen pathMtu = .ok bounds)
    {target : Nat} (hcontains : bounds.minimum ≤ target ∧
      target ≤ bounds.maximum)
    (hcanonical : encoder.config.profileBound = true →
      encoder.config.profile.acceptsFrameLen target = true) :
    Chosen encoder payloadLen pathMtu target := by
  simp only [targetBounds, validatePathMtu, validatePayloadLength,
    bind_eq_ok_iff, ensure_eq_ok_iff, okOr_eq_ok_iff, checkedAdd_eq_some_iff,
    exists_const, pure_eq_ok_iff] at hbounds
  obtain ⟨⟨⟩, hvalid, hpath, hpayload, hsequence, _, ⟨-, rfl⟩, _, ⟨-, rfl⟩, -,
    _, ⟨-, rfl⟩, -, rfl⟩ := hbounds
  dsimp only at hcontains
  exact ⟨hvalid, hpath, hpayload.1, hsequence, by omega, by omega, by omega,
    by omega, hcanonical⟩

theorem acceptsFrameLen_tier {profile : ProfileTier} {tier : Nat}
    (htier : tier ∈ profile.baseTiers) :
    profile.acceptsFrameLen tier = true :=
  ProfileTier.acceptsFrameLen_base htier ⟨Nat.zero_le _, by simp⟩

/-- The weighted choice finds a tier whenever some weight is eligible. -/
theorem selectWeighted_chosen (weights : Vector UInt16 7)
    (hbounds : encoder.targetBounds payloadLen pathMtu = .ok bounds) :
    (∃ target next, selectWeighted weights bounds encoder =
        (.ok target, next) ∧ Chosen encoder payloadLen pathMtu target) ∨
      selectWeighted weights bounds encoder = (.error (.protocol
        "no weighted Phantom One class fits the remaining budget"),
        encoder) := by
  generalize hclasses : encoder.config.profile.baseTiers.zip
    (weights.toList.map UInt16.toNat) = classes
  generalize htotal : ((classes.filter fun entry =>
    bounds.contains entry.1).map Prod.snd).sum = total
  by_cases hzero : total = 0
  · refine Or.inr ?_
    simp only [selectWeighted, hclasses, htotal, if_pos hzero]
  · have hsample : (rng.genRange encoder.rngState 0 (total - 1)).1 ≤
        total - 1 := (rng.genRange_mem (Nat.zero_le _)).2
    obtain ⟨tier, weight, hpick, hmem, hcontains⟩ := pickWeighted_of_lt
      (show (rng.genRange encoder.rngState 0 (total - 1)).1 <
        ((classes.filter fun entry =>
          bounds.contains entry.1).map Prod.snd).sum by omega)
    rw [← hclasses] at hmem
    refine Or.inl ⟨tier, { encoder with
      rngState := (rng.genRange encoder.rngState 0 (total - 1)).2 }, ?_, ?_⟩
    · simp only [selectWeighted, hclasses, htotal, if_neg hzero, hpick]
    · refine chosen_of_contains hbounds ?_ fun _ =>
        acceptsFrameLen_tier (List.of_mem_zip hmem).1
      simpa [TargetBounds.contains] using hcontains

theorem selectFirstFit_chosen
    (hbounds : encoder.targetBounds payloadLen pathMtu = .ok bounds) :
    (∃ target next, selectFirstFit bounds encoder = (.ok target, next) ∧
        Chosen encoder payloadLen pathMtu target) ∨
      selectFirstFit bounds encoder = (.error (.protocol
        ("Phantom One payload does not fit the selected " ++
          "profile's canonical size classes")), encoder) := by
  unfold selectFirstFit
  cases hfind : encoder.config.profile.baseTiers.find? bounds.contains with
  | some base =>
      have hbase := List.mem_of_find?_eq_some hfind
      have hcontains := List.find?_some hfind
      simp only [TargetBounds.contains, decide_eq_true_eq] at hcontains
      generalize havailable : min (jitterBound encoder.config.profile)
        (bounds.maximum - base) = available
      simp only [havailable]
      by_cases hzero : available = 0
      · exact Or.inl ⟨base, encoder, if_pos hzero, chosen_of_contains hbounds
          hcontains fun _ => acceptsFrameLen_tier hbase⟩
      · have hjitter : (rng.genRange encoder.rngState 0 available).1 ≤
            available := (rng.genRange_mem (Nat.zero_le available)).2
        refine Or.inl ⟨base + (rng.genRange encoder.rngState 0 available).1,
          _, if_neg hzero, chosen_of_contains hbounds (by omega) fun _ => ?_⟩
        exact ProfileTier.acceptsFrameLen_base hbase
          (jitterBound_canonical (by omega))
  | none =>
      dsimp only
      by_cases hbound : encoder.config.profileBound = true
      · exact Or.inr (if_pos hbound)
      · have hroom : bounds.minimum ≤ bounds.maximum := by
          simp only [targetBounds, bind_eq_ok_iff, ensure_eq_ok_iff,
            exists_const, pure_eq_ok_iff] at hbounds
          obtain ⟨_, -, _, -, _, -, -, _, -, _, -, -, _, -, hroom, rfl⟩ :=
            hbounds
          exact hroom
        refine Or.inl ⟨(rng.genRange encoder.rngState bounds.minimum
          bounds.maximum).1, _, if_neg hbound, chosen_of_contains hbounds
          (rng.genRange_mem hroom) fun h => absurd h hbound⟩

/-- Whatever `target_size` returns: a size that will do, or an error that
leaves the encoder alone. -/
theorem targetSize_cases (encoder : PhantomOneEncoder rng)
    (payloadLen pathMtu : Nat) :
    (∃ target next, encoder.targetSize payloadLen pathMtu =
        (.ok target, next) ∧ Chosen encoder payloadLen pathMtu target) ∨
      ∃ error, encoder.targetSize payloadLen pathMtu =
        (.error error, encoder) ∧ ∀ text, error ≠ .internal text := by
  unfold targetSize
  cases hbounds : encoder.targetBounds payloadLen pathMtu with
  | error error =>
      exact Or.inr ⟨error, rfl, targetBounds_failsWith encoder payloadLen
        pathMtu error hbounds⟩
  | ok bounds =>
      cases hselection : encoder.config.selection with
      | firstFit =>
          rcases selectFirstFit_chosen hbounds with hchosen | hrefused
          · exact Or.inl hchosen
          · exact Or.inr ⟨_, hrefused, by simp⟩
      | weighted weights =>
          rcases selectWeighted_chosen weights hbounds with hchosen | hrefused
          · exact Or.inl hchosen
          · exact Or.inr ⟨_, hrefused, by simp⟩

end Choice

/-- The check of a size that was chosen passes. -/
theorem checkTarget_of_chosen {encoder : PhantomOneEncoder rng}
    {payload : Bytes} {pathMtu target : Nat}
    (hchosen : Chosen encoder payload.length pathMtu target) :
    ∃ sequence, encoder.nextSequence = some sequence ∧
      encoder.checkTarget payload target pathMtu =
        .ok (sequence, target - (phantomOneHeaderBytes + payload.length)) := by
  obtain ⟨hvalid, hpath, hpayload, hsequence, hleast, hpadded, hbudget, hfits,
    hcanonical⟩ := hchosen
  obtain ⟨sequence, hnext⟩ := Option.isSome_iff_exists.mp hsequence
  refine ⟨sequence, hnext, ?_⟩
  simp only [checkTarget, hvalid, validatePathMtu, validatePayloadLength,
    bind_eq_ok_iff, ensure_eq_ok_iff, okOr_eq_ok_iff, checkedAdd_eq_some_iff,
    exists_const, pure_eq_ok_iff, hnext]
  unfold phantomOneMaxPayloadBytes phantomOneMaxEnvelopeBytes at *
  unfold phantomOneHeaderBytes u64Max at *
  exact ⟨trivial, by omega, by omega, sequence, rfl, _, ⟨by omega, rfl⟩,
    by omega, by omega, hcanonical, by omega, by omega, rfl⟩

theorem Chosen.same {encoder next : PhantomOneEncoder rng}
    {payloadLen pathMtu target : Nat}
    (hchosen : Chosen encoder payloadLen pathMtu target)
    (hsame : SameSession next encoder) :
    Chosen next payloadLen pathMtu target := by
  obtain ⟨hvalid, hpath, hpayload, hsequence, hleast, hpadded, hbudget, hfits,
    hcanonical⟩ := hchosen
  have hremaining : next.remainingPadding = encoder.remainingPadding := by
    simp only [remainingPadding, hsame.config, hsame.metrics]
  rw [← hsame.config] at hvalid hleast hpadded hcanonical
  rw [← hsame.nextSequence] at hsequence
  rw [← hremaining] at hbudget
  exact ⟨hvalid, hpath, hpayload, hsequence, hleast, hpadded, hbudget, hfits,
    hcanonical⟩


/-- With a working generator, only the choice of a size can refuse a frame. -/
theorem encodeWithTarget_of_chosen {encoder : PhantomOneEncoder rng}
    (hrng : rng.Infallible) (frameType : PhantomOneFrameType)
    {payload : Bytes} {pathMtu target : Nat}
    (hchosen : Chosen encoder payload.length pathMtu target) :
    ∃ envelope next, encoder.encodeWithTarget frameType payload target
      pathMtu = (.ok envelope, next) := by
  obtain ⟨sequence, -, hcheck⟩ := checkTarget_of_chosen hchosen
  unfold encodeWithTarget
  rw [hcheck]
  rcases hfill : rng.tryFillBytes encoder.rngState
    (target - (phantomOneHeaderBytes + payload.length)) with ⟨_ | padding, next⟩
  · exact absurd hfill (fun h => hrng.fills h)
  · exact ⟨_, _, by simp only [hfill]; rfl⟩

/-- Every size that `target_size` returns is within all bounds and is the length
of the envelope that is encoded, so that a frame is refused exactly when no size is found; the weighted choice
always finds one of the tiers it counted; and a refused frame costs neither a
sequence number nor anything in the counters. -/
theorem encode_exact (hrng : rng.Infallible) (encoder : PhantomOneEncoder rng)
    (pathMtu : Nat) :
    (∀ frameType payload target next,
      encoder.targetSize payload.length pathMtu = (.ok target, next) →
        (∃ envelope after, next.encodeWithTarget frameType payload target
          pathMtu = (.ok envelope, after) ∧ envelope.length = target) ∧
        target ≤ pathMtu ∧
        (∃ padding, target = phantomOneHeaderBytes + payload.length + padding ∧
          encoder.config.minPadding ≤ padding ∧
          padding ≤ encoder.config.maxPadding ∧
          padding ≤ encoder.remainingPadding) ∧
        (encoder.config.profileBound = true →
          encoder.config.profile.acceptsFrameLen target = true)) ∧
    (∀ frameType payload,
      (∃ error after, encoder.encode frameType payload pathMtu =
        (.error error, after)) ↔
      ∃ error after, encoder.targetSize payload.length pathMtu =
        (.error error, after)) ∧
    (∀ payloadLen text, (encoder.targetSize payloadLen pathMtu).1 ≠
      .error (.internal text)) ∧
    ∀ frameType payload error after,
      (encoder.encode frameType payload pathMtu = (.error error, after) ∨
        ∃ target, encoder.encodeWithTarget frameType payload target pathMtu =
          (.error error, after)) →
      after.nextSequence = encoder.nextSequence ∧
        after.metrics = encoder.metrics := by
  have hencoded : ∀ frameType payload target next,
      encoder.targetSize payload.length pathMtu = (.ok target, next) →
        Chosen encoder payload.length pathMtu target ∧
        ∃ envelope after, next.encodeWithTarget frameType payload target
          pathMtu = (.ok envelope, after) := by
    intro frameType payload target next hsize
    have hsame := encoder.targetSize_same payload.length pathMtu
    rcases encoder.targetSize_cases payload.length pathMtu with
      ⟨chosen, sized, hcase, hchosen⟩ | ⟨error, hcase, -⟩
    · rw [hcase] at hsize hsame
      cases hsize
      exact ⟨hchosen, encodeWithTarget_of_chosen hrng frameType
        (hchosen.same hsame)⟩
    · rw [hcase] at hsize
      cases hsize
  refine ⟨?_, ?_, ?_, ?_⟩
  · intro frameType payload target next hsize
    obtain ⟨hchosen, hresult⟩ := hencoded frameType payload target next hsize
    obtain ⟨-, -, -, -, hleast, hpadded, hbudget, hfits, hcanonical⟩ := hchosen
    obtain ⟨envelope, after, hok⟩ := hresult
    exact ⟨⟨envelope, after, hok, (encodeWithTarget_length hok).1⟩, hfits,
      ⟨target - (phantomOneHeaderBytes + payload.length), by omega, by omega,
        by omega, by omega⟩, hcanonical⟩
  · intro frameType payload
    unfold encode
    rcases hsize : encoder.targetSize payload.length pathMtu with
      ⟨error | target, next⟩
    · simp
    · obtain ⟨-, envelope, after, hresult⟩ :=
        hencoded frameType payload target next hsize
      simp [hresult]
  · intro payloadLen text
    rcases encoder.targetSize_cases payloadLen pathMtu with
      ⟨target, next, hcase, -⟩ | ⟨error, hcase, hkind⟩
    · rw [hcase]
      simp
    · rw [hcase]
      simpa using hkind text
  · rintro frameType payload error after (hfailed | ⟨target, hfailed⟩)
    · rcases encoder.run_cases (.encode frameType payload pathMtu) with
        ⟨other, next, hcall, hsame⟩ | ⟨frame, next, hcall, -, -, -⟩
      · rw [EncodeCall.run, hfailed] at hcall
        cases hcall
        exact ⟨hsame.nextSequence, hsame.metrics⟩
      · rw [EncodeCall.run, hfailed] at hcall
        cases hcall
    · rcases encoder.encodeWithTarget_cases frameType payload target
        pathMtu with ⟨other, next, hcall, hsame⟩ | ⟨frame, next, hcall, -⟩
      · rw [hfailed] at hcall
        cases hcall
        exact ⟨hsame.nextSequence, hsame.metrics⟩
      · rw [hfailed] at hcall
        cases hcall

/-- The encoder of a fresh session. -/
def fresh : PhantomOneEncoder Rng.zeros :=
  fromValidatedConfig 0 0 (.forProfile .low) ()

theorem encode_exact_fresh :
    Rng.zeros.Infallible ∧ ∃ envelope after, fresh.encodeWithTarget .data
      [1, 2, 3] 128 1200 = (.ok envelope, after) ∧
        envelope.length = 128 := by
  have hrng : Rng.zeros.Infallible := fun _ _ => rfl
  exact ⟨hrng,
    ((encode_exact hrng fresh 1200).1 .data [1, 2, 3] 128 fresh rfl).1⟩

end PhantomOneEncoder

end Shph
