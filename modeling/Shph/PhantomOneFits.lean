/-
Which payloads an encoder of a profile takes.  A profile-bound configuration
asks for a canonical size that holds the header and the payload and that the
path and the padding bound allow; nothing else refuses a payload while the
sequence numbers last.
-/
import Shph.PhantomOneQuic
import Shph.PhantomOneTarget

namespace Shph

open ByteCodec

namespace PhantomOneEncoder

variable {rng : Rng}

/-- A canonical size of the profile that takes the payload on this path. -/
def HoldsPayload (profile : ProfileTier) (payloadLen pathMtu size : Nat) :
    Prop :=
  size ∈ profile.baseTiers ∧ phantomOneHeaderBytes + payloadLen ≤ size ∧
    size ≤ phantomOneHeaderBytes + payloadLen + phantomOneMaxPaddingBytes ∧
    size ≤ pathMtu

/-- The profile has a size for the payload. -/
def fitsProfile (profile : ProfileTier) (payloadLen pathMtu : Nat) : Bool :=
  profile.baseTiers.any fun size =>
    decide (phantomOneHeaderBytes + payloadLen ≤ size ∧
      size ≤ phantomOneHeaderBytes + payloadLen + phantomOneMaxPaddingBytes ∧
      size ≤ pathMtu)

theorem fitsProfile_iff {profile : ProfileTier} {payloadLen pathMtu : Nat} :
    fitsProfile profile payloadLen pathMtu = true ↔
      ∃ size, HoldsPayload profile payloadLen pathMtu size := by
  simp [fitsProfile, HoldsPayload]

theorem baseTiers_le {profile : ProfileTier} {size : Nat}
    (hsize : size ∈ profile.baseTiers) : size ≤ 1360 := by
  revert size
  cases profile <;> decide

theorem targetBounds_of_holds {encoder : PhantomOneEncoder rng}
    {profile : ProfileTier} {payloadLen pathMtu size : Nat}
    (hconfig : encoder.config = .forProfile profile)
    (hsequence : encoder.nextSequence.isSome = true)
    (hpath : pathMtu ≤ phantomOneMaxEnvelopeBytes)
    (hholds : HoldsPayload profile payloadLen pathMtu size) :
    encoder.targetBounds payloadLen pathMtu =
      .ok ⟨phantomOneHeaderBytes + payloadLen,
        min (phantomOneHeaderBytes + payloadLen + phantomOneMaxPaddingBytes)
          pathMtu⟩ := by
  obtain ⟨hmem, hleast, -, hmost⟩ := hholds
  have htier := baseTiers_le hmem
  have hvalid : encoder.config.validate = .ok () := by
    rw [hconfig]
    cases profile <;> rfl
  have hremaining : encoder.remainingPadding = u64Max := by
    simp [remainingPadding, hconfig, PhantomOneConfig.forProfile]
  have hbounds : encoder.config.minPadding = 0 ∧
      encoder.config.maxPadding = phantomOneMaxPaddingBytes := by
    rw [hconfig]
    exact ⟨rfl, rfl⟩
  simp only [targetBounds, hvalid, hremaining, hbounds, validatePathMtu,
    validatePayloadLength, bind_eq_ok_iff, ensure_eq_ok_iff, okOr_eq_ok_iff,
    checkedAdd_eq_some_iff, exists_const, hsequence, pure_eq_ok_iff,
    TargetBounds.mk.injEq]
  unfold phantomOneMaxPayloadBytes phantomOneMaxEnvelopeBytes at *
  unfold phantomOneHeaderBytes phantomOneMaxPaddingBytes u64Max at *
  refine ⟨trivial, by omega, by omega, trivial, _, ⟨by omega, rfl⟩, _,
    ⟨by omega, rfl⟩, by omega, _, ⟨by omega, rfl⟩, by omega, by omega, by omega⟩

/-- A payload that fits gets a size. -/
theorem targetSize_of_fits {encoder : PhantomOneEncoder rng}
    {profile : ProfileTier} {payloadLen pathMtu : Nat}
    (hconfig : encoder.config = .forProfile profile)
    (hsequence : encoder.nextSequence.isSome = true)
    (hpath : pathMtu ≤ phantomOneMaxEnvelopeBytes)
    (hfits : fitsProfile profile payloadLen pathMtu = true) :
    ∃ target next, encoder.targetSize payloadLen pathMtu = (.ok target, next) ∧
      Chosen encoder payloadLen pathMtu target := by
  obtain ⟨size, hholds⟩ := fitsProfile_iff.mp hfits
  have hbounds := targetBounds_of_holds hconfig hsequence hpath hholds
  obtain ⟨hmem, hleast, hpadded, hmost⟩ := hholds
  rcases encoder.targetSize_cases payloadLen pathMtu with
    hchosen | ⟨error, hrefused, -⟩
  · exact hchosen
  · have hselection : encoder.config.selection = .firstFit := by
      rw [hconfig]
      rfl
    have hprofile : encoder.config.profile = profile := by
      rw [hconfig]
      rfl
    simp only [targetSize, hbounds, hselection, selectFirstFit,
      hprofile] at hrefused
    split at hrefused
    · split at hrefused
      · cases hrefused
      · cases hrefused
    · rename_i hfind
      rw [List.find?_eq_none] at hfind
      refine absurd ?_ (hfind size hmem)
      simp only [TargetBounds.contains, decide_eq_true_eq]
      omega

/-- Nothing stops an encoder of the profile with a payload that fits, if its
generator works. -/
theorem encode_of_fits {encoder : PhantomOneEncoder rng}
    {profile : ProfileTier} (hrng : rng.Infallible)
    (hconfig : encoder.config = .forProfile profile)
    (hsequence : encoder.nextSequence.isSome = true)
    (frameType : PhantomOneFrameType) {payload : Bytes} {pathMtu : Nat}
    (hpath : pathMtu ≤ phantomOneMaxEnvelopeBytes)
    (hfits : fitsProfile profile payload.length pathMtu = true) :
    ∃ frame next, encoder.encode frameType payload pathMtu =
        (.ok (frame.bytes encoder.config encoder.generation), next) ∧
      frame.frameType = frameType ∧ frame.payload = payload ∧
      Emits encoder next frame ∧ frame.targetLen ≤ pathMtu := by
  obtain ⟨target, sized, hsize, hchosen⟩ :=
    targetSize_of_fits hconfig hsequence hpath hfits
  have hsame := encoder.targetSize_same payload.length pathMtu
  rw [hsize] at hsame
  obtain ⟨envelope, after, hencoded⟩ :=
    encodeWithTarget_of_chosen hrng frameType (hchosen.same hsame)
  rcases run_cases encoder (.encode frameType payload pathMtu) with
    ⟨error, next, herror, -⟩ | ⟨frame, next, hok, htype, hpayload, hemits⟩
  · simp only [EncodeCall.run, encode, hsize, hencoded] at herror
    cases herror
  · have hlength := encode_length_le hok
    rw [SentFrame.bytes_length] at hlength
    exact ⟨frame, next, hok, htype, hpayload, hemits, hlength⟩

end PhantomOneEncoder

namespace StandardsTun

variable {rng : Rng}

/-- A payload that fits is sealed, under the next number and the next nonce. -/
theorem seal_of_fits {sender : PhantomOneDatagramSender rng} {aead : Aead}
    {profile : ProfileTier}
    (haead : ∀ key nonce plaintext, plaintext.length ≤ 2 ^ 16 - 1 →
      (aead.encrypt key nonce plaintext).isSome = true)
    (hrng : rng.Infallible)
    (hconfig : sender.encoder.config = .forProfile profile)
    (hsequence : sender.encoder.nextSequence.isSome = true)
    (hnonce : sender.sendCipher.nonce < aeadNonceLimit)
    (frameType : PhantomOneFrameType) {payload : Bytes} {limit : Nat}
    (hlimit : limit ≤ phantomOneMaxEnvelopeBytes)
    (hfits : PhantomOneEncoder.fitsProfile profile payload.length limit =
      true) :
    ∃ ciphertext next, sender.seal aead frameType payload limit =
        (.ok ciphertext, next) ∧
      next.encoder.config = .forProfile profile ∧
      next.encoder.nextSequence =
        sender.encoder.nextSequence.bind (checkedAdd · 1) ∧
      next.sendCipher.nonce = sender.sendCipher.nonce + 1 ∧
      ∃ envelope encoder, sender.encoder.encode frameType payload limit =
          (.ok envelope, encoder) ∧
        ciphertext.length = envelope.length + shphAeadOverheadBytes := by
  obtain ⟨frame, encoder, hencode, -, -, hemits, hlength⟩ :=
    PhantomOneEncoder.encode_of_fits hrng hconfig hsequence frameType hlimit
      hfits
  have hshort : (frame.bytes sender.encoder.config
      sender.encoder.generation).length ≤ 2 ^ 16 - 1 := by
    unfold phantomOneMaxEnvelopeBytes at hlimit
    rw [SentFrame.bytes_length]
    omega
  obtain ⟨sealed, hsealed⟩ := Option.isSome_iff_exists.mp
    (haead sender.sendCipher.key (nonceBytes sender.sendCipher.nonce) _
      hshort)
  have hencrypt : sender.sendCipher.encrypt aead
      (frame.bytes sender.encoder.config sender.encoder.generation) =
      (.ok ((nonceBytes sender.sendCipher.nonce).val ++ sealed),
        { sender.sendCipher with nonce := sender.sendCipher.nonce + 1 }) := by
    rw [SendCipher.encrypt, if_neg (Nat.not_le.mpr hnonce), hsealed]
  refine ⟨(nonceBytes sender.sendCipher.nonce).val ++ sealed,
    ⟨{ sender.sendCipher with nonce := sender.sendCipher.nonce + 1 },
      encoder⟩, ?_, hemits.config.trans hconfig, ?_, rfl, _, encoder, hencode,
    ?_⟩
  · simp only [PhantomOneDatagramSender.seal, hencode, hencrypt]
  · rw [hemits.sequence, Option.bind_some, hemits.nextSequence]
  · rw [List.length_append, aead.encrypt_length hsealed,
      (nonceBytes sender.sendCipher.nonce).length_eq]
    unfold shphAeadOverheadBytes
    omega

theorem send_eq_seal (aead : Aead) (sender : PhantomOneDatagramSender rng)
    (payload : Bytes) (path handover : QuicPath) :
    sender.send aead payload path handover =
      match phantomOnePathMtu path with
      | .error error => (.error error, sender)
      | .ok pathMtu =>
          match sender.seal aead .data payload pathMtu with
          | (.error error, next) => (.error error, next)
          | (.ok ciphertext, next) =>
              match handover.sendDatagramWait ciphertext.length with
              | .error error => (.error error, next)
              | .ok () => (.ok ciphertext, next) := by
  unfold PhantomOneDatagramSender.send PhantomOneDatagramSender.seal
  cases phantomOnePathMtu path with
  | error error => rfl
  | ok pathMtu =>
      dsimp only
      rcases sender.encoder.encode .data payload pathMtu with
        ⟨error | envelope, encoder⟩
      · rfl
      · dsimp only
        rcases sender.sendCipher.encrypt aead envelope with
          ⟨error | ciphertext, sendCipher⟩
        · rfl
        · rfl

end StandardsTun

end Shph
