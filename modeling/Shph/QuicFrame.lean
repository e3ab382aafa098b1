/-
The datagrams of the experimental QUIC carrier.  A payload may get a discrete
size from its padding tier, is sealed, alone or padded to the capacity of a
Shroud cell, and goes out behind a length.  The reader takes the layers off
again; nothing before a successful authentication touches its replay state.
-/
import Shph.ShroudCell
import Shph.TcpFrame

namespace Shph

open ByteCodec Checked Indexed

def maxQuicFrameBytes : Nat := 16 * 1024

def maxQuicPayloadBytes : Nat := maxQuicFrameBytes - 4 - shroudAeadOverhead

def shroudLengthPrefix : Nat := 2

/-- The sending half of a session.  `osRng` stands for the generator of the
operating system. -/
structure ExperimentalQuicSender (rng : Rng) where
  sendCipher : SendCipher
  shroudProfile : Option ShroudProfile
  shroudRng : Option rng.State
  paddingProfile : Option ProfileTier
  paddingPadder : Option (ProfilePadder rng)
  osRng : rng.State

namespace ExperimentalQuicSender

variable {rng : Rng}

/-- The padder of a session is one of its padding tier. -/
def SamePadder (sender : ExperimentalQuicSender rng) : Prop :=
  ∀ padder ∈ sender.paddingPadder, ∀ profile ∈ sender.paddingProfile,
    padder.profile = profile

def framedPayload (sender : ExperimentalQuicSender rng) (payload : Bytes) :
    Except ShphError Bytes × ExperimentalQuicSender rng :=
  match sender.paddingProfile, sender.paddingPadder with
  | some _, some padder =>
      match padder.applyInto payload with
      | (result, padder) => (result, { sender with paddingPadder := padder })
  | some profile, none =>
      match applyProfileIntoWithRng rng profile payload sender.osRng with
      | (result, osRng) => (result, { sender with osRng })
  | none, _ => (.ok payload, sender)

/-- How many bytes a cell of the profile seals, if the payload fits. -/
def shroudCapacity (profile : ShroudProfile) (framed : Bytes) :
    Except ShphError Nat := do
  ensure (profile.isValid = true) (.protocol "invalid Shroud profile")
  let plaintextCapacity ← okOr
    (checkedSub profile.payloadCapacity shroudAeadOverhead)
    (.protocol "Shroud cell too small for AEAD")
  let room ← okOr (checkedSub plaintextCapacity shroudLengthPrefix)
    (.protocol "Shroud cell too small for length prefix")
  ensure (framed.length ≤ min room profile.maxPayloadChunk ∧
      framed.length ≤ 2 ^ 16 - 1)
    (.protocol "payload exceeds Shroud profile capacity")
  return plaintextCapacity

/-- The bytes behind the payload in a cell. -/
def shroudPadding (sender : ExperimentalQuicSender rng)
    (profile : ShroudProfile) (count : Nat) :
    Option Bytes × ExperimentalQuicSender rng :=
  if profile.deterministicPadding then (some (List.replicate count 0), sender)
  else
    match sender.shroudRng with
    | some state =>
        match rng.tryFillBytes state count with
        | (padding, state) => (padding, { sender with shroudRng := state })
    | none =>
        match rng.tryFillBytes sender.osRng count with
        | (padding, osRng) => (padding, { sender with osRng })

/-- The plaintext that is sealed for a framed payload. -/
def plaintext (sender : ExperimentalQuicSender rng) (framed : Bytes) :
    Except ShphError Bytes × ExperimentalQuicSender rng :=
  match sender.shroudProfile with
  | some profile =>
      match shroudCapacity profile framed with
      | .error error => (.error error, sender)
      | .ok capacity =>
          match sender.shroudPadding profile
              (capacity - (shroudLengthPrefix + framed.length)) with
          | (none, sender) =>
              (.error (.crypto "Shroud padding randomness failed"), sender)
          | (some padding, sender) =>
              (.ok (bigEndian shroudLengthPrefix framed.length ++
                (framed ++ padding)), sender)
  | none =>
      if maxQuicPayloadBytes < framed.length then
        (.error (.protocol ("QUIC payload exceeds the " ++
          s!"{maxQuicPayloadBytes}-byte frame capacity")), sender)
      else (.ok framed, sender)

/-- The sealed payload, in a cell if the session has a profile. -/
def inCell (shroudProfile : Option ShroudProfile) (encrypted : Bytes) :
    Except ShphError Bytes :=
  match shroudProfile with
  | some profile => encodeCell profile shroudFrameData encrypted
  | none => .ok encrypted

/-- What is sealed behind its length. -/
def packet (shroudProfile : Option ShroudProfile) (encrypted : Bytes) :
    Except ShphError Bytes := do
  let encrypted ← inCell shroudProfile encrypted
  ensure (encrypted ≠ []) (.protocol "empty QUIC payload")
  ensure (encrypted.length ≤ maxQuicFrameBytes)
    (.protocol "QUIC frame exceeds configured size")
  let packet := bigEndian 4 encrypted.length ++ encrypted
  ensure (packet.length ≤ maxQuicFrameBytes)
    (.protocol "QUIC frame exceeds transport datagram budget")
  return packet

/-- The datagram that is handed to the socket. -/
def writeEncryptedQuicFrameWithProfile (aead : Aead)
    (sender : ExperimentalQuicSender rng) (payload : Bytes) :
    Except ShphError Bytes × ExperimentalQuicSender rng :=
  match sender.framedPayload payload with
  | (.error error, sender) => (.error error, sender)
  | (.ok framed, sender) =>
      match sender.plaintext framed with
      | (.error error, sender) => (.error error, sender)
      | (.ok plaintext, sender) =>
          match sender.sendCipher.encrypt aead plaintext with
          | (.error error, sendCipher) =>
              (.error error, { sender with sendCipher })
          | (.ok encrypted, sendCipher) =>
              (packet sender.shroudProfile encrypted,
                { sender with sendCipher })

end ExperimentalQuicSender

/-- `remove_profile_in_place` with its accesses checked, the one to the bytes
that are wiped included. -/
def removeProfileIndexed (profile : ProfileTier) (framed : Bytes) :
    Except (Stop ShphError) Bytes :=
  if framed.length < profileMagic.length then .ok framed
  else do
    let start ← range? framed 0 profileMagic.length
    if start ≠ profileMagic then return framed
    else
      check (profileHeaderBytes ≤ framed.length)
        (.obfuscation "profile envelope is truncated")
      let tier ← at? framed profileMagic.length
      check (tier = profile.id) (.obfuscation "profile envelope tier mismatch")
      check (profile.acceptsFrameLen framed.length = true)
        (.obfuscation "profile envelope size is not a canonical tier")
      let high ← at? framed 5
      let low ← at? framed 6
      let payloadLen := ofBigEndian [high, low]
      check (payloadLen ≤ framed.length - profileHeaderBytes)
        (.obfuscation "profile envelope payload length exceeds frame")
      let payload ← range? framed profileHeaderBytes
        (profileHeaderBytes + payloadLen)
      let _ ← range? framed payloadLen framed.length
      return payload

/-- The body of a datagram of a checked length. -/
def quicBody (packet : Bytes) (len : Nat) :
    Except (Stop ShphError) Bytes := do
  check ((4 ≤ len ∧ len ≤ maxQuicFrameBytes) ∧ packet.length = len)
    (.protocol "invalid QUIC frame length")
  let byte0 ← at? packet 0
  let byte1 ← at? packet 1
  let byte2 ← at? packet 2
  let byte3 ← at? packet 3
  let payloadLen := ofBigEndian [byte0, byte1, byte2, byte3]
  check (payloadLen ≠ 0 ∧ payloadLen ≤ maxQuicFrameBytes ∧
      4 + payloadLen = len)
    (.protocol "invalid QUIC payload length")
  range? packet 4 packet.length

/-- The sealed part of a datagram, out of its cell if there is one. -/
def quicCiphertext (shroudProfile : Option ShroudProfile) (packet : Bytes)
    (len : Nat) : Except (Stop ShphError) Bytes := do
  let payload ← quicBody packet len
  match shroudProfile with
  | none => return payload
  | some profile =>
      check (profile.isValid = true) (.protocol "invalid Shroud profile")
      let encrypted ← decodeCellPayload profile payload
      lift (okOr encrypted (.protocol "unexpected shroud chaff frame"))

/-- The payload in the opened cell of a profile. -/
def unpadShroud (profile : ShroudProfile) (padded : Bytes) :
    Except (Stop ShphError) Bytes := do
  check (shroudLengthPrefix ≤ padded.length)
    (.protocol "Shroud payload missing length prefix")
  let high ← at? padded 0
  let low ← at? padded 1
  let payloadLen := ofBigEndian [high, low]
  check (payloadLen ≤ padded.length - shroudLengthPrefix ∧
      payloadLen ≤ profile.maxPayloadChunk)
    (.protocol "Shroud payload length exceeds profile capacity")
  let payload ← range? padded shroudLengthPrefix
    (shroudLengthPrefix + payloadLen)
  let _ ← range? padded payloadLen padded.length
  return payload

/-- The framed payload in an opened plaintext. -/
def quicFramed (shroudProfile : Option ShroudProfile) (plaintext : Bytes) :
    Except (Stop ShphError) Bytes :=
  match shroudProfile with
  | some profile => unpadShroud profile plaintext
  | none => .ok plaintext

/-- The payload in an opened plaintext. -/
def quicPayload (shroudProfile : Option ShroudProfile)
    (paddingProfile : Option ProfileTier) (plaintext : Bytes) :
    Except (Stop ShphError) Bytes := do
  let framed ← quicFramed shroudProfile plaintext
  match paddingProfile with
  | some profile => removeProfileIndexed profile framed
  | none => return framed

def decodeEncryptedQuicFrameWithProfile (aead : Aead)
    (shroudProfile : Option ShroudProfile)
    (paddingProfile : Option ProfileTier) (packet : Bytes) (len : Nat)
    (cipher : ReceiveCipher) :
    Except (Stop ShphError) Bytes × ReceiveCipher :=
  match quicCiphertext shroudProfile packet len with
  | .error stop => (.error stop, cipher)
  | .ok encrypted =>
      match cipher.decrypt aead encrypted with
      | (.error error, cipher) => (.error (.returned error), cipher)
      | (.ok plaintext, cipher) =>
          (quicPayload shroudProfile paddingProfile plaintext, cipher)

theorem exists_header {framed : Bytes}
    (hheader : profileHeaderBytes ≤ framed.length) :
    ∃ byte0 byte1 byte2 byte3 tier high low rest,
      framed = byte0 :: byte1 :: byte2 :: byte3 :: tier :: high :: low ::
        rest := by
  unfold profileHeaderBytes at hheader
  obtain ⟨byte0, byte1, byte2, byte3, tier, rest, rfl, hrest⟩ :=
    exists_fields (rfl : framed.length = framed.length) (by omega)
  match rest, hrest with
  | high :: low :: rest, _ =>
      exact ⟨byte0, byte1, byte2, byte3, tier, high, low, rest, rfl⟩
  | [], _ => simp at hheader
  | [_], _ => simp at hheader

/-- The accesses change nothing: they are all in bounds. -/
theorem removeProfileIndexed_eq (profile : ProfileTier) (framed : Bytes) :
    removeProfileIndexed profile framed =
      lift (removeProfileInPlace profile framed) := by
  unfold removeProfileIndexed removeProfileInPlace
  by_cases hshort : framed.length < profileMagic.length
  · rw [if_pos hshort, if_pos (Or.inl hshort)]
    rfl
  rw [if_neg hshort]
  have hstart : range? (E := ShphError) framed 0 profileMagic.length =
      .ok (framed.take profileMagic.length) :=
    range?_eq_ok_iff.mpr ⟨⟨Nat.zero_le _, Nat.le_of_not_lt hshort⟩, rfl⟩
  rw [hstart]
  by_cases hmagic : framed.take profileMagic.length = profileMagic
  · rw [if_neg (by simp [hshort, hmagic])]
    by_cases hheader : profileHeaderBytes ≤ framed.length
    · obtain ⟨byte0, byte1, byte2, byte3, tier, high, low, rest, hframed⟩ :=
        exists_header hheader
      have htier : at? (E := ShphError) framed profileMagic.length =
          .ok tier := by rw [hframed]; rfl
      have hhigh : at? (E := ShphError) framed 5 = .ok high := by
        rw [hframed]; rfl
      have hlow : at? (E := ShphError) framed 6 = .ok low := by
        rw [hframed]; rfl
      have hfield : slice framed 5 2 = [high, low] := by rw [hframed]; rfl
      have hget : framed[profileMagic.length]? = some tier := by
        rw [hframed]; rfl
      simp only [bind, Except.bind, hmagic, hhigh, hlow, htier, hfield, hget,
        ne_eq, not_true_eq_false, if_false, check, ensure, hheader, if_true,
        Option.some.injEq]
      by_cases htiers : tier = profile.id
      · by_cases haccepts : profile.acceptsFrameLen framed.length = true
        · by_cases hfits : ofBigEndian [high, low] ≤
              framed.length - profileHeaderBytes
          · have hpayload : range? (E := ShphError) framed profileHeaderBytes
                (profileHeaderBytes + ofBigEndian [high, low]) =
                  .ok (slice framed profileHeaderBytes
                    (ofBigEndian [high, low])) := by
              rw [range?_eq_ok_iff, Nat.add_sub_cancel_left]
              exact ⟨⟨Nat.le_add_right _ _, by omega⟩, rfl⟩
            have hwiped : range? (E := ShphError) framed
                (ofBigEndian [high, low]) framed.length =
                  .ok ((framed.drop (ofBigEndian [high, low])).take
                    (framed.length - ofBigEndian [high, low])) :=
              range?_eq_ok_iff.mpr ⟨⟨by omega, Nat.le_refl _⟩, rfl⟩
            simp only [htiers, haccepts, hfits, if_true, hpayload, hwiped]
            rfl
          · simp only [htiers, haccepts, hfits, if_true, if_false]
            rfl
        · simp only [htiers, haccepts, if_true]
          rfl
      · simp only [htiers, if_false]
        rfl
    · simp [bind, Except.bind, hmagic, check, ensure, hheader, lift]
  · rw [if_pos (Or.inr hmagic)]
    simp [bind, Except.bind, hmagic, lift, pure, Except.pure]

section Reading

variable {packet plaintext : Bytes} {len : Nat}
  {shroudProfile : Option ShroudProfile} {paddingProfile : Option ProfileTier}

theorem safe_quicBody (packet : Bytes) (len : Nat) :
    Safe (quicBody packet len) := by
  unfold quicBody
  refine safe_check_bind fun hlength => ?_
  refine safe_bind (safe_at? (by omega)) fun byte0 _ => ?_
  refine safe_bind (safe_at? (by omega)) fun byte1 _ => ?_
  refine safe_bind (safe_at? (by omega)) fun byte2 _ => ?_
  refine safe_bind (safe_at? (by omega)) fun byte3 _ => ?_
  refine safe_check_bind fun _ => ?_
  exact safe_range? (by omega) (Nat.le_refl _)

theorem safe_quicCiphertext (shroudProfile : Option ShroudProfile)
    (packet : Bytes) (len : Nat) :
    Safe (quicCiphertext shroudProfile packet len) := by
  unfold quicCiphertext
  refine safe_bind (safe_quicBody packet len) fun payload _ => ?_
  cases shroudProfile with
  | none => exact safe_ok payload
  | some profile =>
      refine safe_check_bind fun _ => ?_
      refine safe_bind (safe_decodeCellPayload profile payload) fun _ _ => ?_
      exact safe_lift _

theorem safe_unpadShroud (profile : ShroudProfile) (padded : Bytes) :
    Safe (unpadShroud profile padded) := by
  unfold unpadShroud
  refine safe_check_bind fun hprefix => ?_
  unfold shroudLengthPrefix at hprefix ⊢
  refine safe_bind (safe_at? (by omega)) fun high _ => ?_
  refine safe_bind (safe_at? (by omega)) fun low _ => ?_
  refine safe_check_bind fun hfits => ?_
  refine safe_bind (safe_range? (by omega) (by omega)) fun payload _ => ?_
  exact safe_bind (safe_range? (by omega) (Nat.le_refl _))
    fun _ _ => safe_ok payload

theorem safe_quicPayload (shroudProfile : Option ShroudProfile)
    (paddingProfile : Option ProfileTier) (plaintext : Bytes) :
    Safe (quicPayload shroudProfile paddingProfile plaintext) := by
  unfold quicPayload
  refine safe_bind ?_ fun framed _ => ?_
  · cases shroudProfile with
    | none => exact safe_ok plaintext
    | some profile => exact safe_unpadShroud profile plaintext
  · cases paddingProfile with
    | none => exact safe_ok framed
    | some profile =>
        dsimp only
        rw [removeProfileIndexed_eq]
        exact safe_lift _

/-- No access of the reader is out of bounds. -/
theorem safe_decodeEncryptedQuicFrame (aead : Aead)
    (shroudProfile : Option ShroudProfile)
    (paddingProfile : Option ProfileTier) (packet : Bytes) (len : Nat)
    (cipher : ReceiveCipher) :
    Safe (decodeEncryptedQuicFrameWithProfile aead shroudProfile
      paddingProfile packet len cipher).1 := by
  have hciphertext := safe_quicCiphertext shroudProfile packet len
  unfold decodeEncryptedQuicFrameWithProfile
  cases hencrypted : quicCiphertext shroudProfile packet len with
  | error stop =>
      rw [hencrypted] at hciphertext
      cases stop with
      | returned error => exact safe_returned error
      | outOfBounds => exact absurd rfl hciphertext
  | ok encrypted =>
      dsimp only
      split
      · exact safe_returned _
      · exact safe_quicPayload shroudProfile paddingProfile _

end Reading

section RoundTrip

variable {rng : Rng} {sender next : ExperimentalQuicSender rng}
  {payload framed plaintext encrypted packet : Bytes}

namespace ExperimentalQuicSender

/-- Framing leaves the cipher and the profiles of the session alone, and the
tier of the session takes its envelope off again. -/
theorem framedPayload_opens (hsame : sender.SamePadder)
    (hframed : sender.framedPayload payload = (.ok framed, next)) :
    next.sendCipher = sender.sendCipher ∧
      next.shroudProfile = sender.shroudProfile ∧
      next.paddingProfile = sender.paddingProfile ∧
      (match sender.paddingProfile with
        | some profile => removeProfileInPlace profile framed = .ok payload
        | none => framed = payload) := by
  unfold framedPayload at hframed
  cases hprofile : sender.paddingProfile with
  | none =>
      simp only [hprofile, Prod.mk.injEq, Except.ok.injEq] at hframed
      obtain ⟨rfl, rfl⟩ := hframed
      exact ⟨rfl, rfl, hprofile, rfl⟩
  | some profile =>
      cases hpadder : sender.paddingPadder with
      | some padder =>
          have hpadding : padder.profile = profile :=
            hsame padder hpadder profile hprofile
          simp only [hprofile, hpadder, ProfilePadder.applyInto,
            Prod.mk.injEq] at hframed
          obtain ⟨happlied, rfl⟩ := hframed
          rw [hpadding] at happlied
          exact ⟨rfl, rfl, rfl, removeProfileInPlace_applied happlied⟩
      | none =>
          simp only [hprofile, hpadder, Prod.mk.injEq] at hframed
          obtain ⟨happlied, rfl⟩ := hframed
          exact ⟨rfl, rfl, rfl, removeProfileInPlace_applied happlied⟩

theorem shroudPadding_ok {profile : ShroudProfile} {count : Nat}
    {padding : Bytes}
    (hpadding : sender.shroudPadding profile count = (some padding, next)) :
    padding.length = count ∧ next.sendCipher = sender.sendCipher ∧
      next.shroudProfile = sender.shroudProfile := by
  unfold shroudPadding at hpadding
  split at hpadding
  · simp only [Prod.mk.injEq, Option.some.injEq] at hpadding
    obtain ⟨rfl, rfl⟩ := hpadding
    exact ⟨List.length_replicate, rfl, rfl⟩
  · split at hpadding
    · simp only [Prod.mk.injEq] at hpadding
      obtain ⟨hfill, rfl⟩ := hpadding
      exact ⟨rng.tryFillBytes_length hfill, rfl, rfl⟩
    · simp only [Prod.mk.injEq] at hpadding
      obtain ⟨hfill, rfl⟩ := hpadding
      exact ⟨rng.tryFillBytes_length hfill, rfl, rfl⟩

theorem shroudCapacity_ok {profile : ShroudProfile} {capacity : Nat}
    (hcapacity : shroudCapacity profile framed = .ok capacity) :
    profile.isValid = true ∧
      capacity + shroudAeadOverhead = profile.payloadCapacity ∧
      shroudLengthPrefix + framed.length ≤ capacity ∧
      framed.length ≤ profile.maxPayloadChunk ∧ framed.length < 2 ^ 16 := by
  simp only [shroudCapacity, bind_eq_ok_iff, ensure_eq_ok_iff, okOr_eq_ok_iff,
    exists_const, checkedSub, pure_eq_ok_iff] at hcapacity
  obtain ⟨hvalid, capacity, haead, room, hroom, hfits, rfl⟩ := hcapacity
  split at haead
  · split at hroom
    · cases haead
      cases hroom
      refine ⟨hvalid, by omega, by omega, by omega, by omega⟩
    · cases hroom
  · cases haead

theorem unpadShroud_padded {profile : ShroudProfile} {padding : Bytes}
    (hchunk : framed.length ≤ profile.maxPayloadChunk)
    (hshort : framed.length < 2 ^ 16) :
    unpadShroud profile (bigEndian shroudLengthPrefix framed.length ++
      (framed ++ padding)) = .ok framed := by
  obtain ⟨high, low, hlen⟩ : ∃ high low,
      bigEndian shroudLengthPrefix framed.length = [high, low] := ⟨_, _, rfl⟩
  have hback : ofBigEndian [high, low] = framed.length := by
    rw [← hlen]
    exact ofBigEndian_bigEndian (by simpa [shroudLengthPrefix] using hshort)
  rw [hlen]
  simp only [unpadShroud, bind_eq_ok, check_eq_ok_iff, at?_eq_ok_iff,
    range?_eq_ok_iff, exists_const, List.cons_append, List.nil_append,
    List.getElem?_cons_zero, List.getElem?_cons_succ, Option.some.injEq,
    exists_eq_left', hback, shroudLengthPrefix, pure_eq_ok, List.length_cons,
    List.length_append]
  refine ⟨by omega, ⟨by omega, hchunk⟩, framed, ⟨by omega, ?_⟩, _,
    ⟨by omega, rfl⟩, rfl⟩
  simp

/-- What is sealed opens to the framed payload. -/
theorem plaintext_opens
    (hplaintext : sender.plaintext framed = (.ok plaintext, next)) :
    next.sendCipher = sender.sendCipher ∧
      next.shroudProfile = sender.shroudProfile ∧
      quicFramed sender.shroudProfile plaintext = .ok framed := by
  unfold ExperimentalQuicSender.plaintext at hplaintext
  cases hprofile : sender.shroudProfile with
  | none =>
      simp only [hprofile] at hplaintext
      split at hplaintext
      · cases hplaintext
      · simp only [Prod.mk.injEq, Except.ok.injEq] at hplaintext
        obtain ⟨rfl, rfl⟩ := hplaintext
        exact ⟨rfl, hprofile, rfl⟩
  | some profile =>
      simp only [hprofile] at hplaintext
      split at hplaintext
      · cases hplaintext
      · rename_i capacity hcapacity
        obtain ⟨-, -, -, hchunk, hshort⟩ := shroudCapacity_ok hcapacity
        split at hplaintext
        · cases hplaintext
        · rename_i padding after hpadding
          obtain ⟨-, hcipher, hsame⟩ := shroudPadding_ok hpadding
          simp only [Prod.mk.injEq, Except.ok.injEq] at hplaintext
          obtain ⟨rfl, rfl⟩ := hplaintext
          exact ⟨hcipher, hsame.trans hprofile,
            unpadShroud_padded hchunk hshort⟩

/-- The reader finds the body behind the length. -/
theorem quicBody_packet {body : Bytes} (hnonempty : body ≠ [])
    (hbudget : (bigEndian 4 body.length ++ body).length ≤ maxQuicFrameBytes) :
    quicBody (bigEndian 4 body.length ++ body)
      (bigEndian 4 body.length ++ body).length = .ok body := by
  have hlength : (bigEndian 4 body.length ++ body).length =
      4 + body.length := by simp
  have hbounds : 4 + body.length ≤ 16 * 1024 := by
    rw [hlength] at hbudget
    exact hbudget
  have hpositive : 0 < body.length := List.length_pos_iff.mpr hnonempty
  obtain ⟨byte0, byte1, byte2, byte3, hlen⟩ : ∃ byte0 byte1 byte2 byte3,
      bigEndian 4 body.length = [byte0, byte1, byte2, byte3] :=
    ⟨_, _, _, _, rfl⟩
  have hback : ofBigEndian [byte0, byte1, byte2, byte3] = body.length := by
    rw [← hlen]
    exact ofBigEndian_bigEndian (by omega)
  rw [hlength, hlen]
  simp only [quicBody, bind_eq_ok, check_eq_ok_iff, at?_eq_ok_iff,
    range?_eq_ok_iff, exists_const, List.cons_append, List.nil_append,
    List.getElem?_cons_zero, List.getElem?_cons_succ, Option.some.injEq,
    exists_eq_left', hback, maxQuicFrameBytes, List.length_cons]
  refine ⟨(), check_eq_ok_iff.mpr (by omega), ⟨by omega, by omega, trivial⟩,
    by omega, ?_⟩
  simp

/-- The reader finds what was sealed. -/
theorem packet_opens {shroudProfile : Option ShroudProfile}
    (hpacket : ExperimentalQuicSender.packet shroudProfile encrypted =
      .ok packet) :
    quicCiphertext shroudProfile packet packet.length = .ok encrypted := by
  simp only [ExperimentalQuicSender.packet, bind_eq_ok_iff, ensure_eq_ok_iff,
    exists_const, pure_eq_ok_iff] at hpacket
  obtain ⟨body, hcell, hnonempty, -, hbudget, rfl⟩ := hpacket
  rw [quicCiphertext, bind_eq_ok]
  refine ⟨body, quicBody_packet hnonempty hbudget, ?_⟩
  cases shroudProfile with
  | none =>
      cases hcell
      rfl
  | some profile =>
      obtain ⟨hvalid, -, hcapacity, hbytes⟩ := encodeCell_eq_ok_iff.mp hcell
      have hdecode : decodeCellPayload profile body = .ok (some encrypted) :=
        decodeCellPayload_eq_ok_iff.mpr ⟨hvalid, _, encrypted, hcapacity,
          hbytes, Or.inl ⟨rfl, rfl⟩⟩
      simp [bind, Except.bind, check, hvalid, hdecode, okOr, lift]

end ExperimentalQuicSender

/-- A datagram opens to its payload at a receiver that admits its nonce. -/
theorem decode_written {aead : Aead} {cipher : ReceiveCipher}
    {replay : ReplayState} (hsame : sender.SamePadder)
    (hwrite : sender.writeEncryptedQuicFrameWithProfile aead payload =
      (.ok packet, next))
    (hkey : cipher.key = sender.sendCipher.key)
    (hadmits : cipher.replay.candidate sender.sendCipher.nonce =
      some replay) :
    decodeEncryptedQuicFrameWithProfile aead sender.shroudProfile
        sender.paddingProfile packet packet.length cipher =
      (.ok payload, { cipher with replay }) := by
  unfold ExperimentalQuicSender.writeEncryptedQuicFrameWithProfile at hwrite
  split at hwrite
  · cases hwrite
  rename_i framed padded hframed
  obtain ⟨hcipher, hshroud, hpadding, hunframed⟩ :=
    ExperimentalQuicSender.framedPayload_opens hsame hframed
  split at hwrite
  · cases hwrite
  rename_i plaintext sealing hplaintext
  obtain ⟨hcipher', hshroud', hopened⟩ :=
    ExperimentalQuicSender.plaintext_opens hplaintext
  rcases SendCipher.encrypt_cases aead sealing.sendCipher plaintext with
    ⟨error, hcall⟩ | ⟨ciphertext, hlimit, hseal, hcall⟩
  · rw [hcall] at hwrite
    cases hwrite
  · rw [hcall] at hwrite
    simp only [Prod.mk.injEq] at hwrite
    have hciphertext :=
      ExperimentalQuicSender.packet_opens hwrite.1
    rw [hshroud', hshroud] at hciphertext
    rw [hshroud] at hopened
    rw [hcipher', hcipher] at hlimit hseal hciphertext
    have hcounter : sender.sendCipher.nonce < 2 ^ 64 := by
      unfold aeadNonceLimit at hlimit
      omega
    have hdecrypt := ReceiveCipher.decrypt_of_candidate hcounter hadmits
      (by rw [hkey]; exact aead.decrypt_encrypt hseal)
    have hpayload : quicPayload sender.shroudProfile sender.paddingProfile
        plaintext = .ok payload := by
      rw [quicPayload, bind_eq_ok]
      refine ⟨framed, hopened, ?_⟩
      cases hprofile : sender.paddingProfile with
      | none =>
          rw [hprofile] at hunframed
          rw [hunframed]
          rfl
      | some profile =>
          rw [hprofile] at hunframed
          dsimp only at hunframed ⊢
          rw [removeProfileIndexed_eq, hunframed]
          rfl
    rw [decodeEncryptedQuicFrameWithProfile, hciphertext]
    dsimp only
    rw [hdecrypt]
    dsimp only
    rw [hpayload]

end RoundTrip

/-- Every datagram that is written opens to its payload at a receiver with the
same profiles that admits its nonce.  For any bytes, no access is out of
bounds, and the replay state stays as it is unless the sealed part
authenticates. -/
theorem quic_frame_round_trip {rng : Rng} (aead : Aead)
    (shroudProfile : Option ShroudProfile)
    (paddingProfile : Option ProfileTier) (cipher : ReceiveCipher) :
    (∀ (sender next : ExperimentalQuicSender rng) payload packet replay,
      sender.shroudProfile = shroudProfile →
      sender.paddingProfile = paddingProfile → sender.SamePadder →
      cipher.key = sender.sendCipher.key →
      cipher.replay.candidate sender.sendCipher.nonce = some replay →
      sender.writeEncryptedQuicFrameWithProfile aead payload =
        (.ok packet, next) →
      decodeEncryptedQuicFrameWithProfile aead shroudProfile paddingProfile
          packet packet.length cipher =
        (.ok payload, { cipher with replay })) ∧
    ∀ packet len,
      Safe (decodeEncryptedQuicFrameWithProfile aead shroudProfile
        paddingProfile packet len cipher).1 ∧
      (∀ stop, quicCiphertext shroudProfile packet len = .error stop →
        decodeEncryptedQuicFrameWithProfile aead shroudProfile paddingProfile
          packet len cipher = (.error stop, cipher)) ∧
      ∀ encrypted error,
        quicCiphertext shroudProfile packet len = .ok encrypted →
        (cipher.decrypt aead encrypted).1 = .error error →
        decodeEncryptedQuicFrameWithProfile aead shroudProfile paddingProfile
          packet len cipher = (.error (.returned error), cipher) := by
  refine ⟨?_, ?_⟩
  · rintro sender next payload packet replay rfl rfl hsame hkey hadmits hwrite
    exact decode_written hsame hwrite hkey hadmits
  · intro packet len
    refine ⟨safe_decodeEncryptedQuicFrame aead _ _ packet len cipher, ?_, ?_⟩
    · intro stop hstop
      rw [decodeEncryptedQuicFrameWithProfile, hstop]
    · intro encrypted error hencrypted herror
      have hcipher := cipher.decrypt_error_unchanged aead encrypted herror
      rw [decodeEncryptedQuicFrameWithProfile, hencrypted]
      dsimp only
      rw [← Prod.mk.eta (p := cipher.decrypt aead encrypted), herror, hcipher]

namespace QuicFrameWitness

def smallCell : ShroudProfile := ⟨"small", 64, 1, 1, 24, true⟩

def sender : ExperimentalQuicSender Rng.zeros :=
  ⟨.new (.replicate 32 7), some smallCell, none, none, none, ()⟩

def receiver : ReceiveCipher := .newWithReplayWindow (.replicate 32 7) 128

/-- The datagram of a short payload. -/
def datagram : Bytes :=
  bigEndian 4 64 ++ cellBytes 64 shroudFrameData ((nonceBytes 0).val ++
    (bigEndian 2 3 ++ [1, 2, 3] ++ List.replicate 26 0 ++
      List.replicate 16 0))

theorem quic_frame_round_trip_small :
    (∃ next, sender.writeEncryptedQuicFrameWithProfile .tagged [1, 2, 3] =
      (.ok datagram, next)) ∧
    (decodeEncryptedQuicFrameWithProfile .tagged (some smallCell) none
      datagram datagram.length receiver).1 = .ok [1, 2, 3] := by
  have hwrite : sender.writeEncryptedQuicFrameWithProfile .tagged [1, 2, 3] =
      (.ok datagram, { sender with sendCipher := ⟨.replicate 32 7, 1⟩ }) := rfl
  refine ⟨⟨_, hwrite⟩, ?_⟩
  rw [(quic_frame_round_trip .tagged (some smallCell) none receiver).1 sender _
    [1, 2, 3] datagram _ rfl rfl ?_ rfl rfl hwrite]
  intro padder hpadder
  cases hpadder

end QuicFrameWitness

end Shph
