/-
An honest Phantom One sender and its peer.  Every envelope has a number from
the encoder and a nonce from the cipher, and passes the replay windows of both
at the peer.  The peer opens a fresh envelope exactly if no envelope it was
given before is 64 or more ahead of it.
-/
import Shph.Library.StackedWindows
import Shph.PhantomOneFits

namespace Shph.PhantomOneChannel

open ByteCodec SlidingWindow StandardsTun

/-- An envelope that a sender has sealed. -/
structure SealedFrame where
  frame : SentFrame
  nonce : Nat
  ciphertext : Bytes

/-- The number that the decoder checks. -/
def SealedFrame.sequence (entry : SealedFrame) : Nat := entry.frame.sequence

/-- What is fixed for one direction of a session. -/
structure Direction where
  aead : Aead
  key : Key
  generation : UInt32
  profile : ProfileTier

namespace Direction

def config (direction : Direction) : PhantomOneConfig :=
  .forProfile direction.profile

def bytes (direction : Direction) (frame : SentFrame) : Bytes :=
  frame.bytes direction.config direction.generation

def decoded (direction : Direction) (frame : SentFrame) : PhantomOneFrame :=
  frame.decoded direction.config direction.generation

theorem config_validate (direction : Direction) :
    direction.config.validate = .ok () := by
  obtain ⟨aead, key, generation, profile⟩ := direction
  cases profile <;> rfl

/-- The envelope of the frame under its nonce. -/
structure Genuine (direction : Direction) (entry : SealedFrame) : Prop where
  fits : entry.frame.Fits direction.config
  nonce_lt : entry.nonce < aeadNonceLimit
  opens : ∃ body, direction.aead.encrypt direction.key
      (nonceBytes entry.nonce) (direction.bytes entry.frame) = some body ∧
    entry.ciphertext = (nonceBytes entry.nonce).val ++ body

variable {rng : Rng} {direction : Direction}

theorem Genuine.ciphertext_length {entry : SealedFrame}
    (hgenuine : direction.Genuine entry) :
    entry.ciphertext.length =
      entry.frame.targetLen + shphAeadOverheadBytes := by
  obtain ⟨body, hseal, hciphertext⟩ := hgenuine.opens
  have hlength := direction.aead.encrypt_length hseal
  rw [bytes, SentFrame.bytes_length] at hlength
  rw [hciphertext, List.length_append, (nonceBytes entry.nonce).length_eq,
    hlength, shphAeadOverheadBytes]
  omega

/-- The sender has sealed these envelopes, in this order. -/
structure HasSealed (direction : Direction) (log : List SealedFrame)
    (sender : PhantomOneDatagramSender rng) : Prop where
  key_eq : sender.sendCipher.key = direction.key
  config_eq : sender.encoder.config = direction.config
  generation_eq : sender.encoder.generation = direction.generation
  nonce_le : sender.sendCipher.nonce ≤ aeadNonceLimit
  next_le : ∀ next ∈ sender.encoder.nextSequence, next ≤ u64Max
  genuine : ∀ entry ∈ log, direction.Genuine entry
  past : ∀ entry ∈ log, entry.nonce < sender.sendCipher.nonce ∧
    ∀ next ∈ sender.encoder.nextSequence,
      sender.sendCipher.nonce + entry.sequence ≤ next + entry.nonce
  ordered : log.Pairwise (Before SealedFrame.nonce SealedFrame.sequence)

/-- The sender of a session that was just enabled. -/
def newSender (direction : Direction) (seeded : rng.State) :
    PhantomOneDatagramSender rng :=
  ⟨.new direction.key,
    .fromValidatedConfig direction.generation 0 direction.config seeded⟩

theorem newSender_hasSealed (seeded : rng.State) :
    direction.HasSealed [] (direction.newSender seeded) where
  key_eq := rfl
  config_eq := rfl
  generation_eq := rfl
  nonce_le := Nat.zero_le _
  next_le := by
    intro next hnext
    cases hnext
    exact Nat.zero_le _
  genuine := by simp
  past := by simp
  ordered := List.Pairwise.nil

section Sender

variable {log : List SealedFrame} {sender : PhantomOneDatagramSender rng}

/-- Another encoder state of the session, which may have used up a number. -/
theorem HasSealed.with_encoder {encoder : PhantomOneEncoder rng}
    (hsealed : direction.HasSealed log sender)
    (hconfig : encoder.config = sender.encoder.config)
    (hgeneration : encoder.generation = sender.encoder.generation)
    (hnext : ∀ next ∈ encoder.nextSequence, next ≤ u64Max ∧
      ∃ old ∈ sender.encoder.nextSequence, old ≤ next) :
    direction.HasSealed log { sender with encoder } where
  key_eq := hsealed.key_eq
  config_eq := hconfig.trans hsealed.config_eq
  generation_eq := hgeneration.trans hsealed.generation_eq
  nonce_le := hsealed.nonce_le
  next_le := fun next hmem => (hnext next hmem).1
  genuine := hsealed.genuine
  past := by
    intro entry hentry
    obtain ⟨hnonce, hlead⟩ := hsealed.past entry hentry
    refine ⟨hnonce, fun next hmem => ?_⟩
    obtain ⟨-, old, hold, hle⟩ := hnext next hmem
    exact (hlead old hold).trans (Nat.add_le_add_right hle _)
  ordered := hsealed.ordered

/-- A frame takes one number. -/
theorem emits_nextSequence {encoder next : PhantomOneEncoder rng}
    {frame : SentFrame}
    (hemits : PhantomOneEncoder.Emits encoder next frame) :
    ∀ number ∈ next.nextSequence,
      number = frame.sequence + 1 ∧ number ≤ u64Max := by
  intro number hnumber
  rw [hemits.nextSequence, Option.mem_def, checkedAdd_eq_some_iff] at hnumber
  exact ⟨hnumber.2, hnumber.2 ▸ hnumber.1⟩

/-- A frame is sealed under the next nonce. -/
theorem HasSealed.snoc {encoder : PhantomOneEncoder rng} {frame : SentFrame}
    {body : Bytes} (hsealed : direction.HasSealed log sender)
    (hemits : PhantomOneEncoder.Emits sender.encoder encoder frame)
    (hlimit : sender.sendCipher.nonce < aeadNonceLimit)
    (hseal : direction.aead.encrypt direction.key
      (nonceBytes sender.sendCipher.nonce) (direction.bytes frame) =
        some body) :
    direction.HasSealed
      (log ++ [⟨frame, sender.sendCipher.nonce,
        (nonceBytes sender.sendCipher.nonce).val ++ body⟩])
      ⟨{ sender.sendCipher with nonce := sender.sendCipher.nonce + 1 },
        encoder⟩ where
  key_eq := hsealed.key_eq
  config_eq := hemits.config.trans hsealed.config_eq
  generation_eq := hemits.generation.trans hsealed.generation_eq
  nonce_le := hlimit
  next_le := fun number hnumber => (emits_nextSequence hemits number hnumber).2
  genuine := by
    refine List.forall_mem_append.mpr ⟨hsealed.genuine,
      List.forall_mem_singleton.mpr ⟨?_, hlimit, body, hseal, rfl⟩⟩
    rw [← hsealed.config_eq]
    exact ⟨hsealed.next_le _ hemits.sequence, hemits.payload_le,
      hemits.target_le, hemits.padding_mem, hemits.canonical⟩
  past := by
    have hnext := emits_nextSequence hemits
    refine List.forall_mem_append.mpr ⟨fun entry hentry => ?_,
      List.forall_mem_singleton.mpr ⟨Nat.lt_succ_self _, ?_⟩⟩
    · obtain ⟨hnonce, hlead⟩ := hsealed.past entry hentry
      refine ⟨Nat.lt_succ_of_lt hnonce, fun number hnumber => ?_⟩
      have hold := hlead _ hemits.sequence
      rw [(hnext number hnumber).1]
      dsimp only
      omega
    · intro number hnumber
      rw [(hnext number hnumber).1]
      exact Nat.le_of_eq (by dsimp only [SealedFrame.sequence]; omega)
  ordered := by
    refine List.pairwise_append.mpr
      ⟨hsealed.ordered, List.pairwise_singleton _ _, ?_⟩
    intro entry hentry
    rw [List.forall_mem_singleton]
    obtain ⟨hnonce, hlead⟩ := hsealed.past entry hentry
    exact ⟨hnonce, hlead _ hemits.sequence⟩

/-- What sealing a payload can do. -/
theorem HasSealed.seal_cases (hsealed : direction.HasSealed log sender)
    (frameType : PhantomOneFrameType) (payload : Bytes) (limit : Nat) :
    (∃ error next, sender.seal direction.aead frameType payload limit =
        (.error error, next) ∧ direction.HasSealed log next) ∨
      ∃ entry next, sender.seal direction.aead frameType payload limit =
          (.ok entry.ciphertext, next) ∧
        direction.HasSealed (log ++ [entry]) next ∧
        sender.encoder.nextSequence = some entry.sequence ∧
        entry.frame.frameType = frameType ∧ entry.frame.payload = payload ∧
        entry.frame.targetLen ≤ limit := by
  unfold PhantomOneDatagramSender.seal
  rcases PhantomOneEncoder.run_cases sender.encoder
      (.encode frameType payload limit) with
    ⟨error, encoder, hcall, hsame⟩ |
    ⟨frame, encoder, hcall, htype, hpayload, hemits⟩
  · refine Or.inl ⟨error, { sender with encoder }, ?_, ?_⟩
    · rw [show sender.encoder.encode frameType payload limit = _ from hcall]
    · refine hsealed.with_encoder hsame.config hsame.generation ?_
      intro next hnext
      rw [hsame.nextSequence] at hnext
      exact ⟨hsealed.next_le next hnext, next, hnext, Nat.le_refl _⟩
  · have hlength := PhantomOneEncoder.encode_length_le
      (show sender.encoder.encode frameType payload limit = _ from hcall)
    rw [SentFrame.bytes_length] at hlength
    rw [show sender.encoder.encode frameType payload limit = _ from hcall]
    dsimp only
    rcases sender.sendCipher.encrypt_cases direction.aead
        (frame.bytes sender.encoder.config sender.encoder.generation) with
      ⟨error, hencrypt⟩ | ⟨body, hlimit, hseal, hencrypt⟩
    · refine Or.inl ⟨error, ⟨sender.sendCipher, encoder⟩, ?_, ?_⟩
      · rw [hencrypt]
      · refine hsealed.with_encoder hemits.config hemits.generation ?_
        intro next hnext
        obtain ⟨hvalue, hle⟩ := emits_nextSequence hemits next hnext
        exact ⟨hle, frame.sequence, hemits.sequence, by omega⟩
    · rw [hsealed.config_eq, hsealed.generation_eq, hsealed.key_eq] at hseal
      exact Or.inr ⟨_, _, by rw [hencrypt],
        hsealed.snoc hemits hlimit hseal, hemits.sequence, htype, hpayload,
        hlength⟩

end Sender

/-- The peer has opened these of the sealed envelopes: they have passed its
cipher and its decoder. -/
structure Receives (direction : Direction) (log opened : List SealedFrame)
    (receiver : PhantomOneDatagramReceiver) : Prop where
  ordered : log.Pairwise (Before SealedFrame.nonce SealedFrame.sequence)
  mem_log : ∀ entry ∈ opened, entry ∈ log
  key_eq : receiver.recvCipher.key = direction.key
  window : ∃ window : ReplayWindow,
    receiver.recvCipher.replay = .window window ∧
      window.Represents (opened.map SealedFrame.nonce) ∧ window.size = 128
  decoder : PhantomOneDecoder.Represents direction.config direction.generation
    64 (opened.map SealedFrame.frame) receiver.decoder

/-- The receiver of a session that was just enabled. -/
theorem newReceiver_receives {log : List SealedFrame}
    (hordered : log.Pairwise (Before SealedFrame.nonce SealedFrame.sequence))
    {decoder : PhantomOneDecoder}
    (hdecoder : PhantomOneDecoder.withConfigAndWindow direction.generation
      direction.config 64 = .ok decoder) :
    direction.Receives log []
      ⟨.newWithReplayWindow direction.key 128, decoder⟩ where
  ordered := hordered
  mem_log := by simp
  key_eq := rfl
  window := ⟨.new 128, rfl, ReplayWindow.new_represents 128, rfl⟩
  decoder := (PhantomOneDecoder.withConfigAndWindow_ok hdecoder).2

section Receiver

variable {log opened : List SealedFrame}
  {receiver : PhantomOneDatagramReceiver} {entry : SealedFrame} {limit : Nat}

/-- Nothing that the peer has opened is 64 or more ahead of the envelope. -/
def InReach (opened : List SealedFrame) (entry : SealedFrame) : Prop :=
  ∀ other ∈ opened, other.sequence < entry.sequence + 64

/-- Room in the counter of the padding bytes. -/
def PaddingRoom (opened : List SealedFrame) (entry : SealedFrame) : Prop :=
  totalPadding ((opened ++ [entry]).map SealedFrame.frame) ≤ u64Max

theorem paddingFits_iff :
    PhantomOneDecoder.PaddingFits direction.config
        (opened.map SealedFrame.frame) entry.frame ↔
      PaddingRoom opened entry := by
  rw [PaddingRoom, List.map_append, List.map_singleton]
  exact and_iff_left nofun

theorem map_sequence (opened : List SealedFrame) :
    (opened.map SealedFrame.frame).map SentFrame.sequence =
      opened.map SealedFrame.sequence := List.map_map

/-- The cipher of the peer on a genuine envelope. -/
theorem Receives.decrypt_cases
    (hreceives : direction.Receives log opened receiver)
    (hgenuine : direction.Genuine entry) :
    (¬ Admissible 129 (opened.map SealedFrame.nonce) entry.nonce ∧
        ∃ error, receiver.recvCipher.decrypt direction.aead entry.ciphertext =
          (.error error, receiver.recvCipher)) ∨
      (Admissible 129 (opened.map SealedFrame.nonce) entry.nonce ∧
        ∃ next : ReplayWindow,
          receiver.recvCipher.decrypt direction.aead entry.ciphertext =
            (.ok (direction.bytes entry.frame),
              { receiver.recvCipher with replay := .window next }) ∧
          next.Represents ((opened ++ [entry]).map SealedFrame.nonce) ∧
          next.size = 128) := by
  obtain ⟨window, hreplay, hrepresents, hsize⟩ := hreceives.window
  obtain ⟨body, hseal, hciphertext⟩ := hgenuine.opens
  have hnonce : entry.nonce < 2 ^ 64 := by
    have hlimit := hgenuine.nonce_lt
    unfold aeadNonceLimit at hlimit
    omega
  have hplain : direction.aead.decrypt receiver.recvCipher.key
      (nonceBytes entry.nonce) body = some (direction.bytes entry.frame) := by
    rw [hreceives.key_eq]
    exact direction.aead.decrypt_encrypt hseal
  have hcases := ReceiveCipher.decrypt_sealed hreplay hrepresents hnonce hplain
  rw [← hciphertext, hsize] at hcases
  rwa [List.map_append, List.map_singleton]

variable (hreceives : direction.Receives log opened receiver)
  (hmem : entry ∈ log) (hnew : entry ∉ opened)
  (hgenuine : direction.Genuine entry)
  (htarget : entry.frame.targetLen ≤ limit)
  (hlimit : limit ≤ phantomOneMaxEnvelopeBytes)

include hreceives hmem hnew hgenuine htarget hlimit

/-- An envelope within reach is opened, if its padding can be counted. -/
theorem Receives.unseal_opens (hreach : InReach opened entry)
    (hroom : PaddingRoom opened entry) :
    ∃ next, receiver.unseal direction.aead entry.ciphertext limit =
        (.ok (direction.decoded entry.frame), next) ∧
      direction.Receives log (opened ++ [entry]) next := by
  have hinner := (inner_admissible_iff hreceives.ordered hreceives.mem_log hmem
    hnew).mpr hreach
  have houter := outer_admissible hreceives.ordered hreceives.mem_log hmem hnew
    (show 64 ≤ 129 by decide) hinner
  rcases hreceives.decrypt_cases hgenuine with
    ⟨hrefused, -⟩ | ⟨-, window, hdecrypt, hwindow, hsize⟩
  · exact absurd houter hrefused
  · obtain ⟨decoder, hdecode, hdecoder⟩ := (PhantomOneDecoder.decode_sent
      hreceives.decoder direction.config_validate hgenuine.fits htarget
        hlimit).1 ⟨by rwa [map_sequence], paddingFits_iff.mpr hroom⟩
    refine ⟨⟨{ receiver.recvCipher with replay := .window window }, decoder⟩,
      ?_, ?_⟩
    · simp only [PhantomOneDatagramReceiver.unseal, hdecrypt, bytes, hdecode]
      rfl
    · exact
        { ordered := hreceives.ordered
          mem_log := List.forall_mem_append.mpr
            ⟨hreceives.mem_log, List.forall_mem_singleton.mpr hmem⟩
          key_eq := hreceives.key_eq
          window := ⟨window, rfl, hwindow, hsize⟩
          decoder := by
            rw [List.map_append, List.map_singleton]
            exact hdecoder }

/-- Any other envelope is refused. -/
theorem Receives.unseal_fails
    (hbad : ¬ (InReach opened entry ∧ PaddingRoom opened entry)) :
    ∃ error next, receiver.unseal direction.aead entry.ciphertext limit =
        (.error error, next) := by
  rcases hreceives.decrypt_cases hgenuine with
    ⟨-, error, hdecrypt⟩ | ⟨-, window, hdecrypt, hwindow, hsize⟩
  · exact ⟨error, receiver, by
      simp only [PhantomOneDatagramReceiver.unseal, hdecrypt]⟩
  · obtain ⟨error, hdecode⟩ := (PhantomOneDecoder.decode_sent
      hreceives.decoder direction.config_validate hgenuine.fits htarget
        hlimit).2 fun hgood => hbad
          ⟨(inner_admissible_iff hreceives.ordered hreceives.mem_log hmem
              hnew).mp (map_sequence opened ▸ hgood.1),
            paddingFits_iff.mp hgood.2⟩
    exact ⟨error, ⟨{ receiver.recvCipher with replay := .window window },
      receiver.decoder⟩, by
        simp only [PhantomOneDatagramReceiver.unseal, hdecrypt, bytes,
          hdecode]⟩

end Receiver

end Direction

end Shph.PhantomOneChannel
