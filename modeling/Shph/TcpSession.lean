/-
The TCP data plane as a whole: whatever one end sent arrives at the other end
in order, for every envelope and every way the socket hands the bytes over.
-/
import Shph.PhantomOneSession
import Shph.TcpFrame

namespace Shph

open ByteCodec StatefulRun SlidingWindow SecureTcpSession
/-- The part of a receiver that takes frames apart. -/
structure FrameOpener where
  recvCipher : ReceiveCipher
  paddingProfile : Option ProfileTier
  phantomOneDecoder : Option PhantomOneDecoder

def FrameOpener.openBody (aead : Aead) (opener : FrameOpener) (body : Bytes) :
    Except ShphError Bytes × FrameOpener :=
  match TcpFrameReader.openFrame aead opener.recvCipher opener.paddingProfile
      body with
  | (.error error, recvCipher) => (.error error, { opener with recvCipher })
  | (.ok framed, recvCipher) =>
      match decodePhantomOne opener.phantomOneDecoder framed with
      | (result, phantomOneDecoder) =>
          (result, { opener with recvCipher, phantomOneDecoder })

/-- Sender and receiver hold the same envelope, after `sent` frames at most:
none, one padding profile, or a Phantom One encoder whose frames are exactly
those the decoder accepted. -/
inductive SameEnvelope {rng : Rng} (sent : Nat) :
    Option ProfileTier → Option (ProfilePadder rng) →
      Option (PhantomOneEncoder rng) → Option ProfileTier →
        Option PhantomOneDecoder → Prop where
  | plain (padder : Option (ProfilePadder rng)) :
      SameEnvelope sent none padder none none none
  | legacy (padder : ProfilePadder rng) :
      SameEnvelope sent (some padder.profile) (some padder) none
        (some padder.profile) none
  | phantomOne (padder : Option (ProfilePadder rng)) (profile : ProfileTier)
      (generation : UInt32) (frames : List (EncodeCall × SentFrame))
      (encoder : PhantomOneEncoder rng) (decoder : PhantomOneDecoder)
      (hlength : frames.length ≤ sent)
      (hproduced : PhantomOneEncoder.Produced (.forProfile profile) generation
        0 frames encoder)
      (hrepresents : PhantomOneDecoder.Represents (.forProfile profile)
        generation phantomOneDefaultReplayWindow (frames.map Prod.snd)
        decoder) :
      SameEnvelope sent none padder (some encoder) none (some decoder)

theorem PhantomOneConfig.forProfile_validate (profile : ProfileTier) :
    (forProfile profile).validate = .ok () := by
  cases profile <;> rfl

/-- In a session that counts its frames with the nonce, the next frame of the
encoder is the next frame of the decoder. -/
theorem decodeInPlace_emitted {rng : Rng} {profile : ProfileTier}
    {generation : UInt32} {frames : List (EncodeCall × SentFrame)}
    {encoder next : PhantomOneEncoder rng} {decoder : PhantomOneDecoder}
    {frame : SentFrame} {call : EncodeCall}
    (hlength : frames.length < aeadNonceLimit)
    (hproduced : PhantomOneEncoder.Produced (.forProfile profile) generation 0
      frames encoder)
    (hrepresents : PhantomOneDecoder.Represents (.forProfile profile)
      generation phantomOneDefaultReplayWindow (frames.map Prod.snd) decoder)
    (htype : frame.frameType = call.frameType)
    (hpayload : frame.payload = call.payload)
    (hemits : PhantomOneEncoder.Emits encoder next frame) :
    (frame.bytes (.forProfile profile) generation).length ≤
        phantomOneTcpPathMtu ∧
      ∃ after, decoder.decodeInPlace
          (frame.bytes (.forProfile profile) generation)
          phantomOneTcpPathMtu = (.ok frame.payload, after) ∧
        PhantomOneEncoder.Produced (.forProfile profile) generation 0
          (frames ++ [(call, frame)]) next ∧
        PhantomOneDecoder.Represents (.forProfile profile) generation
          phantomOneDefaultReplayWindow
          ((frames ++ [(call, frame)]).map Prod.snd) after := by
  have hextended := hproduced.emit htype hpayload hemits
  have hfits := (hextended.entry_ok (call, frame) (by simp)).2.2
  have hsmall : frame.targetLen ≤ 1360 :=
    ProfileTier.acceptsFrameLen_le (hfits.canonical rfl)
  have htarget : frame.targetLen ≤ phantomOneTcpPathMtu :=
    hsmall.trans (by decide)
  have hnumber : frame.sequence = frames.length := by
    have hlast := hextended.sequence_eq frames.length (call, frame)
      (by simp)
    simpa using hlast
  have hnumbers : ∀ old ∈ (frames.map Prod.snd).map SentFrame.sequence,
      old < frames.length := by
    intro old hold
    rw [List.map_map, List.mem_map] at hold
    obtain ⟨entry, hentry, rfl⟩ := hold
    obtain ⟨index, hindex⟩ := List.mem_iff_getElem?.mp hentry
    have heq := hproduced.sequence_eq index entry hindex
    have hlt := (List.getElem?_eq_some_iff.mp hindex).1
    simp only [Function.comp_apply, heq, UInt64.toNat_zero]
    omega
  have hadmissible : Admissible phantomOneDefaultReplayWindow
      ((frames.map Prod.snd).map SentFrame.sequence) frame.sequence := by
    rw [hnumber]
    constructor
    · intro hmem
      exact absurd (hnumbers _ hmem) (Nat.lt_irrefl _)
    · intro old hold
      exact (hnumbers old hold).trans_le (Nat.le_add_right _ _)
  have hpadding : PhantomOneDecoder.PaddingFits (.forProfile profile)
      (frames.map Prod.snd) frame := by
    have hbound := totalPadding_le_of_forall
      ((frames ++ [(call, frame)]).map Prod.snd) phantomOneMaxPaddingBytes (by
        intro other hother
        obtain ⟨entry, hentry, rfl⟩ := List.mem_map.mp hother
        exact (hextended.entry_ok entry hentry).2.2.padding_mem.2)
    rw [List.map_append, List.map_singleton] at hbound
    refine ⟨hbound.trans ?_, ?_⟩
    · simp only [List.length_append, List.length_map, List.length_singleton,
        phantomOneMaxPaddingBytes, u64Max, aeadNonceLimit] at hlength ⊢
      omega
    · intro budget hbudget
      simp [PhantomOneConfig.forProfile] at hbudget
  obtain ⟨after, hcall, hafter⟩ := (PhantomOneDecoder.accept_sent hrepresents
    (PhantomOneConfig.forProfile_validate profile) hfits htarget
    (by decide)).1 ⟨hadmissible, hpadding⟩
  refine ⟨?_, after, ?_, hextended, ?_⟩
  · rw [SentFrame.bytes_length]
    exact htarget
  · rw [PhantomOneDecoder.decodeInPlace, hcall]
    dsimp only
    rw [PhantomOneDecoder.payload_sent]
  · rw [List.map_append]
    exact hafter

/-- The sender's part of a frame: what `framed` returns goes into the cipher,
and what the cipher returns goes onto the wire behind its length. -/
def wireOf (body : Bytes) : Bytes := bigEndian 4 body.length ++ body

theorem TcpStream.writeAll_ok {stream next : TcpStream} {payload : Bytes}
    (hok : stream.writeAll payload = (.ok (), next)) :
    next.outgoing = stream.outgoing ++ payload := by
  unfold writeAll at hok
  split at hok
  · rw [← (Prod.mk.inj hok).2]
  · rw [← (Prod.mk.inj hok).2]
  · simp at hok

theorem writeTcpAllOrClosed_ok {stream next : TcpStream} {payload : Bytes}
    (hok : writeTcpAllOrClosed stream payload = (.ok (), next)) :
    next.outgoing = stream.outgoing ++ payload := by
  unfold writeTcpAllOrClosed at hok
  split at hok
  · rename_i after hwrite
    rw [← (Prod.mk.inj hok).2]
    exact TcpStream.writeAll_ok hwrite
  · simp at hok

namespace SecureTcpSession

variable {rng : Rng}

theorem writeFrame_ok {session next : SecureTcpSession rng} {body : Bytes}
    (hok : session.writeFrame body = (.ok (), next)) :
    next = { session with stream := next.stream } ∧
      next.stream.outgoing = session.stream.outgoing ++ wireOf body := by
  unfold writeFrame at hok
  split at hok
  · split at hok
    · simp at hok
    · rename_i stream hlength
      cases hbody : writeTcpAllOrClosed stream body with
      | mk result after =>
          rw [hbody] at hok
          obtain ⟨rfl, rfl⟩ := Prod.mk.inj hok
          refine ⟨rfl, ?_⟩
          change after.outgoing = _
          rw [writeTcpAllOrClosed_ok hbody, writeTcpAllOrClosed_ok hlength,
            List.append_assoc, wireOf]
  · simp at hok

/-- Everything a successful send did. -/
theorem sendFrame_ok {aead : Aead} {session next : SecureTcpSession rng}
    {payload : Bytes}
    (hok : session.sendFrame aead payload = (.ok (), next)) :
    ∃ plaintext middle ciphertext,
      payload.length ≤ maxTcpPayloadBytes ∧
      session.framed payload = (.ok plaintext, middle) ∧
      middle.sendCipher.nonce < aeadNonceLimit ∧
      aead.encrypt middle.sendCipher.key (nonceBytes middle.sendCipher.nonce)
        plaintext = some ciphertext ∧
      next.stream.outgoing = middle.stream.outgoing ++
        wireOf ((nonceBytes middle.sendCipher.nonce).val ++ ciphertext) ∧
      next = { middle with
        stream := next.stream
        sendCipher := { middle.sendCipher with
          nonce := middle.sendCipher.nonce + 1 } } := by
  unfold sendFrame at hok
  cases hcheck : session.checkSend payload with
  | error error => simp [hcheck] at hok
  | ok checked =>
      have hlength : payload.length ≤ maxTcpPayloadBytes := by
        simp only [checkSend, validateTcpPayload, bind_eq_ok_iff,
          ensure_eq_ok_iff, exists_const] at hcheck
        exact hcheck.1
      rw [hcheck] at hok
      cases hframed : session.framed payload with
      | mk result middle =>
          cases result with
          | error error => simp [hframed] at hok
          | ok plaintext =>
              simp only [hframed] at hok
              rcases middle.sendCipher.encrypt_cases aead plaintext with
                ⟨error, hcall⟩ | ⟨ciphertext, hlimit, hseal, hcall⟩
              · simp [hcall] at hok
              · simp only [hcall] at hok
                obtain ⟨hnext, hout⟩ := writeFrame_ok hok
                exact ⟨plaintext, middle, ciphertext, hlength, rfl, hlimit,
                  hseal, hout, hnext⟩

theorem framed_keeps (session : SecureTcpSession rng) (payload : Bytes) :
    (session.framed payload).2.sendCipher = session.sendCipher ∧
      (session.framed payload).2.stream = session.stream := by
  unfold framed
  split
  · exact ⟨rfl, rfl⟩
  · exact ⟨rfl, rfl⟩
  · split
    · exact ⟨rfl, rfl⟩
    · exact ⟨rfl, rfl⟩

/-- The envelope of a payload opens to the payload, and both ends agree again
afterwards. -/
theorem framed_opens {session middle : SecureTcpSession rng}
    {payload plaintext : Bytes} {sent : Nat} {profile : Option ProfileTier}
    {decoder : Option PhantomOneDecoder}
    (hsame : SameEnvelope sent session.paddingProfile session.paddingPadder
      session.phantomOneEncoder profile decoder)
    (hsent : sent < aeadNonceLimit)
    (hlength : payload.length ≤ maxTcpPayloadBytes)
    (hframed : session.framed payload = (.ok plaintext, middle)) :
    plaintext.length ≤ maxTcpPayloadBytes ∧
      ∃ unpadded after,
        TcpFrameReader.removePadding profile plaintext = .ok unpadded ∧
        decodePhantomOne decoder unpadded = (.ok payload, after) ∧
        SameEnvelope (sent + 1) middle.paddingProfile middle.paddingPadder
          middle.phantomOneEncoder profile after := by
  obtain ⟨stream, sendCipher, recvCipher, paddingProfile, paddingPadder,
    phantomOneEncoder, phantomOneDecoder, frameReader, osRng⟩ := session
  dsimp only at hsame
  cases hsame with
  | plain =>
      simp only [framed, Prod.mk.injEq, Except.ok.injEq] at hframed
      obtain ⟨rfl, rfl⟩ := hframed
      exact ⟨hlength, payload, none, rfl, rfl, .plain paddingPadder⟩
  | legacy padder =>
      simp only [framed, ProfilePadder.applyInto, Prod.mk.injEq] at hframed
      obtain ⟨happlied, rfl⟩ := hframed
      have hremoved := removeProfileInPlace_applied happlied
      obtain ⟨_, _, _, haccepts⟩ := applyProfileIntoWithRng_ok happlied
      have hsmall : plaintext.length ≤ 1360 :=
        ProfileTier.acceptsFrameLen_le haccepts
      refine ⟨hsmall.trans (by decide), payload, none, hremoved, rfl, ?_⟩
      exact .legacy (padder.applyInto payload).2
  | phantomOne _ tier generation frames encoder decoder hframes hproduced
      hrepresents =>
      simp only [framed, Prod.mk.injEq] at hframed
      obtain ⟨hencoded, rfl⟩ := hframed
      rcases encoder.run_cases (.encode .data payload phantomOneTcpPathMtu)
        with ⟨error, next, hcall, _⟩ |
          ⟨frame, next, hcall, htype, hpayload, hemits⟩
      · simp only [EncodeCall.run] at hcall
        rw [hcall] at hencoded
        simp at hencoded
      · simp only [EncodeCall.run] at hcall
        rw [hcall, hproduced.config_eq, hproduced.generation_eq,
          Except.ok.injEq] at hencoded
        obtain ⟨hsmall, after, hdecoded, hnext, hafter⟩ :=
          decodeInPlace_emitted (hframes.trans_lt hsent) hproduced hrepresents
            htype hpayload hemits
        rw [hencoded] at hsmall hdecoded
        refine ⟨hsmall, plaintext, some after, rfl, ?_, ?_⟩
        · rw [decodePhantomOne, hdecoded, hpayload]
          rfl
        · rw [hcall]
          refine .phantomOne paddingPadder tier generation _ next after ?_
            hnext hafter
          simpa using hframes

/-- Both ends of one direction: the receiver has opened everything that was
sent. -/
structure Synced (key : Key) (sender : SecureTcpSession rng)
    (opener : FrameOpener) : Prop where
  sendKey : sender.sendCipher.key = key
  recvKey : opener.recvCipher.key = key
  replay : ∃ last, opener.recvCipher.replay = .strict last ∧
    ∀ counter ∈ last, counter < sender.sendCipher.nonce
  envelope : SameEnvelope sender.sendCipher.nonce sender.paddingProfile
    sender.paddingPadder sender.phantomOneEncoder opener.paddingProfile
    opener.phantomOneDecoder

/-- One frame: its body passes the receiver's length check and opens to the
payload, and the ends agree again. -/
theorem sendFrame_synced {aead : Aead} {key : Key}
    {sender next : SecureTcpSession rng} {opener : FrameOpener}
    {payload : Bytes} (hsynced : Synced key sender opener)
    (hok : sender.sendFrame aead payload = (.ok (), next)) :
    ∃ body after, 0 < body.length ∧ body.length ≤ maxFrameBytes ∧
      next.stream.outgoing = sender.stream.outgoing ++ wireOf body ∧
      opener.openBody aead body = (.ok payload, after) ∧
      Synced key next after := by
  obtain ⟨plaintext, middle, ciphertext, hlength, hframed, hlimit, hseal, hout,
    hnext⟩ := sendFrame_ok hok
  obtain ⟨hcipher, hstream⟩ := sender.framed_keeps payload
  rw [hframed] at hcipher hstream
  dsimp only at hcipher hstream
  rw [hcipher] at hlimit hseal hout hnext
  rw [hstream] at hout
  obtain ⟨hsmall, unpadded, decoder, hremoved, hdecoded, hsame⟩ :=
    framed_opens hsynced.envelope hlimit hlength hframed
  obtain ⟨last, hstrict, hbelow⟩ := hsynced.replay
  have hcounter : sender.sendCipher.nonce < 2 ^ 64 := by
    simp only [aeadNonceLimit] at hlimit
    omega
  have hcandidate : opener.recvCipher.replay.candidate
      sender.sendCipher.nonce =
        some (.strict (some sender.sendCipher.nonce)) := by
    rw [hstrict, ReplayState.candidate, if_neg]
    rw [Option.any_eq_true]
    rintro ⟨counter, hlast, hle⟩
    have hlt := hbelow counter hlast
    rw [decide_eq_true_eq] at hle
    omega
  have hopened := ReceiveCipher.decrypt_of_candidate hcounter hcandidate (by
    rw [hsynced.recvKey, ← hsynced.sendKey]
    exact aead.decrypt_encrypt hseal)
  refine ⟨_, { opener with
      recvCipher := { opener.recvCipher with
        replay := .strict (some sender.sendCipher.nonce) }
      phantomOneDecoder := decoder }, ?_, ?_, hout, ?_, ?_⟩
  · rw [List.length_append, (nonceBytes _).length_eq]
    omega
  · rw [List.length_append, (nonceBytes _).length_eq,
      aead.encrypt_length hseal]
    simp only [maxTcpPayloadBytes, maxFrameBytes,
      shroudAeadOverhead] at hsmall ⊢
    omega
  · simp only [FrameOpener.openBody, TcpFrameReader.openFrame, hopened,
      hremoved, hdecoded]
  · rw [hnext]
    exact
      { sendKey := hsynced.sendKey
        recvKey := hsynced.recvKey
        replay := ⟨_, rfl, by
          intro counter hcounter
          rw [Option.mem_some_iff] at hcounter
          rw [← hcounter]
          exact Nat.lt_succ_self _⟩
        envelope := hsame }

end SecureTcpSession

/-- The two inner envelopes exclude each other. -/
def FrameOpener.Exclusive (opener : FrameOpener) : Prop :=
  ¬ (opener.phantomOneDecoder.isSome ∧ opener.paddingProfile.isSome)

/-- The frames, each a body with its payload, that a receiver opens one after
the other. -/
def Opens (aead : Aead) : FrameOpener → List (Bytes × Bytes) → Prop
  | opener, [] => opener.Exclusive
  | opener, (body, payload) :: rest =>
      opener.Exclusive ∧ 0 < body.length ∧ body.length ≤ maxFrameBytes ∧
        ∃ after, opener.openBody aead body = (.ok payload, after) ∧
          Opens aead after rest

theorem Opens.exclusive {aead : Aead} {opener : FrameOpener}
    {frames : List (Bytes × Bytes)} (hopens : Opens aead opener frames) :
    opener.Exclusive := by
  cases frames with
  | nil => exact hopens
  | cons frame rest => exact hopens.1

/-- The bytes of a list of frames on the wire. -/
def wires (frames : List (Bytes × Bytes)) : Bytes :=
  frames.flatMap fun frame => wireOf frame.1

@[simp] theorem wires_nil : wires [] = [] := rfl

@[simp] theorem wires_cons (frame : Bytes × Bytes)
    (frames : List (Bytes × Bytes)) :
    wires (frame :: frames) = wireOf frame.1 ++ wires frames := rfl

theorem wires_append (first second : List (Bytes × Bytes)) :
    wires (first ++ second) = wires first ++ wires second :=
  List.flatMap_append

@[simp] theorem wireOf_length (body : Bytes) :
    (wireOf body).length = 4 + body.length := by
  rw [wireOf, List.length_append, bigEndian_length]

namespace SecureTcpSession

variable {rng : Rng} {aead : Aead} {key : Key}

theorem Synced.exclusive {sender : SecureTcpSession rng}
    {opener : FrameOpener} (hsynced : Synced key sender opener) :
    opener.Exclusive := by
  obtain ⟨recvCipher, profile, decoder⟩ := opener
  obtain ⟨_, _, _, paddingProfile, _, encoder, _, _, _⟩ := sender
  have hsame := hsynced.envelope
  dsimp only at hsame
  unfold FrameOpener.Exclusive
  cases hsame with
  | plain => simp
  | legacy padder => simp
  | phantomOne => simp

/-- A run of successful sends: the receiver opens the frames in order, and the
stream is cut at the ends of the frames. -/
theorem sendFrame_run_opens {sender : SecureTcpSession rng}
    {opener : FrameOpener} (payloads : List Bytes)
    (hsynced : Synced key sender opener)
    (hok : ∀ entry ∈ trace (sendFrame aead) sender payloads,
      entry.2 = .ok ()) :
    ∃ frames : List (Bytes × Bytes), frames.map Prod.snd = payloads ∧
      Opens aead opener frames ∧
      ∀ count, (final (sendFrame aead) sender
          (payloads.take count)).stream.outgoing =
        sender.stream.outgoing ++ wires (frames.take count) := by
  induction payloads generalizing sender opener with
  | nil => exact ⟨[], rfl, hsynced.exclusive, by simp⟩
  | cons payload rest ih =>
      rw [trace_cons, List.forall_mem_cons] at hok
      obtain ⟨hfirst, hrest⟩ := hok
      obtain ⟨body, after, hpos, hmax, hout, hopened, hnext⟩ :=
        sendFrame_synced hsynced (Prod.ext hfirst rfl)
      obtain ⟨frames, hframes, hopens, hcuts⟩ := ih hnext hrest
      refine ⟨(body, payload) :: frames, ?_, ?_, ?_⟩
      · rw [List.map_cons, hframes]
      · exact ⟨hsynced.exclusive, hpos, hmax, after, hopened, hopens⟩
      · intro count
        cases count with
        | zero => simp
        | succ count =>
            rw [List.take_succ_cons, final_cons, hcuts, hout,
              List.take_succ_cons, wires_cons, List.append_assoc]

end SecureTcpSession

namespace ReadEvent

def isReady : ReadEvent → Bool
  | ready _ => true
  | _ => false

def isTimeout : ReadEvent → Bool
  | failed .timedOut | failed .wouldBlock => true
  | _ => false

/-- The events of a connection that stays open. -/
def quiet (event : ReadEvent) : Bool :=
  event.isReady || event.isTimeout || event == failed .interrupted

theorem quiet_cases {event : ReadEvent} (hquiet : event.quiet = true) :
    (∃ extra, event = ready extra) ∨
      (event = failed .timedOut ∨ event = failed .wouldBlock) ∨
      event = failed .interrupted := by
  cases event with
  | ready extra => exact Or.inl ⟨extra, rfl⟩
  | closed => simp [quiet, isReady, isTimeout] at hquiet
  | failed kind => cases kind <;> simp_all [quiet, isReady, isTimeout]

end ReadEvent

def readies (reads : List ReadEvent) : Nat := reads.countP ReadEvent.isReady

def timeouts (reads : List ReadEvent) : Nat :=
  reads.countP ReadEvent.isTimeout

theorem readies_cons (event : ReadEvent) (reads : List ReadEvent) :
    readies (event :: reads) =
      readies reads + if event.isReady then 1 else 0 :=
  List.countP_cons

theorem timeouts_cons (event : ReadEvent) (reads : List ReadEvent) :
    timeouts (event :: reads) =
      timeouts reads + if event.isTimeout then 1 else 0 :=
  List.countP_cons

namespace TcpFrameReader

/-- The reader holds the beginning of a frame, and the rest of the stream is
still in the socket. -/
structure Reading (reader : TcpFrameReader) (incoming body rest : Bytes) :
    Prop where
  stream_eq : reader.wire ++ incoming = wireOf body ++ rest
  wire_le : reader.wire.length ≤ 4 + body.length
  length_eq : (reader.expectedWireLen = none ∧ reader.wire.length ≤ 4) ∨
    (reader.expectedWireLen = some (4 + body.length) ∧ 4 ≤ reader.wire.length)

variable {reader : TcpFrameReader} {incoming body rest : Bytes}

theorem Reading.take_length (hreading : Reading reader incoming body rest)
    (hlong : 4 ≤ reader.wire.length) :
    reader.wire.take 4 = bigEndian 4 body.length := by
  have htake := congrArg (List.take 4) hreading.stream_eq
  rw [List.take_append_of_le_length hlong, wireOf, List.append_assoc] at htake
  rw [htake]
  exact List.take_left' (bigEndian_length _ _)

theorem Reading.complete (hreading : Reading reader incoming body rest)
    (hfull : reader.wire.length = 4 + body.length) :
    reader.wire = wireOf body ∧ incoming = rest :=
  List.append_inj hreading.stream_eq (by rw [hfull, wireOf_length])

/-- The length check passes on a frame of the sender. -/
theorem parseLength_reading (hreading : Reading reader incoming body rest)
    (hpos : 0 < body.length) (hmax : body.length ≤ maxFrameBytes) :
    ∃ settled, reader.parseLength = .ok settled ∧
      Reading settled incoming body rest ∧
      (settled.expectedWireLen = none → settled.wire.length < 4) := by
  unfold parseLength
  split
  · rename_i hready
    have hlength : ofBigEndian (reader.wire.take 4) = body.length := by
      rw [hreading.take_length hready.2]
      apply ofBigEndian_bigEndian
      simp only [maxFrameBytes] at hmax
      omega
    dsimp only
    rw [hlength, if_neg (by omega)]
    refine ⟨_, rfl, ⟨hreading.stream_eq, hreading.wire_le, ?_⟩, ?_⟩
    · exact Or.inr ⟨rfl, hready.2⟩
    · intro hnone
      simp at hnone
  · rename_i hnot
    refine ⟨reader, rfl, hreading, fun hnone => ?_⟩
    exact Nat.lt_of_not_le fun hlong => hnot ⟨hnone, hlong⟩

/-- One successful read takes at least one byte and stays within the frame. -/
theorem Reading.read (hreading : Reading reader incoming body rest)
    (hsettled : reader.expectedWireLen = none → reader.wire.length < 4)
    (hshorter : reader.wire.length < 4 + body.length) (extra : Nat) :
    ∃ byte chunk after,
      (ReadEvent.ready extra).read incoming
        (min reader.needed readChunkBytes) = .ok (byte :: chunk, after) ∧
      after.length < incoming.length ∧
      Reading { reader with wire := reader.wire ++ byte :: chunk } after body
        rest := by
  have hneeded : 0 < reader.needed ∧
      ((reader.expectedWireLen = none ∧
          reader.wire.length + reader.needed = 4) ∨
        (reader.expectedWireLen = some (4 + body.length) ∧
          4 ≤ reader.wire.length ∧
          reader.wire.length + reader.needed = 4 + body.length)) := by
    rcases hreading.length_eq with ⟨hnone, _⟩ | ⟨hsome, hlong⟩
    · have hshort := hsettled hnone
      simp only [needed, hnone]
      exact ⟨by omega, Or.inl ⟨trivial, by omega⟩⟩
    · simp only [needed, hsome]
      exact ⟨by omega, Or.inr ⟨trivial, hlong, by omega⟩⟩
  have hnonempty : incoming ≠ [] := by
    intro hnil
    have hlength := congrArg List.length hreading.stream_eq
    simp only [hnil, List.append_nil, List.length_append,
      wireOf_length] at hlength
    omega
  generalize hcount : min (min reader.needed readChunkBytes) (extra + 1) =
    count
  have hbounds : 0 < count ∧ count ≤ reader.needed := by
    simp only [readChunkBytes] at hcount
    omega
  have hpos : 0 < min reader.needed readChunkBytes := by
    simp only [readChunkBytes]
    omega
  obtain ⟨byte, bytes, rfl⟩ := List.exists_cons_of_ne_nil hnonempty
  obtain ⟨count, rfl⟩ := Nat.exists_eq_succ_of_ne_zero hbounds.1.ne'
  refine ⟨byte, bytes.take count, bytes.drop count, ?_, ?_, ?_⟩
  · simp only [ReadEvent.read, if_neg hpos.ne', if_neg hnonempty, hcount,
      List.splitAt_eq, List.take_succ_cons, List.drop_succ_cons]
  · simp only [List.length_drop, List.length_cons]
    omega
  · have htaken : (byte :: bytes.take count).length ≤ reader.needed := by
      simp only [List.length_cons, List.length_take]
      omega
    refine ⟨?_, ?_, ?_⟩
    · rw [← hreading.stream_eq, List.append_assoc, List.cons_append,
        List.take_append_drop]
    · rw [List.length_append]
      omega
    · rw [List.length_append]
      rcases hneeded.2 with ⟨hnone, _⟩ | ⟨hsome, hlong, _⟩
      · exact Or.inl ⟨hnone, by omega⟩
      · exact Or.inr ⟨hsome, by omega⟩

/-- How a call ended while the reader was inside a frame: the frame was
completed, or the socket timed out and the reader keeps what it has. -/
inductive CallEnd (aead : Aead) (paddingProfile : Option ProfileTier)
    (cipher : ReceiveCipher) (body rest : Bytes) (reads left : List ReadEvent)
    (after : Bytes) :
    Except ShphError Bytes × TcpFrameReader × Bytes × List ReadEvent ×
      ReceiveCipher → Prop where
  | opened (hafter : after = rest) (htimeouts : timeouts reads = timeouts left) :
      CallEnd aead paddingProfile cipher body rest reads left after
        ((openFrame aead cipher paddingProfile body).1, .default, rest, left,
          (openFrame aead cipher paddingProfile body).2)
  | timedOut (reader : TcpFrameReader)
      (hreading : Reading reader after body rest)
      (hshorter : reader.wire.length < 4 + body.length)
      (htimeouts : timeouts reads = timeouts left + 1 ∨
        (timeouts reads = timeouts left ∧ left = [])) :
      CallEnd aead paddingProfile cipher body rest reads left after
        (.error .timeout, reader, after, left, cipher)

theorem CallEnd.of_timeouts_eq {aead : Aead}
    {paddingProfile : Option ProfileTier} {cipher : ReceiveCipher}
    {body rest after : Bytes} {reads more left : List ReadEvent}
    {outcome : Except ShphError Bytes × TcpFrameReader × Bytes ×
      List ReadEvent × ReceiveCipher}
    (hend : CallEnd aead paddingProfile cipher body rest reads left after
      outcome) (hsame : timeouts more = timeouts reads) :
    CallEnd aead paddingProfile cipher body rest more left after outcome := by
  cases hend with
  | opened hafter htimeouts => exact .opened hafter (hsame.trans htimeouts)
  | timedOut reader hreading hshorter htimeouts =>
      exact .timedOut reader hreading hshorter (hsame ▸ htimeouts)

theorem Reading.not_complete (hreading : Reading reader incoming body rest)
    (hshorter : reader.wire.length < 4 + body.length) :
    reader.expectedWireLen.filter (· ≤ reader.wire.length) = none := by
  rcases hreading.length_eq with ⟨hnone, _⟩ | ⟨hsome, _⟩
  · rw [hnone]
    rfl
  · rw [hsome, Option.filter_some, if_neg]
    rw [decide_eq_true_eq]
    exact Nat.not_le_of_lt hshorter

theorem recvFrame_of_complete (aead : Aead)
    (paddingProfile : Option ProfileTier) (cipher : ReceiveCipher)
    (reads : List ReadEvent) {settled : TcpFrameReader}
    (hparse : reader.parseLength = .ok settled)
    (hsettled : Reading settled incoming body rest) (hpos : 0 < body.length)
    (hfull : settled.wire.length = 4 + body.length) :
    recvFrame aead paddingProfile reads reader incoming cipher =
        ((openFrame aead cipher paddingProfile body).1, .default, rest, reads,
          (openFrame aead cipher paddingProfile body).2) ∧
      incoming = rest := by
  obtain ⟨hwire, hincoming⟩ := hsettled.complete hfull
  have hexpected : settled.expectedWireLen = some (4 + body.length) := by
    rcases hsettled.length_eq with ⟨_, hshort⟩ | ⟨hsome, _⟩
    · omega
    · exact hsome
  have hfilter : settled.expectedWireLen.filter (· ≤ settled.wire.length) =
      some (4 + body.length) := by
    rw [hexpected, Option.filter_some, if_pos]
    rw [decide_eq_true_eq, hfull]
  have hbody : slice settled.wire 4 (4 + body.length - 4) = body := by
    have hslice := @slice_append (bigEndian 4 body.length) body [] 4 body.length
      (bigEndian_length _ _) rfl
    rw [List.append_nil] at hslice
    rw [hwire, Nat.add_sub_cancel_left]
    exact hslice
  refine ⟨?_, hincoming⟩
  unfold recvFrame
  rw [hparse]
  simp only [hfilter, hbody, hincoming]

/-- A call inside a frame of the sender, over every run of read events. -/
theorem recvFrame_reading (aead : Aead) (paddingProfile : Option ProfileTier)
    (cipher : ReceiveCipher) (hpos : 0 < body.length)
    (hmax : body.length ≤ maxFrameBytes) (reads : List ReadEvent)
    (hquiet : ∀ event ∈ reads, event.quiet = true)
    (hreading : Reading reader incoming body rest) :
    ∃ left after, (∀ event ∈ left, event.quiet = true) ∧
      readies reads + after.length ≤ readies left + incoming.length ∧
      CallEnd aead paddingProfile cipher body rest reads left after
        (recvFrame aead paddingProfile reads reader incoming cipher) := by
  induction reads generalizing reader incoming with
  | nil =>
      obtain ⟨settled, hparse, hsettled, hshort⟩ :=
        parseLength_reading hreading hpos hmax
      by_cases hfull : settled.wire.length = 4 + body.length
      · obtain ⟨hcall, rfl⟩ := recvFrame_of_complete aead paddingProfile cipher
          [] hparse hsettled hpos hfull
        refine ⟨[], incoming, by simp, by omega, ?_⟩
        rw [hcall]
        exact .opened rfl rfl
      · have hshorter := Nat.lt_of_le_of_ne hsettled.wire_le hfull
        refine ⟨[], incoming, by simp, by omega, ?_⟩
        rw [recvFrame, hparse]
        simp only [hsettled.not_complete hshorter]
        exact .timedOut settled hsettled hshorter (Or.inr ⟨rfl, rfl⟩)
  | cons event reads ih =>
      obtain ⟨hevent, hrest⟩ := List.forall_mem_cons.mp hquiet
      obtain ⟨settled, hparse, hsettled, hshort⟩ :=
        parseLength_reading hreading hpos hmax
      by_cases hfull : settled.wire.length = 4 + body.length
      · obtain ⟨hcall, rfl⟩ := recvFrame_of_complete aead paddingProfile cipher
          (event :: reads) hparse hsettled hpos hfull
        refine ⟨event :: reads, incoming, hquiet, by omega, ?_⟩
        rw [hcall]
        exact .opened rfl rfl
      · have hshorter := Nat.lt_of_le_of_ne hsettled.wire_le hfull
        rw [recvFrame, hparse]
        simp only [hsettled.not_complete hshorter]
        rcases ReadEvent.quiet_cases hevent with ⟨extra, rfl⟩ | hlate | rfl
        · obtain ⟨byte, chunk, after, hread, hless, hnext⟩ :=
            hsettled.read hshort hshorter extra
          obtain ⟨left, final, hleft, hready, hend⟩ := ih hrest hnext
          refine ⟨left, final, hleft, ?_, ?_⟩
          · rw [readies_cons]
            change readies reads + 1 + _ ≤ _
            omega
          · simp only [hread]
            exact hend.of_timeouts_eq (timeouts_cons _ reads)
        · refine ⟨reads, incoming, hrest, ?_, ?_⟩
          · rcases hlate with rfl | rfl
            · exact (congrArg (· + _) (readies_cons _ reads)).le
            · exact (congrArg (· + _) (readies_cons _ reads)).le
          · have hmore := timeouts_cons event reads
            rcases hlate with rfl | rfl
            · exact .timedOut settled hsettled hshorter (Or.inl hmore)
            · exact .timedOut settled hsettled hshorter (Or.inl hmore)
        · obtain ⟨left, final, hleft, hready, hend⟩ := ih hrest hsettled
          refine ⟨left, final, hleft, ?_, ?_⟩
          · rw [readies_cons]
            exact hready
          · exact hend.of_timeouts_eq (timeouts_cons _ reads)

/-- Behind the last frame a call only waits. -/
theorem recvFrame_drained (aead : Aead) (paddingProfile : Option ProfileTier)
    (cipher : ReceiveCipher) (reads : List ReadEvent)
    (hquiet : ∀ event ∈ reads, event.quiet = true) :
    ∃ left, (∀ event ∈ left, event.quiet = true) ∧
      timeouts reads ≤ timeouts left + 1 ∧
      recvFrame aead paddingProfile reads .default [] cipher =
        (.error .timeout, .default, [], left, cipher) := by
  induction reads with
  | nil => exact ⟨[], by simp, Nat.zero_le _, rfl⟩
  | cons event reads ih =>
      obtain ⟨hevent, hrest⟩ := List.forall_mem_cons.mp hquiet
      have hcount := timeouts_cons event reads
      rcases ReadEvent.quiet_cases hevent with ⟨extra, rfl⟩ | (rfl | rfl) | rfl
      · exact ⟨reads, hrest, by rw [hcount]; exact Nat.le_succ _, rfl⟩
      · exact ⟨reads, hrest, by rw [hcount]; exact Nat.le_refl _, rfl⟩
      · exact ⟨reads, hrest, by rw [hcount]; exact Nat.le_refl _, rfl⟩
      · obtain ⟨left, hleft, hbound, hcall⟩ := ih hrest
        exact ⟨left, hleft, by rw [hcount]; exact hbound, hcall⟩

/-- What the reader and the socket hold while these frames are to come. -/
def Buffered (reader : TcpFrameReader) (incoming : Bytes) :
    List (Bytes × Bytes) → Prop
  | [] => reader = .default ∧ incoming = []
  | (body, _) :: rest => Reading reader incoming body (wires rest) ∧
      reader.wire.length < 4 + body.length

theorem buffered_default (frames : List (Bytes × Bytes)) :
    Buffered .default (wires frames) frames := by
  cases frames with
  | nil => exact ⟨rfl, rfl⟩
  | cons frame rest =>
      refine ⟨⟨rfl, Nat.zero_le _, Or.inl ⟨rfl, Nat.zero_le _⟩⟩, ?_⟩
      change 0 < _
      omega

theorem Buffered.stream_eq {reader : TcpFrameReader} {incoming : Bytes}
    {frames : List (Bytes × Bytes)}
    (hbuffered : Buffered reader incoming frames) :
    reader.wire ++ incoming = wires frames := by
  cases frames with
  | nil =>
      obtain ⟨rfl, rfl⟩ := hbuffered
      rfl
  | cons frame rest => exact hbuffered.1.stream_eq

theorem Buffered.incoming_length_pos {reader : TcpFrameReader}
    {incoming : Bytes} {frames : List (Bytes × Bytes)}
    (hbuffered : Buffered reader incoming frames) (hmore : frames ≠ []) :
    0 < incoming.length := by
  cases frames with
  | nil => exact absurd rfl hmore
  | cons frame rest =>
      obtain ⟨hreading, hshorter⟩ := hbuffered
      have hlength := congrArg List.length hreading.stream_eq
      rw [List.length_append, List.length_append, wireOf_length] at hlength
      omega

end TcpFrameReader

namespace SecureTcpSession

variable {rng : Rng} {aead : Aead}

def opener (session : SecureTcpSession rng) : FrameOpener :=
  { recvCipher := session.recvCipher, paddingProfile := session.paddingProfile
    phantomOneDecoder := session.phantomOneDecoder }

/-- What one call does to a session that still has frames to come: it returns
the next payload and leaves the stream at the end of its frame, or it times
out and keeps its place. -/
inductive RecvStep (aead : Aead) (session next : SecureTcpSession rng) :
    List (Bytes × Bytes) → Except ShphError Bytes → List (Bytes × Bytes) →
      Prop where
  | delivered (body payload : Bytes) (rest : List (Bytes × Bytes))
      (hopens : Opens aead next.opener rest)
      (hdefault : next.frameReader = .default)
      (hincoming : next.stream.incoming = wires rest)
      (htimeouts : timeouts session.stream.reads = timeouts next.stream.reads)
      (hreadies : readies session.stream.reads + next.stream.incoming.length ≤
        readies next.stream.reads + session.stream.incoming.length) :
      RecvStep aead session next ((body, payload) :: rest) (.ok payload) rest
  | timedOut (frames : List (Bytes × Bytes))
      (hopens : Opens aead next.opener frames)
      (hbuffered : TcpFrameReader.Buffered next.frameReader
        next.stream.incoming frames)
      (htimeouts : timeouts session.stream.reads ≤
        timeouts next.stream.reads + 1)
      (hwaiting : frames ≠ [] →
        readies session.stream.reads + next.stream.incoming.length ≤
            readies next.stream.reads + session.stream.incoming.length ∧
          (timeouts session.stream.reads = timeouts next.stream.reads + 1 ∨
            next.stream.reads = [])) :
      RecvStep aead session next frames (.error .timeout) frames

theorem recvFrame_step {session : SecureTcpSession rng}
    {frames : List (Bytes × Bytes)}
    (hopens : Opens aead session.opener frames)
    (hbuffered : TcpFrameReader.Buffered session.frameReader
      session.stream.incoming frames)
    (hquiet : ∀ event ∈ session.stream.reads, event.quiet = true) :
    (∀ event ∈ (session.recvFrame aead).2.stream.reads, event.quiet = true) ∧
      ∃ rest, RecvStep aead session (session.recvFrame aead).2 frames
        (session.recvFrame aead).1 rest := by
  have hexclusive : ¬ (session.phantomOneDecoder.isSome = true ∧
      session.paddingProfile.isSome = true) := hopens.exclusive
  unfold recvFrame
  rw [if_neg hexclusive]
  cases frames with
  | nil =>
      obtain ⟨hreader, hincoming⟩ := hbuffered
      obtain ⟨left, hleft, hbound, hcall⟩ :=
        TcpFrameReader.recvFrame_drained aead session.paddingProfile
          session.recvCipher session.stream.reads hquiet
      rw [hreader, hincoming, hcall]
      refine ⟨hleft, [], .timedOut [] hopens ⟨rfl, rfl⟩ hbound ?_⟩
      intro hne
      exact absurd rfl hne
  | cons frame rest =>
      obtain ⟨body, payload⟩ := frame
      obtain ⟨hpos, hmax, after, hopened, hrest⟩ := hopens.2
      obtain ⟨left, remaining, hleft, hready, hend⟩ :=
        TcpFrameReader.recvFrame_reading aead session.paddingProfile
          session.recvCipher hpos hmax session.stream.reads hquiet hbuffered.1
      generalize hcall : TcpFrameReader.recvFrame aead session.paddingProfile
        session.stream.reads session.frameReader session.stream.incoming
        session.recvCipher = outcome at hend ⊢
      cases hend with
      | timedOut reader hreading hshorter htimeouts =>
          refine ⟨hleft, _, .timedOut _ hopens ⟨hreading, hshorter⟩ ?_ ?_⟩
          · dsimp only
            omega
          · intro _
            exact ⟨hready, htimeouts.imp id And.right⟩
      | opened hafter htimeouts =>
          rw [hafter] at hready
          simp only [FrameOpener.openBody, opener] at hopened
          cases hframe : TcpFrameReader.openFrame aead session.recvCipher
              session.paddingProfile body with
          | mk result cipher =>
              rw [hframe] at hopened
              cases result with
              | error error => simp at hopened
              | ok framed =>
                  dsimp only at hopened ⊢
                  cases hdecoded : decodePhantomOne session.phantomOneDecoder
                      framed with
                  | mk result decoder =>
                      rw [hdecoded] at hopened
                      obtain ⟨rfl, rfl⟩ := Prod.mk.inj hopened
                      exact ⟨hleft, _, .delivered body payload rest hrest rfl
                        rfl htimeouts hready⟩

/-- A receiver in the middle of its stream: `done` frames were returned in
order, everything else timed out, and the read events are accounted for. -/
structure Receiving (aead : Aead) (frames : List (Bytes × Bytes))
    (reads : List ReadEvent) (history : List (Unit × Except ShphError Bytes))
    (session : SecureTcpSession rng) (done : Nat) : Prop where
  done_le : done ≤ frames.length
  values : (successes history).map Prod.snd = (frames.take done).map Prod.snd
  errors : ∀ entry ∈ history, ∀ error, entry.2 = .error error →
    error = .timeout
  opens : Opens aead session.opener (frames.drop done)
  buffered : TcpFrameReader.Buffered session.frameReader
    session.stream.incoming (frames.drop done)
  quiet : ∀ event ∈ session.stream.reads, event.quiet = true
  surfaced : timeouts reads + done ≤
    timeouts session.stream.reads + history.length
  enough : (wires frames).length ≤ readies reads →
    session.stream.incoming.length ≤ readies session.stream.reads ∧
      (done < frames.length →
        history.length + timeouts session.stream.reads ≤
          timeouts reads + done)

theorem Receiving.step {frames : List (Bytes × Bytes)}
    {reads : List ReadEvent}
    {history : List (Unit × Except ShphError Bytes)}
    {session : SecureTcpSession rng} {done : Nat}
    (hreceiving : Receiving aead frames reads history session done) :
    ∃ after, Receiving aead frames reads
      (history ++ [((), (session.recvFrame aead).1)])
      (session.recvFrame aead).2 after := by
  obtain ⟨hquiet, rest, hstep⟩ := recvFrame_step hreceiving.opens
    hreceiving.buffered hreceiving.quiet
  have hsurfaced := hreceiving.surfaced
  have henough := hreceiving.enough
  generalize hframes : frames.drop done = remaining at hstep
  generalize hresult : (session.recvFrame aead).1 = result at hstep ⊢
  cases hstep with
  | delivered body payload rest hopens hdefault hincoming htimeouts hreadies =>
      have hlt : done < frames.length := by
        have hlength := congrArg List.length hframes
        rw [List.length_drop, List.length_cons] at hlength
        omega
      have hget : frames[done]? = some (body, payload) := by
        rw [← List.head?_drop, hframes, List.head?_cons]
      have hdrop : frames.drop (done + 1) = rest := by
        rw [← List.tail_drop, hframes, List.tail_cons]
      refine ⟨done + 1, ?_⟩
      exact
        { done_le := hlt
          values := by
            rw [successes_append, successes_singleton_ok, List.map_append,
              hreceiving.values, List.take_add_one, hget, List.map_append]
            rfl
          errors := by
            intro entry hentry error herror
            rw [List.mem_append, List.mem_singleton] at hentry
            rcases hentry with hentry | rfl
            · exact hreceiving.errors entry hentry error herror
            · simp at herror
          opens := hdrop ▸ hopens
          buffered := by
            rw [hdrop, hdefault, hincoming]
            exact TcpFrameReader.buffered_default rest
          quiet := hquiet
          surfaced := by
            rw [List.length_append, List.length_singleton]
            omega
          enough := by
            intro hall
            obtain ⟨hready, hcalls⟩ := henough hall
            have hcalls := hcalls hlt
            rw [List.length_append, List.length_singleton]
            exact ⟨by omega, fun _ => by omega⟩ }
  | timedOut _ hopens hbuffered htimeouts hwaiting =>
      refine ⟨done, ?_⟩
      exact
        { done_le := hreceiving.done_le
          values := by
            rw [successes_append, successes_singleton_error, List.append_nil]
            exact hreceiving.values
          errors := by
            intro entry hentry error herror
            rw [List.mem_append, List.mem_singleton] at hentry
            rcases hentry with hentry | rfl
            · exact hreceiving.errors entry hentry error herror
            · exact (Except.error.inj herror).symm
          opens := hframes ▸ hopens
          buffered := hframes ▸ hbuffered
          quiet := hquiet
          surfaced := by
            rw [List.length_append, List.length_singleton]
            omega
          enough := by
            intro hall
            obtain ⟨hready, hcalls⟩ := henough hall
            rw [List.length_append, List.length_singleton]
            by_cases hdone : done < frames.length
            · have hmore : frames.drop done ≠ [] := by
                rw [ne_eq, List.drop_eq_nil_iff]
                omega
              rw [hframes] at hmore
              obtain ⟨hreadies, hlate⟩ := hwaiting hmore
              have hpending := hbuffered.incoming_length_pos hmore
              have hcalls := hcalls hdone
              refine ⟨by omega, fun _ => ?_⟩
              rcases hlate with hlate | hnone
              · omega
              · rw [hnone] at hreadies
                simp only [readies, List.countP_nil] at hreadies hready
                omega
            · have hnil : frames.drop done = [] := by
                rw [List.drop_eq_nil_iff]
                omega
              rw [← hframes, hnil] at hbuffered
              rw [hbuffered.2]
              exact ⟨Nat.zero_le _, fun hlt => absurd hlt hdone⟩ }

/-- The reader never holds more than the frame it is in. -/
theorem Receiving.inside_frame {frames : List (Bytes × Bytes)}
    {reads : List ReadEvent}
    {history : List (Unit × Except ShphError Bytes)}
    {session : SecureTcpSession rng} {done : Nat}
    (hreceiving : Receiving aead frames reads history session done)
    (hlt : done < frames.length) :
    (wires (frames.take done)).length + session.frameReader.wire.length <
      (wires (frames.take (done + 1))).length := by
  have hbuffered := hreceiving.buffered
  rw [List.drop_eq_getElem_cons hlt] at hbuffered
  have hshorter : session.frameReader.wire.length <
      4 + frames[done].1.length := hbuffered.2
  rw [List.take_succ_eq_append_getElem hlt, wires_append, List.length_append,
    wires_cons, wires_nil, List.append_nil, wireOf_length]
  omega

theorem Receiving.wire_of_delivered {frames : List (Bytes × Bytes)}
    {reads : List ReadEvent}
    {history : List (Unit × Except ShphError Bytes)}
    {session : SecureTcpSession rng} {done : Nat}
    (hreceiving : Receiving aead frames reads history session done)
    {payload : Bytes} (hok : (session.recvFrame aead).1 = .ok payload) :
    (session.recvFrame aead).2.frameReader.wire = [] := by
  obtain ⟨_, rest, hstep⟩ := recvFrame_step hreceiving.opens
    hreceiving.buffered hreceiving.quiet
  rw [hok] at hstep
  generalize frames.drop done = remaining at hstep
  cases hstep with
  | delivered body _ rest _ hdefault =>
      rw [hdefault]
      rfl

theorem recvFrame_run_receiving {frames : List (Bytes × Bytes)}
    {session : SecureTcpSession rng}
    (hopens : Opens aead session.opener frames)
    (hreader : session.frameReader = .default)
    (hincoming : session.stream.incoming = wires frames)
    (hquiet : ∀ event ∈ session.stream.reads, event.quiet = true)
    (inputs : List Unit) :
    ∃ done, Receiving aead frames session.stream.reads
      (trace (fun session _ => recvFrame aead session) session inputs)
      (final (fun session _ => recvFrame aead session) session inputs)
      done := by
  apply history_invariant (P := fun history after => ∃ done,
    Receiving aead frames session.stream.reads history after done)
  · refine ⟨0, ?_⟩
    exact
      { done_le := Nat.zero_le _
        values := rfl
        errors := by simp
        opens := hopens
        buffered := by
          rw [hreader, hincoming]
          exact TcpFrameReader.buffered_default frames
        quiet := hquiet
        surfaced := Nat.le_refl _
        enough := by
          intro hall
          rw [hincoming]
          exact ⟨hall, fun _ => (Nat.zero_add _).le⟩ }
  · intro history after _ hreceiving
    obtain ⟨done, hdone⟩ := hreceiving
    exact hdone.step

end SecureTcpSession

/-- How both ends of a session shape their frames. -/
inductive TcpMorphology where
  | plain
  | legacy (profile : ProfileTier)
  | phantomOne (profile : ProfileTier) (generation : UInt32)
deriving Repr, DecidableEq

def TcpMorphology.establish {rng : Rng} (morphology : TcpMorphology)
    (stream : TcpStream) (sendKey recvKey : Key) (osRng seeded : rng.State) :
    Except ShphError (SecureTcpSession rng) :=
  let session := SecureTcpSession.new stream sendKey recvKey osRng
  match morphology with
  | plain => .ok session
  | legacy profile => .ok (session.withTcpProfile profile seeded)
  | phantomOne profile generation =>
      session.withPhantomOneGenerationAndProfile generation profile seeded

theorem TcpMorphology.establish_ok {rng : Rng} {morphology : TcpMorphology}
    {stream : TcpStream} {sendKey recvKey : Key} {osRng seeded : rng.State}
    {session : SecureTcpSession rng}
    (hok : morphology.establish stream sendKey recvKey osRng seeded =
      .ok session) :
    session.stream = stream ∧ session.frameReader = .default ∧
      session.sendCipher = SendCipher.new sendKey ∧
      session.recvCipher = ReceiveCipher.new recvKey := by
  cases morphology with
  | plain =>
      rw [← Except.ok.inj hok]
      exact ⟨rfl, rfl, rfl, rfl⟩
  | legacy profile =>
      rw [← Except.ok.inj hok]
      exact ⟨rfl, rfl, rfl, rfl⟩
  | phantomOne profile generation =>
      simp only [establish,
        withPhantomOneGenerationAndProfile,
        bind_eq_ok_iff] at hok
      obtain ⟨_, _, hok⟩ := hok
      rw [← Except.ok.inj hok]
      exact ⟨rfl, rfl, rfl, rfl⟩

/-- Two fresh ends of one connection agree. -/
theorem TcpMorphology.establish_synced {rng : Rng}
    {morphology : TcpMorphology} {senderStream receiverStream : TcpStream}
    {key senderKey receiverKey : Key}
    {senderOs senderSeed receiverOs receiverSeed : rng.State}
    {sender receiver : SecureTcpSession rng}
    (hsender : morphology.establish senderStream key senderKey senderOs
      senderSeed = .ok sender)
    (hreceiver : morphology.establish receiverStream receiverKey key receiverOs
      receiverSeed = .ok receiver) :
    SecureTcpSession.Synced key sender receiver.opener := by
  have hsend := (establish_ok hsender).2.2.1
  have hrecv := (establish_ok hreceiver).2.2.2
  refine ⟨by rw [hsend]; rfl, ?_, ⟨none, ?_, by simp⟩, ?_⟩
  · exact congrArg ReceiveCipher.key hrecv
  · exact congrArg ReceiveCipher.replay hrecv
  · rw [hsend]
    cases morphology with
    | plain =>
        rw [← Except.ok.inj hsender, ← Except.ok.inj hreceiver]
        exact .plain none
    | legacy profile =>
        rw [← Except.ok.inj hsender, ← Except.ok.inj hreceiver]
        exact .legacy { profile, rngState := senderSeed }
    | phantomOne profile generation =>
        simp only [establish,
          withPhantomOneGenerationAndProfile,
          bind_eq_ok_iff] at hsender hreceiver
        obtain ⟨_, _, hsender⟩ := hsender
        obtain ⟨decoder, hdecoder, hreceiver⟩ := hreceiver
        rw [← Except.ok.inj hsender, ← Except.ok.inj hreceiver]
        obtain ⟨frames, hsent, hproduced⟩ := sentDatagrams_produced
          (.forProfile profile) generation 0 senderSeed []
        have hnil : frames = [] := by
          simpa [sentDatagrams] using hsent.symm
        subst hnil
        exact .phantomOne none profile generation [] _ decoder (Nat.le_refl _)
          hproduced (PhantomOneDecoder.withConfigAndWindow_ok hdecoder).2

/-- The data plane delivers: over any run of calls on an open connection, the
payloads come back in order, every error is a timeout, the reader stays
inside the frame it is in, and once the socket has handed over the stream and
every timeout was met with another call, all payloads have come back. -/
theorem tcpDataPlane_delivers (aead : Aead) (rng : Rng)
    (morphology : TcpMorphology) (key senderKey receiverKey : Key)
    (senderOs senderSeed receiverOs receiverSeed : rng.State)
    (senderStream receiverStream : TcpStream)
    (sender receiver : SecureTcpSession rng) (payloads : List Bytes)
    (calls : Nat)
    (hsender : morphology.establish senderStream key senderKey senderOs
      senderSeed = .ok sender)
    (hreceiver : morphology.establish receiverStream receiverKey key receiverOs
      receiverSeed = .ok receiver)
    (hsent : ∀ entry ∈ trace (sendFrame aead) sender payloads,
      entry.2 = .ok ())
    (hfresh : senderStream.outgoing = [])
    (hincoming : receiverStream.incoming = (final
      (sendFrame aead) sender payloads).stream.outgoing)
    (hquiet : ∀ event ∈ receiverStream.reads, event.quiet = true) :
    let recv := fun (session : SecureTcpSession rng) (_ : Unit) =>
      session.recvFrame aead
    let history := trace recv receiver (List.replicate calls ())
    let last := final recv receiver (List.replicate calls ())
    let boundary := fun count => (final (sendFrame aead)
      sender (payloads.take count)).stream.outgoing.length
    (∃ done ≤ payloads.length,
      (successes history).map Prod.snd = payloads.take done ∧
        last.frameReader.wire ++ last.stream.incoming =
          receiverStream.incoming.drop (boundary done) ∧
        (done < payloads.length → boundary done +
          last.frameReader.wire.length < boundary (done + 1))) ∧
      (∀ entry ∈ history, ∀ error, entry.2 = .error error →
        error = .timeout) ∧
      timeouts receiverStream.reads + (successes history).length ≤
        timeouts last.stream.reads + calls ∧
      (∀ payload, (last.recvFrame aead).1 = .ok payload →
        (last.recvFrame aead).2.frameReader.wire = []) ∧
      (receiverStream.incoming.length ≤ readies receiverStream.reads →
        payloads.length + timeouts receiverStream.reads ≤ calls →
        (successes history).map Prod.snd = payloads) := by
  intro recv history last boundary
  have hsynced := TcpMorphology.establish_synced hsender hreceiver
  obtain ⟨hstream, _⟩ := TcpMorphology.establish_ok hsender
  obtain ⟨hrecvStream, hreader, _⟩ := TcpMorphology.establish_ok hreceiver
  obtain ⟨frames, hframes, hopens, hcuts⟩ :=
    sendFrame_run_opens payloads hsynced hsent
  have hlength : frames.length = payloads.length := by
    rw [← hframes, List.length_map]
  have hboundary (count : Nat) :
      boundary count = (wires (frames.take count)).length := by
    simp only [boundary]
    rw [hcuts, hstream, hfresh, List.nil_append]
  have hwire : receiver.stream.incoming = wires frames := by
    have hall := hcuts payloads.length
    rw [List.take_length, ← hlength, List.take_length, hstream, hfresh,
      List.nil_append] at hall
    rw [hrecvStream, hincoming, hall]
  rw [← hrecvStream] at hquiet ⊢
  obtain ⟨done, hdone⟩ := recvFrame_run_receiving hopens
    hreader hwire hquiet (List.replicate calls ())
  have hcalls : history.length = calls := by
    change (trace _ _ _).length = calls
    rw [trace_length, List.length_replicate]
  have hvalues : (successes history).map Prod.snd = payloads.take done := by
    rw [← hframes, ← List.map_take]
    exact hdone.values
  have hcount : (successes history).length = done := by
    have hlen := congrArg List.length hvalues
    rw [List.length_map, List.length_take] at hlen
    have hle := hdone.done_le
    omega
  refine ⟨⟨done, hlength ▸ hdone.done_le, hvalues, ?_, ?_⟩, hdone.errors, ?_,
    ?_, ?_⟩
  · have hsplit : wires frames =
        wires (frames.take done) ++ wires (frames.drop done) := by
      rw [← wires_append, List.take_append_drop]
    rw [hboundary, hwire, hsplit, List.drop_left]
    exact hdone.buffered.stream_eq
  · intro hlt
    rw [hboundary, hboundary]
    exact hdone.inside_frame (hlength ▸ hlt)
  · rw [hcount, ← hcalls]
    exact hdone.surfaced
  · intro payload hpayload
    exact hdone.wire_of_delivered hpayload
  · intro henough hmany
    rw [hwire] at henough
    have hall : ¬ done < frames.length := by
      intro hlt
      have hbound := (hdone.enough henough).2 hlt
      change history.length + _ ≤ _ at hbound
      omega
    rw [hvalues, List.take_of_length_le]
    omega

namespace TcpSessionWitness

open ReceiveCipher.SessionCipherWitness PhantomOneWitness

def stream (incoming : Bytes) (reads : List ReadEvent) : TcpStream :=
  { outgoing := [], incoming, writes := [], reads }

/-- One end of a connection without an envelope. -/
def session (incoming : Bytes) (reads : List ReadEvent) :
    SecureTcpSession rng :=
  .new (stream incoming reads) sessionKey sessionKey ()

/-- The bytes of the one frame that was sent. -/
def sent : Bytes :=
  (final (sendFrame aead) (session [] [])
    [hello]).stream.outgoing

def recv (current : SecureTcpSession rng) (_ : Unit) :
    Except ShphError Bytes × SecureTcpSession rng :=
  current.recvFrame aead

theorem sends_ok : ∀ entry ∈ trace (sendFrame aead)
    (session [] []) [hello], entry.2 = .ok () := by
  decide

end TcpSessionWitness

open TcpSessionWitness ReceiveCipher.SessionCipherWitness in
/-- A frame in pieces, with an interrupted read and a timeout in between. -/
theorem tcpDataPlane_delivers_hello :
    let reads : List ReadEvent :=
      [.failed .interrupted, .ready 2, .failed .timedOut, .ready 9, .ready 99,
        .ready 99]
    ((trace recv (session sent reads) [(), ()]).map Prod.snd =
        [.error .timeout, .ok hello]) ∧
      ∀ entry ∈ trace recv (session sent reads) (List.replicate 2 ()),
        ∀ error, entry.2 = .error error → error = .timeout := by
  refine ⟨by decide, ?_⟩
  exact (tcpDataPlane_delivers aead PhantomOneWitness.rng .plain sessionKey
    sessionKey sessionKey () () () () (stream [] []) _ (session [] []) _
    [hello] 2 rfl rfl sends_ok rfl rfl (by decide)).2.1

open TcpSessionWitness ReceiveCipher.SessionCipherWitness in
/-- An interrupted read does not reach the caller: the only call of this run
meets one and returns the payload. -/
theorem recvFrame_absorbs_interrupted :
    let reads : List ReadEvent :=
      [.failed .interrupted, .ready 99, .ready 99]
    ReadEvent.failed .interrupted ∈ reads ∧
      (trace recv (session sent reads) [()]).map Prod.snd = [.ok hello] ∧
      (final recv (session sent reads) [()]).stream.reads = [] := by
  decide

end Shph
