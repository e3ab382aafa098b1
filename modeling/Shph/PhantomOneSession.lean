/-
A Phantom One session: what one encoder produced, in whatever order and
however often it arrives, is what one decoder accepts, each frame at most
once.
-/
import Shph.PhantomOne
import Shph.ReplayWindow

namespace Shph

open ByteCodec StatefulRun SlidingWindow PhantomOneDecoder
/-- A frame as the encoder built it. -/
structure SentFrame where
  frameType : PhantomOneFrameType
  sequence : Nat
  payload : Bytes
  padding : Bytes
deriving Repr, DecidableEq

namespace SentFrame

def targetLen (frame : SentFrame) : Nat :=
  phantomOneHeaderBytes + frame.payload.length + frame.padding.length

def bytes (config : PhantomOneConfig) (generation : UInt32)
    (frame : SentFrame) : Bytes :=
  PhantomOneEncoder.header config generation frame.frameType frame.sequence
    frame.payload.length frame.targetLen ++ (frame.payload ++ frame.padding)

/-- The bounds every frame of a session satisfies. -/
structure Fits (config : PhantomOneConfig) (frame : SentFrame) : Prop where
  sequence_le : frame.sequence ≤ u64Max
  payload_le : frame.payload.length ≤ phantomOneMaxPayloadBytes
  target_le : frame.targetLen ≤ phantomOneMaxEnvelopeBytes
  padding_mem : config.minPadding ≤ frame.padding.length ∧
    frame.padding.length ≤ config.maxPadding
  canonical : config.profileBound →
    config.profile.acceptsFrameLen frame.targetLen

def parts (config : PhantomOneConfig) (generation : UInt32)
    (frame : SentFrame) : DecodedPhantomOneParts where
  profile := config.profile
  generation := generation
  frameType := frame.frameType
  sequence := frame.sequence
  payloadLen := frame.payload.length
  targetLen := frame.targetLen
  paddingLen := frame.padding.length

/-- What decoding the frame should return. -/
def decoded (config : PhantomOneConfig) (generation : UInt32)
    (frame : SentFrame) : PhantomOneFrame where
  profile := config.profile
  generation := generation
  frameType := frame.frameType
  sequence := frame.sequence
  payload := frame.payload
  targetLen := frame.targetLen
  paddingLen := frame.padding.length

end SentFrame

theorem header_length (config : PhantomOneConfig) (generation : UInt32)
    (frameType : PhantomOneFrameType) (sequence payloadLen targetLen : Nat) :
    (PhantomOneEncoder.header config generation frameType sequence payloadLen
      targetLen).length = phantomOneHeaderBytes := by
  simp [PhantomOneEncoder.header, phantomOneMagic, phantomOneHeaderBytes]

@[simp] theorem SentFrame.bytes_length (config : PhantomOneConfig)
    (generation : UInt32) (frame : SentFrame) :
    (frame.bytes config generation).length = frame.targetLen := by
  rw [bytes, List.length_append, header_length, List.length_append, targetLen,
    Nat.add_assoc]

theorem ProfileTier.fromId_id (profile : ProfileTier) :
    ProfileTier.fromId profile.id = some profile := by
  cases profile <;> rfl

theorem PhantomOneFrameType.tryFrom_toByte (frameType : PhantomOneFrameType) :
    tryFrom frameType.toByte = .ok frameType := by
  cases frameType <;> rfl

/-- The header slices of a frame, field by field. -/
structure HeaderReads (config : PhantomOneConfig) (generation : UInt32)
    (frame : SentFrame) : Prop where
  magic : slice (frame.bytes config generation) 0 4 = phantomOneMagic
  version : slice (frame.bytes config generation) 4 1 = [phantomOneVersion]
  profile : slice (frame.bytes config generation) 5 1 = [config.profile.id]
  generation_eq : slice (frame.bytes config generation) 6 4 =
    bigEndian 4 generation.toNat
  frameType : slice (frame.bytes config generation) 10 1 =
    [frame.frameType.toByte]
  sequence : slice (frame.bytes config generation) 11 8 =
    bigEndian 8 frame.sequence
  payloadLen : slice (frame.bytes config generation) 19 2 =
    bigEndian 2 frame.payload.length
  targetLen : slice (frame.bytes config generation) 21 2 =
    bigEndian 2 frame.targetLen
  reserved : slice (frame.bytes config generation) 23 1 = [0]
  payload : slice (frame.bytes config generation) 24 frame.payload.length =
    frame.payload

theorem SentFrame.headerReads (config : PhantomOneConfig)
    (generation : UInt32) (frame : SentFrame) :
    HeaderReads config generation frame where
  magic := rfl
  version := rfl
  profile := rfl
  generation_eq := rfl
  frameType := rfl
  sequence := rfl
  payloadLen := rfl
  targetLen := rfl
  reserved := rfl
  payload := slice_append (header_length _ _ _ _ _ _) rfl

/-- A frame of the session parses to what was sent. -/
theorem decodeParts_sent {config : PhantomOneConfig} (generation : UInt32)
    {frame : SentFrame} {pathMtu : Nat} (hvalid : config.validate = .ok ())
    (hfits : frame.Fits config) (htarget : frame.targetLen ≤ pathMtu)
    (hmtu : pathMtu ≤ phantomOneMaxEnvelopeBytes) :
    decodeParts (frame.bytes config generation) generation pathMtu config =
      .ok (frame.parts config generation) := by
  have hreads := frame.headerReads config generation
  have hheader : phantomOneHeaderBytes ≤ frame.targetLen := by
    unfold SentFrame.targetLen
    omega
  have hgeneration : ofBigEndian (bigEndian 4 generation.toNat) =
      generation.toNat :=
    ofBigEndian_bigEndian (by simpa using generation.toNat_lt)
  have hsequence : ofBigEndian (bigEndian 8 frame.sequence) =
      frame.sequence := by
    apply ofBigEndian_bigEndian
    have hle := hfits.sequence_le
    simp only [u64Max] at hle
    omega
  have hpayload : ofBigEndian (bigEndian 2 frame.payload.length) =
      frame.payload.length := by
    apply ofBigEndian_bigEndian
    have hle := hfits.payload_le
    simp only [phantomOneMaxPayloadBytes, phantomOneMaxEnvelopeBytes] at hle
    omega
  have htargetLen : ofBigEndian (bigEndian 2 frame.targetLen) =
      frame.targetLen := by
    apply ofBigEndian_bigEndian
    have hle := hfits.target_le
    simp only [phantomOneMaxEnvelopeBytes] at hle
    omega
  have hend : checkedAdd phantomOneHeaderBytes frame.payload.length =
      some (phantomOneHeaderBytes + frame.payload.length) := by
    rw [checkedAdd_eq_some_iff]
    have hle := hfits.payload_le
    simp only [phantomOneMaxPayloadBytes, phantomOneMaxEnvelopeBytes] at hle
    simp only [u64Max, phantomOneHeaderBytes, and_true]
    omega
  have hshort : frame.payload.length ≤ 2 ^ 16 - 1 := by
    have hle := hfits.payload_le
    simp only [phantomOneMaxPayloadBytes, phantomOneMaxEnvelopeBytes] at hle
    omega
  have hpadding : frame.targetLen -
      (phantomOneHeaderBytes + frame.payload.length) =
        frame.padding.length := by
    unfold SentFrame.targetLen
    omega
  simp only [decodeParts, validatePathMtu, validatePayloadLength,
    bind_eq_ok_iff, ensure_eq_ok_iff, okOr_eq_ok_iff, exists_const,
    hreads.magic, hreads.version, hreads.profile, hreads.generation_eq,
    hreads.frameType, hreads.sequence, hreads.payloadLen, hreads.targetLen,
    hreads.reserved, hgeneration, hsequence, hpayload, htargetLen,
    List.head?_cons, List.headD_cons, Option.bind_some, ProfileTier.fromId_id,
    PhantomOneFrameType.tryFrom_toByte, SentFrame.bytes_length]
  refine ⟨(), hvalid, ⟨by omega, hmtu⟩, ⟨hheader, htarget⟩, trivial, trivial,
    config.profile, rfl, rfl, trivial, frame.frameType, rfl, trivial, trivial,
    htarget, ⟨hfits.payload_le, hshort⟩, _, hend, ?_, ?_, hfits.canonical, ?_⟩
  · unfold SentFrame.targetLen
    omega
  · rw [hpadding]
    exact hfits.padding_mem
  · rw [hpadding]
    rfl

/-- A request to the encoder, with the size left to it or prescribed. -/
inductive EncodeCall where
  | encode (frameType : PhantomOneFrameType) (payload : Bytes) (pathMtu : Nat)
  | encodeWithTarget (frameType : PhantomOneFrameType) (payload : Bytes)
      (targetLen pathMtu : Nat)
deriving Repr, DecidableEq

namespace EncodeCall

def frameType : EncodeCall → PhantomOneFrameType
  | encode frameType _ _ => frameType
  | encodeWithTarget frameType _ _ _ => frameType

def payload : EncodeCall → Bytes
  | encode _ payload _ => payload
  | encodeWithTarget _ payload _ _ => payload

def run {rng : Rng} (encoder : PhantomOneEncoder rng) :
    EncodeCall → Except ShphError Bytes × PhantomOneEncoder rng
  | encode frameType payload pathMtu =>
      encoder.encode frameType payload pathMtu
  | encodeWithTarget frameType payload targetLen pathMtu =>
      encoder.encodeWithTarget frameType payload targetLen pathMtu

end EncodeCall

namespace PhantomOneEncoder

variable {rng : Rng}

/-- The encoders differ in their random generators at most. -/
structure SameSession (left right : PhantomOneEncoder rng) : Prop where
  config : left.config = right.config
  generation : left.generation = right.generation
  nextSequence : left.nextSequence = right.nextSequence
  metrics : left.metrics = right.metrics

theorem SameSession.refl (encoder : PhantomOneEncoder rng) :
    SameSession encoder encoder :=
  ⟨rfl, rfl, rfl, rfl⟩

theorem targetSize_same (encoder : PhantomOneEncoder rng)
    (payloadLen pathMtu : Nat) :
    SameSession (encoder.targetSize payloadLen pathMtu).2 encoder := by
  unfold targetSize
  split
  · exact SameSession.refl encoder
  · split
    · unfold selectWeighted
      dsimp only
      split
      · exact SameSession.refl encoder
      · split
        · exact ⟨rfl, rfl, rfl, rfl⟩
        · exact ⟨rfl, rfl, rfl, rfl⟩
    · unfold selectFirstFit
      split
      · dsimp only
        split
        · exact SameSession.refl encoder
        · exact ⟨rfl, rfl, rfl, rfl⟩
      · split
        · exact SameSession.refl encoder
        · exact ⟨rfl, rfl, rfl, rfl⟩

/-- The step of a successful request: the frame takes the next sequence
number, and its padding is charged to the session. -/
structure Emits (encoder next : PhantomOneEncoder rng) (frame : SentFrame) :
    Prop where
  sequence : encoder.nextSequence = some frame.sequence
  payload_le : frame.payload.length ≤ phantomOneMaxPayloadBytes
  target_le : frame.targetLen ≤ phantomOneMaxEnvelopeBytes
  padding_mem : encoder.config.minPadding ≤ frame.padding.length ∧
    frame.padding.length ≤ encoder.config.maxPadding
  padding_le : frame.padding.length ≤ encoder.remainingPadding
  canonical : encoder.config.profileBound →
    encoder.config.profile.acceptsFrameLen frame.targetLen
  config : next.config = encoder.config
  generation : next.generation = encoder.generation
  nextSequence : next.nextSequence = checkedAdd frame.sequence 1
  paddingBytes : next.metrics.paddingBytes =
    saturatingAdd encoder.metrics.paddingBytes frame.padding.length

theorem encodeWithTarget_cases (encoder : PhantomOneEncoder rng)
    (frameType : PhantomOneFrameType) (payload : Bytes)
    (targetLen pathMtu : Nat) :
    (∃ error next, encoder.encodeWithTarget frameType payload targetLen
        pathMtu = (.error error, next) ∧ SameSession next encoder) ∨
      ∃ frame next, encoder.encodeWithTarget frameType payload targetLen
          pathMtu = (.ok (frame.bytes encoder.config encoder.generation),
            next) ∧
        frame.frameType = frameType ∧ frame.payload = payload ∧
        Emits encoder next frame := by
  unfold encodeWithTarget
  cases hcheck : encoder.checkTarget payload targetLen pathMtu with
  | error error => exact Or.inl ⟨error, encoder, rfl, SameSession.refl encoder⟩
  | ok checked =>
      obtain ⟨sequence, paddingLen⟩ := checked
      dsimp only
      cases hfill : rng.tryFillBytes encoder.rngState paddingLen with
      | mk filled state =>
          cases filled with
          | none => exact Or.inl ⟨_, _, rfl, ⟨rfl, rfl, rfl, rfl⟩⟩
          | some padding =>
              have hlength : padding.length = paddingLen :=
                rng.tryFillBytes_length (by rw [hfill])
              simp only [checkTarget, validatePathMtu, validatePayloadLength,
                bind_eq_ok_iff, ensure_eq_ok_iff, okOr_eq_ok_iff, exists_const,
                checkedAdd_eq_some_iff, pure_eq_ok_iff, Prod.mk.injEq] at hcheck
              obtain ⟨_, _, _, ⟨hpayload, _⟩, number, hnext, _, ⟨_, rfl⟩, hmin,
                ⟨_, htarget, hlow, hhigh, hbudget⟩, hcanonical, _, _, rfl,
                hpad⟩ := hcheck
              let frame : SentFrame := ⟨frameType, number, payload, padding⟩
              have hsize : frame.targetLen = targetLen := by
                change phantomOneHeaderBytes + payload.length +
                  padding.length = targetLen
                omega
              have hbytes : frame.bytes encoder.config encoder.generation =
                  header encoder.config encoder.generation frameType number
                    payload.length targetLen ++ (payload ++ padding) := by
                rw [SentFrame.bytes, hsize]
              dsimp only
              rw [← hbytes]
              refine Or.inr ⟨frame, _, rfl, rfl, rfl, ?_⟩
              exact
                { sequence := hnext
                  payload_le := hpayload
                  target_le := hsize ▸ htarget
                  padding_mem := by
                    change _ ≤ padding.length ∧ padding.length ≤ _
                    omega
                  padding_le := by
                    change padding.length ≤ _
                    omega
                  canonical := hsize ▸ hcanonical
                  config := rfl
                  generation := rfl
                  nextSequence := rfl
                  paddingBytes := by
                    change saturatingAdd _ paddingLen =
                      saturatingAdd _ padding.length
                    rw [hlength] }

/-- A request that fails leaves the session where it was; a request that
succeeds emits the next frame. -/
theorem run_cases (encoder : PhantomOneEncoder rng) (call : EncodeCall) :
    (∃ error next, call.run encoder = (.error error, next) ∧
        SameSession next encoder) ∨
      ∃ frame next, call.run encoder =
          (.ok (frame.bytes encoder.config encoder.generation), next) ∧
        frame.frameType = call.frameType ∧ frame.payload = call.payload ∧
        Emits encoder next frame := by
  cases call with
  | encodeWithTarget frameType payload targetLen pathMtu =>
      exact encodeWithTarget_cases encoder frameType payload targetLen pathMtu
  | encode frameType payload pathMtu =>
      have hsame := encoder.targetSize_same payload.length pathMtu
      simp only [EncodeCall.run, encode]
      cases hsize : encoder.targetSize payload.length pathMtu with
      | mk result sized =>
          rw [hsize] at hsame
          change SameSession sized encoder at hsame
          cases result with
          | error error => exact Or.inl ⟨error, sized, rfl, hsame⟩
          | ok targetLen =>
              rcases sized.encodeWithTarget_cases frameType payload targetLen
                  pathMtu with ⟨error, next, hcall, hnext⟩ |
                ⟨frame, next, hcall, htype, hpayload, hemits⟩
              · refine Or.inl ⟨error, next, hcall, ?_⟩
                exact ⟨hnext.config.trans hsame.config,
                  hnext.generation.trans hsame.generation,
                  hnext.nextSequence.trans hsame.nextSequence,
                  hnext.metrics.trans hsame.metrics⟩
              · refine Or.inr ⟨frame, next, ?_, htype, hpayload, ?_⟩
                · rw [← hsame.config, ← hsame.generation]
                  exact hcall
                · exact
                    { sequence := hsame.nextSequence ▸ hemits.sequence
                      payload_le := hemits.payload_le
                      target_le := hemits.target_le
                      padding_mem := hsame.config ▸ hemits.padding_mem
                      padding_le := by
                        have hle := hemits.padding_le
                        simp only [remainingPadding, hsame.config,
                          hsame.metrics] at hle ⊢
                        exact hle
                      canonical := hsame.config ▸ hemits.canonical
                      config := hemits.config.trans hsame.config
                      generation := hemits.generation.trans hsame.generation
                      nextSequence := hemits.nextSequence
                      paddingBytes := hsame.metrics ▸ hemits.paddingBytes }

/-- An envelope of a prescribed size has that size, within the path. -/
theorem encodeWithTarget_length {encoder next : PhantomOneEncoder rng}
    {frameType : PhantomOneFrameType} {payload envelope : Bytes}
    {targetLen pathMtu : Nat}
    (hok : encoder.encodeWithTarget frameType payload targetLen pathMtu =
      (.ok envelope, next)) :
    envelope.length = targetLen ∧ targetLen ≤ pathMtu := by
  unfold encodeWithTarget at hok
  cases hcheck : encoder.checkTarget payload targetLen pathMtu with
  | error error => simp [hcheck] at hok
  | ok checked =>
      obtain ⟨sequence, paddingLen⟩ := checked
      simp only [hcheck] at hok
      cases hfill : rng.tryFillBytes encoder.rngState paddingLen with
      | mk filled state =>
          cases filled with
          | none => simp [hfill] at hok
          | some padding =>
              have hlength : padding.length = paddingLen :=
                rng.tryFillBytes_length (by rw [hfill])
              simp only [hfill, Prod.mk.injEq, Except.ok.injEq] at hok
              simp only [checkTarget, validatePathMtu, validatePayloadLength,
                bind_eq_ok_iff, ensure_eq_ok_iff, okOr_eq_ok_iff, exists_const,
                checkedAdd_eq_some_iff, pure_eq_ok_iff, Prod.mk.injEq] at hcheck
              obtain ⟨_, _, _, _, _, _, _, ⟨_, rfl⟩, hmin, ⟨hpath, _⟩, _, _, _,
                _, hpad⟩ := hcheck
              rw [← hok.1, List.length_append, header_length,
                List.length_append]
              omega

theorem encode_length_le {encoder next : PhantomOneEncoder rng}
    {frameType : PhantomOneFrameType} {payload envelope : Bytes}
    {pathMtu : Nat}
    (hok : encoder.encode frameType payload pathMtu = (.ok envelope, next)) :
    envelope.length ≤ pathMtu := by
  unfold encode at hok
  cases hsize : encoder.targetSize payload.length pathMtu with
  | mk result sized =>
      cases result with
      | error error => simp [hsize] at hok
      | ok targetLen =>
          simp only [hsize] at hok
          obtain ⟨hlength, hle⟩ := encodeWithTarget_length hok
          omega

end PhantomOneEncoder

/-- The padding bytes of a list of frames. -/
def totalPadding (frames : List SentFrame) : Nat :=
  (frames.map fun frame => frame.padding.length).sum

theorem totalPadding_snoc (frames : List SentFrame) (frame : SentFrame) :
    totalPadding (frames ++ [frame]) =
      totalPadding frames + frame.padding.length := by
  simp [totalPadding]

theorem totalPadding_le_of_forall (frames : List SentFrame) (bound : Nat)
    (hbound : ∀ frame ∈ frames, frame.padding.length ≤ bound) :
    totalPadding frames ≤ bound * frames.length := by
  induction frames with
  | nil => exact Nat.zero_le _
  | cons frame frames ih =>
      have hhead := hbound frame List.mem_cons_self
      have htail := ih fun other hother =>
        hbound other (List.mem_cons_of_mem frame hother)
      have hsplit : totalPadding (frame :: frames) =
          frame.padding.length + totalPadding frames := by
        simp [totalPadding]
      rw [hsplit, List.length_cons, Nat.mul_succ]
      omega

/-- The frames a session has produced so far: consecutive sequence numbers,
each within the bounds, and together within the budget. -/
structure PhantomOneEncoder.Produced {rng : Rng} (config : PhantomOneConfig)
    (generation : UInt32) (start : UInt64)
    (frames : List (EncodeCall × SentFrame)) (encoder : PhantomOneEncoder rng) :
    Prop where
  config_eq : encoder.config = config
  generation_eq : encoder.generation = generation
  nextSequence_eq : encoder.nextSequence =
    checkedAdd start.toNat frames.length
  sequence_eq : ∀ (index : Nat) (entry : EncodeCall × SentFrame),
    frames[index]? = some entry → entry.2.sequence = start.toNat + index
  entry_ok : ∀ entry ∈ frames, entry.2.frameType = entry.1.frameType ∧
    entry.2.payload = entry.1.payload ∧ entry.2.Fits config
  budget : ∀ budget ∈ config.paddingBudget,
    encoder.metrics.paddingBytes = totalPadding (frames.map Prod.snd) ∧
      totalPadding (frames.map Prod.snd) ≤ budget.toNat

namespace PhantomOneEncoder

variable {rng : Rng} {config : PhantomOneConfig} {generation : UInt32}
  {start : UInt64}

theorem Produced.of_same {frames : List (EncodeCall × SentFrame)}
    {encoder next : PhantomOneEncoder rng}
    (hproduced : Produced config generation start frames encoder)
    (hsame : SameSession next encoder) :
    Produced config generation start frames next where
  config_eq := hsame.config.trans hproduced.config_eq
  generation_eq := hsame.generation.trans hproduced.generation_eq
  nextSequence_eq := hsame.nextSequence.trans hproduced.nextSequence_eq
  sequence_eq := hproduced.sequence_eq
  entry_ok := hproduced.entry_ok
  budget := by
    rw [hsame.metrics]
    exact hproduced.budget

theorem Produced.emit {frames : List (EncodeCall × SentFrame)}
    {encoder next : PhantomOneEncoder rng} {call : EncodeCall}
    {frame : SentFrame}
    (hproduced : Produced config generation start frames encoder)
    (htype : frame.frameType = call.frameType)
    (hpayload : frame.payload = call.payload)
    (hemits : Emits encoder next frame) :
    Produced config generation start (frames ++ [(call, frame)]) next := by
  have hnumber := hproduced.nextSequence_eq.symm.trans hemits.sequence
  rw [checkedAdd_eq_some_iff] at hnumber
  have hconfig := hproduced.config_eq
  exact
    { config_eq := hemits.config.trans hconfig
      generation_eq := hemits.generation.trans hproduced.generation_eq
      nextSequence_eq := by
        rw [hemits.nextSequence, hnumber.2, List.length_append,
          List.length_singleton, checkedAdd, checkedAdd, Nat.add_assoc]
      sequence_eq := by
        intro index entry hentry
        rw [List.getElem?_append] at hentry
        split at hentry
        · exact hproduced.sequence_eq index entry hentry
        · rw [List.getElem?_singleton] at hentry
          split at hentry
          · rw [Option.some.injEq] at hentry
            rw [← hentry]
            change frame.sequence = _
            omega
          · simp at hentry
      entry_ok := by
        intro entry hentry
        rw [List.mem_append, List.mem_singleton] at hentry
        rcases hentry with hentry | rfl
        · exact hproduced.entry_ok entry hentry
        · exact ⟨htype, hpayload,
            { sequence_le := by
                rw [hnumber.2]
                exact hnumber.1
              payload_le := hemits.payload_le
              target_le := hemits.target_le
              padding_mem := hconfig ▸ hemits.padding_mem
              canonical := hconfig ▸ hemits.canonical }⟩
      budget := by
        intro budget hbudget
        obtain ⟨hused, hle⟩ := hproduced.budget budget hbudget
        have hremaining := hemits.padding_le
        rw [Option.mem_def] at hbudget
        simp only [remainingPadding, hconfig, hbudget, hused] at hremaining
        have hword := budget.toNat_lt
        have htotal : totalPadding ((frames ++ [(call, frame)]).map Prod.snd) =
            totalPadding (frames.map Prod.snd) + frame.padding.length := by
          rw [List.map_append]
          exact totalPadding_snoc _ frame
        rw [htotal, hemits.paddingBytes, hused, saturatingAdd, u64Max]
        exact ⟨by omega, by omega⟩ }

end PhantomOneEncoder

/-- What one encoder sent for a list of requests. -/
def sentDatagrams {rng : Rng} (encoder : PhantomOneEncoder rng)
    (calls : List EncodeCall) : List (EncodeCall × Bytes) :=
  successes (trace (fun encoder call => call.run encoder) encoder calls)

theorem sentDatagrams_produced {rng : Rng} (config : PhantomOneConfig)
    (generation : UInt32) (start : UInt64) (seeded : rng.State)
    (calls : List EncodeCall) :
    ∃ frames, sentDatagrams (.fromValidatedConfig generation start config
        seeded) calls = frames.map (fun entry =>
          (entry.1, entry.2.bytes config generation)) ∧
      PhantomOneEncoder.Produced config generation start frames
        (final (fun encoder call => EncodeCall.run encoder call)
          (PhantomOneEncoder.fromValidatedConfig generation start config seeded)
          calls) := by
  apply history_invariant (P := fun history encoder =>
    ∃ frames, successes history = frames.map (fun entry =>
        (entry.1, entry.2.bytes config generation)) ∧
      PhantomOneEncoder.Produced config generation start frames encoder)
  · refine ⟨[], rfl, ?_⟩
    exact
      { config_eq := rfl
        generation_eq := rfl
        nextSequence_eq := by
          rw [eq_comm, PhantomOneEncoder.fromValidatedConfig,
            checkedAdd_eq_some_iff, u64Max]
          have hword := start.toNat_lt
          exact ⟨by simp only [List.length_nil]; omega, rfl⟩
        sequence_eq := by simp
        entry_ok := by simp
        budget := by
          intro budget _
          exact ⟨rfl, Nat.zero_le _⟩ }
  · rintro history encoder call ⟨frames, hframes, hproduced⟩
    rw [successes_append]
    rcases encoder.run_cases call with ⟨error, next, hcall, hsame⟩ |
      ⟨frame, next, hcall, htype, hpayload, hemits⟩
    · refine ⟨frames, ?_, ?_⟩
      · rw [hcall, successes_singleton_error, List.append_nil, hframes]
      · rw [hcall]
        exact hproduced.of_same hsame
    · refine ⟨frames ++ [(call, frame)], ?_, ?_⟩
      · rw [hcall, successes_singleton_ok, List.map_append, hframes,
          hproduced.config_eq, hproduced.generation_eq]
        rfl
      · rw [hcall]
        exact hproduced.emit htype hpayload hemits

namespace PhantomOneDecoder

/-- The replay state stands for the sequence numbers accepted so far. -/
structure TracksSequences (decoder : PhantomOneDecoder) (seen : List Nat) :
    Prop where
  window_mem : 1 ≤ decoder.windowSize ∧ decoder.windowSize ≤ 64
  fresh : decoder.highestSequence = none → seen = []
  tracks : ∀ highest, decoder.highestSequence = some highest →
    Tracks decoder.seenBitmap.getLsbD decoder.windowSize highest seen

theorem windowMask_getLsbD {decoder : PhantomOneDecoder}
    (hwindow : decoder.windowSize ≤ 64) {index : Nat}
    (hindex : index < decoder.windowSize) :
    decoder.windowMask.getLsbD index = true := by
  unfold windowMask
  split
  · rename_i hfull
    simp only [BitVec.getLsbD_allOnes, decide_eq_true_eq]
    omega
  · rename_i hshorter
    have hlt : decoder.windowSize < 64 := by omega
    have hpow : 2 ^ decoder.windowSize < 2 ^ 64 :=
      Nat.pow_lt_pow_right (by decide) hlt
    have hone : (1#64 <<< decoder.windowSize).toNat =
        2 ^ decoder.windowSize := by
      rw [BitVec.toNat_shiftLeft, Nat.shiftLeft_eq]
      simpa using hpow
    have hvalue : ((1#64 <<< decoder.windowSize) - 1#64).toNat =
        2 ^ decoder.windowSize - 1 := by
      have hpos : 1 ≤ 2 ^ decoder.windowSize := Nat.one_le_two_pow
      rw [BitVec.toNat_sub, hone, BitVec.toNat_ofNat]
      omega
    rw [BitVec.getLsbD, hvalue, Nat.testBit_two_pow_sub_one,
      decide_eq_true_eq]
    exact hindex

/-- What the bookkeeping of an accepted sequence number leaves alone. -/
structure SameExceptWindow (left right : PhantomOneDecoder) : Prop where
  generation : left.generation = right.generation
  windowSize : left.windowSize = right.windowSize
  config : left.config = right.config
  paddingBytesUsed : left.paddingBytesUsed = right.paddingBytesUsed

/-- The bitmap after the first number, and after a jump past the window. -/
theorem one_getLsbD_iff (distance : Nat) :
    (1#64).getLsbD distance = true ↔ distance = 0 := by
  have hone := getLsbD_one_shiftLeft 0 distance (by decide)
  rw [BitVec.shiftLeft_zero] at hone
  rw [hone, decide_eq_true_eq]

theorem shifted_getLsbD_iff {decoder : PhantomOneDecoder}
    (hwindow : decoder.windowSize ≤ 64) {shift distance : Nat}
    (hdistance : distance < decoder.windowSize) :
    (((decoder.seenBitmap <<< shift) ||| 1#64) &&&
        decoder.windowMask).getLsbD distance = true ↔
      distance = 0 ∨
        (shift ≤ distance ∧
          decoder.seenBitmap.getLsbD (distance - shift) = true) := by
  rw [BitVec.getLsbD_and, windowMask_getLsbD hwindow hdistance, Bool.and_true,
    BitVec.getLsbD_or, Bool.or_eq_true, one_getLsbD_iff,
    BitVec.getLsbD_shiftLeft]
  have hlt : distance < 64 := by omega
  simp only [hlt, decide_true, Bool.true_and, Bool.and_eq_true,
    Bool.not_eq_true', decide_eq_false_iff_not, Nat.not_lt]
  exact or_comm

/-- The bitmap is the abstract window: exactly the admissible numbers are
accepted, and accepting adds the number to what the state stands for. -/
theorem acceptSequence_simulates {decoder : PhantomOneDecoder}
    {seen : List Nat} (htracks : TracksSequences decoder seen)
    (sequence : Nat) :
    (Admissible decoder.windowSize seen sequence →
      ∃ next, decoder.acceptSequence sequence = .ok next ∧
        SameExceptWindow next decoder ∧
        TracksSequences next (seen ++ [sequence])) ∧
    (¬ Admissible decoder.windowSize seen sequence →
      ∃ error, decoder.acceptSequence sequence = .error error) := by
  have hwindow := htracks.window_mem
  unfold acceptSequence
  cases hhighest : decoder.highestSequence with
  | none =>
      have hnil := htracks.fresh hhighest
      subst hnil
      refine ⟨fun _ => ⟨_, rfl, ⟨rfl, rfl, rfl, rfl⟩, hwindow, by simp, ?_⟩,
        fun hnot => absurd (admissible_nil _ _) hnot⟩
      intro highest hsome
      rw [Option.some.injEq] at hsome
      subst hsome
      exact tracks_first fun distance _ => one_getLsbD_iff distance
  | some highest =>
      have hbits := htracks.tracks highest hhighest
      rw [hbits.admissible_iff]
      by_cases habove : highest < sequence
      · refine ⟨fun _ => ?_, fun hnot => absurd (Or.inl habove) hnot⟩
        dsimp only
        rw [if_pos habove]
        split
        · rename_i hjump
          refine ⟨_, rfl, ⟨rfl, rfl, rfl, rfl⟩, hwindow, by simp, ?_⟩
          intro top hsome
          rw [Option.some.injEq] at hsome
          subst hsome
          apply hbits.advance habove
          intro distance hdistance
          change distance < decoder.windowSize at hdistance
          change (1#64).getLsbD distance = true ↔ _
          rw [one_getLsbD_iff]
          constructor
          · exact Or.inl
          · rintro (hzero | ⟨hgap, _⟩)
            · exact hzero
            · omega
        · refine ⟨_, rfl, ⟨rfl, rfl, rfl, rfl⟩, hwindow, by simp, ?_⟩
          intro top hsome
          rw [Option.some.injEq] at hsome
          subst hsome
          apply hbits.advance habove
          intro distance hdistance
          exact shifted_getLsbD_iff hwindow.2 hdistance
      · dsimp only
        rw [if_neg habove]
        by_cases hstale : decoder.windowSize ≤ highest - sequence
        · refine ⟨?_, fun _ => ⟨_, by rw [if_pos hstale]⟩⟩
          rintro (hup | ⟨hnear, _⟩)
          · exact absurd hup habove
          · omega
        · rw [if_neg hstale]
          have hlt : highest - sequence < 64 := by omega
          have hmask := and_one_shiftLeft_ne_zero_iff decoder.seenBitmap
            (highest - sequence) hlt
          by_cases hseen : decoder.seenBitmap.getLsbD (highest - sequence) = true
          · refine ⟨?_, fun _ => ⟨_, by rw [if_pos (hmask.mpr hseen)]⟩⟩
            rintro (hup | ⟨_, hclear⟩)
            · exact absurd hup habove
            · rw [hseen] at hclear
              simp at hclear
          · refine ⟨fun _ => ?_, fun hnot => absurd (Or.inr ⟨by omega,
              by simpa using hseen⟩) hnot⟩
            rw [if_neg fun hset => hseen (hmask.mp hset)]
            refine ⟨_, rfl, ⟨rfl, rfl, rfl, rfl⟩, hwindow, ?_, ?_⟩
            · intro hnone
              simp at hnone
            · intro top hsome
              rw [Option.some.injEq] at hsome
              subst hsome
              apply hbits.mark (Nat.le_of_not_lt habove)
              intro distance hdistance
              change (decoder.seenBitmap ||| _).getLsbD distance = true ↔ _
              rw [BitVec.getLsbD_or, Bool.or_eq_true,
                getLsbD_one_shiftLeft _ _ hlt, decide_eq_true_eq]

/-- The decoder after it accepted a list of frames. -/
structure Represents (config : PhantomOneConfig) (generation : UInt32)
    (windowSize : Nat) (seen : List SentFrame) (decoder : PhantomOneDecoder) :
    Prop where
  config_eq : decoder.config = config
  generation_eq : decoder.generation = generation
  windowSize_eq : decoder.windowSize = windowSize
  padding_eq : decoder.paddingBytesUsed = totalPadding seen
  window : TracksSequences decoder (seen.map SentFrame.sequence)

/-- Room for the padding of one more frame, in the counter and the budget. -/
def PaddingFits (config : PhantomOneConfig) (seen : List SentFrame)
    (frame : SentFrame) : Prop :=
  totalPadding (seen ++ [frame]) ≤ u64Max ∧
    ∀ budget ∈ config.paddingBudget,
      totalPadding (seen ++ [frame]) ≤ budget.toNat

/-- What a frame needs to be taken once it is read. -/
abbrev Receivable (config : PhantomOneConfig) (windowSize : Nat)
    (seen : List SentFrame) (frame : SentFrame) : Prop :=
  Admissible windowSize (seen.map SentFrame.sequence) frame.sequence ∧
    PaddingFits config seen frame

theorem nextPaddingBytes_eq_ok_iff {decoder : PhantomOneDecoder}
    {paddingLen next : Nat} :
    decoder.nextPaddingBytes paddingLen = .ok next ↔
      decoder.paddingBytesUsed + paddingLen ≤ u64Max ∧
        (∀ budget ∈ decoder.config.paddingBudget,
          decoder.paddingBytesUsed + paddingLen ≤ budget.toNat) ∧
        next = decoder.paddingBytesUsed + paddingLen := by
  simp only [nextPaddingBytes, bind_eq_ok_iff, okOr_eq_ok_iff,
    checkedAdd_eq_some_iff, ensure_eq_ok_iff, exists_const, pure_eq_ok_iff]
  constructor
  · rintro ⟨_, ⟨hle, rfl⟩, hbudget, rfl⟩
    exact ⟨hle, hbudget, rfl⟩
  · rintro ⟨hle, hbudget, rfl⟩
    exact ⟨_, ⟨hle, rfl⟩, hbudget, rfl⟩

/-- A refused datagram changes nothing. -/
theorem decode_error_unchanged (decoder : PhantomOneDecoder) (datagram : Bytes)
    (pathMtu : Nat) {error : ShphError}
    (herror : (decoder.decode datagram pathMtu).1 = .error error) :
    (decoder.decode datagram pathMtu).2 = decoder := by
  unfold decode at herror ⊢
  cases haccept : decoder.accept datagram pathMtu with
  | error error => rfl
  | ok result =>
      rw [haccept] at herror
      simp at herror

theorem payload_sent (config : PhantomOneConfig) (generation : UInt32)
    (frame : SentFrame) :
    (frame.parts config generation).payload (frame.bytes config generation) =
      frame.payload :=
  (frame.headerReads config generation).payload

/-- The exact behaviour on a frame of the session: it is accepted if and only
if its number is admissible and its padding fits. -/
theorem accept_sent {config : PhantomOneConfig} {generation : UInt32}
    {windowSize : Nat} {seen : List SentFrame} {decoder : PhantomOneDecoder}
    (hrep : Represents config generation windowSize seen decoder)
    (hvalid : config.validate = .ok ()) {frame : SentFrame} {pathMtu : Nat}
    (hfits : frame.Fits config) (htarget : frame.targetLen ≤ pathMtu)
    (hmtu : pathMtu ≤ phantomOneMaxEnvelopeBytes) :
    (Receivable config windowSize seen frame →
      ∃ next, decoder.accept (frame.bytes config generation) pathMtu =
          .ok (frame.parts config generation, next) ∧
        Represents config generation windowSize (seen ++ [frame]) next) ∧
    (¬ Receivable config windowSize seen frame →
      ∃ error, decoder.accept (frame.bytes config generation) pathMtu =
        .error error) := by
  have hparts := decodeParts_sent generation hvalid hfits htarget hmtu
  have hsimulates := acceptSequence_simulates hrep.window frame.sequence
  rw [hrep.windowSize_eq] at hsimulates
  have hpadding : (∃ next, decoder.nextPaddingBytes frame.padding.length =
      .ok next) ↔ PaddingFits config seen frame := by
    simp only [nextPaddingBytes_eq_ok_iff, hrep.padding_eq, hrep.config_eq,
      PaddingFits, totalPadding_snoc, exists_and_left, exists_eq, and_true]
  unfold accept
  rw [hrep.generation_eq, hrep.config_eq, hparts]
  constructor
  · rintro ⟨hadmissible, hfit⟩
    obtain ⟨total, htotal⟩ := hpadding.mpr hfit
    obtain ⟨next, hnext, hsame, htracks⟩ := hsimulates.1 hadmissible
    refine ⟨{ next with paddingBytesUsed := total }, ?_, ?_⟩
    · simp only [bind, Except.bind, SentFrame.parts, htotal, hnext]
      rfl
    · exact
        { config_eq := hsame.config.trans hrep.config_eq
          generation_eq := hsame.generation.trans hrep.generation_eq
          windowSize_eq := hsame.windowSize.trans hrep.windowSize_eq
          padding_eq := by
            rw [totalPadding_snoc, ← hrep.padding_eq]
            exact (nextPaddingBytes_eq_ok_iff.mp htotal).2.2
          window := by
            rw [List.map_append]
            exact ⟨htracks.window_mem, htracks.fresh, htracks.tracks⟩ }
  · intro hnot
    cases htotal : decoder.nextPaddingBytes frame.padding.length with
    | error error =>
        exact ⟨error, by simp only [bind, Except.bind, SentFrame.parts, htotal]⟩
    | ok total =>
        have hfit := hpadding.mp ⟨total, htotal⟩
        obtain ⟨error, herror⟩ := hsimulates.2 fun hadmissible =>
          hnot ⟨hadmissible, hfit⟩
        exact ⟨error, by
          simp only [bind, Except.bind, SentFrame.parts, htotal, herror]⟩

theorem decode_sent {config : PhantomOneConfig} {generation : UInt32}
    {windowSize : Nat} {seen : List SentFrame} {decoder : PhantomOneDecoder}
    (hrep : Represents config generation windowSize seen decoder)
    (hvalid : config.validate = .ok ()) {frame : SentFrame} {pathMtu : Nat}
    (hfits : frame.Fits config) (htarget : frame.targetLen ≤ pathMtu)
    (hmtu : pathMtu ≤ phantomOneMaxEnvelopeBytes) :
    (Receivable config windowSize seen frame →
      ∃ next, decoder.decode (frame.bytes config generation) pathMtu =
          (.ok (frame.decoded config generation), next) ∧
        Represents config generation windowSize (seen ++ [frame]) next) ∧
    (¬ Receivable config windowSize seen frame →
      ∃ error, decoder.decode (frame.bytes config generation) pathMtu =
        (.error error, decoder)) := by
  obtain ⟨haccept, hreject⟩ := accept_sent hrep hvalid hfits htarget hmtu
  constructor
  · intro hgood
    obtain ⟨next, hcall, hnext⟩ := haccept hgood
    refine ⟨next, ?_, hnext⟩
    rw [decode, hcall]
    dsimp only
    rw [DecodedPhantomOneParts.toFrame, payload_sent]
    rfl
  · intro hbad
    obtain ⟨error, hcall⟩ := hreject hbad
    exact ⟨error, by rw [decode, hcall]⟩

theorem decode_unparsed {decoder : PhantomOneDecoder} {datagram : Bytes}
    {pathMtu : Nat} {error : ShphError}
    (hparse : decodeParts datagram decoder.generation pathMtu decoder.config =
      .error error) :
    decoder.decode datagram pathMtu = (.error error, decoder) := by
  unfold decode accept
  rw [hparse]
  rfl

theorem withConfigAndWindow_ok {config : PhantomOneConfig}
    {generation : UInt32} {windowSize : Nat} {decoder : PhantomOneDecoder}
    (hok : withConfigAndWindow generation config windowSize = .ok decoder) :
    config.validate = .ok () ∧
      Represents config generation windowSize [] decoder := by
  simp only [withConfigAndWindow, bind_eq_ok_iff, ensure_eq_ok_iff,
    exists_const, pure_eq_ok_iff] at hok
  obtain ⟨_, hvalid, hwindow, rfl⟩ := hok
  exact ⟨hvalid, rfl, rfl, rfl, rfl, hwindow, fun _ => rfl, by simp⟩

end PhantomOneDecoder

/-- One delivery: a datagram and the path MTU the decoder is told. -/
def PhantomOneDecoder.receive (decoder : PhantomOneDecoder)
    (delivery : Bytes × Nat) :
    Except ShphError PhantomOneFrame × PhantomOneDecoder :=
  decoder.decode delivery.1 delivery.2

/-- What may arrive: a sent datagram on a path that carries it, or foreign
bytes that do not parse as a frame of the session. -/
def Deliverable (config : PhantomOneConfig) (generation : UInt32)
    (sent : List (EncodeCall × Bytes)) (delivery : Bytes × Nat) : Prop :=
  (delivery.1 ∈ sent.map Prod.snd ∧ delivery.1.length ≤ delivery.2 ∧
      delivery.2 ≤ phantomOneMaxEnvelopeBytes) ∨
    (delivery.1 ∉ sent.map Prod.snd ∧
      ∃ error, decodeParts delivery.1 generation delivery.2 config =
        .error error)

/-- A path on which a frame of the session may arrive carries it. -/
theorem Deliverable.path {config : PhantomOneConfig} {generation : UInt32}
    {frames : List (EncodeCall × SentFrame)} {call : EncodeCall}
    {frame : SentFrame} {pathMtu : Nat}
    (hdelivery : Deliverable config generation
      (frames.map fun entry => (entry.1, entry.2.bytes config generation))
      (frame.bytes config generation, pathMtu))
    (hmem : (call, frame) ∈ frames) :
    frame.targetLen ≤ pathMtu ∧ pathMtu ≤ phantomOneMaxEnvelopeBytes := by
  rcases hdelivery with ⟨_, htarget, hmtu⟩ | ⟨hforeign, _⟩
  · rw [SentFrame.bytes_length] at htarget
    exact ⟨htarget, hmtu⟩
  · exfalso
    apply hforeign
    rw [List.map_map]
    exact List.mem_map_of_mem (f := Prod.snd ∘ fun entry =>
      (entry.1, entry.2.bytes config generation)) hmem

namespace PhantomOneDecoder

/-- The history of a decoder: the accepted deliveries are distinct frames of
the session, and the state represents exactly these. -/
structure Received (config : PhantomOneConfig) (generation : UInt32)
    (windowSize : Nat) (frames : List (EncodeCall × SentFrame))
    (accepted : List ((Bytes × Nat) × PhantomOneFrame))
    (seen : List SentFrame) (decoder : PhantomOneDecoder) : Prop where
  accepted_eq : accepted.map (fun entry => (entry.1.1, entry.2)) =
    seen.map fun frame =>
      (frame.bytes config generation, frame.decoded config generation)
  seen_mem : ∀ frame ∈ seen, frame ∈ frames.map Prod.snd
  nodup : (seen.map SentFrame.sequence).Nodup
  represents : Represents config generation windowSize seen decoder

variable {rng : Rng} {config : PhantomOneConfig} {generation : UInt32}
  {start : UInt64} {windowSize : Nat}
  {frames : List (EncodeCall × SentFrame)} {encoder : PhantomOneEncoder rng}

theorem receive_received
    (hproduced : PhantomOneEncoder.Produced config generation start frames
      encoder) (hvalid : config.validate = .ok ())
    {history : List ((Bytes × Nat) × Except ShphError PhantomOneFrame)}
    {decoder : PhantomOneDecoder} {delivery : Bytes × Nat}
    (hdelivery : Deliverable config generation
      (frames.map fun entry => (entry.1, entry.2.bytes config generation))
      delivery)
    (hreceived : ∃ seen, Received config generation windowSize frames
      (successes history) seen decoder) :
    ∃ seen, Received config generation windowSize frames
      (successes (history ++ [(delivery, (decoder.receive delivery).1)])) seen
      (decoder.receive delivery).2 := by
  obtain ⟨seen, hseen⟩ := hreceived
  have hrep := hseen.represents
  have hkeep {error : ShphError}
      (hcall : decoder.receive delivery = (.error error, decoder)) :
      ∃ seen, Received config generation windowSize frames
        (successes (history ++ [(delivery, (decoder.receive delivery).1)])) seen
        (decoder.receive delivery).2 := by
    refine ⟨seen, ?_⟩
    rw [hcall, successes_append, successes_singleton_error, List.append_nil]
    exact hseen
  rcases hdelivery with ⟨hmem, htarget, hmtu⟩ | ⟨_, error, herror⟩
  · simp only [List.map_map, List.mem_map, Function.comp_apply] at hmem
    obtain ⟨entry, hentry, hbytes⟩ := hmem
    have hfits := (hproduced.entry_ok entry hentry).2.2
    rw [← hbytes, SentFrame.bytes_length] at htarget
    obtain ⟨haccept, hreject⟩ := decode_sent hrep hvalid hfits htarget hmtu
    by_cases hgood : Receivable config windowSize seen entry.2
    · obtain ⟨next, hcall, hnext⟩ := haccept hgood
      rw [hbytes] at hcall
      refine ⟨seen ++ [entry.2], ?_⟩
      rw [receive, hcall, successes_append, successes_singleton_ok]
      exact
        { accepted_eq := by
            rw [List.map_append, List.map_append, hseen.accepted_eq,
              List.map_singleton, List.map_singleton, hbytes]
          seen_mem := by
            intro frame hframe
            rw [List.mem_append, List.mem_singleton] at hframe
            rcases hframe with hframe | rfl
            · exact hseen.seen_mem frame hframe
            · exact List.mem_map_of_mem hentry
          nodup := by
            rw [List.map_append]
            exact nodup_snoc_of_admissible hseen.nodup hgood.1
          represents := hnext }
    · obtain ⟨error, hcall⟩ := hreject hgood
      rw [hbytes] at hcall
      exact hkeep hcall
  · rw [← hrep.generation_eq, ← hrep.config_eq] at herror
    exact hkeep (decode_unparsed herror)

theorem run_received
    (hproduced : PhantomOneEncoder.Produced config generation start frames
      encoder) {decoder : PhantomOneDecoder}
    (hdecoder : withConfigAndWindow generation config windowSize = .ok decoder)
    {deliveries : List (Bytes × Nat)}
    (hdeliveries : ∀ delivery ∈ deliveries, Deliverable config generation
      (frames.map fun entry => (entry.1, entry.2.bytes config generation))
      delivery) :
    ∃ seen, Received config generation windowSize frames
      (successes (trace receive decoder deliveries)) seen
      (final receive decoder deliveries) := by
  obtain ⟨hvalid, hrep⟩ := withConfigAndWindow_ok hdecoder
  apply history_invariant_of_mem (P := fun history decoder =>
    ∃ seen, Received config generation windowSize frames (successes history)
      seen decoder)
  · exact ⟨[], rfl, by simp, by simp, hrep⟩
  · intro history decoder delivery hdelivery hreceived
    exact receive_received hproduced hvalid (hdeliveries delivery hdelivery)
      hreceived

end PhantomOneDecoder

section

variable {rng : Rng} {config : PhantomOneConfig} {generation : UInt32}
  {start : UInt64} {frames : List (EncodeCall × SentFrame)}
  {encoder : PhantomOneEncoder rng}

theorem PhantomOneEncoder.Produced.eq_of_sequence_eq
    (hproduced : Produced config generation start frames encoder)
    {left right : EncodeCall × SentFrame} (hleft : left ∈ frames)
    (hright : right ∈ frames) (heq : left.2.sequence = right.2.sequence) :
    left = right := by
  obtain ⟨i, hi⟩ := List.mem_iff_getElem?.mp hleft
  obtain ⟨j, hj⟩ := List.mem_iff_getElem?.mp hright
  have hindex : i = j := by
    have hl := hproduced.sequence_eq i left hi
    have hr := hproduced.sequence_eq j right hj
    omega
  rw [hindex, hj, Option.some.injEq] at hi
  exact hi.symm

theorem totalPadding_le_of_subperm {left right : List SentFrame}
    (hsub : left.Subperm right) : totalPadding left ≤ totalPadding right := by
  obtain ⟨middle, hperm, hsublist⟩ := hsub
  have hmiddle : totalPadding left = totalPadding middle :=
    ((hperm.symm.map _).sum_eq)
  rw [hmiddle]
  exact (hsublist.map _).sum_le_sum (by simp)

/-- Distinct frames of a session stay within its budget together. -/
theorem PhantomOneEncoder.Produced.totalPadding_le
    (hproduced : Produced config generation start frames encoder)
    {seen : List SentFrame}
    (hmem : ∀ frame ∈ seen, frame ∈ frames.map Prod.snd)
    (hnodup : (seen.map SentFrame.sequence).Nodup) {budget : UInt64}
    (hbudget : budget ∈ config.paddingBudget) :
    totalPadding seen ≤ budget.toNat := by
  have hsub : seen.Subperm (frames.map Prod.snd) :=
    hnodup.of_map.subperm hmem
  exact (totalPadding_le_of_subperm hsub).trans
    (hproduced.budget budget hbudget).2

/-- Why a frame of the session can be refused: it was accepted before, it is
too far behind, or there is no budget and the counter is full. -/
theorem PhantomOneDecoder.refused_cases
    (hproduced : PhantomOneEncoder.Produced config generation start frames
      encoder) {windowSize : Nat} {seen : List SentFrame}
    (hseen : ∀ frame ∈ seen, frame ∈ frames.map Prod.snd)
    (hnodup : (seen.map SentFrame.sequence).Nodup)
    {entry : EncodeCall × SentFrame} (hentry : entry ∈ frames)
    (hbad : ¬ Receivable config windowSize seen entry.2) :
    entry.2 ∈ seen ∨
      (∃ frame ∈ seen, entry.2.sequence + windowSize ≤ frame.sequence) ∨
      (config.paddingBudget = none ∧
        u64Max < totalPadding seen + entry.2.padding.length) := by
  by_cases hfresh : entry.2.sequence ∈ seen.map SentFrame.sequence
  · obtain ⟨frame, hframe, heq⟩ := List.mem_map.mp hfresh
    obtain ⟨other, hother, rfl⟩ := List.mem_map.mp (hseen frame hframe)
    rw [hproduced.eq_of_sequence_eq hother hentry heq] at hframe
    exact Or.inl hframe
  by_cases hclose : ∀ old ∈ seen.map SentFrame.sequence,
      old < entry.2.sequence + windowSize
  · refine Or.inr (Or.inr ?_)
    have hfit : ¬ PaddingFits config seen entry.2 :=
      fun hfit => hbad ⟨⟨hfresh, hclose⟩, hfit⟩
    have hall : ∀ frame ∈ seen ++ [entry.2], frame ∈ frames.map Prod.snd := by
      intro frame hframe
      rw [List.mem_append, List.mem_singleton] at hframe
      rcases hframe with hframe | rfl
      · exact hseen frame hframe
      · exact List.mem_map_of_mem hentry
    have hdistinct : ((seen ++ [entry.2]).map SentFrame.sequence).Nodup := by
      rw [List.map_append]
      exact nodup_snoc_of_admissible hnodup ⟨hfresh, hclose⟩
    unfold PaddingFits at hfit
    rw [totalPadding_snoc] at hfit
    cases hbudget : config.paddingBudget with
    | none =>
        rw [hbudget] at hfit
        exact ⟨rfl, by simpa using hfit⟩
    | some budget =>
        have hle := hproduced.totalPadding_le hall hdistinct hbudget
        rw [totalPadding_snoc] at hle
        have hword := budget.toNat_lt
        exfalso
        apply hfit
        refine ⟨by rw [u64Max]; omega, ?_⟩
        intro other hother
        rw [hbudget, Option.mem_some_iff] at hother
        subst hother
        exact hle
  · simp only [not_forall, Nat.not_lt, exists_prop] at hclose
    obtain ⟨old, hold, hle⟩ := hclose
    obtain ⟨frame, hframe, rfl⟩ := List.mem_map.mp hold
    exact Or.inr (Or.inl ⟨frame, hframe, hle⟩)

namespace PhantomOneDecoder

variable {windowSize : Nat} {decoder : PhantomOneDecoder}
  {accepted : List ((Bytes × Nat) × PhantomOneFrame)} {seen : List SentFrame}

theorem Received.datagrams_eq
    (hreceived : Received config generation windowSize frames accepted seen
      decoder) :
    accepted.map (fun entry => entry.1.1) =
      seen.map (SentFrame.bytes config generation) := by
  have hfst := congrArg (List.map Prod.fst) hreceived.accepted_eq
  simpa [List.map_map, Function.comp_def] using hfst

theorem Received.frames_eq
    (hreceived : Received config generation windowSize frames accepted seen
      decoder) :
    accepted.map Prod.snd = seen.map (SentFrame.decoded config generation) := by
  have hsnd := congrArg (List.map Prod.snd) hreceived.accepted_eq
  simpa [List.map_map, Function.comp_def] using hsnd

theorem Received.entry_eq
    (hreceived : Received config generation windowSize frames accepted seen
      decoder) {entry : (Bytes × Nat) × PhantomOneFrame}
    (hentry : entry ∈ accepted) :
    ∃ frame ∈ seen, frame.bytes config generation = entry.1.1 ∧
      frame.decoded config generation = entry.2 := by
  have hmem := List.mem_map_of_mem (f := fun entry => (entry.1.1, entry.2))
    hentry
  rw [hreceived.accepted_eq] at hmem
  obtain ⟨frame, hframe, heq⟩ := List.mem_map.mp hmem
  rw [Prod.mk.injEq] at heq
  exact ⟨frame, hframe, heq.1, heq.2⟩

theorem Received.padding_eq
    (hreceived : Received config generation windowSize frames accepted seen
      decoder) :
    (accepted.map fun entry => entry.2.paddingLen).sum = totalPadding seen := by
  have hpadding := congrArg
    (fun list => (list.map PhantomOneFrame.paddingLen).sum) hreceived.frames_eq
  simpa [List.map_map, Function.comp_def, totalPadding,
    SentFrame.decoded] using hpadding

/-- Distinct frames of a session are distinct byte strings. -/
theorem Received.datagrams_nodup
    (hproduced : PhantomOneEncoder.Produced config generation start frames
      encoder)
    (hvalid : config.validate = .ok ())
    (hreceived : Received config generation windowSize frames accepted seen
      decoder) : (accepted.map fun entry => entry.1.1).Nodup := by
  rw [hreceived.datagrams_eq]
  apply hreceived.nodup.of_map.map_on
  intro left hleft right hright heq
  obtain ⟨leftEntry, hleftEntry, rfl⟩ :=
    List.mem_map.mp (hreceived.seen_mem left hleft)
  obtain ⟨rightEntry, hrightEntry, rfl⟩ :=
    List.mem_map.mp (hreceived.seen_mem right hright)
  have hl := decodeParts_sent generation hvalid
    (hproduced.entry_ok leftEntry hleftEntry).2.2
    (hproduced.entry_ok leftEntry hleftEntry).2.2.target_le (Nat.le_refl _)
  have hr := decodeParts_sent generation hvalid
    (hproduced.entry_ok rightEntry hrightEntry).2.2
    (hproduced.entry_ok rightEntry hrightEntry).2.2.target_le (Nat.le_refl _)
  rw [heq, hr, Except.ok.injEq] at hl
  have hsequence := congrArg DecodedPhantomOneParts.sequence hl
  rw [hproduced.eq_of_sequence_eq hrightEntry hleftEntry hsequence]

/-- A frame refused after a run was accepted in it, is too far behind what was
accepted in it, or would overflow the counter of the padding bytes. -/
theorem run_refused
    (hproduced : PhantomOneEncoder.Produced config generation start frames
      encoder)
    (hdecoder : withConfigAndWindow generation config windowSize = .ok decoder)
    {before : List (Bytes × Nat)}
    (hbefore : ∀ delivery ∈ before, Deliverable config generation
      (frames.map fun entry => (entry.1, entry.2.bytes config generation))
      delivery)
    {index pathMtu : Nat} {call : EncodeCall} {frame : SentFrame}
    {error : ShphError} (hframe : frames[index]? = some (call, frame))
    (htarget : frame.targetLen ≤ pathMtu)
    (hmtu : pathMtu ≤ phantomOneMaxEnvelopeBytes)
    (herror : ((final receive decoder before).receive
      (frame.bytes config generation, pathMtu)).1 = .error error) :
    frame.bytes config generation ∈
        (successes (trace receive decoder before)).map
          (fun entry => entry.1.1) ∨
      (∃ entry ∈ successes (trace receive decoder before),
        start.toNat + index + windowSize ≤ entry.2.sequence) ∨
      (config.paddingBudget = none ∧
        u64Max < ((successes (trace receive decoder before)).map fun entry =>
          entry.2.paddingLen).sum +
            ((frame.bytes config generation).length - phantomOneHeaderBytes -
              call.payload.length)) := by
  obtain ⟨hvalid, _⟩ := withConfigAndWindow_ok hdecoder
  have hmem := List.mem_of_getElem? hframe
  obtain ⟨_, hpayload, hfits⟩ := hproduced.entry_ok _ hmem
  change frame.payload = call.payload at hpayload
  obtain ⟨seen, hreceived⟩ := run_received hproduced hdecoder hbefore
  have hbad : ¬ Receivable config windowSize seen frame := by
    intro hgood
    obtain ⟨next, hcall, _⟩ :=
      (decode_sent hreceived.represents hvalid hfits htarget hmtu).1 hgood
    rw [receive, hcall] at herror
    simp at herror
  have hnumber := hproduced.sequence_eq index _ hframe
  rcases refused_cases hproduced hreceived.seen_mem hreceived.nodup hmem hbad
    with haccepted | ⟨old, hold, hstale⟩ | ⟨hbudget, hfull⟩
  · left
    rw [hreceived.datagrams_eq]
    exact List.mem_map_of_mem haccepted
  · right
    left
    have hdecoded := List.mem_map_of_mem
      (f := SentFrame.decoded config generation) hold
    rw [← hreceived.frames_eq] at hdecoded
    obtain ⟨entry, hentry, heq⟩ := List.mem_map.mp hdecoded
    refine ⟨entry, hentry, ?_⟩
    rw [heq, ← hnumber]
    exact hstale
  · right
    right
    have hlength : (frame.bytes config generation).length -
        phantomOneHeaderBytes - call.payload.length =
          frame.padding.length := by
      rw [SentFrame.bytes_length, SentFrame.targetLen, ← hpayload]
      omega
    rw [hreceived.padding_eq, hlength]
    exact ⟨hbudget, hfull⟩

end PhantomOneDecoder

end

/-- A session over a path that loses, repeats and reorders, with foreign bytes
in between: every frame is accepted at most once and as it was sent; a frame
is refused only if it was accepted already, is `windowSize` or more behind, or
if no budget is set and the padding counter would overflow; and a refused
datagram changes nothing. -/
theorem phantomOneSession_delivers (rng : Rng) (config : PhantomOneConfig)
    (generation : UInt32) (start : UInt64) (seeded : rng.State)
    (calls : List EncodeCall) (windowSize : Nat) (decoder : PhantomOneDecoder)
    (deliveries : List (Bytes × Nat))
    (hdecoder : withConfigAndWindow generation config
      windowSize = .ok decoder)
    (hdeliveries : ∀ delivery ∈ deliveries, Deliverable config generation
      (sentDatagrams (.fromValidatedConfig generation start config seeded)
        calls) delivery) :
    let sent := sentDatagrams
      (.fromValidatedConfig generation start config seeded) calls
    let accepted := fun inputs =>
      successes (trace receive decoder inputs)
    ((accepted deliveries).map fun entry => entry.1.1).Nodup ∧
      (∀ entry ∈ accepted deliveries, ∃ index call,
        sent[index]? = some (call, entry.1.1) ∧
          entry.2.frameType = call.frameType ∧
          entry.2.sequence = start.toNat + index ∧
          entry.2.payload = call.payload) ∧
      (∀ before after datagram pathMtu index call error,
        deliveries = before ++ (datagram, pathMtu) :: after →
        sent[index]? = some (call, datagram) →
        ((final receive decoder before).receive
          (datagram, pathMtu)).1 = .error error →
        datagram ∈ (accepted before).map (fun entry => entry.1.1) ∨
          (∃ entry ∈ accepted before,
            start.toNat + index + windowSize ≤ entry.2.sequence) ∨
          (config.paddingBudget = none ∧
            u64Max < ((accepted before).map fun entry =>
              entry.2.paddingLen).sum +
                (datagram.length - phantomOneHeaderBytes -
                  call.payload.length))) ∧
      ∀ (state : PhantomOneDecoder) (delivery : Bytes × Nat)
        (error : ShphError),
        (state.receive delivery).1 = .error error →
          (state.receive delivery).2 = state := by
  intro sent accepted
  obtain ⟨frames, hsent, hproduced⟩ := sentDatagrams_produced config generation
    start seeded calls
  obtain ⟨hvalid, _⟩ := withConfigAndWindow_ok hdecoder
  rw [hsent] at hdeliveries
  have hindexed {index : Nat} {call : EncodeCall} {datagram : Bytes}
      (hget : sent[index]? = some (call, datagram)) :
      ∃ frame, frames[index]? = some (call, frame) ∧
        frame.bytes config generation = datagram := by
    rw [show sent = _ from hsent, List.getElem?_map,
      Option.map_eq_some_iff] at hget
    obtain ⟨entry, hentry, heq⟩ := hget
    rw [Prod.mk.injEq] at heq
    exact ⟨entry.2, by rw [hentry, ← heq.1], heq.2⟩
  obtain ⟨seen, hreceived⟩ :=
    run_received hproduced hdecoder hdeliveries
  refine ⟨hreceived.datagrams_nodup hproduced hvalid, ?_, ?_, ?_⟩
  · intro entry hentry
    obtain ⟨frame, hframe, hbytes, hdecoded⟩ := hreceived.entry_eq hentry
    obtain ⟨⟨call, frame⟩, hmem, rfl⟩ :=
      List.mem_map.mp (hreceived.seen_mem frame hframe)
    obtain ⟨htype, hpayload, _⟩ := hproduced.entry_ok _ hmem
    obtain ⟨index, hindex⟩ := List.mem_iff_getElem?.mp hmem
    refine ⟨index, call, ?_, ?_, ?_, ?_⟩
    · rw [show sent = _ from hsent, List.getElem?_map, hindex, ← hbytes]
      rfl
    · rw [← hdecoded]
      exact htype
    · rw [← hdecoded]
      exact hproduced.sequence_eq index _ hindex
    · rw [← hdecoded]
      exact hpayload
  · intro before after datagram pathMtu index call error hsplit hget herror
    obtain ⟨frame, hframe, rfl⟩ := hindexed hget
    rw [hsplit] at hdeliveries
    have hbefore : ∀ delivery ∈ before, Deliverable config generation
        (frames.map fun entry => (entry.1, entry.2.bytes config generation))
        delivery :=
      fun delivery hdelivery =>
        hdeliveries delivery (List.mem_append_left _ hdelivery)
    have hpath := (hdeliveries _ (List.mem_append_right _
      List.mem_cons_self)).path (List.mem_of_getElem? hframe)
    exact run_refused hproduced hdecoder hbefore hframe
      hpath.1 hpath.2 herror
  · intro state delivery error herror
    exact decode_error_unchanged state delivery.1 delivery.2
      herror

namespace PhantomOneWitness

/-- A generator that draws the lower end of every range and zero bytes. -/
def rng : Rng := .zeros

/-- A configuration with a fixed amount of padding and no budget. -/
def config (padding : Nat) : PhantomOneConfig :=
  { profile := .medium, minPadding := padding, maxPadding := padding
    profileBound := false, selection := .firstFit, paddingBudget := none }

def encoder (padding : Nat) : PhantomOneEncoder rng :=
  .fromValidatedConfig 0 0 (config padding) ()

def decoder (padding : Nat) : PhantomOneDecoder :=
  { generation := 0, windowSize := 64, config := config padding
    highestSequence := none, seenBitmap := 0, paddingBytesUsed := 0 }

def call : EncodeCall := .encode .data [] 4120

def frame (sequence : Nat) : SentFrame :=
  ⟨.data, sequence, [], List.replicate 4096 0⟩

def datagram (sequence : Nat) : Bytes := (frame sequence).bytes (config 4096) 0

theorem frame_padding_length (sequence : Nat) :
    (frame sequence).padding.length = 4096 :=
  List.length_replicate

theorem frame_targetLen (sequence : Nat) :
    (frame sequence).targetLen = 4120 := by
  rw [SentFrame.targetLen, frame_padding_length]
  rfl

theorem decoder_eq_ok : withConfigAndWindow 0 (config 4096)
    64 = .ok (decoder 4096) := by
  rfl

theorem run_call {current : PhantomOneEncoder rng} {sequence : Nat}
    (hconfig : current.config = config 4096)
    (hgeneration : current.generation = 0)
    (hsequence : current.nextSequence = some sequence) :
    ∃ next, call.run current = (.ok (datagram sequence), next) ∧
      next.config = config 4096 ∧ next.generation = 0 ∧
      next.nextSequence = checkedAdd sequence 1 := by
  obtain ⟨generation, nextSequence, settings, state, metrics⟩ := current
  subst hconfig
  subst hgeneration
  subst hsequence
  let current : PhantomOneEncoder rng :=
    ⟨0, some sequence, config 4096, state, metrics⟩
  have htarget : current.targetSize 0 4120 = (.ok 4120, current) := by
    rfl
  have hcheck : current.checkTarget [] 4120 4120 = .ok (sequence, 4096) := by
    rfl
  have hbytes : datagram sequence = PhantomOneEncoder.header (config 4096) 0
      .data sequence 0 4120 ++ ([] ++ List.replicate 4096 0) := by
    rw [datagram, SentFrame.bytes, frame_targetLen]
    rfl
  change ∃ next, current.encode .data [] 4120 = _ ∧ _
  simp only [PhantomOneEncoder.encode, List.length_nil, htarget,
    PhantomOneEncoder.encodeWithTarget, hcheck, hbytes]
  exact ⟨_, rfl, rfl, rfl, rfl⟩

theorem sent_eq (count : Nat) (hcount : count ≤ u64Max) :
    sentDatagrams (encoder 4096) (List.replicate count call) =
        (List.range count).map (fun sequence => (call, datagram sequence)) ∧
      ∃ last, final (fun encoder call => EncodeCall.run encoder call)
          (encoder 4096) (List.replicate count call) = last ∧
        last.config = config 4096 ∧ last.generation = 0 ∧
        last.nextSequence = some count := by
  induction count with
  | zero => exact ⟨rfl, _, rfl, rfl, rfl, rfl⟩
  | succ count ih =>
      obtain ⟨hsent, last, hlast, hconfig, hgeneration, hsequence⟩ :=
        ih (by omega)
      obtain ⟨next, hcall, hnextConfig, hnextGeneration, hnextSequence⟩ :=
        run_call hconfig hgeneration hsequence
      rw [List.replicate_succ', sentDatagrams, trace_snoc, final_snoc, hlast,
        hcall, successes_append, successes_singleton_ok, List.range_succ,
        List.map_append]
      refine ⟨?_, next, rfl, hnextConfig, hnextGeneration, ?_⟩
      · rw [← hsent]
        rfl
      · rw [hnextSequence, checkedAdd_eq_some_iff]
        exact ⟨hcount, rfl⟩

theorem frame_fits {sequence : Nat} (hsequence : sequence ≤ u64Max) :
    (frame sequence).Fits (config 4096) where
  sequence_le := hsequence
  payload_le := Nat.zero_le _
  target_le := by
    rw [frame_targetLen]
    decide
  padding_mem := by
    rw [frame_padding_length]
    exact ⟨Nat.le_refl _, Nat.le_refl _⟩
  canonical := by
    intro hbound
    exact absurd hbound (by decide)

theorem totalPadding_frames (count : Nat) :
    totalPadding ((List.range count).map frame) = 4096 * count := by
  induction count with
  | zero => rfl
  | succ count ih =>
      rw [List.range_succ, List.map_append, List.map_singleton,
        totalPadding_snoc, ih, frame_padding_length]
      omega

def delivery (sequence : Nat) : Bytes × Nat := (datagram sequence, 4120)

/-- Delivered in order, every frame is accepted as long as the counter of the
padding bytes does not overflow. -/
theorem received_eq (count : Nat) (hcount : 4096 * count ≤ u64Max) :
    (successes (trace receive (decoder 4096)
        ((List.range count).map delivery))) =
      (List.range count).map (fun sequence =>
        (delivery sequence, (frame sequence).decoded (config 4096) 0)) ∧
      PhantomOneDecoder.Represents (config 4096) 0 64
        ((List.range count).map frame)
        (final receive (decoder 4096)
          ((List.range count).map delivery)) := by
  obtain ⟨hvalid, hstart⟩ :=
    withConfigAndWindow_ok decoder_eq_ok
  induction count with
  | zero => exact ⟨rfl, hstart⟩
  | succ count ih =>
      obtain ⟨haccepted, hrep⟩ := ih (by omega)
      have hmax : count ≤ u64Max := by omega
      have hadmissible : SlidingWindow.Admissible 64
          (((List.range count).map frame).map SentFrame.sequence) count := by
        rw [List.map_map]
        constructor
        · intro hmem
          obtain ⟨old, hold, heq⟩ := List.mem_map.mp hmem
          exact absurd heq (Nat.ne_of_lt (List.mem_range.mp hold))
        · intro old hold
          obtain ⟨number, hnumber, rfl⟩ := List.mem_map.mp hold
          have hlt := List.mem_range.mp hnumber
          change number < count + 64
          omega
      have hpadding : PhantomOneDecoder.PaddingFits (config 4096)
          ((List.range count).map frame) (frame count) := by
        rw [PhantomOneDecoder.PaddingFits, totalPadding_snoc,
          totalPadding_frames, frame_padding_length]
        exact ⟨by omega, by simp [config]⟩
      obtain ⟨next, hcall, hnext⟩ := (decode_sent hrep hvalid
        (frame_fits hmax) (frame_targetLen count).le (by decide)).1
          ⟨hadmissible, hpadding⟩
      rw [List.range_succ, List.map_append, List.map_singleton, trace_snoc,
        final_snoc, successes_append, haccepted]
      simp only [receive, delivery] at hcall ⊢
      rw [datagram, hcall, successes_singleton_ok, List.map_append,
        List.map_append]
      exact ⟨rfl, hnext⟩

/-- The frame that would take the counter of the padding bytes past its type
is refused, although its number is fresh and inside the window. -/
theorem delivery_refused (last : Nat) (hroom : 4096 * last ≤ u64Max)
    (hfull : u64Max < 4096 * (last + 1)) :
    (∃ error, ((final receive (decoder 4096)
        ((List.range last).map delivery)).receive (delivery last)).1 =
          .error error) ∧
      datagram last ∉ (successes (trace receive
        (decoder 4096) ((List.range last).map delivery))).map
          (fun entry => entry.1.1) ∧
      ∀ entry ∈ successes (trace receive (decoder 4096)
        ((List.range last).map delivery)), entry.2.sequence < last := by
  obtain ⟨hvalid, _⟩ := withConfigAndWindow_ok decoder_eq_ok
  obtain ⟨haccepted, hrep⟩ := received_eq last hroom
  have hlast : last ≤ u64Max := by omega
  have hparse {sequence : Nat} (hsequence : sequence ≤ u64Max) :
      decodeParts (datagram sequence) 0 4120 (config 4096) =
        .ok ((frame sequence).parts (config 4096) 0) :=
    decodeParts_sent 0 hvalid (frame_fits hsequence)
      (frame_targetLen sequence).le (by decide)
  have hbad : ¬ Receivable (config 4096) 64 ((List.range last).map frame)
      (frame last) := by
    rintro ⟨_, hfits, _⟩
    rw [totalPadding_snoc, totalPadding_frames, frame_padding_length] at hfits
    omega
  obtain ⟨error, hcall⟩ := (decode_sent hrep hvalid
    (frame_fits hlast) (frame_targetLen last).le (by decide)).2 hbad
  rw [haccepted]
  refine ⟨⟨error, ?_⟩, ?_, ?_⟩
  · exact congrArg Prod.fst hcall
  · intro hmem
    rw [List.map_map] at hmem
    obtain ⟨sequence, hsequence, heq⟩ := List.mem_map.mp hmem
    have hlt := List.mem_range.mp hsequence
    have hsame := hparse hlast
    rw [← show datagram sequence = datagram last from heq,
      hparse (by omega), Except.ok.injEq] at hsame
    have hnumber : sequence = last :=
      congrArg DecodedPhantomOneParts.sequence hsame
    omega
  · intro entry hentry
    obtain ⟨sequence, hsequence, rfl⟩ := List.mem_map.mp hentry
    exact List.mem_range.mp hsequence

theorem delivery_deliverable {count sequence : Nat} (hcount : count ≤ u64Max)
    (hsequence : sequence < count) :
    Deliverable (config 4096) 0
      (sentDatagrams (encoder 4096) (List.replicate count call))
      (delivery sequence) := by
  have hmtu : 4120 ≤ phantomOneMaxEnvelopeBytes := by decide
  refine Or.inl ⟨?_, ?_, hmtu⟩
  · rw [(sent_eq count hcount).1, List.map_map]
    exact List.mem_map.mpr ⟨sequence, List.mem_range.mpr hsequence, rfl⟩
  · change ((frame sequence).bytes (config 4096) 0).length ≤ 4120
    rw [SentFrame.bytes_length, frame_targetLen]

theorem sent_getElem? {count sequence : Nat} (hcount : count ≤ u64Max)
    (hsequence : sequence < count) :
    (sentDatagrams (encoder 4096) (List.replicate count call))[sequence]? =
      some (call, datagram sequence) := by
  rw [(sent_eq count hcount).1, List.getElem?_map,
    List.getElem?_range hsequence]
  rfl

/-- Two frames arrive in the wrong order and one of them twice, with foreign
bytes in between. -/
def disordered : List (Bytes × Nat) :=
  [delivery 1, ([1, 2, 3], 4120), delivery 0, delivery 1]

theorem disordered_deliverable : ∀ arrival ∈ disordered,
    Deliverable (config 4096) 0
      (sentDatagrams (encoder 4096) (List.replicate 2 call)) arrival := by
  have hcount : 2 ≤ u64Max := by decide
  intro arrival harrival
  simp only [disordered, List.mem_cons, List.not_mem_nil, or_false] at harrival
  rcases harrival with rfl | rfl | rfl | rfl
  · exact delivery_deliverable hcount (by decide)
  · refine Or.inr ⟨?_, _, rfl⟩
    rw [(sent_eq 2 hcount).1]
    decide
  · exact delivery_deliverable hcount (by decide)
  · exact delivery_deliverable hcount (by decide)

end PhantomOneWitness

open PhantomOneWitness in
theorem phantomOneSession_delivers_disordered :
    withConfigAndWindow 0 (config 4096) 64 =
        .ok (decoder 4096) ∧
      (∀ arrival ∈ disordered, Deliverable (config 4096) 0
        (sentDatagrams (encoder 4096) (List.replicate 2 call)) arrival) ∧
      ((successes (trace receive (decoder 4096)
        disordered)).map (fun entry => entry.1.1)).Nodup := by
  refine ⟨decoder_eq_ok, disordered_deliverable, ?_⟩
  exact (phantomOneSession_delivers rng (config 4096) 0 0 ()
    (List.replicate 2 call) 64 (decoder 4096) disordered decoder_eq_ok
    disordered_deliverable).1

open PhantomOneWitness in
/-- A session without a budget: `2 ^ 52` frames with 4096 bytes of padding,
all delivered once and in order. The last one is refused, although it was not
accepted before and no accepted number is above its own. -/
theorem phantomOneSession_refuses_fresh_frame :
    withConfigAndWindow 0 (config 4096) 64 =
        .ok (decoder 4096) ∧
      (∀ sequence < 4503599627370496, Deliverable (config 4096) 0
        (sentDatagrams (encoder 4096)
          (List.replicate 4503599627370496 call)) (delivery sequence)) ∧
      (sentDatagrams (encoder 4096)
        (List.replicate 4503599627370496 call))[4503599627370495]? =
          some (call, (delivery 4503599627370495).1) ∧
      (∃ error, ((final receive (decoder 4096)
        ((List.range 4503599627370495).map delivery)).receive
          (delivery 4503599627370495)).1 = .error error) ∧
      (delivery 4503599627370495).1 ∉ (successes
        (trace receive (decoder 4096)
          ((List.range 4503599627370495).map delivery))).map
            (fun entry => entry.1.1) ∧
      ∀ entry ∈ successes (trace receive (decoder 4096)
        ((List.range 4503599627370495).map delivery)),
        entry.2.sequence < 4503599627370495 := by
  have hcount : 4503599627370496 ≤ u64Max := by decide
  obtain ⟨hrefused, hfresh, hbelow⟩ := delivery_refused
    4503599627370495 (by decide) (by decide)
  refine ⟨decoder_eq_ok, ?_, ?_, hrefused, hfresh, hbelow⟩
  · intro sequence hsequence
    exact delivery_deliverable hcount hsequence
  · exact sent_getElem? hcount (by decide)

end Shph
