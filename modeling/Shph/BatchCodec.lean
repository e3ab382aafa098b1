/-
The batch format inside a morphology datagram.  A batch is a list of messages,
each with its length in front; the envelope around it is padded to a size that
the engine draws from its profile or from a histogram.
-/
import Shph.Library.Layout
import Shph.WorkloadMorphology

namespace Shph.Shroud2

open ByteCodec

def maxBatchPayloadBytes : Nat :=
  maxMorphologyDatagramBytes - morphologyHeaderBytes

def batchLimitError : ShphError :=
  .protocol ("morphology batch exceeds the " ++ toString maxBatchMessages ++
    "-message limit")

/-- A message with its length in front. -/
def prefixedMessage (message : Bytes) : Bytes :=
  bigEndian 2 message.length ++ message

/-- One step of the fold that adds up the length of a batch. -/
def addMessage (total : Nat) (message : Bytes) : Except ShphError Nat := do
  validateBatchMessage message
  okOr ((checkedAdd total batchMessageLengthBytes).bind fun length =>
      checkedAdd length message.length)
    (.protocol "morphology batch length overflow")

def encodeBatchPayload (messages : List Bytes) (pathMtu : Nat) :
    Except ShphError Bytes := do
  validatePathMtu pathMtu
  ensure (messages ≠ [])
    (.protocol "morphology batch must contain at least one message")
  ensure (messages.length ≤ maxBatchMessages) batchLimitError
  let expectedPayloadBytes ← messages.foldlM addMessage 0
  ensure (expectedPayloadBytes ≤ pathMtu - morphologyHeaderBytes)
    (.protocol "morphology batch exceeds the negotiated datagram limit")
  return messages.flatMap prefixedMessage

/-- `payload.get(start..stop)`. -/
def getRange (payload : Bytes) (start stop : Nat) : Option Bytes :=
  if start ≤ stop ∧ stop ≤ payload.length then
    some (slice payload start (stop - start))
  else none

/-- One turn of the loop that splits a batch: the message at the offset and
where it ends. -/
def readMessage (payload : Bytes) (offset : Nat) :
    Except ShphError (Bytes × Nat) := do
  let lengthEnd ← okOr (checkedAdd offset batchMessageLengthBytes)
    (.protocol "morphology batch offset overflow")
  let lengthBytes ← okOr (getRange payload offset lengthEnd)
    (.protocol "morphology batch has a truncated length prefix")
  let messageLen := ofBigEndian lengthBytes
  ensure (messageLen ≠ 0)
    (.protocol "morphology batch contains an empty message")
  let messageEnd ← okOr (checkedAdd lengthEnd messageLen)
    (.protocol "morphology batch message overflow")
  let message ← okOr (getRange payload lengthEnd messageEnd)
    (.protocol "morphology batch has a truncated message")
  return (message, messageEnd)

/-- The loop, with the number of messages that it may still add. -/
def decodeBatchLoop (payload : Bytes) :
    Nat → Nat → List Bytes → Except ShphError (List Bytes)
  | 0, offset, messages =>
      if offset < payload.length then .error batchLimitError
      else .ok messages
  | room + 1, offset, messages =>
      if offset < payload.length then
        match readMessage payload offset with
        | .error error => .error error
        | .ok (message, messageEnd) =>
            decodeBatchLoop payload room messageEnd (messages ++ [message])
      else .ok messages

def decodeBatchPayload (payload : Bytes) : Except ShphError (List Bytes) := do
  ensure (payload ≠ [])
    (.protocol "morphology batch payload must not be empty")
  ensure (payload.length ≤ maxBatchPayloadBytes)
    (.protocol "morphology batch payload exceeds the global envelope limit")
  decodeBatchLoop payload maxBatchMessages 0 []

def decodeDatagram (datagram : Bytes) (pathMtu : Nat) :
    Except ShphError Bytes := do
  validatePathMtu pathMtu
  ensure (morphologyHeaderBytes ≤ datagram.length ∧ datagram.length ≤ pathMtu)
    (.protocol "morphology datagram length is outside the negotiated limit")
  ensure (slice datagram 0 2 = morphologyMagic ∧
      slice datagram 2 1 = [morphologyVersion])
    (.protocol "morphology envelope version mismatch")
  let payloadLen := ofBigEndian (slice datagram 3 2)
  let declaredSize := ofBigEndian (slice datagram 5 2)
  ensure (declaredSize = datagram.length)
    (.protocol "morphology datagram size does not match its envelope")
  let payloadEnd ← okOr (checkedAdd morphologyHeaderBytes payloadLen)
    (.protocol "morphology payload length overflow")
  ensure (payloadLen ≠ 0 ∧ payloadEnd ≤ datagram.length)
    (.protocol "morphology payload length is invalid")
  return slice datagram morphologyHeaderBytes payloadLen

def decodeBatchedDatagram (datagram : Bytes) (pathMtu : Nat) :
    Except ShphError (List Bytes) := do
  let payload ← decodeDatagram datagram pathMtu
  decodeBatchPayload payload

/-- The bins of a distribution and its cumulative weights, which are finite
floating-point numbers and so rational. -/
structure EmpiricalHistogram where
  bins : List UInt64
  cdf : List ℚ
  nonempty : bins ≠ []

/-- `gen::<f64>`: the upper 53 bits of two words, as a fraction. -/
def genFraction {rng : Rng} (rngState : rng.State) : ℚ × rng.State :=
  let (low, rngState) := rng.nextU32 rngState
  let (high, rngState) := rng.nextU32 rngState
  (((high.toNat * 2 ^ 32 + low.toNat) / 2 ^ 11 : ℕ) / 2 ^ 53, rngState)

/-- The bin whose interval the fraction falls into. -/
def EmpiricalHistogram.sampleBin (histogram : EmpiricalHistogram) {rng : Rng}
    (rngState : rng.State) : UInt64 × rng.State :=
  let (target, rngState) := genFraction rngState
  let index := (histogram.cdf.takeWhile fun bound => bound ≤ target).length
  ((histogram.bins[index]?).getD (histogram.bins.getLast histogram.nonempty),
    rngState)

/-- An engine with the histogram that it may have been built with. -/
structure HistogramEngine (rng : Rng) where
  engine : MorphologyEngine rng
  sizeHistogram : Option EmpiricalHistogram

namespace HistogramEngine

variable {rng : Rng}

def targetSize (shaped : HistogramEngine rng) (payloadLen pathMtu : Nat) :
    Except ShphError Nat × MorphologyEngine rng :=
  match shaped.sizeHistogram with
  | none => shaped.engine.targetSize payloadLen pathMtu
  | some histogram =>
      match validatePayloadForPath payloadLen pathMtu with
      | .error error => (.error error, shaped.engine)
      | .ok minimum =>
          let (sampled, rngState) :=
            histogram.sampleBin shaped.engine.rngState
          (.ok (min (max sampled.toNat minimum) pathMtu),
            { shaped.engine with rngState })

def encodeDatagram (shaped : HistogramEngine rng) (payload : Bytes)
    (pathMtu : Nat) : Except ShphError Bytes × HistogramEngine rng :=
  match shaped.targetSize payload.length pathMtu with
  | (.error error, engine) => (.error error, { shaped with engine })
  | (.ok size, engine) =>
      match engine.encodeDatagramWithRng payload size pathMtu with
      | (.error error, engine) => (.error error, { shaped with engine })
      | (.ok datagram, engine) =>
          (.ok datagram, { shaped with
            engine := { engine with
              metrics :=
                if engine.metricsEnabled then
                  engine.metrics.record payload.length size
                else engine.metrics } })

end HistogramEngine

def encodeBatchedDatagram {rng : Rng} (morphology : HistogramEngine rng)
    (messages : List Bytes) (pathMtu : Nat) :
    Except ShphError Bytes × HistogramEngine rng :=
  match encodeBatchPayload messages pathMtu with
  | .error error => (.error error, morphology)
  | .ok payload => morphology.encodeDatagram payload pathMtu

/-- What a message of a batch may be. -/
def BatchMessage (message : Bytes) : Prop :=
  message ≠ [] ∧ message.length < 2 ^ 16

theorem validateBatchMessage_eq_ok_iff {message : Bytes} {result : Unit} :
    validateBatchMessage message = .ok result ↔ BatchMessage message := by
  simp only [validateBatchMessage, BatchMessage, bind_eq_ok_iff,
    ensure_eq_ok_iff, exists_const]
  apply and_congr_right
  intro _
  omega

theorem prefixedMessage_length (message : Bytes) :
    (prefixedMessage message).length = 2 + message.length := by
  simp [prefixedMessage]

theorem addMessage_eq_ok_iff {total next : Nat} {message : Bytes} :
    addMessage total message = .ok next ↔ BatchMessage message ∧
      total + 2 + message.length ≤ u64Max ∧
        next = total + 2 + message.length := by
  simp only [addMessage, bind_eq_ok_iff, validateBatchMessage_eq_ok_iff,
    okOr_eq_ok_iff, exists_const, Option.bind_eq_some_iff,
    checkedAdd_eq_some_iff, batchMessageLengthBytes]
  apply and_congr_right
  intro _
  constructor
  · rintro ⟨_, ⟨-, rfl⟩, hsum, rfl⟩
    exact ⟨hsum, rfl⟩
  · rintro ⟨hsum, rfl⟩
    exact ⟨total + 2, ⟨by omega, rfl⟩, hsum, rfl⟩

theorem foldlM_addMessage {messages : List Bytes} {total expected : Nat}
    (hfold : messages.foldlM addMessage total = .ok expected) :
    (∀ message ∈ messages, BatchMessage message) ∧
      expected = total + (messages.flatMap prefixedMessage).length := by
  induction messages generalizing total with
  | nil =>
      rw [List.foldlM_nil] at hfold
      cases hfold
      exact ⟨fun _ hmessage => absurd hmessage List.not_mem_nil, rfl⟩
  | cons message messages ih =>
      rw [List.foldlM_cons, bind_eq_ok_iff] at hfold
      obtain ⟨next, hnext, hrest⟩ := hfold
      obtain ⟨hmessage, -, rfl⟩ := addMessage_eq_ok_iff.mp hnext
      obtain ⟨hmessages, hexpected⟩ := ih hrest
      refine ⟨List.forall_mem_cons.mpr ⟨hmessage, hmessages⟩, ?_⟩
      rw [hexpected, List.flatMap_cons, List.length_append,
        prefixedMessage_length]
      omega

/-- What an encoded batch is. -/
theorem encodeBatchPayload_eq_ok {messages : List Bytes} {pathMtu : Nat}
    {payload : Bytes}
    (hencode : encodeBatchPayload messages pathMtu = .ok payload) :
    validatePathMtu pathMtu = .ok () ∧ messages ≠ [] ∧
      messages.length ≤ maxBatchMessages ∧
      (∀ message ∈ messages, BatchMessage message) ∧
      payload = messages.flatMap prefixedMessage ∧
      payload.length ≤ pathMtu - morphologyHeaderBytes := by
  simp only [encodeBatchPayload, bind_eq_ok_iff, ensure_eq_ok_iff, exists_const,
    pure_eq_ok_iff] at hencode
  obtain ⟨⟨⟩, hmtu, hempty, hcount, expected, hfold, hfits, rfl⟩ := hencode
  obtain ⟨hmessages, hexpected⟩ := foldlM_addMessage hfold
  rw [hexpected, Nat.zero_add] at hfits
  exact ⟨hmtu, hempty, hcount, hmessages, rfl, hfits⟩

theorem getRange_eq_some_iff {payload part : Bytes} {start stop : Nat} :
    getRange payload start stop = some part ↔
      (start ≤ stop ∧ stop ≤ payload.length) ∧
        slice payload start (stop - start) = part := by
  unfold getRange
  by_cases hbounds : start ≤ stop ∧ stop ≤ payload.length
  · simp [hbounds]
  · simp [hbounds]

section Loop

variable {payload : Bytes}

/-- A turn takes one message with its length off what is left. -/
theorem readMessage_eq_ok_iff (hsize : payload.length ≤ maxBatchPayloadBytes)
    {offset stop : Nat} {message : Bytes} :
    readMessage payload offset = .ok (message, stop) ↔
      BatchMessage message ∧ offset + 2 + message.length ≤ payload.length ∧
        payload.drop offset = prefixedMessage message ++ payload.drop stop ∧
        stop = offset + 2 + message.length := by
  simp only [maxBatchPayloadBytes, maxMorphologyDatagramBytes,
    morphologyHeaderBytes] at hsize
  simp only [readMessage, bind_eq_ok_iff, okOr_eq_ok_iff, ensure_eq_ok_iff,
    exists_const, checkedAdd_eq_some_iff, getRange_eq_some_iff,
    batchMessageLengthBytes, pure_eq_ok_iff, Prod.mk.injEq]
  constructor
  · rintro ⟨_, ⟨-, rfl⟩, lengthBytes, ⟨⟨-, hprefix⟩, hlength⟩, hnonzero, _,
      ⟨-, rfl⟩, message, ⟨⟨-, hfits⟩, hmessage⟩, rfl, rfl⟩
    rw [Nat.add_sub_cancel_left] at hlength hmessage
    have hwidth : lengthBytes.length = 2 := by
      rw [← hlength, slice_length hprefix]
    have hmessageLength : message.length = ofBigEndian lengthBytes := by
      rw [← hmessage, slice_length hfits]
    have hsmall : ofBigEndian lengthBytes < 256 ^ 2 := by
      have hlt := ofBigEndian_lt lengthBytes
      rwa [hwidth] at hlt
    have hbytes : bigEndian 2 message.length = lengthBytes := by
      rw [hmessageLength, ← hwidth, bigEndian_ofBigEndian]
    refine ⟨⟨?_, by omega⟩, by omega, ?_, by omega⟩
    · intro hnil
      rw [hnil] at hmessageLength
      exact hnonzero hmessageLength.symm
    · rw [drop_eq_slice_append payload offset 2, hlength,
        drop_eq_slice_append payload (offset + 2) (ofBigEndian lengthBytes),
        hmessage, prefixedMessage, hbytes, List.append_assoc]
  · rintro ⟨⟨hempty, hshort⟩, hfits, hdrop, rfl⟩
    rw [prefixedMessage, List.append_assoc] at hdrop
    have hwidth : (bigEndian 2 message.length).length = 2 := by simp
    obtain ⟨hlength, hbehind⟩ := slice_of_drop hdrop hwidth
    obtain ⟨hmessage, -⟩ := slice_of_drop hbehind rfl
    have hnumber : ofBigEndian (bigEndian 2 message.length) =
        message.length := ofBigEndian_bigEndian (by omega)
    have hlarge : u64Max = 2 ^ 64 - 1 := rfl
    refine ⟨offset + 2, ⟨by omega, rfl⟩, bigEndian 2 message.length,
      ⟨⟨by omega, by omega⟩, ?_⟩, ?_, offset + 2 + message.length, ?_,
      message, ⟨⟨by omega, hfits⟩, ?_⟩, rfl, rfl⟩
    · rw [Nat.add_sub_cancel_left]
      exact hlength
    · rw [hnumber]
      exact fun hzero => hempty (List.length_eq_zero_iff.mp hzero)
    · rw [hnumber]
      exact ⟨by omega, rfl⟩
    · rw [Nat.add_sub_cancel_left]
      exact hmessage

/-- The loop adds the messages whose prefixed forms are what is left. -/
theorem decodeBatchLoop_eq_ok_iff
    (hsize : payload.length ≤ maxBatchPayloadBytes) {room offset : Nat}
    {messages result : List Bytes} :
    decodeBatchLoop payload room offset messages = .ok result ↔
      ∃ more, result = messages ++ more ∧ more.length ≤ room ∧
        (∀ message ∈ more, BatchMessage message) ∧
        payload.drop offset = more.flatMap prefixedMessage := by
  have hdone : ∀ {offset room : Nat} {messages : List Bytes},
      ¬ offset < payload.length → (.ok messages = (.ok result :
        Except ShphError (List Bytes)) ↔
        ∃ more, result = messages ++ more ∧ more.length ≤ room ∧
          (∀ message ∈ more, BatchMessage message) ∧
          payload.drop offset = more.flatMap prefixedMessage) := by
    intro offset room messages hend
    rw [List.drop_eq_nil_of_le (by omega), Except.ok.injEq]
    constructor
    · rintro rfl
      exact ⟨[], by simp⟩
    · rintro ⟨more, rfl, -, -, hmore⟩
      cases more with
      | nil => rw [List.append_nil]
      | cons message more =>
          have hlength := congrArg List.length hmore
          rw [List.flatMap_cons, List.length_append,
            prefixedMessage_length, List.length_nil] at hlength
          omega
  induction room generalizing offset messages with
  | zero =>
      rw [decodeBatchLoop]
      split
      · rename_i hleft
        constructor
        · intro hdecode
          cases hdecode
        · rintro ⟨more, -, hroom, -, hmore⟩
          rw [List.length_eq_zero_iff.mp (Nat.le_zero.mp hroom),
            List.flatMap_nil, List.drop_eq_nil_iff] at hmore
          omega
      · rename_i hend
        exact hdone hend
  | succ room ih =>
      rw [decodeBatchLoop]
      split
      · rename_i hleft
        constructor
        · intro hdecode
          split at hdecode
          · cases hdecode
          · rename_i message stop hread
            obtain ⟨hmessage, -, hdrop, -⟩ :=
              (readMessage_eq_ok_iff hsize).mp hread
            obtain ⟨more, hresult, hroom, hmessages, hmore⟩ := ih.mp hdecode
            refine ⟨message :: more, ?_, Nat.succ_le_succ hroom,
              List.forall_mem_cons.mpr ⟨hmessage, hmessages⟩, ?_⟩
            · rw [hresult, List.append_assoc]
              rfl
            · rw [hdrop, hmore, List.flatMap_cons]
        · rintro ⟨more, hresult, hroom, hmessages, hmore⟩
          cases more with
          | nil =>
              rw [List.flatMap_nil, List.drop_eq_nil_iff] at hmore
              omega
          | cons message more =>
              rw [List.flatMap_cons] at hmore
              obtain ⟨-, hbehind⟩ :=
                slice_of_drop hmore (prefixedMessage_length message)
              have hlength := congrArg List.length hmore
              rw [List.length_drop, List.length_append,
                prefixedMessage_length] at hlength
              rw [← Nat.add_assoc] at hbehind
              have hread : readMessage payload offset =
                  .ok (message, offset + 2 + message.length) := by
                refine (readMessage_eq_ok_iff hsize).mpr
                  ⟨hmessages _ List.mem_cons_self, by omega, ?_, rfl⟩
                rw [hmore, hbehind]
              rw [hread]
              refine ih.mpr ⟨more, ?_, Nat.le_of_succ_le_succ hroom,
                fun other hother =>
                  hmessages other (List.mem_cons_of_mem _ hother), hbehind⟩
              rw [hresult, List.append_assoc]
              rfl
      · rename_i hend
        exact hdone hend

theorem decodeBatchPayload_eq_ok_iff {messages : List Bytes} :
    decodeBatchPayload payload = .ok messages ↔
      payload ≠ [] ∧ payload.length ≤ maxBatchPayloadBytes ∧
        messages.length ≤ maxBatchMessages ∧
        (∀ message ∈ messages, BatchMessage message) ∧
        payload = messages.flatMap prefixedMessage := by
  simp only [decodeBatchPayload, bind_eq_ok_iff, ensure_eq_ok_iff,
    exists_const]
  apply and_congr_right
  intro _
  apply and_congr_right
  intro hsize
  rw [decodeBatchLoop_eq_ok_iff hsize]
  simp

end Loop

section Datagram

variable {rng : Rng}

theorem validatePathMtu_eq_ok_iff {pathMtu : Nat} {result : Unit} :
    validatePathMtu pathMtu = .ok result ↔ 7 ≤ pathMtu ∧ pathMtu ≤ 65535 := by
  rw [validatePathMtu, ensure_eq_ok_iff]
  rfl

theorem validatePayloadForPath_eq {payloadLen pathMtu : Nat}
    (hmtu : validatePathMtu pathMtu = .ok ()) (hempty : payloadLen ≠ 0)
    (hfits : payloadLen ≤ pathMtu - morphologyHeaderBytes) :
    validatePayloadForPath payloadLen pathMtu =
      .ok (payloadLen + morphologyHeaderBytes) := by
  have hbounds := validatePathMtu_eq_ok_iff.mp hmtu
  have hheader : morphologyHeaderBytes = 7 := rfl
  have hlarge : u64Max = 2 ^ 64 - 1 := rfl
  simp only [validatePayloadForPath, bind_eq_ok_iff, ensure_eq_ok_iff,
    okOr_eq_ok_iff, exists_const, checkedAdd_eq_some_iff, pure_eq_ok_iff]
  exact ⟨(), hmtu, hempty, by omega, _, ⟨by omega, rfl⟩, by omega, rfl⟩

/-- Whatever is drawn, the size holds the payload and keeps to the path. -/
theorem targetSize_bounds (shaped : HistogramEngine rng)
    {payloadLen pathMtu minimum : Nat}
    (hminimum : validatePayloadForPath payloadLen pathMtu = .ok minimum)
    (hfits : minimum ≤ pathMtu) :
    ∃ size engine, shaped.targetSize payloadLen pathMtu = (.ok size, engine) ∧
      minimum ≤ size ∧ size ≤ pathMtu := by
  have hclamp : ∀ sampled, minimum ≤ min (max sampled minimum) pathMtu ∧
      min (max sampled minimum) pathMtu ≤ pathMtu := by
    intro sampled
    omega
  unfold HistogramEngine.targetSize
  split
  · rw [MorphologyEngine.targetSize, hminimum]
    exact ⟨_, _, rfl, hclamp _⟩
  · rw [hminimum]
    exact ⟨_, _, rfl, hclamp _⟩

/-- The bytes of an envelope. -/
def morphologyEnvelope (payload : Bytes) (size : Nat) (padding : Bytes) :
    Bytes :=
  morphologyMagic ++ [morphologyVersion] ++ bigEndian 2 payload.length ++
    bigEndian 2 size ++ payload ++ padding

theorem encodeDatagramWithRng_eq (hrng : rng.Infallible)
    (engine : MorphologyEngine rng) {payload : Bytes}
    {size pathMtu minimum : Nat}
    (hmtu : validatePathMtu pathMtu = .ok ())
    (hminimum : validatePayloadForPath payload.length pathMtu = .ok minimum)
    (hsize : minimum ≤ size) (hpath : size ≤ pathMtu) :
    ∃ padding next, engine.encodeDatagramWithRng payload size pathMtu =
        (.ok (morphologyEnvelope payload size padding), next) ∧
      padding.length = size - minimum := by
  have hbounds := validatePathMtu_eq_ok_iff.mp hmtu
  have hmaximum : maxMorphologyDatagramBytes = 65535 := rfl
  unfold MorphologyEngine.encodeDatagramWithRng
  rw [hminimum]
  dsimp only
  rw [if_neg (by omega), if_neg (by omega), if_neg (by omega)]
  split
  · rename_i hfill
    exact absurd hfill fun hfill => hrng.fills hfill
  · rename_i padding _ hfill
    have hlength := rng.tryFillBytes_length (by rw [hfill])
    exact ⟨padding, _, rfl, hlength⟩

theorem encodeDatagram_eq (hrng : rng.Infallible)
    (shaped : HistogramEngine rng) {payload : Bytes} {pathMtu : Nat}
    (hmtu : validatePathMtu pathMtu = .ok ()) (hempty : payload.length ≠ 0)
    (hfits : payload.length ≤ pathMtu - morphologyHeaderBytes) :
    ∃ size padding next, shaped.encodeDatagram payload pathMtu =
        (.ok (morphologyEnvelope payload size padding), next) ∧
      size ≤ pathMtu ∧ padding.length + payload.length + 7 = size := by
  have hbounds := validatePathMtu_eq_ok_iff.mp hmtu
  have hheader : morphologyHeaderBytes = 7 := rfl
  have hminimum := validatePayloadForPath_eq hmtu hempty hfits
  obtain ⟨size, engine, htarget, hsize, hpath⟩ :=
    targetSize_bounds shaped hminimum (by omega)
  obtain ⟨padding, next, hencode, hpadding⟩ :=
    encodeDatagramWithRng_eq hrng engine hmtu hminimum hsize hpath
  unfold HistogramEngine.encodeDatagram
  rw [htarget]
  dsimp only
  rw [hencode]
  exact ⟨size, padding, _, rfl, hpath, by omega⟩

theorem morphologyEnvelope_length (payload : Bytes) (size : Nat)
    (padding : Bytes) :
    (morphologyEnvelope payload size padding).length =
      padding.length + payload.length + 7 := by
  simp [morphologyEnvelope, morphologyMagic]
  omega

/-- An envelope is decoded to its payload. -/
theorem decodeDatagram_envelope {payload padding : Bytes}
    {size pathMtu : Nat} (hmtu : validatePathMtu pathMtu = .ok ())
    (hempty : payload.length ≠ 0) (hsize : size ≤ pathMtu)
    (hlength : padding.length + payload.length + 7 = size) :
    decodeDatagram (morphologyEnvelope payload size padding) pathMtu =
      .ok payload := by
  have hbounds := validatePathMtu_eq_ok_iff.mp hmtu
  have hheader : morphologyHeaderBytes = 7 := rfl
  have hlarge : u64Max = 2 ^ 64 - 1 := rfl
  have htotal := morphologyEnvelope_length payload size padding
  have hfields : slices 0 [2, 1, 2, 2, payload.length, padding.length]
      (morphologyEnvelope payload size padding) =
      [morphologyMagic, [morphologyVersion], bigEndian 2 payload.length,
        bigEndian 2 size, payload, padding] := by
    have hparts : morphologyEnvelope payload size padding =
        [morphologyMagic, [morphologyVersion], bigEndian 2 payload.length,
          bigEndian 2 size, payload, padding].flatten := by
      simp [morphologyEnvelope]
    rw [hparts]
    apply slices_flatten
    simp [morphologyMagic]
  simp only [slices, List.cons.injEq, Nat.reduceAdd, and_true] at hfields
  obtain ⟨hmagic, hversion, hpayloadLen, hdeclared, hpayload, -⟩ := hfields
  have hpayloadNumber : ofBigEndian (bigEndian 2 payload.length) =
      payload.length := ofBigEndian_bigEndian (by omega)
  have hsizeNumber : ofBigEndian (bigEndian 2 size) = size :=
    ofBigEndian_bigEndian (by omega)
  simp only [decodeDatagram, bind_eq_ok_iff, ensure_eq_ok_iff, okOr_eq_ok_iff,
    exists_const, checkedAdd_eq_some_iff, hpayloadLen, hdeclared,
    hpayloadNumber, hsizeNumber, pure_eq_ok_iff]
  exact ⟨(), hmtu, ⟨by omega, by omega⟩, ⟨hmagic, hversion⟩, by omega, _,
    ⟨by omega, rfl⟩, ⟨hempty, by omega⟩, hpayload⟩

end Datagram

/-- Batches come back from their payloads and from the datagrams that carry
them, and a payload that is accepted is the batch it is split into. -/
theorem batch_codec :
    (∀ (messages : List Bytes) (pathMtu : Nat) (payload : Bytes),
      encodeBatchPayload messages pathMtu = .ok payload →
        decodeBatchPayload payload = .ok messages ∧
        ∀ (rng : Rng), rng.Infallible → ∀ morphology : HistogramEngine rng,
          ∃ datagram next,
            encodeBatchedDatagram morphology messages pathMtu =
              (.ok datagram, next) ∧
            datagram.length ≤ pathMtu ∧
            decodeBatchedDatagram datagram pathMtu = .ok messages) ∧
    ∀ (payload : Bytes) (messages : List Bytes),
      decodeBatchPayload payload = .ok messages →
        messages.flatMap prefixedMessage = payload ∧
        1 ≤ messages.length ∧ messages.length ≤ maxBatchMessages ∧
        ∀ message ∈ messages, message ≠ [] := by
  constructor
  · intro messages pathMtu payload hencode
    obtain ⟨hmtu, hempty, hcount, hmessages, hpayload, hfits⟩ :=
      encodeBatchPayload_eq_ok hencode
    have hbounds := validatePathMtu_eq_ok_iff.mp hmtu
    have hheader : morphologyHeaderBytes = 7 := rfl
    have hmaximum : maxBatchPayloadBytes = 65528 := rfl
    have hnonempty : payload ≠ [] := by
      obtain ⟨message, rest, rfl⟩ := List.exists_cons_of_ne_nil hempty
      rw [hpayload, List.flatMap_cons]
      apply List.ne_nil_of_length_pos
      rw [List.length_append, prefixedMessage_length]
      omega
    have hdecode : decodeBatchPayload payload = .ok messages :=
      decodeBatchPayload_eq_ok_iff.mpr
        ⟨hnonempty, by omega, hcount, hmessages, hpayload⟩
    refine ⟨hdecode, ?_⟩
    intro rng hrng morphology
    have hlength : payload.length ≠ 0 :=
      fun hzero => hnonempty (List.length_eq_zero_iff.mp hzero)
    obtain ⟨size, padding, next, hdatagram, hsize, htotal⟩ :=
      encodeDatagram_eq hrng morphology hmtu hlength hfits
    refine ⟨morphologyEnvelope payload size padding, next, ?_, ?_, ?_⟩
    · rw [encodeBatchedDatagram, hencode]
      exact hdatagram
    · rw [morphologyEnvelope_length, htotal]
      exact hsize
    · rw [decodeBatchedDatagram,
        decodeDatagram_envelope hmtu hlength hsize htotal]
      exact hdecode
  · intro payload messages hdecode
    obtain ⟨hnonempty, -, hcount, hmessages, hpayload⟩ :=
      decodeBatchPayload_eq_ok_iff.mp hdecode
    refine ⟨hpayload.symm, ?_, hcount, fun message hmessage =>
      (hmessages message hmessage).1⟩
    rw [Nat.one_le_iff_ne_zero]
    intro hzero
    rw [List.length_eq_zero_iff.mp hzero] at hpayload
    exact hnonempty hpayload

namespace BatchWitness

/-- An engine with two sizes, one of them larger than the path. -/
def morphology : HistogramEngine .zeros where
  engine := ⟨.lowLatency, (), .default, false⟩
  sizeHistogram := some ⟨[64, 2 ^ 63], [1 / 4, 1], by decide⟩

theorem zeros_infallible : Rng.zeros.Infallible := fun _ _ => rfl

/-- A batch of two messages comes back from a datagram. -/
theorem batch_codec_two :
    encodeBatchPayload [[1, 2, 3], [4]] 1200 = .ok [0, 3, 1, 2, 3, 0, 1, 4] ∧
      decodeBatchPayload [0, 3, 1, 2, 3, 0, 1, 4] = .ok [[1, 2, 3], [4]] ∧
      ∃ datagram next,
        encodeBatchedDatagram morphology [[1, 2, 3], [4]] 1200 =
          (.ok datagram, next) ∧
        datagram.length ≤ 1200 ∧
        decodeBatchedDatagram datagram 1200 = .ok [[1, 2, 3], [4]] := by
  have hencode : encodeBatchPayload [[1, 2, 3], [4]] 1200 =
      .ok [0, 3, 1, 2, 3, 0, 1, 4] := by decide
  obtain ⟨hdecode, hdatagram⟩ := batch_codec.1 _ _ _ hencode
  exact ⟨hencode, hdecode, hdatagram _ zeros_infallible morphology⟩

end BatchWitness

end Shph.Shroud2
