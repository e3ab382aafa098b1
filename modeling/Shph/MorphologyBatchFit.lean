/-
Whether the batches of the coalescer can be encoded.  A message is weighed
against the path at the time it is pushed, and the batch it joins is encoded
for the path of a later push; the path may have become smaller in between.
-/
import Shph.BatchCodec

namespace Shph.Shroud2

open ByteCodec StatefulRun

/-- The bytes that the messages take with their lengths in front. -/
def batchBytes (messages : List Bytes) : Nat :=
  (messages.map fun message => 2 + message.length).sum

theorem batchBytes_append (first second : List Bytes) :
    batchBytes (first ++ second) = batchBytes first + batchBytes second := by
  simp [batchBytes]

theorem foldlM_addMessage_eq_ok {messages : List Bytes} {total : Nat}
    (hmessages : ∀ message ∈ messages, BatchMessage message)
    (hroom : total + batchBytes messages ≤ u64Max) :
    messages.foldlM addMessage total = .ok (total + batchBytes messages) := by
  induction messages generalizing total with
  | nil => rfl
  | cons message messages ih =>
      rw [List.forall_mem_cons] at hmessages
      simp only [batchBytes, List.map_cons, List.sum_cons] at hroom ⊢
      rw [List.foldlM_cons, bind_eq_ok_iff]
      refine ⟨total + 2 + message.length,
        addMessage_eq_ok_iff.mpr ⟨hmessages.1, by omega, rfl⟩, ?_⟩
      rw [ih hmessages.2 (by unfold batchBytes; omega), batchBytes]
      congr 1
      omega

def Encodable (messages : List Bytes) (pathMtu : Nat) : Prop :=
  ∃ payload, encodeBatchPayload messages pathMtu = .ok payload

/-- The encoder accepts a batch when it holds messages, not too many, and
fits the path. -/
theorem encodable_iff {messages : List Bytes} {pathMtu : Nat} :
    Encodable messages pathMtu ↔ (7 ≤ pathMtu ∧ pathMtu ≤ 65535) ∧
      messages ≠ [] ∧ messages.length ≤ maxBatchMessages ∧
      (∀ message ∈ messages, BatchMessage message) ∧
      batchBytes messages ≤ pathMtu - 7 := by
  have hlength : (messages.flatMap prefixedMessage).length =
      batchBytes messages := by
    rw [List.length_flatMap, batchBytes]
    simp only [prefixedMessage_length]
  constructor
  · rintro ⟨payload, hencode⟩
    obtain ⟨hmtu, hempty, hcount, hmessages, rfl, hfits⟩ :=
      encodeBatchPayload_eq_ok hencode
    rw [hlength] at hfits
    exact ⟨validatePathMtu_eq_ok_iff.mp hmtu, hempty, hcount, hmessages, hfits⟩
  · rintro ⟨hmtu, hempty, hcount, hmessages, hfits⟩
    have hlarge : u64Max = 2 ^ 64 - 1 := rfl
    have hfold : messages.foldlM addMessage 0 =
        .ok (0 + batchBytes messages) :=
      foldlM_addMessage_eq_ok hmessages (by omega)
    rw [Nat.zero_add] at hfold
    simp only [Encodable, encodeBatchPayload, bind_eq_ok_iff,
      ensure_eq_ok_iff, exists_const]
    exact ⟨_, (), validatePathMtu_eq_ok_iff.mpr hmtu, hempty, hcount, _,
      hfold, hfits, rfl⟩

theorem encodable_singleton {message : Bytes} {pathMtu : Nat}
    (hmtu : 7 ≤ pathMtu ∧ pathMtu ≤ 65535) (hmessage : BatchMessage message)
    (hfits : 2 + message.length ≤ pathMtu - 7) :
    Encodable [message] pathMtu := by
  refine encodable_iff.mpr ⟨hmtu, by simp, by simp [maxBatchMessages],
    by simpa using hmessage, ?_⟩
  simpa [batchBytes] using hfits

namespace MorphologyBatcher

theorem checkPush_eq_ok_iff {batcher : MorphologyBatcher} {message : Bytes}
    {pathMtu nextPayloadBytes : Nat} :
    batcher.checkPush message pathMtu = .ok nextPayloadBytes ↔
      (7 ≤ pathMtu ∧ pathMtu ≤ 65535) ∧ BatchMessage message ∧
        2 + message.length ≤ pathMtu - 7 ∧
        batcher.encodedPayloadBytes + (2 + message.length) ≤ u64Max ∧
        nextPayloadBytes =
          batcher.encodedPayloadBytes + (2 + message.length) := by
  simp only [checkPush, bind_eq_ok_iff, okOr_eq_ok_iff, ensure_eq_ok_iff,
    validatePathMtu_eq_ok_iff, validateBatchMessage_eq_ok_iff, exists_const,
    checkedAdd_eq_some_iff]
  simp only [batchMessageLengthBytes, morphologyHeaderBytes]
  constructor
  · rintro ⟨hmtu, hmessage, _, ⟨-, rfl⟩, hfits, hnext, rfl⟩
    exact ⟨hmtu, hmessage, hfits, hnext, rfl⟩
  · rintro ⟨hmtu, hmessage, hfits, hnext, rfl⟩
    exact ⟨hmtu, hmessage, _, ⟨by omega, rfl⟩, hfits, hnext, rfl⟩

/-- What one `push` can do, with what its checks leave known: a message that
is buffered behind others fits the path together with them. -/
theorem pushAt_weighed (batcher : MorphologyBatcher) (message : Bytes)
    (pathMtu : Nat) (now : Int) :
    (∃ error, batcher.pushAt message pathMtu now = (.error error, batcher)) ∨
    ((7 ≤ pathMtu ∧ pathMtu ≤ 65535) ∧ BatchMessage message ∧
      2 + message.length ≤ pathMtu - 7 ∧
      (batcher.messages ≠ [] ∧ batcher.pushAt message pathMtu now =
          (.ok (.flush batcher.messages),
            batcher.emptied.appended message now) ∨
        (batcher.messages = [] ∨
          batcher.messages.length < batcher.policy.maxMessages ∧
          batcher.encodedPayloadBytes + (2 + message.length) ≤
            pathMtu - 7) ∧
          batcher.pushAt message pathMtu now =
            (.ok .buffered, batcher.appended message now))) := by
  unfold pushAt
  cases hcheck : batcher.checkPush message pathMtu with
  | error error => exact Or.inl ⟨error, rfl⟩
  | ok nextPayloadBytes =>
      obtain ⟨hmtu, hmessage, hfits, hnext, rfl⟩ :=
        checkPush_eq_ok_iff.mp hcheck
      refine Or.inr ⟨hmtu, hmessage, hfits, ?_⟩
      have hlarge : u64Max = 2 ^ 64 - 1 := rfl
      have halone : batchMessageLengthBytes + message.length ≤ u64Max := by
        unfold batchMessageLengthBytes
        omega
      dsimp only
      split
      · rename_i hfull
        have hempty : batcher.emptied.encodedPayloadBytes +
            (batchMessageLengthBytes + message.length) ≤ u64Max := by
          simpa [emptied] using halone
        simp only [flush_eq batcher hfull.1,
          pushWithoutFlush_eq_ok now halone hempty]
        exact Or.inl ⟨hfull.1, trivial⟩
      · rename_i hroom
        simp only [pushWithoutFlush_eq_ok now halone hnext]
        refine Or.inr ⟨?_, trivial⟩
        rw [not_and_or, not_not, not_or, not_or] at hroom
        rcases hroom with hempty | ⟨-, hcount, hbytes⟩
        · exact Or.inl hempty
        · exact Or.inr ⟨Nat.lt_of_not_le hcount, Nat.le_of_not_lt hbytes⟩

/-- The bookkeeping, and what the buffered messages are. -/
structure Holds (batcher : MorphologyBatcher) : Prop where
  consistent : Consistent batcher
  messages : ∀ message ∈ batcher.messages, BatchMessage message

theorem serve_messages {batcher : MorphologyBatcher}
    (hmessages : ∀ message ∈ batcher.messages, BatchMessage message)
    (call : Call) :
    ∀ message ∈ (batcher.serve call).2.messages, BatchMessage message := by
  have hflush : ∀ message ∈ batcher.flush.2.messages, BatchMessage message := by
    unfold flush
    split
    · exact hmessages
    · simp
  cases call with
  | push message pathMtu now =>
      rcases pushAt_weighed batcher message pathMtu now with
        ⟨error, hpush⟩ | ⟨-, hmessage, -, ⟨-, hpush⟩ | ⟨-, hpush⟩⟩
      · simpa only [serve, hpush] using hmessages
      · simpa [serve, hpush, emptied, appended] using hmessage
      · simp only [serve, hpush, appended, List.forall_mem_append,
          List.forall_mem_singleton]
        exact ⟨hmessages, hmessage⟩
  | flush => exact hflush
  | flushIfDue now =>
      simp only [serve, flushIfDue]
      split
      · exact hflush
      · exact hmessages

theorem holds_run (policy : MorphologyBatchPolicy) (calls : List Call) :
    Holds (final serve (withPolicy policy) calls) := by
  refine history_invariant (P := fun _ batcher => Holds batcher) ?_ ?_ calls
  · exact ⟨(withPolicy_conserves policy).consistent, by simp [withPolicy]⟩
  · intro _ batcher call hholds
    exact ⟨(serve_step batcher call).consistent hholds.consistent,
      serve_messages hholds.messages call⟩

/-- A buffered batch can be encoded for a path when its bytes fit. -/
theorem Holds.encodable_iff {batcher : MorphologyBatcher}
    (hholds : Holds batcher) (hmessages : batcher.messages ≠ [])
    {pathMtu : Nat} :
    Encodable batcher.messages pathMtu ↔
      (7 ≤ pathMtu ∧ pathMtu ≤ 65535) ∧
        batcher.encodedPayloadBytes ≤ pathMtu - 7 := by
  have hcount := Nat.le_trans hholds.consistent.length_le
    batcher.policy.messages_le
  rw [Shroud2.encodable_iff, hholds.consistent.encoded_eq]
  exact ⟨fun ⟨hmtu, _, _, _, hfits⟩ => ⟨hmtu, hfits⟩,
    fun ⟨hmtu, hfits⟩ => ⟨hmtu, hmessages, hcount, hholds.messages, hfits⟩⟩

/-- The batch that a push returns, and the one that a flush right behind it
returns, can be encoded for the path of the push. -/
structure PushEncodable (batcher : MorphologyBatcher) (message : Bytes)
    (pathMtu : Nat) (now : Int) : Prop where
  returned : ∀ batch, (batcher.pushAt message pathMtu now).1 =
    .ok (.flush batch) → Encodable batch pathMtu
  buffered : ∀ batch, (batcher.pushAt message pathMtu now).2.flush.1 =
    some batch → Encodable batch pathMtu

/-- What is buffered already, if anything, fits the path of the next push. -/
def StillFits (batcher : MorphologyBatcher) (pathMtu : Nat) : Prop :=
  batcher.messages = [] ∨ (7 ≤ pathMtu ∧ pathMtu ≤ 65535) ∧
    batcher.encodedPayloadBytes ≤ pathMtu - 7

theorem flush_eq_some_iff {batcher : MorphologyBatcher} {batch : List Bytes} :
    batcher.flush.1 = some batch ↔
      batcher.messages ≠ [] ∧ batch = batcher.messages := by
  unfold flush
  split
  · rename_i hempty
    simp [hempty]
  · rename_i hmessages
    simp [hmessages, eq_comm]

theorem Holds.pushEncodable_iff {batcher : MorphologyBatcher}
    (hholds : Holds batcher) (message : Bytes) (pathMtu : Nat) (now : Int) :
    PushEncodable batcher message pathMtu now ↔
      StillFits batcher pathMtu := by
  unfold StillFits
  by_cases hmessages : batcher.messages = []
  · -- only the message itself can be in a batch
    simp only [hmessages, true_or, iff_true]
    rcases pushAt_weighed batcher message pathMtu now with
      ⟨error, hpush⟩ | ⟨hmtu, hmessage, hfits, ⟨hsome, -⟩ | ⟨-, hpush⟩⟩
    · constructor <;> simp [hpush, flush, hmessages]
    · exact absurd hmessages hsome
    · refine ⟨by simp [hpush], ?_⟩
      simp only [hpush, flush_eq_some_iff, appended, hmessages]
      rintro batch ⟨-, rfl⟩
      exact encodable_singleton hmtu hmessage hfits
  · have hbatch := @Holds.encodable_iff batcher hholds hmessages pathMtu
    rw [or_iff_right hmessages, ← hbatch]
    rcases pushAt_weighed batcher message pathMtu now with
      ⟨error, hpush⟩ | ⟨hmtu, hmessage, hfits, ⟨-, hpush⟩ | ⟨hroom, hpush⟩⟩
    · constructor
      · intro hpushed
        exact hpushed.buffered _ (by
          rw [hpush, flush_eq_some_iff]
          exact ⟨hmessages, rfl⟩)
      · intro hencodable
        refine ⟨by simp [hpush], ?_⟩
        rw [hpush]
        rintro batch hflush
        rwa [(flush_eq_some_iff.mp hflush).2]
    · constructor
      · intro hpushed
        exact hpushed.returned _ (by rw [hpush])
      · intro hencodable
        constructor
        · rintro batch hreturned
          rw [hpush] at hreturned
          cases hreturned
          exact hencodable
        · rintro batch hflush
          rw [hpush, flush_eq_some_iff] at hflush
          rw [hflush.2]
          exact encodable_singleton hmtu hmessage hfits
    · -- the push was weighed together with what was buffered
      obtain ⟨hcount, hbytes⟩ := hroom.resolve_left hmessages
      have hencodable : Encodable batcher.messages pathMtu :=
        hbatch.mpr ⟨hmtu, by omega⟩
      refine iff_of_true ⟨by simp [hpush], ?_⟩ hencodable
      rintro batch hflush
      rw [hpush, flush_eq_some_iff] at hflush
      rw [hflush.2, Shroud2.encodable_iff]
      have hmost := batcher.policy.messages_le
      have hencoded := hholds.consistent.encoded_eq
      refine ⟨hmtu, by simp [appended], ?_, ?_, ?_⟩
      · simp only [appended, List.length_append, List.length_singleton]
        omega
      · simp only [appended, List.forall_mem_append,
          List.forall_mem_singleton]
        exact ⟨hholds.messages, hmessage⟩
      · simp only [appended, batchBytes_append]
        simp only [batchBytes, ← hencoded, List.map_singleton,
          List.sum_singleton]
        exact hbytes

/-- A property of every push of a run, with the batcher it finds. -/
def EachPush (P : MorphologyBatcher → Bytes → Nat → Int → Prop)
    (policy : MorphologyBatchPolicy) (calls : List Call) : Prop :=
  ∀ before message pathMtu now after,
    calls = before ++ .push message pathMtu now :: after →
      P (final serve (withPolicy policy) before) message pathMtu now

/-- All batches of a run can be encoded for the paths of their pushes exactly
when no path is too small for what was buffered before. -/
theorem batches_encodable_iff (policy : MorphologyBatchPolicy)
    (calls : List Call) :
    EachPush PushEncodable policy calls ↔
      EachPush (fun batcher _ pathMtu _ => StillFits batcher pathMtu) policy
        calls := by
  unfold EachPush
  simp only [(holds_run policy _).pushEncodable_iff]

/-- Two messages for a path of 1500 bytes, and a third when only 20 are
left. -/
def shrinkingPath : List Call :=
  [.push [1, 2, 3, 4, 5, 6, 7, 8] 1500 0, .push [9, 10, 11, 12] 1500 1,
    .push [13] 20 2]

theorem batches_not_always_encodable :
    ¬ ∀ policy calls, EachPush PushEncodable policy calls := by
  intro hall
  have hpushed := hall .default shrinkingPath
    (shrinkingPath.take 2) [13] 20 2 [] rfl
  obtain ⟨payload, hencode⟩ := hpushed.returned
    [[1, 2, 3, 4, 5, 6, 7, 8], [9, 10, 11, 12]] (by decide)
  have herror : encodeBatchPayload
      [[1, 2, 3, 4, 5, 6, 7, 8], [9, 10, 11, 12]] 20 =
        .error (.protocol
          "morphology batch exceeds the negotiated datagram limit") := by
    decide
  rw [herror] at hencode
  cases hencode

end MorphologyBatcher

end Shph.Shroud2
