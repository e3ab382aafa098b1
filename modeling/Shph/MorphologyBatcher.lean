/-
The coalescer for small application messages.  Messages are buffered until
the next one would no longer fit, the batch holds as many as its policy
allows, or its deadline has passed; then the buffered messages are handed out
as one batch.
-/
import Shph.Error
import Shph.Library.Bytes
import Shph.Library.StatefulRun
import Shph.Word

namespace Shph.Shroud2

open ByteCodec StatefulRun

def morphologyHeaderBytes : Nat := 7

def maxMorphologyDatagramBytes : Nat := 65535

def batchMessageLengthBytes : Nat := 2

def maxBatchMessages : Nat := 32

/-- One second, in nanoseconds. -/
def maxBatchWait : Nat := 10 ^ 9

inductive MorphologyProfile where
  | lowLatency
  | webBrowsingLab
  | videoStreamingLab
  | videoStreamingLargePayloadLab
  | videoStreamingBalancedPayloadLab
  | bulkLab
  | tunedLowLatency
  | tunedWebBrowsingLab
  | tunedVideoStreamingLab
  | tunedBulkLab
deriving Repr, DecidableEq

/-- The limits of a batch.  The fields are private to the type, so every
policy has been checked. -/
structure MorphologyBatchPolicy where
  maxMessages : Nat
  maxWait : Nat
  messages_pos : 1 ≤ maxMessages
  messages_le : maxMessages ≤ maxBatchMessages
  wait_le : maxWait ≤ maxBatchWait
deriving Repr, DecidableEq

namespace MorphologyBatchPolicy

def new (maxMessages maxWait : Nat) :
    Except ShphError MorphologyBatchPolicy :=
  if hmessages : 1 ≤ maxMessages ∧ maxMessages ≤ maxBatchMessages then
    if hwait : maxWait ≤ maxBatchWait then
      .ok ⟨maxMessages, maxWait, hmessages.1, hmessages.2, hwait⟩
    else
      .error (.config
        "morphology batch wait must not exceed 1000 milliseconds")
  else
    .error (.config
      "morphology batch message limit must be between 1 and 32")

/-- So many messages and milliseconds. -/
def ofMillis (maxMessages ms : Nat)
    (hvalid : 1 ≤ maxMessages ∧ maxMessages ≤ maxBatchMessages ∧
      ms * 10 ^ 6 ≤ maxBatchWait) : MorphologyBatchPolicy :=
  ⟨maxMessages, ms * 10 ^ 6, hvalid.1, hvalid.2.1, hvalid.2.2⟩

def recommended : MorphologyProfile → MorphologyBatchPolicy
  | .lowLatency => ofMillis 4 2 (by decide)
  | .webBrowsingLab => ofMillis 8 10 (by decide)
  | .videoStreamingLab => ofMillis 8 20 (by decide)
  | .videoStreamingLargePayloadLab => ofMillis 8 20 (by decide)
  | .videoStreamingBalancedPayloadLab => ofMillis 8 20 (by decide)
  | .bulkLab => ofMillis maxBatchMessages 50 (by decide)
  | .tunedLowLatency => ofMillis 6 2 (by decide)
  | .tunedWebBrowsingLab => ofMillis 10 8 (by decide)
  | .tunedVideoStreamingLab => ofMillis 8 16 (by decide)
  | .tunedBulkLab => ofMillis maxBatchMessages 40 (by decide)

def default : MorphologyBatchPolicy :=
  ofMillis maxBatchMessages 1000 (by decide)

end MorphologyBatchPolicy

inductive MorphologyBatchPushResult where
  | buffered
  | flush (batch : List Bytes)
deriving Repr, DecidableEq

/-- An instant is a number of nanoseconds from any origin. -/
structure MorphologyBatcher where
  messages : List Bytes
  encodedPayloadBytes : Nat
  policy : MorphologyBatchPolicy
  firstMessageAt : Option Int
deriving Repr, DecidableEq

def validatePathMtu (pathMtu : Nat) : Except ShphError Unit :=
  ensure (morphologyHeaderBytes ≤ pathMtu ∧
      pathMtu ≤ maxMorphologyDatagramBytes)
    (.config "morphology path MTU must be between 7 and 65535 bytes")

def validateBatchMessage (message : Bytes) : Except ShphError Unit := do
  ensure (message ≠ [])
    (.protocol "morphology batch messages must not be empty")
  ensure (message.length ≤ 2 ^ 16 - 1)
    (.protocol "morphology batch message exceeds the length field")

namespace MorphologyBatcher

def withPolicy (policy : MorphologyBatchPolicy) : MorphologyBatcher :=
  ⟨[], 0, policy, none⟩

def forProfile (profile : MorphologyProfile) : MorphologyBatcher :=
  withPolicy (.recommended profile)

def new : MorphologyBatcher := withPolicy .default

def isDueAt (batcher : MorphologyBatcher) (now startedAt : Int) : Bool :=
  batcher.policy.maxWait ≤ (now - startedAt).toNat

/-- `is_due` at a given time. -/
def isDue (batcher : MorphologyBatcher) (now : Int) : Bool :=
  batcher.firstMessageAt.any fun startedAt => batcher.isDueAt now startedAt

def flush (batcher : MorphologyBatcher) :
    Option (List Bytes) × MorphologyBatcher :=
  if batcher.messages = [] then (none, batcher)
  else
    (some batcher.messages, { batcher with
      messages := []
      encodedPayloadBytes := 0
      firstMessageAt := none })

def flushIfDue (batcher : MorphologyBatcher) (now : Int) :
    Option (List Bytes) × MorphologyBatcher :=
  if batcher.isDue now then batcher.flush else (none, batcher)

/-- The first message starts the deadline, before anything is counted. -/
def pushWithoutFlush (batcher : MorphologyBatcher) (message : Bytes)
    (now : Int) : Except ShphError Unit × MorphologyBatcher :=
  let batcher :=
    if batcher.messages = [] then { batcher with firstMessageAt := some now }
    else batcher
  match checkedAdd batchMessageLengthBytes message.length with
  | none => (.error (.protocol "batch message length overflow"), batcher)
  | some messageBytes =>
      match checkedAdd batcher.encodedPayloadBytes messageBytes with
      | none =>
          (.error (.protocol "morphology batch length overflow"), batcher)
      | some encodedPayloadBytes =>
          (.ok (), { batcher with
            encodedPayloadBytes
            messages := batcher.messages ++ [message] })

/-- The checks before anything is changed.  The result is the size of the
batch with the message. -/
def checkPush (batcher : MorphologyBatcher) (message : Bytes)
    (pathMtu : Nat) : Except ShphError Nat := do
  validatePathMtu pathMtu
  validateBatchMessage message
  let messageBytes ← okOr
    (checkedAdd batchMessageLengthBytes message.length)
    (.protocol "batch message length overflow")
  ensure (messageBytes ≤ pathMtu - morphologyHeaderBytes)
    (.protocol "batch message exceeds the negotiated datagram limit")
  okOr (checkedAdd batcher.encodedPayloadBytes messageBytes)
    (.protocol "morphology batch length overflow")

/-- `push` at a given time. -/
def pushAt (batcher : MorphologyBatcher) (message : Bytes) (pathMtu : Nat)
    (now : Int) :
    Except ShphError MorphologyBatchPushResult × MorphologyBatcher :=
  match batcher.checkPush message pathMtu with
  | .error error => (.error error, batcher)
  | .ok nextPayloadBytes =>
      if batcher.messages ≠ [] ∧ (batcher.isDue now ∨
          batcher.policy.maxMessages ≤ batcher.messages.length ∨
          pathMtu - morphologyHeaderBytes < nextPayloadBytes) then
        match batcher.flush with
        | (none, batcher) =>
            (.error (.protocol
              "morphology batch state became inconsistent"), batcher)
        | (some flushed, batcher) =>
            match batcher.pushWithoutFlush message now with
            | (.error error, batcher) => (.error error, batcher)
            | (.ok (), batcher) => (.ok (.flush flushed), batcher)
      else
        match batcher.pushWithoutFlush message now with
        | (.error error, batcher) => (.error error, batcher)
        | (.ok (), batcher) => (.ok .buffered, batcher)

/-- The batcher after its messages were handed out. -/
def emptied (batcher : MorphologyBatcher) : MorphologyBatcher :=
  { batcher with
    messages := []
    encodedPayloadBytes := 0
    firstMessageAt := none }

/-- The batcher with one more message. -/
def appended (batcher : MorphologyBatcher) (message : Bytes) (now : Int) :
    MorphologyBatcher :=
  { batcher with
    messages := batcher.messages ++ [message]
    encodedPayloadBytes := batcher.encodedPayloadBytes +
      (batchMessageLengthBytes + message.length)
    firstMessageAt :=
      if batcher.messages = [] then some now else batcher.firstMessageAt }

theorem checkPush_eq_ok {batcher : MorphologyBatcher} {message : Bytes}
    {pathMtu nextPayloadBytes : Nat}
    (hcheck : batcher.checkPush message pathMtu = .ok nextPayloadBytes) :
    batchMessageLengthBytes + message.length ≤ u64Max ∧
      batcher.encodedPayloadBytes +
        (batchMessageLengthBytes + message.length) ≤ u64Max := by
  simp only [checkPush, bind_eq_ok_iff, okOr_eq_ok_iff,
    checkedAdd_eq_some_iff] at hcheck
  obtain ⟨-, -, -, -, messageBytes, ⟨hmessage, rfl⟩, -, -, hnext, -⟩ := hcheck
  exact ⟨hmessage, hnext⟩

theorem pushWithoutFlush_eq_ok {batcher : MorphologyBatcher} {message : Bytes}
    (now : Int) (hmessage : batchMessageLengthBytes + message.length ≤ u64Max)
    (hnext : batcher.encodedPayloadBytes +
      (batchMessageLengthBytes + message.length) ≤ u64Max) :
    batcher.pushWithoutFlush message now =
      (.ok (), batcher.appended message now) := by
  have hfirst := checkedAdd_eq_some_iff.mpr ⟨hmessage, rfl⟩
  have hsecond := checkedAdd_eq_some_iff.mpr ⟨hnext, rfl⟩
  unfold pushWithoutFlush appended
  by_cases hempty : batcher.messages = []
  · simp only [hempty, if_true, hfirst, hsecond]
  · simp only [hempty, if_false, hfirst, hsecond]

theorem flush_eq (batcher : MorphologyBatcher)
    (hmessages : batcher.messages ≠ []) :
    batcher.flush = (some batcher.messages, batcher.emptied) := by
  rw [flush, if_neg hmessages]
  rfl

/-- What one `push` can do: nothing, or buffer the message, behind the others
or in place of a batch that is handed out. -/
theorem pushAt_cases (batcher : MorphologyBatcher) (message : Bytes)
    (pathMtu : Nat) (now : Int) :
    (∃ error, batcher.pushAt message pathMtu now = (.error error, batcher)) ∨
    (batcher.messages ≠ [] ∧ batcher.pushAt message pathMtu now =
      (.ok (.flush batcher.messages),
        batcher.emptied.appended message now)) ∨
    ((batcher.messages = [] ∨
        batcher.messages.length < batcher.policy.maxMessages) ∧
      batcher.pushAt message pathMtu now =
        (.ok .buffered, batcher.appended message now)) := by
  unfold pushAt
  cases hcheck : batcher.checkPush message pathMtu with
  | error error => exact Or.inl ⟨error, rfl⟩
  | ok nextPayloadBytes =>
      obtain ⟨hmessage, hnext⟩ := checkPush_eq_ok hcheck
      dsimp only
      split
      · rename_i hfull
        have hempty : batcher.emptied.encodedPayloadBytes +
            (batchMessageLengthBytes + message.length) ≤ u64Max := by
          simpa [emptied] using hmessage
        simp only [flush_eq batcher hfull.1,
          pushWithoutFlush_eq_ok now hmessage hempty]
        exact Or.inr (Or.inl ⟨hfull.1, trivial⟩)
      · rename_i hroom
        simp only [pushWithoutFlush_eq_ok now hmessage hnext]
        refine Or.inr (Or.inr ⟨?_, trivial⟩)
        rw [not_and_or, not_not, not_or, not_or] at hroom
        rcases hroom with hempty | ⟨-, hcount, -⟩
        · exact Or.inl hempty
        · exact Or.inr (Nat.lt_of_not_le hcount)

inductive Call where
  | push (message : Bytes) (pathMtu : Nat) (now : Int)
  | flush
  | flushIfDue (now : Int)
deriving Repr, DecidableEq

inductive Answer where
  | pushed (result : Except ShphError MorphologyBatchPushResult)
  | flushed (batch : Option (List Bytes))

def serve (batcher : MorphologyBatcher) : Call → Answer × MorphologyBatcher
  | .push message pathMtu now =>
      let (result, batcher) := batcher.pushAt message pathMtu now
      (.pushed result, batcher)
  | .flush =>
      let (batch, batcher) := batcher.flush
      (.flushed batch, batcher)
  | .flushIfDue now =>
      let (batch, batcher) := batcher.flushIfDue now
      (.flushed batch, batcher)

/-- The batch an answer hands out. -/
def batch : Call × Answer → Option (List Bytes)
  | (_, .pushed (.ok (.flush batch))) => some batch
  | (_, .flushed batch) => batch
  | _ => none

/-- The message of a `push` that did not fail. -/
def accepted : Call × Answer → Option Bytes
  | (.push message _ _, .pushed (.ok _)) => some message
  | _ => none

def batches (history : List (Call × Answer)) : List (List Bytes) :=
  history.filterMap batch

def acceptedMessages (history : List (Call × Answer)) : List Bytes :=
  history.filterMap accepted

theorem batches_snoc (history : List (Call × Answer))
    (entry : Call × Answer) :
    batches (history ++ [entry]) = batches history ++ (batch entry).toList := by
  rw [batches, List.filterMap_append]
  cases hentry : batch entry <;> simp [batches, hentry]

theorem acceptedMessages_snoc (history : List (Call × Answer))
    (entry : Call × Answer) : acceptedMessages (history ++ [entry]) =
      acceptedMessages history ++ (accepted entry).toList := by
  rw [acceptedMessages, List.filterMap_append]
  cases hentry : accepted entry <;> simp [acceptedMessages, hentry]

/-- What one call can do: nothing, hand out the batch, or buffer a message,
with or without handing out the batch before it. -/
inductive Step (batcher : MorphologyBatcher) :
    Option (List Bytes) → Option Bytes → MorphologyBatcher → Prop where
  | idle : Step batcher none none batcher
  | handOut (hmessages : batcher.messages ≠ []) :
      Step batcher (some batcher.messages) none batcher.emptied
  | replace (hmessages : batcher.messages ≠ []) (message : Bytes)
      (now : Int) :
      Step batcher (some batcher.messages) (some message)
        (batcher.emptied.appended message now)
  | buffer (hroom : batcher.messages = [] ∨
      batcher.messages.length < batcher.policy.maxMessages)
      (message : Bytes) (now : Int) :
      Step batcher none (some message) (batcher.appended message now)

theorem flush_step (batcher : MorphologyBatcher) :
    Step batcher batcher.flush.1 none batcher.flush.2 := by
  by_cases hmessages : batcher.messages = []
  · rw [flush, if_pos hmessages]
    exact .idle
  · rw [flush_eq batcher hmessages]
    exact .handOut hmessages

theorem serve_step (batcher : MorphologyBatcher) (call : Call) :
    Step batcher (batch (call, (serve batcher call).1))
      (accepted (call, (serve batcher call).1)) (serve batcher call).2 := by
  cases call with
  | push message pathMtu now =>
      rcases pushAt_cases batcher message pathMtu now with
        ⟨error, hpush⟩ | ⟨hmessages, hpush⟩ | ⟨hroom, hpush⟩
      · simp only [serve, hpush, batch, accepted]
        exact .idle
      · simp only [serve, hpush, batch, accepted]
        exact .replace hmessages message now
      · simp only [serve, hpush, batch, accepted]
        exact .buffer hroom message now
  | flush => exact flush_step batcher
  | flushIfDue now =>
      simp only [serve, flushIfDue, batch, accepted]
      split
      · exact flush_step batcher
      · exact .idle

/-- The bookkeeping of the buffered messages. -/
structure Consistent (batcher : MorphologyBatcher) : Prop where
  encoded_eq : batcher.encodedPayloadBytes =
    (batcher.messages.map fun message => 2 + message.length).sum
  started_iff : batcher.firstMessageAt.isSome ↔ batcher.messages ≠ []
  length_le : batcher.messages.length ≤ batcher.policy.maxMessages

theorem Consistent.emptied (batcher : MorphologyBatcher) :
    Consistent batcher.emptied := by
  constructor <;> simp [MorphologyBatcher.emptied]

theorem Consistent.appended {batcher : MorphologyBatcher}
    (hbatcher : Consistent batcher)
    (hroom : batcher.messages = [] ∨
      batcher.messages.length < batcher.policy.maxMessages)
    (message : Bytes) (now : Int) :
    Consistent (batcher.appended message now) where
  encoded_eq := by
    simp [MorphologyBatcher.appended, hbatcher.encoded_eq,
      batchMessageLengthBytes]
  started_iff := by
    have hstarted := hbatcher.started_iff
    by_cases hempty : batcher.messages = [] <;>
      simp_all [MorphologyBatcher.appended]
  length_le := by
    have hpos := batcher.policy.messages_pos
    change (batcher.messages ++ [message]).length ≤ batcher.policy.maxMessages
    rw [List.length_append, List.length_singleton]
    rcases hroom with hempty | hless
    · rw [hempty]
      exact hpos
    · exact hless

theorem Step.consistent {batcher next : MorphologyBatcher}
    {handed : Option (List Bytes)} {taken : Option Bytes}
    (hstep : Step batcher handed taken next) (hbatcher : Consistent batcher) :
    Consistent next := by
  cases hstep with
  | idle => exact hbatcher
  | handOut => exact .emptied batcher
  | replace hmessages message now =>
      exact Consistent.appended (.emptied batcher) (Or.inl rfl) message now
  | buffer hroom message now => exact hbatcher.appended hroom message now

/-- A step moves messages and neither loses nor repeats one. -/
theorem Step.conserves {batcher next : MorphologyBatcher}
    {handed : Option (List Bytes)} {taken : Option Bytes}
    (hstep : Step batcher handed taken next) :
    handed.toList.flatten ++ next.messages =
      batcher.messages ++ taken.toList := by
  cases hstep <;> simp [emptied, appended]

theorem Step.policy_eq {batcher next : MorphologyBatcher}
    {handed : Option (List Bytes)} {taken : Option Bytes}
    (hstep : Step batcher handed taken next) :
    next.policy = batcher.policy := by
  cases hstep <;> rfl

theorem Step.handed_length {batcher next : MorphologyBatcher}
    {handed : Option (List Bytes)} {taken : Option Bytes}
    (hstep : Step batcher handed taken next) (hbatcher : Consistent batcher) :
    ∀ batch ∈ handed.toList, 1 ≤ batch.length ∧
      batch.length ≤ batcher.policy.maxMessages := by
  have hlength (hmessages : batcher.messages ≠ []) :
      1 ≤ batcher.messages.length ∧
        batcher.messages.length ≤ batcher.policy.maxMessages :=
    ⟨List.length_pos_iff.mpr hmessages, hbatcher.length_le⟩
  cases hstep with
  | idle => simp
  | handOut hmessages => simpa using hlength hmessages
  | replace hmessages => simpa using hlength hmessages
  | buffer => simp

/-- The state of the batcher against the history of its calls. -/
structure Conserves (policy : MorphologyBatchPolicy)
    (history : List (Call × Answer)) (batcher : MorphologyBatcher) : Prop where
  policy_eq : batcher.policy = policy
  consistent : Consistent batcher
  messages_eq : (batches history).flatten ++ batcher.messages =
    acceptedMessages history
  lengths : ∀ batch ∈ batches history, 1 ≤ batch.length ∧
    batch.length ≤ policy.maxMessages

theorem serve_conserves {policy : MorphologyBatchPolicy}
    (history : List (Call × Answer)) (batcher : MorphologyBatcher)
    (call : Call) (hconserves : Conserves policy history batcher) :
    Conserves policy (history ++ [(call, (batcher.serve call).1)])
      (batcher.serve call).2 := by
  have hstep := serve_step batcher call
  obtain ⟨hpolicy, hconsistent, hmessages, hlengths⟩ := hconserves
  refine ⟨hstep.policy_eq.trans hpolicy, hstep.consistent hconsistent, ?_, ?_⟩
  · rw [batches_snoc, acceptedMessages_snoc, List.flatten_append,
      List.append_assoc, hstep.conserves, ← List.append_assoc, hmessages]
  · rw [batches_snoc, List.forall_mem_append]
    have hhanded := hstep.handed_length hconsistent
    rw [hpolicy] at hhanded
    exact ⟨hlengths, hhanded⟩

theorem withPolicy_conserves (policy : MorphologyBatchPolicy) :
    Conserves policy [] (withPolicy policy) := by
  refine ⟨rfl, ?_, rfl, by simp [batches]⟩
  constructor <;> simp [withPolicy]

/-- Over any run of calls no message is lost, repeated or moved: the batches
handed out and the messages still buffered are the accepted messages in
order. -/
theorem batcher_conserves_messages (policy : MorphologyBatchPolicy)
    (calls : List Call) :
    let history := trace serve (withPolicy policy) calls
    let batcher := final serve (withPolicy policy) calls
    (batches history).flatten ++ batcher.messages =
        acceptedMessages history ∧
      (∀ batch ∈ batches history, 1 ≤ batch.length ∧
        batch.length ≤ policy.maxMessages) ∧
      batcher.encodedPayloadBytes =
        (batcher.messages.map fun message => 2 + message.length).sum ∧
      (batcher.firstMessageAt.isSome ↔ batcher.messages ≠ []) ∧
      ∀ message pathMtu now error,
        (batcher.pushAt message pathMtu now).1 = .error error →
          (batcher.pushAt message pathMtu now).2 = batcher := by
  intro history batcher
  have hconserves : Conserves policy history batcher :=
    history_invariant (withPolicy_conserves policy) serve_conserves calls
  refine ⟨hconserves.messages_eq, hconserves.lengths,
    hconserves.consistent.encoded_eq, hconserves.consistent.started_iff, ?_⟩
  intro message pathMtu now error herror
  rcases pushAt_cases batcher message pathMtu now with
    ⟨other, hpush⟩ | ⟨-, hpush⟩ | ⟨-, hpush⟩
  · exact congrArg Prod.snd hpush
  · rw [hpush] at herror
    simp at herror
  · rw [hpush] at herror
    simp at herror

/-- The third message no longer fits with the first two. -/
example : (final serve (withPolicy .default)
    [.push [1] 14 0, .push [2] 14 5, .push [3, 4] 14 9]).messages =
      [[3, 4]] := by decide

end MorphologyBatcher

end Shph.Shroud2
