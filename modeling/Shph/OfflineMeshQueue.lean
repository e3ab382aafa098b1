/-
The spool directory as a queue.  A call that sends adds an envelope at the
end, a call that receives takes the first one away, as long as the keys of the
envelopes increase and one scan can take in the whole directory.
-/
import Shph.FileSpoolSpec
import Shph.Library.SortedQueue
import Shph.OfflineMesh

namespace Shph

open ByteCodec Decimal SortedQueue StatefulRun OfflineMeshWriteState
theorem offlineMeshFileName_toList (createdAtUnixMs sequence : Nat) :
    (offlineMeshFileName createdAtUnixMs sequence).toList =
      Nat.toDigits 10 createdAtUnixMs ++
        '-' :: (Nat.toDigits 10 sequence ++ '.' :: "json".toList) := by
  simp [offlineMeshFileName, ToString.toString]

theorem offlineMeshFileName_inj {ms ms' sequence sequence' : Nat}
    (heq : offlineMeshFileName ms sequence =
      offlineMeshFileName ms' sequence') : ms = ms' ∧ sequence = sequence' := by
  have hlist := congrArg String.toList heq
  rw [offlineMeshFileName_toList, offlineMeshFileName_toList] at hlist
  obtain ⟨hms, hrest⟩ := toDigits_append_inj (by decide) (by decide) hlist
  rw [List.cons.injEq] at hrest
  exact ⟨hms, (toDigits_append_inj (by decide) (by decide) hrest.2).1⟩

theorem isHidden_offlineMeshFileName (ms sequence : Nat) :
    isHidden (offlineMeshFileName ms sequence) = false := by
  rw [isHidden, offlineMeshFileName_toList]
  exact decide_eq_false (toDigits_append_head ms _)

theorem pathExtension_offlineMeshFileName (ms sequence : Nat) :
    pathExtension (offlineMeshFileName ms sequence) = "json" := by
  have hsplit : offlineMeshFileName ms sequence =
      s!"{ms}-{sequence}" ++ "." ++ "json" := by
    apply String.toList_inj.mp
    rw [offlineMeshFileName_toList]
    simp [ToString.toString]
  rw [hsplit]
  apply pathExtension_append
  · simp [ToString.toString]
  · decide

theorem offlineSessionId_comm (sha256 : Bytes → FixedBytes 32)
    (nodeA nodeB : String) :
    offlineSessionId sha256 nodeA nodeB =
      offlineSessionId sha256 nodeB nodeA := by
  unfold offlineSessionId
  dsimp only
  generalize safePathComponent sha256 nodeA = first
  generalize safePathComponent sha256 nodeB = second
  by_cases hle : lexLe (textBytes first) (textBytes second) = true
  · by_cases hge : lexLe (textBytes second) (textBytes first) = true
    · rw [textBytes_inj (lexLe_antisymm hle hge)]
    · rw [if_pos hle, if_neg hge]
  · have hge := (lexLe_total (textBytes first) (textBytes second)).resolve_left
      hle
    rw [if_neg hle, if_pos hge]

theorem offlineSessionId_length_le (sha256 : Bytes → FixedBytes 32)
    (nodeA nodeB : String) :
    (offlineSessionId sha256 nodeA nodeB).length ≤ 116 := by
  have hfirst := safePathComponent_length_le sha256 nodeA
  have hsecond := safePathComponent_length_le sha256 nodeB
  have hdash : "--".length = 2 := rfl
  unfold offlineSessionId
  dsimp only
  split <;> simp only [String.length_append] <;> omega

namespace OfflineMeshEnvelope

def file (host : OfflineMeshHost) (envelope : OfflineMeshEnvelope) :
    String × Bytes :=
  (offlineMeshFileName envelope.createdAtUnixMs envelope.sequence,
    host.codec.toVec envelope)

def key (envelope : OfflineMeshEnvelope) : Nat × Nat :=
  (envelope.createdAtUnixMs, envelope.sequence)

/-- The envelope comes before whatever is sent at this millisecond under this
sequence number. -/
def Before (envelope : OfflineMeshEnvelope) (now sequence : Nat) : Prop :=
  envelope.createdAtUnixMs < now ∨
    envelope.createdAtUnixMs = now ∧ envelope.sequence < sequence

end OfflineMeshEnvelope

/-- The queue directory holds the files of exactly these envelopes, and their
keys increase in the order of the list. -/
structure Spooled (host : OfflineMeshHost) (queueDir : String)
    (fs : FileSystem) (envelopes : List OfflineMeshEnvelope) : Prop where
  holds : fs.Holds queueDir (envelopes.map fun envelope => envelope.file host)
  increasing : envelopes.Pairwise fun left right =>
    left.Before right.createdAtUnixMs right.sequence

section Send

variable {host : OfflineMeshHost} {queueDir : String} {fs : FileSystem}
  {envelopes : List OfflineMeshEnvelope}

theorem Spooled.write (hspool : Spooled host queueDir fs envelopes)
    {envelope : OfflineMeshEnvelope}
    (hbefore : ∀ old ∈ envelopes,
      old.Before envelope.createdAtUnixMs envelope.sequence) :
    ∃ next, fs.writeFileAtomically queueDir (envelope.file host).1
        (envelope.file host).2 = (.ok (), next) ∧
      Spooled host queueDir next (envelopes ++ [envelope]) := by
  have hvisible : isHidden (envelope.file host).1 = false :=
    isHidden_offlineMeshFileName _ _
  obtain ⟨next, hwrite, hholds⟩ := hspool.holds.write hvisible
    (envelope.file host).2
  -- an earlier key is another key, hence another file name
  have hfresh : (envelopes.map fun old => old.file host).filter
      (fun file => file.1 ≠ (envelope.file host).1) =
        envelopes.map fun old => old.file host := by
    rw [List.filter_eq_self]
    intro file hfile
    obtain ⟨old, hold, rfl⟩ := List.mem_map.mp hfile
    rw [decide_eq_true_eq]
    intro heq
    obtain ⟨hms, hsequence⟩ := offlineMeshFileName_inj heq
    rcases hbefore old hold with hlt | ⟨_, hlt⟩ <;> omega
  rw [hfresh] at hholds
  refine ⟨next, hwrite, ?_, ?_⟩
  · simpa using hholds
  · rw [List.pairwise_append]
    refine ⟨hspool.increasing, List.pairwise_singleton _ _, ?_⟩
    intro old hold new hnew
    rw [List.mem_singleton.mp hnew]
    exact hbefore old hold

theorem Spooled.createDirAll (hspool : Spooled host queueDir fs envelopes) :
    ∃ next, fs.createDirAll queueDir = (.ok (), next) ∧
      Spooled host queueDir next envelopes := by
  obtain ⟨next, hcreate, hholds⟩ := hspool.holds.createDirAll
  exact ⟨next, hcreate, hholds, hspool.increasing⟩

namespace OfflineMeshWriteState

def advanced (state : OfflineMeshWriteState) : OfflineMeshWriteState :=
  { state with nextSequence := saturatingAdd state.nextSequence 1 }

/-- One call either fails and leaves the queue as it was, or adds its envelope
at the end.  In both cases the sequence number is used up. -/
theorem sendPayload_spooled (state : OfflineMeshWriteState)
    (hspool : Spooled host (state.outDir host) fs envelopes) (now : Nat)
    (payload : Bytes)
    (hbefore : ∀ old ∈ envelopes, old.Before now state.nextSequence) :
    ∃ result next,
      sendPayload host (state, fs) (some now, payload) =
          (result, state.advanced, next) ∧
        ((∃ error, result = .error error) ∧
            state.maxFileBytes <
              (host.codec.toVec (state.envelope host now payload)).length ∧
            Spooled host (state.outDir host) next envelopes ∨
          result = .ok () ∧
            (host.codec.toVec (state.envelope host now payload)).length ≤
              state.maxFileBytes ∧
            Spooled host (state.outDir host) next
              (envelopes ++ [state.envelope host now payload])) := by
  obtain ⟨created, hcreate, hcreated⟩ := hspool.createDirAll
  by_cases hsize : state.maxFileBytes <
      (host.codec.toVec (state.envelope host now payload)).length
  · refine ⟨.error (.protocol "offline mesh envelope too large"), created, ?_,
      Or.inl ⟨⟨_, rfl⟩, hsize, hcreated⟩⟩
    simp only [sendPayload, hcreate, if_pos hsize, advanced]
  · have hearlier : ∀ old ∈ envelopes,
        old.Before (state.envelope host now payload).createdAtUnixMs
          (state.envelope host now payload).sequence := hbefore
    obtain ⟨next, hwrite, hnext⟩ := hcreated.write hearlier
    refine ⟨.ok (), next, ?_, Or.inr ⟨rfl, Nat.le_of_not_lt hsize, hnext⟩⟩
    simp only [OfflineMeshEnvelope.file] at hwrite
    simp only [sendPayload, hcreate, if_neg hsize, hwrite, advanced]

/-- The envelope is one this side writes, and it was small enough. -/
structure Writes (host : OfflineMeshHost) (state : OfflineMeshWriteState)
    (envelope : OfflineMeshEnvelope) : Prop where
  sessionId_eq : envelope.sessionId =
    offlineSessionId host.sha256 state.localNode state.peerNode
  fromNode_eq : envelope.fromNode = state.localNode
  toNode_eq : envelope.toNode = state.peerNode
  small : (host.codec.toVec envelope).length ≤ state.maxFileBytes

theorem Writes.of_advanced {state : OfflineMeshWriteState}
    {envelope : OfflineMeshEnvelope}
    (hwrites : Writes host state.advanced envelope) :
    Writes host state envelope :=
  ⟨hwrites.sessionId_eq, hwrites.fromNode_eq, hwrites.toNode_eq,
    hwrites.small⟩

@[simp] theorem outDir_advanced (state : OfflineMeshWriteState) :
    state.advanced.outDir host = state.outDir host := rfl

/-- The calls of a run, each with its reading of the clock. -/
def timed (sends : List (Nat × Bytes)) : List (Option Nat × Bytes) :=
  sends.map fun send => (some send.1, send.2)

theorem before_advanced {old : OfflineMeshEnvelope} {now sequence : Nat}
    (hbefore : old.Before now sequence) {later : Nat}
    (hle : sequence ≤ later) : old.Before now later := by
  rcases hbefore with hlt | ⟨heq, hlt⟩
  · exact Or.inl hlt
  · exact Or.inr ⟨heq, hlt.trans_le hle⟩

/-- A whole run of calls adds the envelopes of the calls that succeeded, in
order. -/
theorem sendPayload_run (sends : List (Nat × Bytes))
    (state : OfflineMeshWriteState)
    (hspool : Spooled host (state.outDir host) fs envelopes)
    (hclock : sends.Pairwise fun first second => first.1 ≤ second.1)
    (hbefore : ∀ old ∈ envelopes, ∀ send ∈ sends,
      old.Before send.1 state.nextSequence)
    (hroom : state.nextSequence + sends.length ≤ u64Max) :
    ∃ added,
      Spooled host (state.outDir host)
          (final (sendPayload host) (state, fs) (timed sends)).2
          (envelopes ++ added) ∧
        added.map OfflineMeshEnvelope.ciphertextB64 =
          (successes (trace (sendPayload host) (state, fs) (timed sends))).map
            (fun sent => Base64.encode sent.1.2) ∧
        (∀ envelope ∈ added, Writes host state envelope) ∧
        (∀ envelope ∈ added, envelope.sequence < u64Max ∧
          ∃ send ∈ sends, envelope.createdAtUnixMs = send.1) ∧
        ((∀ send ∈ sends, ∀ sequence < u64Max,
            (host.codec.toVec ({ state with nextSequence := sequence }.envelope
              host send.1 send.2)).length ≤ state.maxFileBytes) →
          added.length = sends.length) := by
  induction sends generalizing state fs envelopes with
  | nil => exact ⟨[], by simpa [timed] using hspool, by simp [timed],
      by simp, by simp, fun _ => rfl⟩
  | cons send rest ih =>
      rw [List.pairwise_cons] at hclock
      rw [List.length_cons] at hroom
      have hadvance : state.advanced.nextSequence = state.nextSequence + 1 :=
        min_eq_left (by omega)
      obtain ⟨result, next, hcall, hresult⟩ := sendPayload_spooled state hspool
        send.1 send.2 fun old hold => hbefore old hold send (by simp)
      have hlater : ∀ old ∈ envelopes, ∀ other ∈ rest,
          old.Before other.1 state.advanced.nextSequence := by
        intro old hold other hother
        apply before_advanced (hbefore old hold other (by simp [hother]))
        omega
      have hrun : timed (send :: rest) = (some send.1, send.2) :: timed rest :=
        rfl
      rw [hrun, trace_cons, final_cons, hcall]
      rcases hresult with ⟨⟨error, rfl⟩, hlarge, hnext⟩ | ⟨rfl, hsmall, hnext⟩
      · obtain ⟨added, hqueue, htexts, hwrites, hclocks, _⟩ :=
          ih state.advanced hnext hclock.2 hlater (by omega)
        refine ⟨added, hqueue, ?_,
          fun envelope henvelope => (hwrites envelope henvelope).of_advanced,
          ?_, ?_⟩
        · rw [htexts]
          rfl
        · intro envelope henvelope
          obtain ⟨hlt, other, hother, heq⟩ := hclocks envelope henvelope
          exact ⟨hlt, other, by simp [hother], heq⟩
        · intro hfits
          have hfit := hfits send (by simp) state.nextSequence (by omega)
          exact absurd hlarge (Nat.not_lt.mpr hfit)
      · have hnew : ∀ old ∈ envelopes ++ [state.envelope host send.1 send.2],
            ∀ other ∈ rest,
              old.Before other.1 state.advanced.nextSequence := by
          intro old hold other hother
          rcases List.mem_append.mp hold with hold | hold
          · exact hlater old hold other hother
          · rw [List.mem_singleton.mp hold]
            rcases (hclock.1 other hother).lt_or_eq with hlt | heq
            · exact Or.inl hlt
            · refine Or.inr ⟨heq, ?_⟩
              rw [hadvance]
              exact Nat.lt_succ_self state.nextSequence
        obtain ⟨added, hqueue, htexts, hwrites, hclocks, hall⟩ :=
          ih state.advanced hnext hclock.2 hnew (by omega)
        refine ⟨state.envelope host send.1 send.2 :: added, ?_, ?_, ?_, ?_,
          ?_⟩
        · simpa using hqueue
        · rw [List.map_cons, htexts]
          rfl
        · intro envelope henvelope
          rcases List.mem_cons.mp henvelope with rfl | henvelope
          · exact ⟨rfl, rfl, rfl, hsmall⟩
          · exact (hwrites envelope henvelope).of_advanced
        · intro envelope henvelope
          rcases List.mem_cons.mp henvelope with rfl | henvelope
          · exact ⟨by
              change state.nextSequence < u64Max
              omega, send, by simp, rfl⟩
          · obtain ⟨hlt, other, hother, heq⟩ := hclocks envelope henvelope
            exact ⟨hlt, other, by simp [hother], heq⟩
        · intro hfits
          rw [List.length_cons, List.length_cons, hall]
          intro other hother
          exact hfits other (by simp [hother])

end OfflineMeshWriteState

/-- The envelope carries a frame that opens to this plaintext; its sequence
number is the counter of the frame. -/
def Carries (aead : Aead) (key : Key) (envelope : OfflineMeshEnvelope)
    (plaintext : Bytes) : Prop :=
  envelope.sequence < aeadNonceLimit ∧ ∃ body,
    envelope.ciphertextB64 =
        Base64.encode ((nonceBytes envelope.sequence).val ++ body) ∧
      aead.decrypt key (nonceBytes envelope.sequence) body = some plaintext

namespace OfflineMeshSession

/-- The session with its two sending counters at the same value. -/
def atSequence (session : OfflineMeshSession) (sequence : Nat) :
    OfflineMeshSession :=
  { session with
    sendState := { session.sendState with nextSequence := sequence }
    sendCipher := { session.sendCipher with nonce := sequence } }

theorem sendFrame_of_sealed {aead : Aead} {session : OfflineMeshSession}
    {now : Option Nat} {plaintext frame : Bytes} {cipher : SendCipher}
    (hvalid : validateFileAdapterPayload plaintext
      session.sendState.maxPayloadBytes session.sendState.maxFileBytes =
        .ok ())
    (hseal : session.sendCipher.encrypt aead plaintext = (.ok frame, cipher)) :
    (sendFrame host aead (session, fs) (now, plaintext)).1 =
        (sendPayload host (session.sendState, fs)
          (now, frame)).1 ∧
      (sendFrame host aead (session, fs) (now, plaintext)).2.2 =
        (sendPayload host (session.sendState, fs)
          (now, frame)).2.2 := by
  simp only [sendFrame, hvalid, hseal, and_self]

theorem sendFrame_spooled (aead : Aead) (session : OfflineMeshSession)
    {sequence : Nat}
    (hspool : Spooled host (session.sendState.outDir host) fs envelopes)
    (now : Nat) (plaintext : Bytes)
    (hbefore : ∀ old ∈ envelopes, old.Before now sequence) :
    ∃ result later next,
      sendFrame host aead (session.atSequence sequence, fs)
          (some now, plaintext) = (result, session.atSequence later, next) ∧
        ((∃ error, result = .error error) ∧
            (later = sequence ∨
              later = sequence + 1 ∧ sequence < aeadNonceLimit) ∧
            Spooled host (session.sendState.outDir host) next envelopes ∨
          result = .ok () ∧ later = sequence + 1 ∧ ∃ envelope,
            envelope.createdAtUnixMs = now ∧ envelope.sequence = sequence ∧
            Carries aead session.sendCipher.key envelope plaintext ∧
            session.sendState.Writes host envelope ∧
            Spooled host (session.sendState.outDir host) next
              (envelopes ++ [envelope])) := by
  unfold sendFrame
  dsimp only
  cases hvalid : validateFileAdapterPayload plaintext
      (session.atSequence sequence).sendState.maxPayloadBytes
      (session.atSequence sequence).sendState.maxFileBytes with
  | error error =>
      exact ⟨_, sequence, fs, rfl, Or.inl ⟨⟨error, rfl⟩, Or.inl rfl, hspool⟩⟩
  | ok valid =>
      rcases SendCipher.encrypt_cases aead
          (session.atSequence sequence).sendCipher plaintext with
        ⟨error, hcall⟩ | ⟨body, hlimit, hseal, hcall⟩
      · rw [hcall]
        exact ⟨_, sequence, fs, rfl,
          Or.inl ⟨⟨error, rfl⟩, Or.inl rfl, hspool⟩⟩
      · obtain ⟨result, next, hsend, hresult⟩ :=
          sendPayload_spooled
            (session.atSequence sequence).sendState hspool now
            ((nonceBytes sequence).val ++ body) hbefore
        have hlt : sequence < aeadNonceLimit := hlimit
        have hadvance : (session.atSequence sequence).sendState.advanced =
            (session.atSequence (sequence + 1)).sendState := by
          have hnext : saturatingAdd sequence 1 = sequence + 1 := by
            apply min_eq_left
            unfold aeadNonceLimit at hlt
            unfold u64Max
            omega
          exact congrArg (fun later =>
            { session.sendState with nextSequence := later }) hnext
        rw [hcall]
        dsimp only
        have hnonce : (session.atSequence sequence).sendCipher.nonce =
          sequence := rfl
        rw [hnonce, hsend, hadvance]
        refine ⟨result, sequence + 1, next, rfl, ?_⟩
        rcases hresult with ⟨herror, _, hnext⟩ | ⟨rfl, hsmall, hnext⟩
        · exact Or.inl ⟨herror, Or.inr ⟨rfl, hlt⟩, hnext⟩
        · refine Or.inr ⟨rfl, rfl,
            (session.atSequence sequence).sendState.envelope host now
              ((nonceBytes sequence).val ++ body), rfl, rfl, ?_,
            ⟨rfl, rfl, rfl, hsmall⟩, hnext⟩
          exact ⟨hlt, body, rfl, aead.decrypt_encrypt hseal⟩

/-- A whole run of frames adds envelopes that carry the plaintexts of the
calls that succeeded, in order and with increasing counters. -/
theorem sendFrame_run (aead : Aead) (session : OfflineMeshSession)
    (sends : List (Nat × Bytes)) (sequence : Nat)
    (hspool : Spooled host (session.sendState.outDir host) fs envelopes)
    (hclock : sends.Pairwise fun first second => first.1 ≤ second.1)
    (hbefore : ∀ old ∈ envelopes, ∀ send ∈ sends,
      old.Before send.1 sequence) :
    let start := (session.atSequence sequence, fs)
    let calls := timed sends
    ∃ added,
      Spooled host (session.sendState.outDir host)
          (final (sendFrame host aead) start calls).2 (envelopes ++ added) ∧
        List.Forall₂ (Carries aead session.sendCipher.key) added
          ((successes (trace (sendFrame host aead) start calls)).map
            fun sent => sent.1.2) ∧
        (∀ envelope ∈ added, session.sendState.Writes host envelope) ∧
        (∀ envelope ∈ added, envelope.sequence < aeadNonceLimit ∧
          ∃ send ∈ sends, envelope.createdAtUnixMs = send.1) ∧
        (∀ envelope ∈ added, sequence ≤ envelope.sequence) ∧
        added.Pairwise fun left right => left.sequence < right.sequence := by
  induction sends generalizing sequence fs envelopes with
  | nil =>
      exact ⟨[], by simpa [timed] using hspool,
        by simp [timed], by simp, by simp, by simp,
        List.Pairwise.nil⟩
  | cons send rest ih =>
      intro start calls
      rw [List.pairwise_cons] at hclock
      obtain ⟨result, later, next, hcall, hresult⟩ := sendFrame_spooled aead
        session hspool send.1 send.2 fun old hold =>
          hbefore old hold send (by simp)
      have hrun : calls = (some send.1, send.2) ::
        timed rest := rfl
      rw [hrun, trace_cons, final_cons, hcall]
      have hlater : sequence ≤ later → ∀ old ∈ envelopes, ∀ other ∈ rest,
          old.Before other.1 later := by
        intro hle old hold other hother
        exact before_advanced
          (hbefore old hold other (by simp [hother])) hle
      rcases hresult with ⟨⟨error, rfl⟩, hstep, hnext⟩ |
        ⟨rfl, rfl, envelope, hms, hsequence, hcarries, hwritten, hnext⟩
      · have hle : sequence ≤ later := by
          rcases hstep with rfl | ⟨rfl, _⟩ <;> omega
        obtain ⟨added, hqueue, hcarried, hwrites, hclocks, hlow, hsorted⟩ :=
          ih later hnext hclock.2 (hlater hle)
        refine ⟨added, hqueue, hcarried, hwrites, ?_, ?_, hsorted⟩
        · intro envelope henvelope
          obtain ⟨hlt, other, hother, heq⟩ := hclocks envelope henvelope
          exact ⟨hlt, other, by simp [hother], heq⟩
        · intro envelope henvelope
          exact hle.trans (hlow envelope henvelope)
      · have hnew : ∀ old ∈ envelopes ++ [envelope], ∀ other ∈ rest,
            old.Before other.1 (sequence + 1) := by
          intro old hold other hother
          rcases List.mem_append.mp hold with hold | hold
          · exact hlater (Nat.le_succ sequence) old hold other hother
          · rw [List.mem_singleton.mp hold]
            rcases (hclock.1 other hother).lt_or_eq with hlt | heq
            · exact Or.inl (hms ▸ hlt)
            · exact Or.inr ⟨hms.trans heq, by omega⟩
        obtain ⟨added, hqueue, hcarried, hwrites, hclocks, hlow, hsorted⟩ :=
          ih (sequence + 1) hnext hclock.2 hnew
        refine ⟨envelope :: added, by simpa using hqueue,
          List.Forall₂.cons hcarries hcarried, ?_, ?_, ?_, ?_⟩
        · intro other hother
          rcases List.mem_cons.mp hother with rfl | hother
          · exact hwritten
          · exact hwrites other hother
        · intro other hother
          rcases List.mem_cons.mp hother with rfl | hother
          · exact ⟨hcarries.1, send, by simp, hms⟩
          · obtain ⟨hlt, sent, hsent, heq⟩ := hclocks other hother
            exact ⟨hlt, sent, by simp [hsent], heq⟩
        · intro other hother
          rcases List.mem_cons.mp hother with rfl | hother
          · exact hsequence.ge
          · exact (Nat.le_succ sequence).trans (hlow other hother)
        · rw [List.pairwise_cons]
          refine ⟨?_, hsorted⟩
          intro other hother
          have hge := hlow other hother
          omega

/-- The call goes through, whatever the counters are. -/
def Fits (host : OfflineMeshHost) (aead : Aead) (session : OfflineMeshSession)
    (send : Nat × Bytes) : Prop :=
  validateFileAdapterPayload send.2 session.sendState.maxPayloadBytes
      session.sendState.maxFileBytes = .ok () ∧
    ∀ sequence < aeadNonceLimit, ∃ body,
      aead.encrypt session.sendCipher.key (nonceBytes sequence) send.2 =
          some body ∧
        (host.codec.toVec ((session.atSequence sequence).sendState.envelope
          host send.1 ((nonceBytes sequence).val ++ body))).length ≤
            session.sendState.maxFileBytes

theorem Fits.sendFrame_ok {aead : Aead} {session : OfflineMeshSession}
    {send : Nat × Bytes} (hfits : session.Fits host aead send) {sequence : Nat}
    (hlimit : sequence < aeadNonceLimit)
    (hspool : Spooled host (session.sendState.outDir host) fs envelopes)
    (hbefore : ∀ old ∈ envelopes, old.Before send.1 sequence) :
    (sendFrame host aead (session.atSequence sequence, fs)
      (some send.1, send.2)).1 = .ok () := by
  obtain ⟨hvalid, hseals⟩ := hfits
  obtain ⟨body, hseal, hsmall⟩ := hseals sequence hlimit
  have hencrypt : (session.atSequence sequence).sendCipher.encrypt aead
      send.2 = (.ok ((nonceBytes sequence).val ++ body),
        { key := session.sendCipher.key, nonce := sequence + 1 }) := by
    have hroom : ¬ aeadNonceLimit ≤
      (session.atSequence sequence).sendCipher.nonce := Nat.not_le.mpr hlimit
    rw [SendCipher.encrypt, if_neg hroom]
    simp only [atSequence, hseal]
  obtain ⟨result, next, hsend, hresult⟩ :=
    sendPayload_spooled
      (session.atSequence sequence).sendState hspool send.1
      ((nonceBytes sequence).val ++ body) hbefore
  have hresultEq := (@sendFrame_of_sealed host fs aead
    (session.atSequence sequence) (some send.1) send.2 _ _ hvalid hencrypt).1
  rw [hresultEq, hsend]
  rcases hresult with ⟨_, hlarge, _⟩ | ⟨hok, _⟩
  · exact absurd hsmall (Nat.not_le.mpr hlarge)
  · exact hok

/-- If every call fits and the counters do not run out, every call of a run
succeeds. -/
theorem sendFrame_run_length (aead : Aead) (session : OfflineMeshSession)
    (sends : List (Nat × Bytes)) (sequence : Nat)
    (hfits : ∀ send ∈ sends, session.Fits host aead send)
    (hroom : sequence + sends.length ≤ aeadNonceLimit)
    (hspool : Spooled host (session.sendState.outDir host) fs envelopes)
    (hclock : sends.Pairwise fun first second => first.1 ≤ second.1)
    (hbefore : ∀ old ∈ envelopes, ∀ send ∈ sends,
      old.Before send.1 sequence) :
    (successes (trace (sendFrame host aead) (session.atSequence sequence, fs)
      (timed sends))).length = sends.length := by
  induction sends generalizing sequence fs envelopes with
  | nil => rfl
  | cons send rest ih =>
      rw [List.pairwise_cons] at hclock
      rw [List.length_cons] at hroom
      have hearlier : ∀ old ∈ envelopes, old.Before send.1 sequence :=
        fun old hold => hbefore old hold send (by simp)
      have hok := (hfits send (by simp)).sendFrame_ok
        (show sequence < aeadNonceLimit by omega) hspool hearlier
      obtain ⟨result, later, next, hcall, hresult⟩ := sendFrame_spooled aead
        session hspool send.1 send.2 hearlier
      rw [hcall] at hok
      dsimp only at hok
      rcases hresult with ⟨⟨error, herror⟩, _⟩ |
        ⟨_, rfl, envelope, hms, hsequence, _, _, hnext⟩
      · rw [hok] at herror
        cases herror
      · have hnew : ∀ old ∈ envelopes ++ [envelope], ∀ other ∈ rest,
            old.Before other.1 (sequence + 1) := by
          intro old hold other hother
          rcases List.mem_append.mp hold with hold | hold
          · exact before_advanced
              (hbefore old hold other (by simp [hother])) (Nat.le_succ _)
          · rw [List.mem_singleton.mp hold]
            rcases (hclock.1 other hother).lt_or_eq with hlt | heq
            · exact Or.inl (hms ▸ hlt)
            · exact Or.inr ⟨hms.trans heq, by omega⟩
        have hrest := ih (sequence + 1)
          (fun other hother => hfits other (by simp [hother])) (by omega)
          hnext hclock.2 hnew
        have hrun : timed (send :: rest) =
          (some send.1, send.2) :: timed rest := rfl
        rw [hrun, trace_cons, hcall, hok, List.length_cons, ← hrest]
        rfl

end OfflineMeshSession

end Send

namespace OfflineMeshReadState

theorem candidateLe_trans (a b c : OfflineMeshCandidate)
    (hab : candidateLe a b = true) (hbc : candidateLe b c = true) :
    candidateLe a c = true := by
  unfold candidateLe at hab hbc ⊢
  split at hab <;> split at hbc <;> split <;>
    simp only [decide_eq_true_eq] at hab hbc ⊢ <;> omega

theorem candidateLe_total (a b : OfflineMeshCandidate) :
    (candidateLe a b || candidateLe b a) = true := by
  unfold candidateLe
  split <;> split <;> simp only [Bool.or_eq_true, decide_eq_true_eq] <;> omega

theorem candidateLe_strict {left right : OfflineMeshCandidate}
    (hlt : left.createdAtUnixMs < right.createdAtUnixMs ∨
      left.createdAtUnixMs = right.createdAtUnixMs ∧
        left.sequence < right.sequence) :
    candidateLe left right = true ∧ candidateLe right left = false := by
  unfold candidateLe
  split <;> split <;>
    simp only [decide_eq_true_eq, decide_eq_false_iff_not] <;> omega

/-- The texts that every envelope for this reader is charged for. -/
def metadata (host : OfflineMeshHost) (state : OfflineMeshReadState) :
    List String :=
  [offlineSessionId host.sha256 state.localNode state.peerNode, state.peerNode,
    state.localNode]

def entryCost (host : OfflineMeshHost) (state : OfflineMeshReadState)
    (envelope : OfflineMeshEnvelope) : EntryCost OfflineMeshCandidate where
  bytes := (host.codec.toVec envelope).length
  memory := candidateCost
    (pathJoin (state.inboundQueueDir host) (envelope.file host).1)
    (state.metadata host)
  candidate :=
    { name := (envelope.file host).1
      createdAtUnixMs := envelope.createdAtUnixMs
      sequence := envelope.sequence }

/-- The reader is waiting for these envelopes: they are all its queue holds,
addressed to it, small, not seen before, and one scan can take them in. -/
structure Awaits (host : OfflineMeshHost) (state : OfflineMeshReadState)
    (fs : FileSystem) (envelopes : List OfflineMeshEnvelope) : Prop where
  spooled : Spooled host (state.inboundQueueDir host) fs envelopes
  addressed : ∀ envelope ∈ envelopes,
    [envelope.sessionId, envelope.fromNode, envelope.toNode] =
      state.metadata host
  small : ∀ envelope ∈ envelopes,
    (host.codec.toVec envelope).length ≤ state.maxFileBytes
  unseen : ∀ envelope ∈ envelopes, envelope.key ∉ state.seen.keys
  bounded : ∀ value ∈ state.metadata host,
    value.utf8ByteSize ≤ maxAdapterMetadataBytes
  affords : (ScanContext.new OfflineMeshCandidate).Affords
    (envelopes.map (state.entryCost host))

variable {host : OfflineMeshHost} {state : OfflineMeshReadState}
  {fs : FileSystem} {envelopes : List OfflineMeshEnvelope}

theorem Awaits.expects (hawaits : Awaits host state fs envelopes)
    {envelope : OfflineMeshEnvelope} (hmem : envelope ∈ envelopes) :
    state.expects host envelope = true := by
  have haddressed := hawaits.addressed envelope hmem
  simp only [metadata, List.cons.injEq, and_true] at haddressed
  have hunseen : (envelope.createdAtUnixMs, envelope.sequence) ∉
      state.seen.keys := hawaits.unseen envelope hmem
  simp [OfflineMeshReadState.expects, haddressed, hunseen]

theorem Awaits.visitEntry (hawaits : Awaits host state fs envelopes)
    {envelope : OfflineMeshEnvelope} (hmem : envelope ∈ envelopes)
    (scan : ScanContext OfflineMeshCandidate)
    (hafford : scan.Affords [state.entryCost host envelope])
    (after : FileSystem) :
    state.visitEntry host ((envelope.file host).1, .file (envelope.file host).2)
        scan after =
      (.ok (scan.charge (state.entryCost host envelope)), after) := by
  obtain ⟨hentries, hbytes, hmemory⟩ := hafford
  simp only [List.length_singleton, List.map_singleton, List.sum_singleton]
    at hentries hbytes hmemory
  have haddressed := hawaits.addressed envelope hmem
  have hentry := accountScanEntry_eq_ok_iff.mpr ⟨hentries, rfl⟩
  have hsize : accountScanBytes scan.scannedBytes
      (envelope.file host).2.length = _ :=
    accountScanBytes_eq_ok_iff.mpr ⟨hbytes, rfl⟩
  have hcost := accountCandidateMemory_eq_ok_iff.mpr
    ⟨hawaits.bounded, hmemory, rfl⟩
  have hname : pathExtension (envelope.file host).1 = "json" :=
    pathExtension_offlineMeshFileName _ _
  have hparse : host.codec.fromSlice (envelope.file host).2 = some envelope :=
    host.codec.fromSlice_toVec envelope
  have hsmall : ¬ state.maxFileBytes < (envelope.file host).2.length :=
    Nat.not_lt.mpr (hawaits.small envelope hmem)
  simp only [OfflineMeshReadState.visitEntry, hentry, hname, ne_eq,
    not_true_eq_false, if_false, if_neg hsmall, hparse,
    hawaits.expects hmem, if_true, haddressed, hsize, hcost]
  rfl

theorem Awaits.lookup (hawaits : Awaits host state fs envelopes)
    (hne : envelopes ≠ []) :
    fs.lookup (state.inboundQueueDir host) =
      .directory (fs.entries (state.inboundQueueDir host)) := by
  cases hlookup : fs.lookup (state.inboundQueueDir host) with
  | missing =>
      have hperm := hawaits.spooled.holds.perm
      rw [FileSystem.entries, hlookup] at hperm
      simp [hne] at hperm
  | notDirectory => exact absurd hlookup hawaits.spooled.holds.lookup_ne
  | directory entries => simp [FileSystem.entries, hlookup]

/-- The scan finds the queue in the order in which it was sent. -/
theorem Awaits.scan (hawaits : Awaits host state fs envelopes) :
    ∃ scan, visitEntries (state.visitEntry host)
        (host.readDir.listing (fs.entries (state.inboundQueueDir host)))
        (ScanContext.new _) fs = (.ok scan, fs) ∧
      scan.candidates.mergeSort candidateLe =
        envelopes.map fun envelope =>
          (state.entryCost host envelope).candidate := by
  have hperm : (host.readDir.listing
      (fs.entries (state.inboundQueueDir host))).Perm
        (envelopes.map fun envelope =>
          ((envelope.file host).1, Node.file (envelope.file host).2)) := by
    apply (host.readDir.listing_perm _).trans
    simpa [Function.comp_def] using hawaits.spooled.holds.perm
  obtain ⟨scan, hscan, hcandidates⟩ := visitEntries_of_affords _
    (state.entryCost host) hperm
    (fun envelope hmem scan hafford =>
      hawaits.visitEntry hmem scan hafford fs) hawaits.affords
  refine ⟨scan, hscan, ?_⟩
  apply mergeSort_eq_of_perm candidateLe_trans candidateLe_total hcandidates
  rw [Increasing, List.pairwise_map]
  apply hawaits.spooled.increasing.imp
  intro left right hbefore
  exact candidateLe_strict hbefore

/-- A poll takes the first envelope that is still in the queue. -/
theorem Awaits.pollInbound {envelope : OfflineMeshEnvelope}
    (hawaits : Awaits host state fs (envelope :: envelopes))
    {payload : Bytes}
    (hpayload : Base64.decode envelope.ciphertextB64 = some payload) :
    ∃ frame next,
      state.pollInbound host fs = (.ok (some frame), next) ∧
        frame.payload = payload ∧
        (frame.createdAtUnixMs, frame.sequence) = envelope.key ∧
        Spooled host (state.inboundQueueDir host)
          (next.removeFile frame.claimed.directory frame.claimed.name)
          envelopes := by
  obtain ⟨scan, hscan, hsorted⟩ := hawaits.scan
  obtain ⟨target, next, hclaim, hfind, hholds⟩ :=
    @FileSystem.Holds.claim fs _ _ hawaits.spooled.holds
      (envelope.file host).1 (envelope.file host).2 (by simp)
  have hread : next.readFileBytes (state.inboundQueueDir host) target
      state.maxFileBytes = .ok (envelope.file host).2 := by
    have hsmall : (envelope.file host).2.length ≤ state.maxFileBytes :=
      hawaits.small envelope (by simp)
    simp only [FileSystem.readFileBytes, hfind, bind_eq_ok_iff,
      ensure_eq_ok_iff]
    exact ⟨(), hsmall, rfl⟩
  have hparse : host.codec.fromSlice (envelope.file host).2 = some envelope :=
    host.codec.fromSlice_toVec envelope
  refine ⟨{ payload := payload
            claimed := ⟨state.inboundQueueDir host, (envelope.file host).1,
              target⟩
            createdAtUnixMs := envelope.createdAtUnixMs
            sequence := envelope.sequence }, next, ?_, rfl, rfl, ?_⟩
  · rw [OfflineMeshReadState.pollInbound, hawaits.lookup (by simp)]
    simp only [hscan, hsorted, List.map_cons, claimFirst, entryCost, hclaim,
      hread, hparse, hawaits.expects (List.mem_cons_self), and_self, if_true,
      hpayload]
  · refine ⟨?_, (List.pairwise_cons.mp hawaits.spooled.increasing).2⟩
    have hnodup := hawaits.spooled.holds.nodup
    rw [List.map_cons, List.map_cons, List.nodup_cons] at hnodup
    have hrest : ((envelope :: envelopes).map fun old => old.file host).filter
        (fun file => file.1 ≠ (envelope.file host).1) =
          envelopes.map fun old => old.file host := by
      rw [List.map_cons, List.filter_cons_of_neg (by simp),
        List.filter_eq_self]
      intro file hfile
      rw [decide_eq_true_eq]
      intro heq
      exact hnodup.1 (heq ▸ List.mem_map_of_mem hfile)
    rw [hrest] at hholds
    exact hholds

theorem Awaits.commitFrame {envelope : OfflineMeshEnvelope}
    (hawaits : Awaits host state fs (envelope :: envelopes))
    {frame : OfflineMeshFrame} {next : FileSystem}
    (hkey : (frame.createdAtUnixMs, frame.sequence) = envelope.key)
    (hspool : Spooled host (state.inboundQueueDir host)
      (next.removeFile frame.claimed.directory frame.claimed.name)
      envelopes) :
    Awaits host (state.commitFrame frame next).1
      (state.commitFrame frame next).2 envelopes where
  spooled := hspool
  addressed := fun other hother => hawaits.addressed other (by simp [hother])
  small := fun other hother => hawaits.small other (by simp [hother])
  unseen := by
    intro other hother hseen
    have hbefore := (List.pairwise_cons.mp hawaits.spooled.increasing).1 other
      hother
    rcases SeenLog.mem_mark_imp hseen with heq | hold
    · rw [hkey, OfflineMeshEnvelope.key, OfflineMeshEnvelope.key,
        Prod.mk.injEq] at heq
      rcases hbefore with hlt | ⟨_, hlt⟩ <;> omega
    · exact hawaits.unseen other (by simp [hother]) hold
  bounded := hawaits.bounded
  affords := hawaits.affords.tail

/-- Whatever the timeout, the first poll already has a frame. -/
theorem Awaits.receiveRawPayload {envelope : OfflineMeshEnvelope}
    (hawaits : Awaits host state fs (envelope :: envelopes))
    {payload : Bytes}
    (hpayload : Base64.decode envelope.ciphertextB64 = some payload)
    (retries : Nat) :
    ∃ frame next,
      state.receiveRawPayload host retries fs = (.ok frame, next) ∧
        frame.payload = payload ∧
        Awaits host (state.commitFrame frame next).1
          (state.commitFrame frame next).2 envelopes := by
  obtain ⟨frame, next, hpoll, hframe, hkey, hspool⟩ :=
    hawaits.pollInbound hpayload
  refine ⟨frame, next, ?_, hframe, hawaits.commitFrame hkey hspool⟩
  unfold OfflineMeshReadState.receiveRawPayload
  rw [hpoll]

/-- A reader that starts afresh awaits what the one before it left. -/
theorem Awaits.afresh {seen : SeenLog (Nat × Nat)}
    (hawaits : Awaits host { state with seen := seen } fs envelopes) :
    Awaits host { state with seen := SeenLog.empty } fs envelopes where
  spooled := hawaits.spooled
  addressed := hawaits.addressed
  small := hawaits.small
  unseen := fun _ _ => List.not_mem_nil
  bounded := hawaits.bounded
  affords := hawaits.affords

/-- Checks that accept what they are shown are shown the payloads in the order
in which they were sent. -/
theorem receiveVerified_run {α : Type} {payloads : List Bytes}
    {rest : List OfflineMeshEnvelope}
    (hpayloads : List.Forall₂ (fun envelope payload =>
      Base64.decode envelope.ciphertextB64 = some payload) envelopes payloads)
    {reads : List (Nat × (Bytes → Except ShphError α))}
    (haccepts : List.Forall₂ (fun read payload =>
      (read.2 payload).isOk = true) reads payloads)
    (hawaits : Awaits host state fs (envelopes ++ rest)) :
    (trace (receiveVerified host) (state, fs) reads).map Prod.snd =
        List.zipWith (fun read payload => read.2 payload) reads payloads ∧
      ∃ seen after, final (receiveVerified host) (state, fs) reads =
          ({ state with seen := seen }, after) ∧
        Awaits host { state with seen := seen } after rest := by
  induction hpayloads generalizing state fs reads with
  | nil =>
      cases haccepts
      exact ⟨rfl, state.seen, fs, rfl, hawaits⟩
  | @cons envelope payload envelopes payloads hpayload _ ih =>
      cases haccepts with
      | @cons read _ reads _ haccept haccepts =>
          rw [List.cons_append] at hawaits
          obtain ⟨frame, next, hreceive, hframe, hnext⟩ :=
            hawaits.receiveRawPayload hpayload read.1
          have hcall : receiveVerified host (state, fs) read =
              (read.2 payload, state.commitFrame frame next) := by
            have hvalue := eq_ok_valueOf haccept
            simp only [receiveVerified, hreceive, hframe]
            rw [hvalue]
          rw [trace_cons, final_cons, hcall]
          obtain ⟨hresults, hafter⟩ := ih haccepts hnext
          refine ⟨?_, hafter⟩
          rw [List.map_cons, List.zipWith_cons_cons]
          exact congrArg (List.cons _) hresults

theorem visitEntry_scanned (entry : String × Node)
    (scan : ScanContext OfflineMeshCandidate) (fs : FileSystem)
    (next : ScanContext OfflineMeshCandidate)
    (hvisit : (state.visitEntry host entry scan fs).1 = .ok next) :
    scan.scanned + 1 ≤ next.scanned ∧ next.scanned ≤ maxQueueScanEntries := by
  unfold OfflineMeshReadState.visitEntry at hvisit
  cases hentry : accountScanEntry scan.scanned with
  | error error => simp [hentry] at hvisit
  | ok scanned =>
      obtain ⟨hle, rfl⟩ := accountScanEntry_eq_ok_iff.mp hentry
      rw [hentry] at hvisit
      dsimp only at hvisit
      have hnext : next.scanned = scan.scanned + 1 := by
        repeat' split at hvisit
        all_goals
          first
          | simp at hvisit
            done
          | rw [Except.ok.injEq] at hvisit
            rw [← hvisit]
      omega

/-- More entries than a scan may look at make every poll fail. -/
theorem pollInbound_error_of_length
    (hmany : maxQueueScanEntries <
      (fs.entries (state.inboundQueueDir host)).length) :
    ∃ error, (state.pollInbound host fs).1 = .error error := by
  unfold OfflineMeshReadState.pollInbound
  cases hlookup : fs.lookup (state.inboundQueueDir host) with
  | missing => simp [FileSystem.entries, hlookup] at hmany
  | notDirectory => exact ⟨_, rfl⟩
  | directory entries =>
      have hentries : fs.entries (state.inboundQueueDir host) = entries := by
        simp [FileSystem.entries, hlookup]
      rw [hentries] at hmany
      obtain ⟨error, herror⟩ := visitEntries_error_of_length
        (fun entry scan fs next => visitEntry_scanned entry scan fs next)
        (host.readDir.listing entries) (ScanContext.new _) fs (Nat.zero_le _)
        (by
          rw [(host.readDir.listing_perm entries).length_eq]
          simpa [ScanContext.new] using hmany)
      refine ⟨error, ?_⟩
      dsimp only
      split
      · rename_i after heq
        rw [heq] at herror
        simpa using herror
      · rename_i after heq
        rw [heq] at herror
        simp at herror

/-- The queue directory is small enough to be taken in by one scan. -/
def WithinScanLimits (host : OfflineMeshHost) (state : OfflineMeshReadState)
    (fs : FileSystem) : Prop :=
  let queueDir := state.inboundQueueDir host
  let entries := fs.entries queueDir
  entries.length ≤ maxQueueScanEntries ∧
    (entries.map fun entry => entry.2.size).sum ≤ maxQueueScanBytes ∧
    (entries.map fun entry => candidateCost (pathJoin queueDir entry.1)
      (state.metadata host)).sum ≤ maxQueueCandidateMemory ∧
    ∀ value ∈ state.metadata host,
      value.utf8ByteSize ≤ maxAdapterMetadataBytes

theorem WithinScanLimits.affords (hlimits : state.WithinScanLimits host fs)
    (hspool : Spooled host (state.inboundQueueDir host) fs envelopes) :
    (ScanContext.new OfflineMeshCandidate).Affords
      (envelopes.map (state.entryCost host)) := by
  obtain ⟨hentries, hbytes, hmemory, _⟩ := hlimits
  have hperm := hspool.holds.perm
  refine ⟨?_, ?_, ?_⟩
  · have hlength := hperm.length_eq
    simp only [List.length_map] at hlength
    simp only [ScanContext.new, List.length_map]
    omega
  · rw [(hperm.map _).sum_eq] at hbytes
    simpa [ScanContext.new, entryCost, Function.comp_def, Node.size,
      OfflineMeshEnvelope.file] using hbytes
  · rw [(hperm.map _).sum_eq] at hmemory
    simpa [ScanContext.new, entryCost, Function.comp_def] using hmemory

theorem metadata_size_le (hlocal : state.localNode.length ≤ 200)
    (hpeer : state.peerNode.length ≤ 200) :
    (∀ value ∈ state.metadata host,
        value.utf8ByteSize ≤ maxAdapterMetadataBytes) ∧
      ((state.metadata host).map String.utf8ByteSize).sum ≤ 2064 := by
  have hsession := offlineSessionId_length_le host.sha256 state.localNode
    state.peerNode
  have hsize := utf8ByteSize_le (offlineSessionId host.sha256 state.localNode
    state.peerNode)
  have hlocalSize := utf8ByteSize_le state.localNode
  have hpeerSize := utf8ByteSize_le state.peerNode
  simp only [metadata, List.forall_mem_cons, List.map_cons, List.map_nil,
    List.sum_cons, List.sum_nil, maxAdapterMetadataBytes, List.not_mem_nil,
    false_implies, implies_true, and_true]
  omega

theorem entryPath_length_le (host : OfflineMeshHost)
    {state : OfflineMeshReadState} {envelope : OfflineMeshEnvelope}
    (hdir : state.spoolDir.length ≤ 200)
    (hnumbers : envelope.createdAtUnixMs < 10 ^ 20 ∧
      envelope.sequence < 10 ^ 20) :
    (pathJoin (state.inboundQueueDir host) (envelope.file host).1).length ≤
      484 := by
  have hname : (envelope.file host).1.length ≤ 46 := by
    have hms := toDigits_length_le hnumbers.1
    have hsequence := toDigits_length_le hnumbers.2
    have hjson : "json".toList.length = 4 := rfl
    rw [OfflineMeshEnvelope.file, ← String.length_toList,
      offlineMeshFileName_toList]
    simp only [List.length_append, List.length_cons, hjson]
    omega
  have hqueue : (state.inboundQueueDir host).length ≤ 437 := by
    have hfrom := safePathComponent_length_le host.sha256 state.peerNode
    have hto := safePathComponent_length_le host.sha256 state.localNode
    have hsession := offlineSessionId_length_le host.sha256 state.localNode
      state.peerNode
    have hout : "out".length = 3 := rfl
    unfold inboundQueueDir offlineMeshQueueDir
    dsimp only
    generalize offlineSessionId host.sha256 state.localNode state.peerNode =
      session at hsession ⊢
    have hfirst := pathJoin_length_le state.spoolDir session
    have hsecond := pathJoin_length_le (pathJoin state.spoolDir session) "out"
    have hthird := pathJoin_length_le
      (pathJoin (pathJoin state.spoolDir session) "out")
      (safePathComponent host.sha256 state.peerNode)
    have hfourth := pathJoin_length_le
      (pathJoin (pathJoin (pathJoin state.spoolDir session) "out")
        (safePathComponent host.sha256 state.peerNode))
      (safePathComponent host.sha256 state.localNode)
    omega
  have hjoin := pathJoin_length_le (state.inboundQueueDir host)
    (envelope.file host).1
  omega

/-- A queue of up to 32 envelopes is always within the limits, if the names
and the spool path are short. -/
theorem withinScanLimits_of_few
    (hspool : Spooled host (state.inboundQueueDir host) fs envelopes)
    (hfew : envelopes.length ≤ 32)
    (hsmall : ∀ envelope ∈ envelopes,
      (host.codec.toVec envelope).length ≤ maxFileAdapterBytes)
    (hnumbers : ∀ envelope ∈ envelopes,
      envelope.createdAtUnixMs < 10 ^ 20 ∧ envelope.sequence < 10 ^ 20)
    (hlocal : state.localNode.length ≤ 200)
    (hpeer : state.peerNode.length ≤ 200)
    (hdir : state.spoolDir.length ≤ 200) :
    state.WithinScanLimits host fs := by
  obtain ⟨hbounded, hmetadata⟩ := metadata_size_le hlocal hpeer
  have hperm := hspool.holds.perm
  have hlength := hperm.length_eq
  simp only [List.length_map] at hlength
  have hentry : ∀ entry ∈ fs.entries (state.inboundQueueDir host),
      ∃ envelope ∈ envelopes, entry =
        ((envelope.file host).1, Node.file (envelope.file host).2) := by
    intro entry hmem
    rw [hperm.mem_iff, List.mem_map] at hmem
    obtain ⟨file, hfile, rfl⟩ := hmem
    obtain ⟨envelope, henvelope, rfl⟩ := List.mem_map.mp hfile
    exact ⟨envelope, henvelope, rfl⟩
  refine ⟨?_, ?_, ?_, hbounded⟩
  · rw [hlength]
    exact hfew.trans (by decide)
  · have hsizes : ∀ entry ∈ fs.entries (state.inboundQueueDir host),
        entry.2.size ≤ maxFileAdapterBytes := by
      intro entry hmem
      obtain ⟨envelope, henvelope, rfl⟩ := hentry entry hmem
      exact hsmall envelope henvelope
    refine (sum_map_le_mul hsizes).trans ?_
    rw [hlength]
    exact (Nat.mul_le_mul_right _ hfew).trans (by decide)
  · have hcosts : ∀ entry ∈ fs.entries (state.inboundQueueDir host),
        candidateCost (pathJoin (state.inboundQueueDir host) entry.1)
          (state.metadata host) ≤ 4128 := by
      intro entry hmem
      obtain ⟨envelope, henvelope, rfl⟩ := hentry entry hmem
      have hcost := candidateCost_le (pathJoin (state.inboundQueueDir host)
        (envelope.file host).1) (state.metadata host)
      have hpath := entryPath_length_le host hdir (hnumbers envelope henvelope)
      have hsize := utf8ByteSize_le (pathJoin (state.inboundQueueDir host)
        (envelope.file host).1)
      change candidateCost (pathJoin (state.inboundQueueDir host)
        (envelope.file host).1) (state.metadata host) ≤ 4128
      omega
    refine (sum_map_le_mul hcosts).trans ?_
    rw [hlength]
    exact (Nat.mul_le_mul_right _ hfew).trans (by decide)

end OfflineMeshReadState

namespace OfflineMeshSession

variable {host : OfflineMeshHost} {fs : FileSystem}

theorem recvFrame_awaits (aead : Aead) {session : OfflineMeshSession}
    {key : Key} {last : Option Nat} {envelope : OfflineMeshEnvelope}
    {envelopes : List OfflineMeshEnvelope} {plaintext : Bytes}
    (hcipher : session.recvCipher = { key := key, replay := .strict last })
    (hlast : ∀ counter ∈ last, counter < envelope.sequence)
    (hcarries : Carries aead key envelope plaintext)
    (hawaits : session.recvState.Awaits host fs (envelope :: envelopes))
    (rounds : Nat × List Nat) :
    ∃ next after,
      recvFrame host aead (session, fs) rounds = (.ok plaintext, next, after) ∧
        next.recvCipher =
          { key := key, replay := .strict (some envelope.sequence) } ∧
        next.recvState.inboundQueueDir host =
          session.recvState.inboundQueueDir host ∧
        next.recvState.Awaits host after envelopes := by
  obtain ⟨hlimit, body, htext, hplain⟩ := hcarries
  have hdecode : Base64.decode envelope.ciphertextB64 =
      some ((nonceBytes envelope.sequence).val ++ body) := by
    rw [htext, Base64.decode_encode]
  obtain ⟨frame, spool, hreceive, hframe, hnext⟩ :=
    hawaits.receiveRawPayload hdecode rounds.1
  have hcandidate : (ReplayState.strict last).candidate envelope.sequence =
      some (.strict (some envelope.sequence)) := by
    rw [ReplayState.candidate, if_neg]
    cases last with
    | none => simp
    | some counter => simpa using hlast counter rfl
  have hdecrypt : session.recvCipher.decrypt aead frame.payload =
      (.ok plaintext,
        { key := key, replay := .strict (some envelope.sequence) }) := by
    rw [hframe, hcipher]
    apply ReceiveCipher.decrypt_of_candidate _ hcandidate hplain
    unfold aeadNonceLimit at hlimit
    omega
  refine ⟨{ session with
      recvState := (session.recvState.commitFrame frame spool).1
      recvCipher :=
        { key := key, replay := .strict (some envelope.sequence) } },
    (session.recvState.commitFrame frame spool).2, ?_, rfl, rfl, hnext⟩
  unfold recvFrame OfflineMeshReadState.receiveDecryptedFrame
  simp only [hreceive, hdecrypt]

/-- A strict receiver opens every frame of the queue in turn and leaves
nothing behind. -/
theorem recvFrame_run (aead : Aead) {session : OfflineMeshSession}
    {key : Key} {last : Option Nat} {envelopes : List OfflineMeshEnvelope}
    {plaintexts : List Bytes}
    (hcipher : session.recvCipher = { key := key, replay := .strict last })
    (hlast : ∀ counter ∈ last, ∀ envelope ∈ envelopes,
      counter < envelope.sequence)
    (hsorted : envelopes.Pairwise fun left right =>
      left.sequence < right.sequence)
    (hcarries : List.Forall₂ (Carries aead key) envelopes plaintexts)
    (hawaits : session.recvState.Awaits host fs envelopes)
    {rounds : List (Nat × List Nat)}
    (hrounds : rounds.length = plaintexts.length) :
    (trace (recvFrame host aead) (session, fs) rounds).map Prod.snd =
        plaintexts.map .ok ∧
      (final (recvFrame host aead) (session, fs) rounds).2.entries
        (session.recvState.inboundQueueDir host) = [] := by
  induction hcarries generalizing session fs last rounds with
  | nil =>
      rw [List.length_nil, List.length_eq_zero_iff] at hrounds
      subst hrounds
      refine ⟨rfl, ?_⟩
      have hperm := hawaits.spooled.holds.perm
      simpa using hperm
  | @cons envelope plaintext envelopes plaintexts hcarry _ ih =>
      cases rounds with
      | nil => simp at hrounds
      | cons round rounds =>
          rw [List.pairwise_cons] at hsorted
          obtain ⟨next, after, hcall, hnextCipher, hdir, hnext⟩ :=
            recvFrame_awaits aead hcipher
              (fun counter hcounter => hlast counter hcounter envelope
                (by simp)) hcarry hawaits round
          rw [trace_cons, final_cons, hcall]
          obtain ⟨hresults, hempty⟩ := ih hnextCipher
            (fun counter hcounter other hother => by
              rw [Option.mem_some_iff] at hcounter
              exact hcounter ▸ hsorted.1 other hother)
            hsorted.2 hnext (by simpa using hrounds)
          refine ⟨?_, ?_⟩
          · rw [List.map_cons, List.map_cons]
            exact congrArg (List.cons _) hresults
          · rw [← hdir]
            exact hempty

end OfflineMeshSession

end Shph
