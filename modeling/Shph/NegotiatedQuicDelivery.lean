/-
A negotiated QUIC session whose datagrams are lost, overtaken and duplicated.
A fresh payload inside the replay window comes back exactly when the payloads
that have arrived pay for the cover frames that have arrived; it does not help
that the sender paid for them with payloads that are lost or late.
-/
import Shph.EnvelopeAgreement
import Shph.NegotiatedLedger
import Shph.NegotiatedQuic

namespace Shph

open ByteCodec StatefulRun SlidingWindow

/-- The receiver's connection carries datagrams of this length. -/
def Arrival.Admits (arrival : Arrival) (length : Nat) : Prop :=
  ∃ size ∈ arrival.maxDatagramSize, length ≤ size

namespace NegotiatedQuic

variable {rng : Rng}

inductive SendCall where
  | send (payload : Bytes) (elapsed : Nat) (path : SendPath)
  | sendCoverIfDue (request : CoverRequest) (path : SendPath)

def SendCall.elapsed : SendCall → Nat
  | send _ elapsed _ => elapsed
  | sendCoverIfDue request _ => request.elapsed

inductive SendAnswer where
  | sent (result : Except ShphError Unit)
  | covered (result : Option (Except ShphError Bool))

def serve (aead : Aead) (quic : NegotiatedQuic rng) :
    SendCall → SendAnswer × NegotiatedQuic rng
  | .send payload elapsed path =>
      let (result, quic) := quic.send aead payload elapsed path
      (.sent result, quic)
  | .sendCoverIfDue request path =>
      let (result, quic) := quic.sendCoverIfDue aead request path
      (.covered result, quic)

/-- One of the calls sent this payload, in this datagram and under this
sequence number. -/
def Carries (aead : Aead) (sender : NegotiatedQuic rng)
    (calls : List SendCall) (payload : Bytes) (sequence : Nat)
    (datagram : Bytes) : Prop :=
  ∃ before elapsed path after,
    calls = before ++ .send payload elapsed path :: after ∧
    let current := final (serve aead) sender before
    current.outbound.encoder.nextSequence = some sequence ∧
      ∃ next, current.send aead payload elapsed path = (.ok (), next) ∧
        next.sent = current.sent ++ [datagram]

open OutboundPolicy

/-- A frame that was sealed under a nonce and handed to the transport. -/
structure Sealed where
  frame : SentFrame
  nonce : Nat
  datagram : Bytes

/-- The later of two datagrams is as far ahead in its sequence number as it is
in its nonce, or further: encoding a frame may use up a number that no
datagram has. -/
def Sealed.Before (first second : Sealed) : Prop :=
  first.nonce < second.nonce ∧
    second.nonce + first.frame.sequence ≤ second.frame.sequence + first.nonce

/-- A datagram opens to its frame. -/
def Sealed.Opens (aead : Aead) (key : Key) (terms : Terms)
    (entry : Sealed) : Prop :=
  ∃ ciphertext,
    aead.encrypt key (nonceBytes entry.nonce)
        (entry.frame.bytes terms.config terms.generation) = some ciphertext ∧
      entry.datagram = (nonceBytes entry.nonce).val ++ ciphertext

/-- The log of a sender whose encoder produced `frames`. -/
structure Logged (aead : Aead) (key : Key) (terms : Terms)
    (frames : List (EncodeCall × SentFrame)) (log : List Sealed)
    (quic : NegotiatedQuic rng) : Prop where
  ledger : Ledger terms frames (log.map Sealed.frame) quic.outbound
  key_eq : quic.sendCipher.key = key
  sent_eq : quic.sent = log.map Sealed.datagram
  opens : ∀ entry ∈ log, entry.Opens aead key terms
  short : ∀ entry ∈ log, entry.datagram.length ≤ maxTunDatagramBytes
  past : ∀ entry ∈ log, entry.nonce < quic.sendCipher.nonce ∧
    quic.sendCipher.nonce + entry.frame.sequence ≤ frames.length + entry.nonce
  ordered : log.Pairwise Sealed.Before
  count_le : log.length ≤ quic.sendCipher.nonce
  nonce_le : quic.sendCipher.nonce ≤ aeadNonceLimit

section Sender

variable (aead : Aead) {key : Key} {terms : Terms}
  {frames : List (EncodeCall × SentFrame)} {log : List Sealed}
  {quic : NegotiatedQuic rng}

/-- Nothing is handed over.  A nonce is used up only with a sequence
number. -/
theorem Logged.withhold {aead : Aead} {next : NegotiatedQuic rng}
    {more : List (EncodeCall × SentFrame)}
    (hlogged : Logged aead key terms frames log quic)
    (hledger : Ledger terms more (log.map Sealed.frame) next.outbound)
    (hkey : next.sendCipher.key = quic.sendCipher.key)
    (hsent : next.sent = quic.sent)
    (hnonce : quic.sendCipher.nonce ≤ next.sendCipher.nonce)
    (hframes : next.sendCipher.nonce + frames.length ≤
      quic.sendCipher.nonce + more.length)
    (hlimit : next.sendCipher.nonce ≤ aeadNonceLimit) :
    Logged aead key terms more log next where
  ledger := hledger
  key_eq := hkey.trans hlogged.key_eq
  sent_eq := hsent.trans hlogged.sent_eq
  opens := hlogged.opens
  short := hlogged.short
  past := by
    intro entry hentry
    have hpast := hlogged.past entry hentry
    omega
  ordered := hlogged.ordered
  count_le := hlogged.count_le.trans hnonce
  nonce_le := hlimit

/-- The same if the cipher was not asked. -/
theorem Logged.with_outbound {aead : Aead} {outbound : OutboundPolicy rng}
    {more : List (EncodeCall × SentFrame)}
    (hlogged : Logged aead key terms frames log quic)
    (hledger : Ledger terms more (log.map Sealed.frame) outbound)
    (hmore : frames.length ≤ more.length) :
    Logged aead key terms more log { quic with outbound := outbound } :=
  hlogged.withhold hledger rfl rfl (Nat.le_refl _)
    (Nat.add_le_add_left hmore _) hlogged.nonce_le

/-- A frame is sealed under the next nonce and handed over. -/
theorem Logged.hand_over {aead : Aead} {call : EncodeCall}
    {frame : SentFrame} {outbound : OutboundPolicy rng} {ciphertext : Bytes}
    (hlogged : Logged aead key terms frames log quic)
    (hledger : Ledger terms (frames ++ [(call, frame)])
      (log.map Sealed.frame ++ [frame]) outbound)
    (hlimit : quic.sendCipher.nonce < aeadNonceLimit)
    (hseal : aead.encrypt quic.sendCipher.key
        (nonceBytes quic.sendCipher.nonce)
        (frame.bytes terms.config terms.generation) = some ciphertext)
    (hshort : ((nonceBytes quic.sendCipher.nonce).val ++ ciphertext).length ≤
      maxTunDatagramBytes) :
    Logged aead key terms (frames ++ [(call, frame)])
      (log ++ [⟨frame, quic.sendCipher.nonce,
        (nonceBytes quic.sendCipher.nonce).val ++ ciphertext⟩])
      { quic with
        outbound := outbound
        sendCipher :=
          { quic.sendCipher with nonce := quic.sendCipher.nonce + 1 }
        sent := quic.sent ++
          [(nonceBytes quic.sendCipher.nonce).val ++ ciphertext] } := by
  have hsequence := produced_last hledger.produced
  rw [hlogged.key_eq] at hseal
  exact
    { ledger := by
        rw [List.map_append]
        exact hledger
      key_eq := hlogged.key_eq
      sent_eq := by
        rw [List.map_append, ← hlogged.sent_eq]
        rfl
      opens := List.forall_mem_append.mpr
        ⟨hlogged.opens, by simpa using ⟨ciphertext, hseal, rfl⟩⟩
      short := List.forall_mem_append.mpr
        ⟨hlogged.short, by simpa using hshort⟩
      past := by
        rw [List.length_append, List.length_singleton]
        refine List.forall_mem_append.mpr ⟨?_, ?_⟩
        · intro entry hentry
          have hpast := hlogged.past entry hentry
          dsimp only
          omega
        · rw [List.forall_mem_singleton]
          dsimp only
          omega
      ordered := by
        refine List.pairwise_append.mpr
          ⟨hlogged.ordered, List.pairwise_singleton _ _, ?_⟩
        intro entry hentry
        rw [List.forall_mem_singleton]
        obtain ⟨hnonce, hlead⟩ := hlogged.past entry hentry
        refine ⟨hnonce, ?_⟩
        dsimp only
        rw [hsequence]
        exact hlead
      count_le := by
        rw [List.length_append, List.length_singleton]
        exact Nat.succ_le_succ hlogged.count_le
      nonce_le := hlimit }

/-- Everything `transmit` can do. -/
theorem transmit_cases (quic : NegotiatedQuic rng) (path : SendPath)
    (envelope : Bytes) :
    (∃ error nonce, quic.transmit aead path envelope =
        (.error error, { quic with
          sendCipher := { quic.sendCipher with nonce := nonce } }) ∧
        quic.sendCipher.nonce ≤ nonce ∧ nonce ≤ quic.sendCipher.nonce + 1 ∧
        (nonce ≤ quic.sendCipher.nonce ∨ nonce ≤ aeadNonceLimit)) ∨
      ∃ ciphertext, quic.sendCipher.nonce < aeadNonceLimit ∧
        aead.encrypt quic.sendCipher.key (nonceBytes quic.sendCipher.nonce)
          envelope = some ciphertext ∧
        ((nonceBytes quic.sendCipher.nonce).val ++ ciphertext).length ≤
          maxTunDatagramBytes ∧
        quic.transmit aead path envelope =
          (.ok (), { quic with
            sendCipher :=
              { quic.sendCipher with nonce := quic.sendCipher.nonce + 1 }
            sent := quic.sent ++
              [(nonceBytes quic.sendCipher.nonce).val ++ ciphertext] }) := by
  unfold transmit
  rcases quic.sendCipher.encrypt_cases aead envelope with
    ⟨error, hcall⟩ | ⟨ciphertext, hlimit, hseal, hcall⟩
  · rw [hcall]
    exact Or.inl ⟨error, quic.sendCipher.nonce, rfl, Nat.le_refl _,
      Nat.le_succ _, Or.inl (Nat.le_refl _)⟩
  · rw [hcall]
    dsimp only
    cases hwait : sendDatagramWait path
        ((nonceBytes quic.sendCipher.nonce).val ++ ciphertext) with
    | error error =>
        exact Or.inl ⟨error, quic.sendCipher.nonce + 1, rfl, Nat.le_succ _,
          Nat.le_refl _, Or.inr hlimit⟩
    | ok done =>
        simp only [sendDatagramWait, bind_eq_ok_iff, ensure_eq_ok_iff,
          exists_const] at hwait
        exact Or.inr ⟨ciphertext, hlimit, hseal, hwait.1, rfl⟩

/-- A ready envelope goes to the transport: it may get lost on the way there,
or it is the next entry of the log. -/
theorem transmit_logged {call : EncodeCall} {frame : SentFrame}
    {outbound : OutboundPolicy rng}
    (hlogged : Logged aead key terms frames log quic)
    (hready : Ready terms (frames ++ [(call, frame)]) (log.map Sealed.frame)
      frame outbound) (path : SendPath) :
    (∃ error next, { quic with outbound := outbound }.transmit aead path
          (frame.bytes terms.config terms.generation) = (.error error, next) ∧
        next.outbound = outbound ∧
        Logged aead key terms (frames ++ [(call, frame)]) log next) ∨
      ∃ entry next, { quic with outbound := outbound }.transmit aead path
          (frame.bytes terms.config terms.generation) = (.ok (), next) ∧
        next.outbound = outbound ∧ next.sent = quic.sent ++ [entry.datagram] ∧
        entry.frame = frame ∧
        ∀ settled : OutboundPolicy rng,
          Ledger terms (frames ++ [(call, frame)])
            (log.map Sealed.frame ++ [frame]) settled →
          Logged aead key terms (frames ++ [(call, frame)]) (log ++ [entry])
            { next with outbound := settled } := by
  rcases transmit_cases aead { quic with outbound := outbound } path
      (frame.bytes terms.config terms.generation) with
    ⟨error, nonce, hcall, hle, hnext, hlimit⟩ |
    ⟨ciphertext, hlimit, hseal, hshort, hcall⟩
  · refine Or.inl ⟨error, _, hcall, rfl, ?_⟩
    have hmax := hlogged.nonce_le
    refine hlogged.withhold hready.ledger rfl rfl hle ?_ ?_
    · rw [List.length_append, List.length_singleton]
      dsimp only at hnext ⊢
      omega
    · dsimp only at hlimit ⊢
      omega
  · refine Or.inr ⟨⟨frame, quic.sendCipher.nonce, _⟩, _, hcall, rfl, rfl, rfl,
      ?_⟩
    intro settled hsettled
    exact hlogged.hand_over hsettled hlimit hseal hshort

/-- What one call can do to the log. -/
structure Progress (aead : Aead) (key : Key) (terms : Terms)
    (log added : List Sealed) (elapsed : Nat) (next : NegotiatedQuic rng) :
    Prop where
  observed : next.outbound.cover.lastObserved ≤ elapsed
  logged : ∃ more, Logged aead key terms more (log ++ added) next

theorem Logged.progress {aead : Aead} {more : List (EncodeCall × SentFrame)}
    {next : NegotiatedQuic rng} {elapsed : Nat}
    (hlogged : Logged aead key terms more log next)
    (hobserved : next.outbound.cover.lastObserved ≤ elapsed) :
    Progress aead key terms log [] elapsed next where
  observed := hobserved
  logged := by
    rw [List.append_nil]
    exact ⟨more, hlogged⟩

theorem currentFrameLimit_le {maxDatagramSize : Option Nat}
    {negotiatedLimit limit : Nat}
    (hok : currentFrameLimit maxDatagramSize negotiatedLimit = .ok limit) :
    limit ≤ negotiatedLimit := by
  rw [currentFrameLimit, okOr_eq_ok_iff, Option.map_eq_some_iff] at hok
  obtain ⟨size, _, rfl⟩ := hok
  exact Nat.min_le_right _ _

/-- A `send` that is not refused sends one datagram; it has the next sequence
number. -/
theorem send_progress (hlogged : Logged aead key terms frames log quic)
    (payload : Bytes) {elapsed : Nat} (path : SendPath)
    (hnow : quic.outbound.cover.lastObserved ≤ elapsed) :
    (∃ error next, quic.send aead payload elapsed path =
        (.error error, next) ∧
        Progress aead key terms log [] elapsed next) ∨
      ∃ entry next, quic.send aead payload elapsed path = (.ok (), next) ∧
        Progress aead key terms log [entry] elapsed next ∧
        next.sent = quic.sent ++ [entry.datagram] ∧
        entry.frame.frameType = .data ∧ entry.frame.payload = payload ∧
        entry.frame.sequence = frames.length := by
  unfold send
  cases quic.outbound.checkPayload payload with
  | error error => exact Or.inl ⟨error, quic, rfl, hlogged.progress hnow⟩
  | ok checked =>
      dsimp only
      cases hsize : currentFrameLimit path.frameSize
          quic.outbound.outboundFrameLimit with
      | error error => exact Or.inl ⟨error, quic, rfl, hlogged.progress hnow⟩
      | ok limit =>
          have hlimit := currentFrameLimit_le hsize
          rw [hlogged.ledger.limit_eq] at hlimit
          dsimp only
          rcases encodePayload_cases hlogged.ledger payload hlimit with
            ⟨error, more, outbound, hcall, hcover, hmore, hledger⟩ |
            ⟨frame, call, outbound, hcall, htype, hpayload, hcover, hready⟩
          · rw [hcall]
            refine Or.inl ⟨error, _, rfl, Logged.progress
              (hlogged.with_outbound hledger hmore.length_le) ?_⟩
            dsimp only
            rw [hcover]
            exact hnow
          · rw [← hcover] at hnow
            rw [hcall]
            dsimp only
            rcases transmit_logged aead hlogged hready path with
              ⟨error, next, htransmit, houtbound, hnext⟩ |
              ⟨entry, next, htransmit, houtbound, hsent, hframe, hnext⟩
            · rw [htransmit]
              refine Or.inl ⟨error, next, rfl, hnext.progress ?_⟩
              rw [houtbound]
              exact hnow
            · obtain ⟨settled, hrecord, hobserved, hledger⟩ :=
                hready.record htype hpayload hnow
              rw [htransmit]
              dsimp only
              rw [houtbound, hrecord]
              refine Or.inr ⟨entry, _, rfl,
                ⟨hobserved.le, _, hnext settled hledger⟩, hsent, ?_, ?_, ?_⟩
              · rw [hframe]
                exact htype
              · rw [hframe]
                exact hpayload
              · rw [hframe]
                exact produced_last hready.ledger.produced

/-- What encoding and counting a granted cover frame can do. -/
theorem encodeCover_cases {sent : List SentFrame}
    {outbound : OutboundPolicy rng}
    (hledger : Ledger terms frames sent outbound) {target limit : Nat}
    (haffords : Affords terms sent target outbound)
    (hoverhead : terms.overhead < 2 ^ 32) (hlimit : limit ≤ terms.frameLimit) :
    (∃ error more next, encodeCover outbound target limit =
        (.error error, next) ∧ next.cover = outbound.cover ∧
        frames <+: more ∧ Ledger terms more sent next) ∨
      ∃ frame call next, encodeCover outbound target limit =
          (.ok (frame.bytes terms.config terms.generation), next) ∧
        next.cover = outbound.cover ∧
        Ready terms (frames ++ [(call, frame)]) sent frame next := by
  unfold encodeCover
  rcases outbound.encoder.encodeWithTarget_cases .keepalive [0] target
      limit with
    ⟨error, encoder, hcall, hsame⟩ |
    ⟨frame, encoder, hcall, htype, hpayload, hemits⟩
  · rw [hcall]
    exact Or.inl ⟨error, frames, _, rfl, rfl, List.prefix_rfl,
      hledger.of_same hsame⟩
  · obtain ⟨hlength, htarget⟩ :=
      PhantomOneEncoder.encodeWithTarget_length hcall
    rw [SentFrame.bytes_length] at hlength
    rw [hcall]
    dsimp only
    cases hreserve : outbound.sentUsage.reserve outbound.outboundBudget 0 with
    | error error =>
        have hproduced : PhantomOneEncoder.Produced terms.config
            terms.generation 0 (frames ++
              [(.encodeWithTarget .keepalive [0] target limit, frame)])
            encoder :=
          hledger.produced.emit htype hpayload hemits
        exact Or.inl ⟨error, _, _, rfl, rfl, List.prefix_append _ _,
          hledger.with_encoder hproduced (hledger.sublist_snoc _ _).1
            ⟨Nat.le_refl _, hledger.frames_le.2⟩
            ⟨Nat.le_refl _, hledger.payload_le.2⟩⟩
    | ok usage =>
        rw [hledger.budget_eq] at hreserve
        rw [hledger.produced.config_eq, hledger.produced.generation_eq]
        exact Or.inr ⟨frame, _, _, rfl, rfl,
          hledger.ready_cover limit haffords hoverhead htype hpayload hemits
            hlength (htarget.trans hlimit) hreserve⟩

theorem sendCoverIfDue_progress
    (hlogged : Logged aead key terms frames log quic)
    (hoverhead : terms.overhead = shphAeadOverheadBytes)
    (request : CoverRequest) (path : SendPath)
    (hnow : quic.outbound.cover.lastObserved ≤ request.elapsed) :
    ∃ added, Progress aead key terms log added request.elapsed
      (quic.sendCoverIfDue aead request path).2 := by
  have hpos : 0 < terms.overhead := by
    rw [hoverhead]
    decide
  have hsmall : terms.overhead < 2 ^ 32 := by
    rw [hoverhead]
    decide
  unfold sendCoverIfDue
  split
  · exact ⟨[], hlogged.progress hnow⟩
  · cases hsize : currentFrameLimit path.frameSize
        quic.outbound.outboundFrameLimit with
    | error error => exact ⟨[], hlogged.progress hnow⟩
    | ok limit =>
        have hlimit := currentFrameLimit_le hsize
        rw [hlogged.ledger.limit_eq] at hlimit
        dsimp only
        rw [← hoverhead]
        rcases planCover_cases hlogged.ledger hpos limit request hnow with
          ⟨answer, outbound, hcall, hnone, htime, hledger⟩ |
          ⟨target, outbound, hcall, htime, hledger, haffords⟩
        · have hnext := hlogged.with_outbound hledger (Nat.le_refl _)
          rw [hcall]
          cases answer with
          | error error => exact ⟨[], hnext.progress htime⟩
          | ok due =>
              cases due with
              | none => exact ⟨[], hnext.progress htime⟩
              | some target => exact absurd rfl (hnone target)
        · rw [hcall]
          dsimp only
          rcases encodeCover_cases hledger haffords hsmall hlimit with
            ⟨error, more, next, hencode, hcover, hmore, hkept⟩ |
            ⟨frame, call, next, hencode, hcover, hready⟩
          · rw [← hcover] at htime
            rw [hencode]
            exact ⟨[], Logged.progress
              (hlogged.with_outbound hkept hmore.length_le) htime⟩
          · rw [← hcover] at htime
            rw [hencode]
            dsimp only
            rcases transmit_logged aead hlogged hready path with
              ⟨error, final, htransmit, houtbound, hfinal⟩ |
              ⟨entry, final, htransmit, houtbound, _, _, hfinal⟩
            · rw [htransmit]
              refine ⟨[], hfinal.progress ?_⟩
              rw [houtbound]
              exact htime
            · rw [htransmit]
              have hnext := hfinal next hready.hand_over
              rw [← houtbound] at hnext htime
              exact ⟨[entry], htime, _, hnext⟩

theorem serve_progress (hlogged : Logged aead key terms frames log quic)
    (hoverhead : terms.overhead = shphAeadOverheadBytes) (call : SendCall)
    (hnow : quic.outbound.cover.lastObserved ≤ call.elapsed) :
    ∃ added, Progress aead key terms log added call.elapsed
      (quic.serve aead call).2 := by
  cases call with
  | send payload elapsed path =>
      change quic.outbound.cover.lastObserved ≤ elapsed at hnow
      rcases send_progress aead hlogged payload path hnow with
        ⟨_, next, hsend, hprogress⟩ | ⟨_, next, hsend, hprogress, _⟩
      · simp only [serve, hsend]
        exact ⟨_, hprogress⟩
      · simp only [serve, hsend]
        exact ⟨_, hprogress⟩
  | sendCoverIfDue request path =>
      exact sendCoverIfDue_progress aead hlogged hoverhead request path hnow

/-- A run of calls at times that do not go back only adds to the log. -/
theorem serve_run (calls : List SendCall)
    (hlogged : Logged aead key terms frames log quic)
    (hoverhead : terms.overhead = shphAeadOverheadBytes)
    (htimes : (calls.map SendCall.elapsed).Pairwise (· ≤ ·))
    (hnow : ∀ call ∈ calls, quic.outbound.cover.lastObserved ≤ call.elapsed) :
    ∃ more added, Logged aead key terms more (log ++ added)
        (final (serve aead) quic calls) ∧
      ∀ later, (∀ call ∈ calls, call.elapsed ≤ later) →
        quic.outbound.cover.lastObserved ≤ later →
        (final (serve aead) quic calls).outbound.cover.lastObserved ≤
          later := by
  induction calls generalizing frames log quic with
  | nil =>
      refine ⟨frames, [], ?_, fun _ _ hlater => hlater⟩
      rw [List.append_nil]
      exact hlogged
  | cons call calls ih =>
      rw [List.map_cons, List.pairwise_cons] at htimes
      obtain ⟨hcall, _⟩ := List.forall_mem_cons.mp hnow
      obtain ⟨first, hobserved, middle, hmiddle⟩ :=
        serve_progress aead hlogged hoverhead call hcall
      obtain ⟨more, added, hfinal, hlast⟩ := ih hmiddle htimes.2
        fun later hmem =>
          hobserved.trans (htimes.1 _ (List.mem_map_of_mem hmem))
      rw [List.append_assoc] at hfinal
      refine ⟨more, _, hfinal, fun later hall _ => ?_⟩
      obtain ⟨hhead, htail⟩ := List.forall_mem_cons.mp hall
      exact hlast later htail (hobserved.trans hhead)

end Sender

/-- What the receiver may rely on about the datagrams of an honest sender. -/
structure Genuine (aead : Aead) (key : Key) (terms : Terms)
    (log : List Sealed) : Prop where
  honest : Honest terms (log.map Sealed.frame)
  opens : ∀ entry ∈ log, entry.Opens aead key terms
  short : ∀ entry ∈ log, entry.datagram.length ≤ maxTunDatagramBytes
  nonce_lt : ∀ entry ∈ log, entry.nonce < 2 ^ 64
  ordered : log.Pairwise Sealed.Before

theorem Logged.genuine {aead : Aead} {key : Key} {terms : Terms}
    {frames : List (EncodeCall × SentFrame)} {log : List Sealed}
    {quic : NegotiatedQuic rng}
    (hlogged : Logged aead key terms frames log quic)
    (hvalid : terms.config.validate = .ok ())
    (hlimit : terms.frameLimit ≤ phantomOneMaxEnvelopeBytes) :
    Genuine aead key terms log := by
  have hnonce : quic.sendCipher.nonce < 2 ^ 32 :=
    Nat.lt_of_le_of_lt hlogged.nonce_le (by decide)
  refine ⟨hlogged.ledger.honest hvalid hlimit ?_, hlogged.opens,
    hlogged.short, ?_, hlogged.ordered⟩
  · rw [List.length_map]
    have hcount := hlogged.count_le
    omega
  · intro entry hentry
    have hpast := (hlogged.past entry hentry).1
    omega

section Log

variable {aead : Aead} {key : Key} {terms : Terms} {log : List Sealed}
  (hgenuine : Genuine aead key terms log) {first second : Sealed}

include hgenuine

theorem Genuine.trichotomy (hfirst : first ∈ log) (hsecond : second ∈ log) :
    first = second ∨ first.Before second ∨ second.Before first := by
  have hsymm : Std.Symm fun left right : Sealed =>
      left = right ∨ left.Before right ∨ right.Before left := by
    refine ⟨fun left right hrelated => ?_⟩
    rcases hrelated with heq | hbefore | hbefore
    · exact Or.inl heq.symm
    · exact Or.inr (Or.inr hbefore)
    · exact Or.inr (Or.inl hbefore)
  have hpairs : log.Pairwise fun left right =>
      left = right ∨ left.Before right ∨ right.Before left :=
    hgenuine.ordered.imp fun hbefore => Or.inr (Or.inl hbefore)
  have hself : ∀ entry ∈ log, entry = entry ∨ entry.Before entry ∨
      entry.Before entry := fun _ _ => Or.inl rfl
  exact List.Pairwise.forall_of_forall hself hpairs hfirst hsecond

theorem Genuine.eq_of_nonce (hfirst : first ∈ log) (hsecond : second ∈ log)
    (hnonce : first.nonce = second.nonce) : first = second := by
  rcases hgenuine.trichotomy hfirst hsecond with heq | hbefore | hbefore
  · exact heq
  · exact absurd hnonce (Nat.ne_of_lt hbefore.1)
  · exact absurd hnonce.symm (Nat.ne_of_lt hbefore.1)

theorem Genuine.eq_of_sequence (hfirst : first ∈ log) (hsecond : second ∈ log)
    (hsequence : first.frame.sequence = second.frame.sequence) :
    first = second := by
  rcases hgenuine.trichotomy hfirst hsecond with
    heq | ⟨hnonce, hlead⟩ | ⟨hnonce, hlead⟩
  · exact heq
  · omega
  · omega

/-- Nonces are no further apart than sequence numbers. -/
theorem Genuine.nonce_near (hfirst : first ∈ log) (hsecond : second ∈ log)
    {width : Nat}
    (hnear : first.frame.sequence < second.frame.sequence + width) :
    first.nonce < second.nonce + (width + 1) := by
  rcases hgenuine.trichotomy hfirst hsecond with
    rfl | ⟨hnonce, _⟩ | ⟨_, hlead⟩
  · omega
  · omega
  · omega

end Log

/-- The replay state of a receiver that opened the datagrams `seen` and
decrypted the nonces `nonces`.  A datagram that was decrypted and not opened
is too old. -/
structure Tracked (key : Key) (terms : Terms) (log seen : List Sealed)
    (nonces : List Nat) (quic : NegotiatedQuic rng) : Prop where
  limit_eq : quic.inbound.inboundFrameLimit = terms.frameLimit
  budget_eq : quic.inbound.inboundBudget = terms.budget
  policy_eq : quic.inbound.coverPolicy = terms.coverPolicy
  key_eq : quic.recvCipher.key = key
  replay : ∃ window, quic.recvCipher.replay = .window window ∧
    window.Represents nonces ∧ window.size = phantomOneDefaultReplayWindow
  decoder : PhantomOneDecoder.Represents terms.config terms.generation
    phantomOneDefaultReplayWindow (seen.map Sealed.frame) quic.inbound.decoder
  seen_mem : ∀ entry ∈ seen, entry ∈ log ∧ entry.nonce ∈ nonces
  nodup : seen.Nodup
  decrypted : ∀ nonce ∈ nonces, ∃ entry ∈ log, entry.nonce = nonce ∧
    (entry ∈ seen ∨ ∃ newer ∈ seen, entry.frame.sequence +
      phantomOneDefaultReplayWindow ≤ newer.frame.sequence)

/-- The receiver's counters cover no more than the opened datagrams. -/
structure Counted (seen : List Sealed) (quic : NegotiatedQuic rng) : Prop where
  frames_le : quic.inbound.receivedUsage.frames ≤ seen.length
  payload_le : quic.inbound.receivedUsage.payloadBytes ≤
    dataBytes (seen.map Sealed.frame)

/-- The sequence numbers of the opened datagrams. -/
def sequences (seen : List Sealed) : List Nat :=
  seen.map fun entry => entry.frame.sequence

section Receiver

variable {aead : Aead} {key : Key} {terms : Terms} {log seen : List Sealed}
  {nonces : List Nat} {quic : NegotiatedQuic rng} {entry : Sealed}
  {arrival : Arrival}

theorem Sealed.Opens.length_eq (hopens : entry.Opens aead key terms) :
    entry.datagram.length = entry.frame.targetLen + shphAeadOverheadBytes := by
  obtain ⟨ciphertext, hseal, hdatagram⟩ := hopens
  have hlength := aead.encrypt_length hseal
  rw [SentFrame.bytes_length] at hlength
  rw [hdatagram, List.length_append, (nonceBytes entry.nonce).length_eq,
    hlength]
  simp only [shphAeadOverheadBytes]
  omega

/-- The checks before decryption let a datagram of the log pass exactly if the
receiver's connection carries it. -/
theorem checkArrival_cases (hgenuine : Genuine aead key terms log)
    (htracked : Tracked key terms log seen nonces quic) (hentry : entry ∈ log)
    (harrival : arrival.datagram = .ok entry.datagram) :
    (¬ arrival.Admits entry.datagram.length ∧
        ∃ error, quic.checkArrival arrival = .error error) ∨
      (arrival.Admits entry.datagram.length ∧ ∃ limit,
        quic.checkArrival arrival = .ok (entry.datagram, limit) ∧
        entry.frame.targetLen ≤ limit ∧ limit ≤ terms.frameLimit) := by
  have hlength := (hgenuine.opens entry hentry).length_eq
  have hshort := hgenuine.short entry hentry
  have htarget := hgenuine.honest.target_le _ (List.mem_map_of_mem hentry)
  have hrecv : recvDatagram arrival = .ok entry.datagram := by
    simp only [recvDatagram, harrival, bind, Except.bind, ensure, hshort,
      if_true, pure, Except.pure]
  unfold checkArrival
  simp only [hrecv, htracked.limit_eq, bind, Except.bind]
  cases hsize : arrival.maxDatagramSize with
  | none =>
      refine Or.inl ⟨?_, _, rfl⟩
      rintro ⟨size, hmem, _⟩
      rw [hsize] at hmem
      exact absurd hmem (by simp)
  | some size =>
      have hadmits : arrival.Admits entry.datagram.length ↔
          entry.datagram.length ≤ size := by
        simp [Arrival.Admits, hsize]
      rw [hadmits]
      by_cases hroom : shphAeadOverheadBytes ≤ size
      · have hlimit : currentFrameLimit (some size) terms.frameLimit =
            .ok (min (size - shphAeadOverheadBytes) terms.frameLimit) := by
          simp [currentFrameLimit, checkedSub, hroom]
        simp only [hlimit]
        by_cases hfits : entry.datagram.length ≤
            min (size - shphAeadOverheadBytes) terms.frameLimit +
              shphAeadOverheadBytes
        · refine Or.inr ⟨by omega,
            min (size - shphAeadOverheadBytes) terms.frameLimit, ?_,
            by omega, by omega⟩
          simp only [ensure, hfits, if_true, pure, Except.pure]
        · refine Or.inl ⟨by omega, ?_⟩
          simp only [ensure, hfits, if_false]
          exact ⟨_, rfl⟩
      · have hlimit : ∃ error, currentFrameLimit (some size)
            terms.frameLimit = .error error := by
          simp [currentFrameLimit, checkedSub, hroom, okOr]
        obtain ⟨error, hlimit⟩ := hlimit
        simp only [hlimit]
        exact Or.inl ⟨by omega, error, rfl⟩

/-- A number that the decoder's window admits has a nonce that the cipher's
window admits. -/
theorem Tracked.nonce_admissible (hgenuine : Genuine aead key terms log)
    (htracked : Tracked key terms log seen nonces quic) (hentry : entry ∈ log)
    (hadmissible : Admissible phantomOneDefaultReplayWindow (sequences seen)
      entry.frame.sequence) :
    Admissible (phantomOneDefaultReplayWindow + 1) nonces entry.nonce := by
  obtain ⟨hfresh, hnear⟩ := hadmissible
  rw [sequences, List.forall_mem_map] at hnear
  constructor
  · intro hmem
    obtain ⟨other, hother, hnonce, hwhy⟩ := htracked.decrypted _ hmem
    obtain rfl := hgenuine.eq_of_nonce hother hentry hnonce
    rcases hwhy with hseen | ⟨newer, hnewer, hstale⟩
    · exact hfresh (List.mem_map_of_mem hseen)
    · exact absurd (hnear newer hnewer) (Nat.not_lt.mpr hstale)
  · intro nonce hmem
    obtain ⟨other, hother, rfl, hwhy⟩ := htracked.decrypted _ hmem
    refine hgenuine.nonce_near hother hentry ?_
    rcases hwhy with hseen | ⟨newer, hnewer, hstale⟩
    · exact hnear other hseen
    · exact Nat.lt_of_le_of_lt ((Nat.le_add_right _ _).trans hstale)
        (hnear newer hnewer)

/-- What the cipher does with a datagram of the log. -/
theorem decrypt_cases_of_mem (hgenuine : Genuine aead key terms log)
    (htracked : Tracked key terms log seen nonces quic)
    (hentry : entry ∈ log) :
    (¬ Admissible (phantomOneDefaultReplayWindow + 1) nonces entry.nonce ∧
        ∃ error, quic.recvCipher.decrypt aead entry.datagram =
          (.error error, quic.recvCipher)) ∨
      (Admissible (phantomOneDefaultReplayWindow + 1) nonces entry.nonce ∧
        ∃ window, quic.recvCipher.decrypt aead entry.datagram =
            (.ok (entry.frame.bytes terms.config terms.generation),
              { quic.recvCipher with replay := .window window }) ∧
          window.Represents (nonces ++ [entry.nonce]) ∧
          window.size = phantomOneDefaultReplayWindow) := by
  obtain ⟨window, hreplay, hrepresents, hsize⟩ := htracked.replay
  obtain ⟨ciphertext, hseal, hdatagram⟩ := hgenuine.opens entry hentry
  have hplain := aead.decrypt_encrypt hseal
  rw [← htracked.key_eq] at hplain
  rw [hdatagram, ← hsize]
  rcases ReceiveCipher.decrypt_sealed hreplay hrepresents
      (hgenuine.nonce_lt entry hentry) hplain with
    hrefused | ⟨hadmissible, next, hcall, hnext, hkept⟩
  · exact Or.inl hrefused
  · exact Or.inr ⟨hadmissible, next, hcall, hnext, hkept⟩

theorem frames_subperm (hnodup : seen.Nodup)
    (hmem : ∀ entry ∈ seen, entry ∈ log) :
    (seen.map Sealed.frame).Subperm (log.map Sealed.frame) := by
  obtain ⟨middle, hperm, hsublist⟩ := hnodup.subperm hmem
  exact ⟨middle.map Sealed.frame, hperm.map _, hsublist.map _⟩

theorem Tracked.snoc_subperm
    (htracked : Tracked key terms log seen nonces quic) (hentry : entry ∈ log)
    (hfresh : entry.frame.sequence ∉ sequences seen) :
    (seen ++ [entry]).Nodup ∧
      ((seen ++ [entry]).map Sealed.frame).Subperm (log.map Sealed.frame) := by
  have hnew : entry ∉ seen := fun hmem => hfresh (List.mem_map_of_mem hmem)
  have hnodup : (seen ++ [entry]).Nodup := by
    rw [List.nodup_append_comm, List.singleton_append, List.nodup_cons]
    exact ⟨hnew, htracked.nodup⟩
  refine ⟨hnodup, frames_subperm hnodup (List.forall_mem_append.mpr ⟨?_, ?_⟩)⟩
  · exact fun other hother => (htracked.seen_mem other hother).1
  · exact List.forall_mem_singleton.mpr hentry

/-- Distinct datagrams of the log have room for their padding. -/
theorem Tracked.padding_fits (hgenuine : Genuine aead key terms log)
    (htracked : Tracked key terms log seen nonces quic) (hentry : entry ∈ log)
    (hfresh : entry.frame.sequence ∉ sequences seen) :
    PhantomOneDecoder.PaddingFits terms.config (seen.map Sealed.frame)
      entry.frame := by
  have hsub := (htracked.snoc_subperm hentry hfresh).2
  rw [List.map_append] at hsub
  have hle := totalPadding_le_of_subperm hsub
  exact ⟨hle.trans hgenuine.honest.padding_le.1, fun budget hbudget =>
    hle.trans (hgenuine.honest.padding_le.2 budget hbudget)⟩

/-- Opening a datagram leaves the counters alone. -/
def SameCounters (left right : NegotiatedQuic rng) : Prop :=
  left.inbound.receivedUsage = right.inbound.receivedUsage ∧
    left.receivedCover = right.receivedCover

/-- A datagram of the log opens exactly if the connection carries it and the
decoder's window admits its number. -/
theorem openDatagram_cases (hgenuine : Genuine aead key terms log)
    (htracked : Tracked key terms log seen nonces quic) (hentry : entry ∈ log)
    (harrival : arrival.datagram = .ok entry.datagram) :
    (¬ (arrival.Admits entry.datagram.length ∧
          Admissible phantomOneDefaultReplayWindow (sequences seen)
            entry.frame.sequence) ∧
        ∃ error after next, quic.openDatagram aead arrival =
            (.error error, next) ∧
          Tracked key terms log seen after next ∧ SameCounters next quic) ∨
      ((arrival.Admits entry.datagram.length ∧
          Admissible phantomOneDefaultReplayWindow (sequences seen)
            entry.frame.sequence) ∧
        ∃ after next, quic.openDatagram aead arrival =
            (.ok (entry.frame.decoded terms.config terms.generation,
              entry.datagram.length), next) ∧
          Tracked key terms log (seen ++ [entry]) after next ∧
          SameCounters next quic) := by
  unfold openDatagram
  rcases checkArrival_cases hgenuine htracked hentry harrival with
    ⟨hblocked, error, hcheck⟩ | ⟨hadmits, limit, hcheck, htarget, hlimit⟩
  · rw [hcheck]
    exact Or.inl ⟨fun hboth => hblocked hboth.1, error, nonces, quic, rfl,
      htracked, rfl, rfl⟩
  · rw [hcheck]
    dsimp only
    rcases decrypt_cases_of_mem hgenuine htracked hentry with
      ⟨hrefused, error, hdecrypt⟩ |
      ⟨hfresh, window, hdecrypt, hrepresents, hsize⟩
    · rw [hdecrypt]
      exact Or.inl ⟨fun hboth => hrefused
        (htracked.nonce_admissible hgenuine hentry hboth.2), error, nonces,
        quic, rfl, htracked, rfl, rfl⟩
    · have hmapped : (seen.map Sealed.frame).map SentFrame.sequence =
          sequences seen := by
        rw [List.map_map]
        rfl
      have hunseen : entry.frame.sequence ∉ sequences seen := by
        intro hmem
        obtain ⟨other, hother, hsequence⟩ := List.mem_map.mp hmem
        obtain ⟨hlog, hnonce⟩ := htracked.seen_mem other hother
        obtain rfl := hgenuine.eq_of_sequence hlog hentry hsequence
        exact hfresh.1 hnonce
      have hpadding := htracked.padding_fits hgenuine hentry hunseen
      obtain ⟨haccept, hreject⟩ := PhantomOneDecoder.decode_sent
        htracked.decoder hgenuine.honest.valid
        (hgenuine.honest.fits _ (List.mem_map_of_mem hentry)) htarget
        (hlimit.trans hgenuine.honest.limit_le)
      rw [PhantomOneDecoder.Receivable, hmapped] at haccept hreject
      rw [hdecrypt]
      dsimp only
      by_cases hadmissible : Admissible phantomOneDefaultReplayWindow
          (sequences seen) entry.frame.sequence
      · obtain ⟨decoder, hdecode, hdecoder⟩ := haccept ⟨hadmissible, hpadding⟩
        rw [hdecode]
        refine Or.inr ⟨⟨hadmits, hadmissible⟩, nonces ++ [entry.nonce], _, rfl,
          ?_, rfl, rfl⟩
        exact
          { limit_eq := htracked.limit_eq
            budget_eq := htracked.budget_eq
            policy_eq := htracked.policy_eq
            key_eq := htracked.key_eq
            replay := ⟨window, rfl, hrepresents, hsize⟩
            decoder := by
              rw [List.map_append]
              exact hdecoder
            seen_mem := List.forall_mem_append.mpr
              ⟨fun other hother =>
                ⟨(htracked.seen_mem other hother).1, List.mem_append_left _
                  (htracked.seen_mem other hother).2⟩, by simpa using hentry⟩
            nodup := (htracked.snoc_subperm hentry hunseen).1
            decrypted := by
              refine List.forall_mem_append.mpr ⟨?_, ?_⟩
              · intro nonce hnonce
                obtain ⟨other, hother, heq, hwhy⟩ :=
                  htracked.decrypted nonce hnonce
                refine ⟨other, hother, heq, ?_⟩
                rcases hwhy with hseen | ⟨newer, hnewer, hstale⟩
                · exact Or.inl (List.mem_append_left _ hseen)
                · exact Or.inr ⟨newer, List.mem_append_left _ hnewer, hstale⟩
              · rw [List.forall_mem_singleton]
                exact ⟨entry, hentry, rfl, Or.inl (by simp)⟩ }
      · obtain ⟨error, hdecode⟩ := hreject fun hboth => hadmissible hboth.1
        rw [hdecode]
        refine Or.inl ⟨fun hboth => hadmissible hboth.2, error,
          nonces ++ [entry.nonce], _, rfl, ?_, rfl, rfl⟩
        -- the number is fresh, so a newer one has pushed it out of the window
        have hstale : ∃ newer ∈ seen, entry.frame.sequence +
            phantomOneDefaultReplayWindow ≤ newer.frame.sequence := by
          by_contra hnone
          push Not at hnone
          exact hadmissible ⟨hunseen, List.forall_mem_map.mpr hnone⟩
        exact
          { htracked with
            replay := ⟨window, rfl, hrepresents, hsize⟩
            seen_mem := fun other hother =>
              ⟨(htracked.seen_mem other hother).1, List.mem_append_left _
                (htracked.seen_mem other hother).2⟩
            decrypted := List.forall_mem_append.mpr
              ⟨htracked.decrypted, List.forall_mem_singleton.mpr
                ⟨entry, hentry, rfl, Or.inr hstale⟩⟩ }

theorem Tracked.with_counters
    (htracked : Tracked key terms log seen nonces quic) (usage : FrameUsage)
    (cover : ReceivedCoverUsage) :
    Tracked key terms log seen nonces { quic with
      receivedCover := cover
      inbound := { quic.inbound with receivedUsage := usage } } :=
  { htracked with }

/-- The budget of the direction has room for an opened datagram that is not
counted yet. -/
theorem reserve_opened (hgenuine : Genuine aead key terms log)
    (htracked : Tracked key terms log (seen ++ [entry]) nonces quic)
    (hcounted : Counted seen quic) :
    quic.inbound.receivedUsage.reserve quic.inbound.inboundBudget
        entry.frame.dataLen =
      .ok ⟨quic.inbound.receivedUsage.frames + 1,
        quic.inbound.receivedUsage.payloadBytes + entry.frame.dataLen⟩ := by
  have hsub := frames_subperm htracked.nodup fun other hother =>
    (htracked.seen_mem other hother).1
  have hlength := hsub.length_le.trans hgenuine.honest.frames_le
  have hbytes := (dataBytes_le_of_subperm hsub).trans
    hgenuine.honest.payload_le
  rw [List.map_append, List.map_singleton] at hlength hbytes
  rw [List.length_append, List.length_map, List.length_singleton] at hlength
  rw [dataBytes_snoc] at hbytes
  rw [FrameUsage.reserve_eq_ok_iff, htracked.budget_eq]
  exact ⟨(Nat.succ_le_succ hcounted.frames_le).trans hlength,
    (Nat.add_le_add_right hcounted.payload_le _).trans hbytes, rfl⟩

/-- A cover frame counts for one frame at most. -/
theorem acceptCover_keeps (quic : NegotiatedQuic rng) (frame : PhantomOneFrame)
    (ciphertextLen : Nat) :
    ∃ usage cover, (quic.acceptCover frame ciphertextLen).2 = { quic with
        receivedCover := cover
        inbound := { quic.inbound with receivedUsage := usage } } ∧
      usage.frames ≤ quic.inbound.receivedUsage.frames + 1 ∧
      usage.payloadBytes = quic.inbound.receivedUsage.payloadBytes := by
  unfold acceptCover
  cases quic.inbound.coverPolicy with
  | none => exact ⟨_, _, rfl, Nat.le_succ _, rfl⟩
  | some policy =>
      dsimp only
      split
      · exact ⟨_, _, rfl, Nat.le_succ _, rfl⟩
      · cases quic.receivedCover.reserve policy ciphertextLen with
        | error error => exact ⟨_, _, rfl, Nat.le_succ _, rfl⟩
        | ok cover =>
            dsimp only
            cases hreserve : quic.inbound.receivedUsage.reserve
                quic.inbound.inboundBudget 0 with
            | error error => exact ⟨_, _, rfl, Nat.le_succ _, rfl⟩
            | ok usage =>
                obtain ⟨_, _, rfl⟩ := FrameUsage.reserve_eq_ok_iff.mp hreserve
                exact ⟨_, _, rfl, Nat.le_refl _, Nat.add_zero _⟩

/-- The payload is returned exactly if the payloads received, this one
included, allow for the cover received. -/
theorem acceptData_opened (hgenuine : Genuine aead key terms log)
    (htracked : Tracked key terms log (seen ++ [entry]) nonces quic)
    (hcounted : Counted seen quic) (htype : entry.frame.frameType = .data) :
    ((quic.acceptData
        (entry.frame.decoded terms.config terms.generation)).1 =
          .ok entry.frame.payload ↔
        ∀ policy ∈ terms.coverPolicy, coverBudgetAllows policy
          (quic.inbound.receivedUsage.payloadBytes +
            entry.frame.payload.length) quic.receivedCover.bytes = true) ∧
      ∃ usage, (quic.acceptData
          (entry.frame.decoded terms.config terms.generation)).2 = { quic with
            inbound := { quic.inbound with receivedUsage := usage } } ∧
        usage.frames ≤ quic.inbound.receivedUsage.frames + 1 ∧
        usage.payloadBytes ≤ quic.inbound.receivedUsage.payloadBytes +
          entry.frame.dataLen := by
  have hreserve := reserve_opened hgenuine htracked hcounted
  have hdata := SentFrame.dataLen_of_data htype
  have hpayload : (entry.frame.decoded terms.config
      terms.generation).payload = entry.frame.payload := rfl
  have hword := quic.inbound.inboundBudget.maxPayloadBytes.toNat_lt
  have hroom := (FrameUsage.reserve_eq_ok_iff.mp hreserve).2.1
  rw [hdata] at hreserve hroom
  have hsum : checkedAdd quic.inbound.receivedUsage.payloadBytes
      entry.frame.payload.length =
        some (quic.inbound.receivedUsage.payloadBytes +
          entry.frame.payload.length) := by
    rw [checkedAdd_eq_some_iff]
    refine ⟨?_, rfl⟩
    rw [u64Max]
    omega
  have hcheck : quic.checkData
        (entry.frame.decoded terms.config terms.generation) = .ok () ↔
      ∀ policy ∈ terms.coverPolicy, coverBudgetAllows policy
        (quic.inbound.receivedUsage.payloadBytes +
          entry.frame.payload.length) quic.receivedCover.bytes = true := by
    simp only [checkData, hpayload, hsum, okOr, bind, Except.bind,
      htracked.policy_eq]
    cases terms.coverPolicy with
    | none => simp
    | some policy => simp [ReceivedCoverUsage.validatePayload]
  unfold acceptData
  rw [hpayload, ← hcheck]
  cases quic.checkData
      (entry.frame.decoded terms.config terms.generation) with
  | error error =>
      exact ⟨by simp, _, rfl, Nat.le_succ _, Nat.le_add_right _ _⟩
  | ok checked =>
      simp only [hreserve]
      refine ⟨by simp, _, rfl, Nat.le_refl _, ?_⟩
      rw [hdata]

end Receiver

/-- The frame of an arrival that opens. -/
def openedFrame (aead : Aead) (quic : NegotiatedQuic rng)
    (arrival : Arrival) : Option PhantomOneFrame :=
  match (quic.openDatagram aead arrival).1 with
  | .ok (frame, _) => some frame
  | .error _ => none

/-- The frames that open in the course of the arrivals. -/
def opened (aead : Aead) : NegotiatedQuic rng → List Arrival →
    List PhantomOneFrame
  | _, [] => []
  | quic, arrival :: arrivals =>
      (quic.openedFrame aead arrival).toList ++
        opened aead (quic.acceptDatagram aead arrival).2 arrivals

/-- The state of a receiver that opened these datagrams. -/
def Receives (key : Key) (terms : Terms) (log seen : List Sealed)
    (quic : NegotiatedQuic rng) : Prop :=
  (∃ nonces, Tracked key terms log seen nonces quic) ∧ Counted seen quic

section Receiver

variable {aead : Aead} {key : Key} {terms : Terms} {log seen : List Sealed}
  {quic : NegotiatedQuic rng} {entry : Sealed} {arrival : Arrival}

theorem Counted.of_same {other : NegotiatedQuic rng}
    (hcounted : Counted seen quic) (hsame : SameCounters other quic) :
    Counted seen other where
  frames_le := by
    rw [hsame.1]
    exact hcounted.frames_le
  payload_le := by
    rw [hsame.1]
    exact hcounted.payload_le

theorem counted_snoc {usage : FrameUsage} (hcounted : Counted seen quic)
    (hframes : usage.frames ≤ quic.inbound.receivedUsage.frames + 1)
    (hpayload : usage.payloadBytes ≤
      quic.inbound.receivedUsage.payloadBytes + entry.frame.dataLen)
    (cover : ReceivedCoverUsage) :
    Counted (seen ++ [entry]) { quic with
      receivedCover := cover
      inbound := { quic.inbound with receivedUsage := usage } } where
  frames_le := by
    rw [List.length_append, List.length_singleton]
    exact hframes.trans (Nat.succ_le_succ hcounted.frames_le)
  payload_le := by
    rw [List.map_append, List.map_singleton, dataBytes_snoc]
    exact hpayload.trans (Nat.add_le_add_right hcounted.payload_le _)

/-- One turn on a datagram of the log. -/
theorem acceptDatagram_receives (hgenuine : Genuine aead key terms log)
    (hreceives : Receives key terms log seen quic) (hentry : entry ∈ log)
    (harrival : arrival.datagram = .ok entry.datagram) :
    ∃ added, Receives key terms log (seen ++ added)
        (quic.acceptDatagram aead arrival).2 ∧
      sequences added = (quic.openedFrame aead arrival).toList.map
        PhantomOneFrame.sequence := by
  obtain ⟨⟨nonces, htracked⟩, hcounted⟩ := hreceives
  unfold acceptDatagram openedFrame
  rcases openDatagram_cases hgenuine htracked hentry harrival with
    ⟨_, error, after, next, hopen, hnext, hsame⟩ |
    ⟨_, after, next, hopen, hnext, hsame⟩
  · rw [hopen]
    refine ⟨[], ?_, rfl⟩
    rw [List.append_nil]
    exact ⟨⟨after, hnext⟩, hcounted.of_same hsame⟩
  · have hcounted := hcounted.of_same hsame
    rw [hopen]
    refine ⟨[entry], ?_, rfl⟩
    rcases hgenuine.honest.regular _ (List.mem_map_of_mem hentry) with
      htype | ⟨htype, _⟩
    · obtain ⟨_, usage, hkept, hframes, hpayload⟩ :=
        acceptData_opened hgenuine hnext hcounted htype
      simp only [SentFrame.decoded, htype] at hkept ⊢
      rw [hkept]
      exact ⟨⟨after, hnext.with_counters usage _⟩,
        counted_snoc hcounted hframes hpayload _⟩
    · obtain ⟨usage, cover, hkept, hframes, hpayload⟩ :=
        next.acceptCover_keeps
          (entry.frame.decoded terms.config terms.generation)
          entry.datagram.length
      simp only [SentFrame.decoded, htype] at hkept ⊢
      rw [hkept]
      exact ⟨⟨after, hnext.with_counters usage cover⟩,
        counted_snoc hcounted hframes
          (hpayload.le.trans (Nat.le_add_right _ _)) cover⟩

theorem acceptDatagram_failed (aead : Aead) (quic : NegotiatedQuic rng)
    {error : ShphError} (harrival : arrival.datagram = .error error) :
    quic.acceptDatagram aead arrival = (some (.error error), quic) ∧
      quic.openedFrame aead arrival = none := by
  have hopen : quic.openDatagram aead arrival = (.error error, quic) := by
    simp [openDatagram, checkArrival, recvDatagram, harrival, bind,
      Except.bind]
  simp [acceptDatagram, openedFrame, hopen]

/-- Every run of turns on datagrams of the log and failed reads. -/
theorem acceptDatagram_run (hgenuine : Genuine aead key terms log)
    (arrivals : List Arrival) (hreceives : Receives key terms log seen quic)
    (hdrawn : ∀ arrival ∈ arrivals, ∀ datagram,
      arrival.datagram = .ok datagram → datagram ∈ log.map Sealed.datagram) :
    ∃ added, Receives key terms log (seen ++ added)
        (final (acceptDatagram aead) quic arrivals) ∧
      sequences added =
        (quic.opened aead arrivals).map PhantomOneFrame.sequence := by
  induction arrivals generalizing seen quic with
  | nil =>
      refine ⟨[], ?_, rfl⟩
      rw [List.append_nil]
      exact hreceives
  | cons arrival arrivals ih =>
      obtain ⟨hhead, htail⟩ := List.forall_mem_cons.mp hdrawn
      have hstep : ∃ added, Receives key terms log (seen ++ added)
            (quic.acceptDatagram aead arrival).2 ∧
          sequences added = (quic.openedFrame aead arrival).toList.map
            PhantomOneFrame.sequence := by
        cases harrival : arrival.datagram with
        | error error =>
            obtain ⟨hcall, hopened⟩ :=
              acceptDatagram_failed aead quic harrival
            rw [hcall, hopened]
            refine ⟨[], ?_, rfl⟩
            rw [List.append_nil]
            exact hreceives
        | ok datagram =>
            obtain ⟨entry, hentry, rfl⟩ :=
              List.mem_map.mp (hhead datagram harrival)
            exact acceptDatagram_receives hgenuine hreceives hentry harrival
      obtain ⟨first, hnext, hfirst⟩ := hstep
      obtain ⟨rest, hfinal, hrest⟩ := ih hnext htail
      refine ⟨first ++ rest, ?_, ?_⟩
      · rw [← List.append_assoc]
        exact hfinal
      · rw [opened, List.map_append, ← hfirst, ← hrest, sequences, sequences,
          sequences, List.map_append]

/-- One turn on a payload that is fresh and inside the window. -/
theorem acceptDatagram_payload (hgenuine : Genuine aead key terms log)
    (hreceives : Receives key terms log seen quic) (hentry : entry ∈ log)
    (harrival : arrival.datagram = .ok entry.datagram)
    (htype : entry.frame.frameType = .data)
    (hadmissible : Admissible phantomOneDefaultReplayWindow (sequences seen)
      entry.frame.sequence) :
    ∃ result, (quic.acceptDatagram aead arrival).1 = some result ∧
      (result = .ok entry.frame.payload ↔
        arrival.Admits entry.datagram.length ∧
          ∀ policy ∈ terms.coverPolicy, coverBudgetAllows policy
            (quic.inbound.receivedUsage.payloadBytes +
              entry.frame.payload.length) quic.receivedCover.bytes = true) := by
  obtain ⟨⟨nonces, htracked⟩, hcounted⟩ := hreceives
  unfold acceptDatagram
  rcases openDatagram_cases hgenuine htracked hentry harrival with
    ⟨hnot, error, after, next, hopen, _, _⟩ |
    ⟨⟨hadmits, _⟩, after, next, hopen, hnext, hsame⟩
  · rw [hopen]
    refine ⟨.error error, rfl, ?_⟩
    simp only [reduceCtorEq, false_iff, not_and]
    exact fun hadmits => absurd ⟨hadmits, hadmissible⟩ hnot
  · obtain ⟨hiff, _⟩ := acceptData_opened hgenuine hnext
      (hcounted.of_same hsame) htype
    rw [hsame.1, hsame.2] at hiff
    rw [hopen]
    simp only [SentFrame.decoded, htype] at hiff ⊢
    refine ⟨_, rfl, hiff.trans ?_⟩
    simp [hadmits]

end Receiver

section Recv

variable (aead : Aead) {quic : NegotiatedQuic rng} {taken : List Arrival}
  {arrival : Arrival} {result : Except ShphError Bytes} (rest : List Arrival)

/-- A `recv` call before an arrival that will be answered: it takes that
arrival, or it ends before it and has taken at least one other. -/
theorem recvTurns_reaches (turns : Nat)
    (hanswer : ((final (acceptDatagram aead) quic taken).acceptDatagram aead
      arrival).1 = some result) :
    (∃ next, quic.recvTurns aead turns (taken ++ arrival :: rest) =
        (some result, next, rest)) ∨
      ∃ answer first later, taken = first ++ later ∧
        (turns = 0 ∨ first ≠ []) ∧
        quic.recvTurns aead turns (taken ++ arrival :: rest) =
          (some answer, final (acceptDatagram aead) quic first,
            later ++ arrival :: rest) := by
  induction turns generalizing quic taken with
  | zero => exact Or.inr ⟨_, [], taken, rfl, Or.inl rfl, rfl⟩
  | succ turns ih =>
      cases taken with
      | nil =>
          refine Or.inl ⟨(quic.acceptDatagram aead arrival).2, ?_⟩
          rw [final_nil] at hanswer
          rw [List.nil_append, recvTurns]
          cases hcall : quic.acceptDatagram aead arrival with
          | mk answer next =>
              rw [hcall] at hanswer
              change answer = some result at hanswer
              rw [hanswer]
      | cons head taken =>
          rw [List.cons_append, recvTurns]
          rw [final_cons] at hanswer
          cases hcall : quic.acceptDatagram aead head with
          | mk answer next =>
              rw [hcall] at hanswer
              cases answer with
              | some answer =>
                  refine Or.inr ⟨answer, [head], taken, rfl,
                    Or.inr (List.cons_ne_nil _ _), ?_⟩
                  rw [final_cons, final_nil, hcall]
              | none =>
                  rcases ih hanswer with ⟨last, hlast⟩ |
                    ⟨answer, first, later, rfl, _, hlast⟩
                  · exact Or.inl ⟨last, hlast⟩
                  · refine Or.inr ⟨answer, head :: first, later, rfl,
                      Or.inr (List.cons_ne_nil _ _), ?_⟩
                    rw [final_cons, hcall]
                    exact hlast

/-- A call of `recv` on what has arrived and was not taken yet. -/
def recvCall (state : NegotiatedQuic rng × List Arrival) (_ : Unit) :
    Option (Except ShphError Bytes) × NegotiatedQuic rng × List Arrival :=
  state.1.recv aead state.2

/-- Repeated calls get to every arrival that will be answered, and the call
that takes it returns the answer. -/
theorem recv_reaches
    (hanswer : ((final (acceptDatagram aead) quic taken).acceptDatagram aead
      arrival).1 = some result) :
    ∃ count current passed,
      final (recvCall aead) (quic, taken ++ arrival :: rest)
          (List.replicate count ()) = (current, passed ++ arrival :: rest) ∧
        (current.recv aead (passed ++ arrival :: rest)).2.2 = rest ∧
        (current.recv aead (passed ++ arrival :: rest)).1 = some result := by
  induction hlength : taken.length using Nat.strong_induction_on
    generalizing quic taken with
  | _ length ih =>
      rcases recvTurns_reaches aead rest maxRecvTurns hanswer with
        ⟨next, hcall⟩ | ⟨answer, first, later, rfl, hfirst, hcall⟩
      · refine ⟨0, quic, taken, rfl, ?_, ?_⟩
        · rw [recv, hcall]
        · rw [recv, hcall]
      · have hpos : 0 < first.length :=
          List.length_pos_iff.mpr (hfirst.resolve_left (by decide))
        rw [List.length_append] at hlength
        rw [final_append] at hanswer
        obtain ⟨count, current, passed, hreached, htakes⟩ :=
          ih later.length (by omega) hanswer rfl
        refine ⟨count + 1, current, passed, ?_, htakes⟩
        rw [List.replicate_succ, final_cons, recvCall, recv, hcall]
        exact hreached

end Recv

/-- The log of a session that has sent nothing. -/
theorem ofAgreement_logged {sendKey recvKey : Key} {generation : UInt32}
    {agreement : NegotiatedPolicy} {coverPolicy : Option CoverPolicy}
    {seeded : rng.State} {quic : NegotiatedQuic rng} (aead : Aead)
    (hok : ofAgreement sendKey recvKey generation agreement coverPolicy
      seeded = .ok quic) :
    agreement.config.validate = .ok () ∧
      quic.outbound.cover.lastObserved = 0 ∧
      Logged aead sendKey (.ofAgreement generation agreement coverPolicy
        shphAeadOverheadBytes) [] [] quic := by
  simp only [ofAgreement, bind_eq_ok_iff, pure_eq_ok_iff] at hok
  obtain ⟨outbound, houtbound, inbound, _, rfl⟩ := hok
  obtain ⟨hvalid, hstart, hledger⟩ :=
    ofAgreement_ledger houtbound shphAeadOverheadBytes
  refine ⟨hvalid, hstart, ?_⟩
  exact
    { ledger := hledger
      key_eq := rfl
      sent_eq := rfl
      opens := by simp
      short := by simp
      past := by simp
      ordered := List.Pairwise.nil
      count_le := Nat.le_refl _
      nonce_le := Nat.zero_le _ }

/-- A receiver whose policy mirrors the sender's has opened nothing. -/
theorem ofAgreement_receives {sendKey recvKey : Key} {generation : UInt32}
    {agreement : NegotiatedPolicy} {coverPolicy : Option CoverPolicy}
    {seeded : rng.State} {quic : NegotiatedQuic rng}
    (hok : ofAgreement sendKey recvKey generation agreement.swap coverPolicy
      seeded = .ok quic) (log : List Sealed) :
    Receives recvKey (.ofAgreement generation agreement coverPolicy
      shphAeadOverheadBytes) log [] quic := by
  simp only [ofAgreement, InboundPolicy.ofAgreement, bind_eq_ok_iff,
    pure_eq_ok_iff] at hok
  obtain ⟨outbound, _, inbound, ⟨decoder, hdecoder, rfl⟩, rfl⟩ := hok
  refine ⟨⟨[], ?_⟩, Nat.le_refl _, Nat.le_refl _⟩
  exact
    { limit_eq := rfl
      budget_eq := rfl
      policy_eq := rfl
      key_eq := rfl
      replay := ⟨_, rfl, ReplayWindow.new_represents 64, rfl⟩
      decoder := (PhantomOneDecoder.withConfigAndWindow_ok hdecoder).2
      seen_mem := by simp
      nodup := List.nodup_nil
      decrypted := by simp }

/-- A payload that the calls carry has an entry in their log. -/
theorem carries_logged {aead : Aead} {key : Key} {terms : Terms}
    {sender : NegotiatedQuic rng} {calls : List SendCall} {payload : Bytes}
    {sequence : Nat} {datagram : Bytes}
    (hcarries : Carries aead sender calls payload sequence datagram)
    (hlogged : Logged aead key terms [] [] sender)
    (hoverhead : terms.overhead = shphAeadOverheadBytes)
    (hstart : sender.outbound.cover.lastObserved = 0)
    (htimes : (calls.map SendCall.elapsed).Pairwise (· ≤ ·)) :
    ∃ frames log, Logged aead key terms frames log
        (final (serve aead) sender calls) ∧
      ∃ entry ∈ log, entry.datagram = datagram ∧
        entry.frame.frameType = .data ∧ entry.frame.payload = payload ∧
        entry.frame.sequence = sequence := by
  obtain ⟨before, elapsed, path, after, rfl, hnumber, next, hsend, hsent⟩ :=
    hcarries
  rw [List.map_append, List.map_cons, List.pairwise_append,
    List.pairwise_cons] at htimes
  obtain ⟨hbefore, ⟨hlater, hafter⟩, hcross⟩ := htimes
  obtain ⟨first, sealed, hfirst, hobserved⟩ := serve_run aead before hlogged
    hoverhead hbefore (by simp [hstart])
  have hnow := hobserved elapsed
    (fun call hcall => hcross _ (List.mem_map_of_mem hcall) _
      List.mem_cons_self) (by simp [hstart])
  rcases send_progress aead hfirst payload path hnow with
    ⟨error, _, hcall, _⟩ |
    ⟨entry, other, hcall, hprogress, hdatagram, htype, hpayload, hsequence⟩
  · rw [hcall] at hsend
    simp at hsend
  · obtain rfl : other = next := (Prod.mk.inj (hcall.symm.trans hsend)).2
    obtain ⟨hend, middle, hmiddle⟩ := hprogress
    have hserve : (serve aead (final (serve aead) sender before)
        (.send payload elapsed path)).2 = other := by
      simp only [serve, hcall]
    obtain ⟨frames, rest, hfinal, _⟩ := serve_run aead after hmiddle hoverhead
      hafter fun call hcall =>
        hend.trans (hlater _ (List.mem_map_of_mem hcall))
    refine ⟨frames, [] ++ sealed ++ [entry] ++ rest, ?_, entry, ?_, ?_, htype,
      hpayload, ?_⟩
    · rw [final_append, final_cons, hserve]
      exact hfinal
    · simp
    · rw [hdatagram, List.append_cancel_left_eq] at hsent
      exact List.singleton_inj.mp hsent
    · rw [hfirst.ledger.produced.nextSequence_eq,
        checkedAdd_eq_some_iff] at hnumber
      rw [hsequence, hnumber.2]
      simp

section Session

variable (aead : Aead) (offer peer : EnvelopeOffer)
  (agreement mirrored : NegotiatedPolicy) (generation : UInt32)
  (senderSeed receiverSeed : rng.State) (key senderKey receiverKey : Key)
  (sender receiver : NegotiatedQuic rng) (calls : List SendCall)
  (taken rest : List Arrival) (arrival : Arrival)

/-- Under loss, reordering and duplication: repeated calls get to every
payload that arrives fresh and inside the window, and the call that takes it
returns it exactly if the receiver's connection carries the datagram and the
payloads received, this one included, allow for the cover received. -/
theorem recv_returns_payload_iff {payload datagram : Bytes} {sequence : Nat}
    (hagreement : offer.negotiate peer = .ok agreement)
    (hmirrored : peer.negotiate offer = .ok mirrored)
    (hsender : ofAgreement key senderKey generation agreement offer.cover
      senderSeed = .ok sender)
    (hreceiver : ofAgreement receiverKey key generation mirrored peer.cover
      receiverSeed = .ok receiver)
    (htimes : (calls.map SendCall.elapsed).Pairwise (· ≤ ·))
    (hdrawn : ∀ earlier ∈ taken, ∀ received,
      earlier.datagram = .ok received →
        received ∈ (final (serve aead) sender calls).sent)
    (hcarries : Carries aead sender calls payload sequence datagram)
    (harrival : arrival.datagram = .ok datagram)
    (hfresh : sequence ∉ (receiver.opened aead taken).map
      PhantomOneFrame.sequence)
    (hwindow : ∀ old ∈ (receiver.opened aead taken).map
      PhantomOneFrame.sequence, old < sequence + 64) :
    ∃ count current passed,
      final (recvCall aead) (receiver, taken ++ arrival :: rest)
          (List.replicate count ()) = (current, passed ++ arrival :: rest) ∧
        (current.recv aead (passed ++ arrival :: rest)).2.2 = rest ∧
        ((current.recv aead (passed ++ arrival :: rest)).1 =
            some (.ok payload) ↔
          let before := final (acceptDatagram aead) receiver taken
          arrival.Admits datagram.length ∧
            ∀ policy ∈ offer.cover, coverBudgetAllows policy
              (before.inbound.receivedUsage.payloadBytes + payload.length)
              before.receivedCover.bytes = true) := by
  obtain rfl : mirrored = agreement.swap := Except.ok.inj
    (hmirrored.symm.trans (EnvelopeOffer.negotiate_swap hagreement))
  obtain ⟨⟨_, _, hcover⟩, _, _, _, _, _, hpolicy⟩ :=
    EnvelopeOffer.negotiate_eq_ok_iff.mp hagreement
  rw [← hcover] at hreceiver
  obtain ⟨hvalid, hstart, hlogged⟩ := ofAgreement_logged aead hsender
  obtain ⟨frames, log, hfinal, entry, hentry, rfl, htype, rfl, rfl⟩ :=
    carries_logged hcarries hlogged rfl hstart htimes
  have hlimit : agreement.outboundFrameLimit ≤ phantomOneMaxEnvelopeBytes := by
    rw [hpolicy]
    exact Nat.le_of_lt_succ (UInt16.toNat_lt _)
  have hgenuine := hfinal.genuine hvalid hlimit
  rw [hfinal.sent_eq] at hdrawn
  obtain ⟨seen, hreceives, hseen⟩ := acceptDatagram_run hgenuine taken
    (ofAgreement_receives hreceiver log) hdrawn
  rw [List.nil_append] at hreceives
  rw [← hseen] at hfresh hwindow
  obtain ⟨result, hanswer, hiff⟩ := acceptDatagram_payload hgenuine hreceives
    hentry harrival htype ⟨hfresh, hwindow⟩
  obtain ⟨count, current, passed, hreached, htakes, hresult⟩ :=
    recv_reaches aead rest hanswer
  refine ⟨count, current, passed, hreached, htakes, ?_⟩
  rw [hresult, Option.some.injEq]
  exact hiff

end Session

end NegotiatedQuic

namespace NegotiatedQuicWitness

open NegotiatedQuic PhantomOneWitness

def policyKey : Key := FixedBytes.replicate 32 0x11

/-- Cover every 100 ms for five minutes, up to the size of the payloads. -/
def coverPolicy : CoverPolicy := ⟨100, 300000, 4096, 100⟩

def offer : EnvelopeOffer :=
  { EnvelopeWitness.offerOf 1172 with cover := some coverPolicy }

def agreement : NegotiatedPolicy :=
  ⟨EnvelopeWitness.config, 1172, 1172, .default, .default⟩

/-- Both ends of the negotiated session. -/
def quic : NegotiatedQuic rng where
  sent := []
  outbound :=
    { encoder := .fromValidatedConfig 0xAAAAAAAA 0 EnvelopeWitness.config ()
      outboundFrameLimit := 1172
      outboundBudget := .default
      sentUsage := .default
      cover := ⟨some coverPolicy, 0, none, none, 0, 0, false⟩ }
  inbound :=
    { decoder := ⟨0xAAAAAAAA, 64, EnvelopeWitness.config, none, 0, 0⟩
      inboundFrameLimit := 1172
      inboundBudget := .default
      receivedUsage := .default
      coverPolicy := some coverPolicy }
  sendCipher := SendCipher.new policyKey
  recvCipher := ReceiveCipher.newWithReplayWindow policyKey 64
  receivedCover := ⟨0⟩

theorem negotiate_eq : offer.negotiate offer = .ok agreement := by
  decide

theorem ofAgreement_eq : ofAgreement policyKey policyKey 0xAAAAAAAA agreement
    offer.cover () = .ok quic := by
  rfl

def hello : Bytes := [104, 101, 108, 108, 111]

/-- A path for datagrams of 1200 bytes. -/
def path : SendPath := ⟨some 1200, some 1200, .ok ()⟩

/-- The envelope of `hello` as the first frame of the session, and its
ciphertext under nonce zero. -/
def helloEnvelope : Bytes :=
  [80, 72, 49, 0, 1, 1, 170, 170, 170, 170, 1, 0, 0, 0, 0, 0, 0, 0, 0, 0, 5, 0,
    29, 0, 104, 101, 108, 108, 111]

def helloCiphertext : Bytes :=
  [245, 244, 166, 150, 120, 152, 57, 243, 109, 232, 73, 2, 234, 47, 23, 62,
    161, 49, 48, 6, 9, 57, 16, 240, 83, 13, 166, 10, 94, 181, 210, 158, 1, 125,
    114, 163, 13, 182, 114, 89, 211, 179, 43, 82, 169]

def aead : Aead :=
  Aead.single policyKey (nonceBytes 0) helloEnvelope helloCiphertext rfl

def helloDatagram : Bytes := (nonceBytes 0).val ++ helloCiphertext

def helloArrival : Arrival := ⟨.ok helloDatagram, some 1200⟩

/-- With nothing else on the way, the payload is returned. -/
theorem recv_returns_payload_iff_hello :
    Carries aead quic [.send hello 5 path] hello 0 helloDatagram ∧
      ∃ count current passed,
        final (recvCall aead) (quic, [] ++ helloArrival :: [])
            (List.replicate count ()) =
              (current, passed ++ helloArrival :: []) ∧
          (current.recv aead (passed ++ helloArrival :: [])).1 =
            some (.ok hello) := by
  have hsend : (quic.send aead hello 5 path).1 = .ok () ∧
      (quic.send aead hello 5 path).2.sent = [helloDatagram] := by
    decide +kernel
  have hcarries : Carries aead quic [.send hello 5 path] hello 0
      helloDatagram :=
    ⟨[], 5, path, [], rfl, rfl, (quic.send aead hello 5 path).2,
      Prod.ext hsend.1 rfl, hsend.2⟩
  refine ⟨hcarries, ?_⟩
  obtain ⟨count, current, passed, hreached, _, hiff⟩ :=
    recv_returns_payload_iff aead offer offer agreement agreement 0xAAAAAAAA ()
      () policyKey policyKey policyKey quic quic [.send hello 5 path] [] []
      helloArrival negotiate_eq negotiate_eq ofAgreement_eq ofAgreement_eq
      (by simp) (by simp) hcarries rfl (by simp [opened]) (by simp [opened])
  refine ⟨count, current, passed, hreached, hiff.mpr ⟨?_, ?_⟩⟩
  · exact ⟨1200, rfl, by decide⟩
  · intro policy hpolicy
    obtain rfl := Option.some.inj hpolicy
    rfl

/-- Only the lengths of the datagrams matter below. -/
def clear : Aead := .tagged

/-- A payload of 100 bytes, the cover it pays for, and another payload. -/
def payingCalls : List SendCall :=
  [.send (List.replicate 100 0) 0 path,
    .sendCoverIfDue ⟨10 ^ 8, false, false, false⟩ path]

def lossCalls : List SendCall :=
  payingCalls ++ .send hello (2 * 10 ^ 8) path :: []

/-- The datagrams of the cover frame and of `hello`. -/
def coverDatagram : Bytes :=
  (nonceBytes 1).val ++ [80, 72, 49, 0, 1, 1, 170, 170, 170, 170, 3, 0, 0, 0,
    0, 0, 0, 0, 1, 0, 1, 0, 25, 0, 0] ++ List.replicate 16 0

def lateDatagram : Bytes :=
  (nonceBytes 2).val ++ [80, 72, 49, 0, 1, 1, 170, 170, 170, 170, 1, 0, 0, 0,
    0, 0, 0, 0, 2, 0, 5, 0, 29, 0, 104, 101, 108, 108, 111] ++
    List.replicate 16 0

/-- The first datagram is lost. -/
def coverArrival : Arrival := ⟨.ok coverDatagram, some 1200⟩

def lateArrival : Arrival := ⟨.ok lateDatagram, some 1200⟩

theorem late_carried : Carries clear quic lossCalls hello 2 lateDatagram := by
  have hsend : let current := final (serve clear) quic payingCalls
      current.outbound.encoder.nextSequence = some 2 ∧
        (current.send clear hello (2 * 10 ^ 8) path).1 = .ok () ∧
        (current.send clear hello (2 * 10 ^ 8) path).2.sent =
          current.sent ++ [lateDatagram] := by
    decide +kernel
  refine ⟨payingCalls, 2 * 10 ^ 8, path, [], rfl, ?_⟩
  generalize final (serve clear) quic payingCalls = current at hsend ⊢
  exact ⟨hsend.1, _, Prod.ext hsend.2.1 rfl, hsend.2.2⟩

/-- The loss of the payload that paid for a cover frame makes the receiver
refuse the next payload, which is fresh and inside the window. -/
theorem recv_refuses_payload_after_loss :
    offer.negotiate offer = .ok agreement ∧
      ofAgreement policyKey policyKey 0xAAAAAAAA agreement offer.cover () =
        .ok quic ∧
      (lossCalls.map SendCall.elapsed).Pairwise (· ≤ ·) ∧
      (final (serve clear) quic lossCalls).sent.drop 1 =
        [coverDatagram, lateDatagram] ∧
      Carries clear quic lossCalls hello 2 lateDatagram ∧
      (quic.opened clear [coverArrival]).map PhantomOneFrame.sequence = [1] ∧
      lateArrival.Admits lateDatagram.length ∧
      (quic.recv clear [coverArrival, lateArrival]).1 =
        some (.error
          (.protocol "cover traffic exceeds relative policy budget")) := by
  refine ⟨negotiate_eq, ofAgreement_eq, by decide, by decide +kernel, ?_,
    by decide +kernel, ⟨1200, rfl, by decide⟩, by decide +kernel⟩
  exact late_carried

end NegotiatedQuicWitness

end Shph
