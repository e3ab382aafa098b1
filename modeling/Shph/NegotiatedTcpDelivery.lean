/-
A negotiated TCP session between honest ends: the payloads that one end sends
come back at the other end in order, whatever cover frames stand in between.
-/
import Shph.EnvelopeAgreement
import Shph.NegotiatedLedger
import Shph.TcpSession

namespace Shph

open ByteCodec StatefulRun SlidingWindow SentFrame
theorem SameEnvelope.mono {rng : Rng} {sent more : Nat}
    {profile receiverProfile : Option ProfileTier}
    {padder : Option (ProfilePadder rng)}
    {encoder : Option (PhantomOneEncoder rng)}
    {decoder : Option PhantomOneDecoder}
    (hsame : SameEnvelope sent profile padder encoder receiverProfile decoder)
    (hle : sent ≤ more) :
    SameEnvelope more profile padder encoder receiverProfile decoder := by
  cases hsame with
  | plain => exact .plain padder
  | legacy padder => exact .legacy padder
  | phantomOne _ tier generation frames encoder decoder hlength hproduced
      hrepresents =>
      exact .phantomOne padder tier generation frames encoder decoder
        (hlength.trans hle) hproduced hrepresents

namespace SecureTcpSession

variable {rng : Rng} {aead : Aead} {key : Key}

/-- A session that leaves its envelopes to the layer above, in step with its
receiver. -/
structure Linked (key : Key) (sender : SecureTcpSession rng)
    (opener : FrameOpener) : Prop where
  profile : sender.paddingProfile = none
  encoder : sender.phantomOneEncoder = none
  synced : Synced key sender opener

theorem writeFrame_keeps (session : SecureTcpSession rng) (body : Bytes) :
    (session.writeFrame body).2 =
      { session with stream := (session.writeFrame body).2.stream } := by
  unfold writeFrame
  split
  · split
    · rfl
    · rfl
  · rfl

/-- A send moves nothing but the stream and the nonce, and the nonce only
forward. -/
theorem sendFrame_keeps (aead : Aead) {session : SecureTcpSession rng}
    (hprofile : session.paddingProfile = none)
    (hencoder : session.phantomOneEncoder = none) (payload : Bytes) :
    ∃ stream nonce, session.sendCipher.nonce ≤ nonce ∧
      (session.sendFrame aead payload).2 =
        { session with
          stream := stream
          sendCipher := { session.sendCipher with nonce := nonce } } := by
  unfold sendFrame
  cases session.checkSend payload with
  | error error => exact ⟨session.stream, _, Nat.le_refl _, rfl⟩
  | ok checked =>
      have hframed : session.framed payload = (.ok payload, session) := by
        simp only [framed, hprofile, hencoder]
      simp only [hframed]
      rcases session.sendCipher.encrypt_cases aead payload with
        ⟨error, hcall⟩ | ⟨ciphertext, _, _, hcall⟩
      · simp only [hcall]
        exact ⟨session.stream, _, Nat.le_refl _, rfl⟩
      · simp only [hcall]
        rw [writeFrame_keeps]
        exact ⟨_, _, Nat.le_succ _, rfl⟩

theorem Linked.send_failed {sender : SecureTcpSession rng}
    {opener : FrameOpener} (hlinked : Linked key sender opener) (aead : Aead)
    (payload : Bytes) :
    sender.sendCipher.nonce ≤
        (sender.sendFrame aead payload).2.sendCipher.nonce ∧
      Linked key (sender.sendFrame aead payload).2 opener := by
  obtain ⟨stream, nonce, hnonce, hnext⟩ := sendFrame_keeps aead
    hlinked.profile hlinked.encoder payload
  obtain ⟨last, hstrict, hbelow⟩ := hlinked.synced.replay
  rw [hnext]
  refine ⟨hnonce, hlinked.profile, hlinked.encoder, hlinked.synced.sendKey,
    hlinked.synced.recvKey, ⟨last, hstrict, ?_⟩,
    hlinked.synced.envelope.mono hnonce⟩
  intro counter hcounter
  exact (hbelow counter hcounter).trans_le hnonce

theorem Linked.send_ok {sender next : SecureTcpSession rng}
    {opener : FrameOpener} (hlinked : Linked key sender opener)
    {payload : Bytes} (hok : sender.sendFrame aead payload = (.ok (), next)) :
    ∃ body after, 0 < body.length ∧ body.length ≤ maxFrameBytes ∧
      next.stream.outgoing = sender.stream.outgoing ++ wireOf body ∧
      opener.openBody aead body = (.ok payload, after) ∧
      Linked key next after ∧
      next.sendCipher.nonce = sender.sendCipher.nonce + 1 ∧
      next.sendCipher.nonce ≤ aeadNonceLimit := by
  obtain ⟨body, after, hpos, hmax, hout, hopened, hsynced⟩ :=
    sendFrame_synced hlinked.synced hok
  obtain ⟨_, middle, _, _, hframed, hlimit, _, _, hmoved⟩ := sendFrame_ok hok
  obtain ⟨hcipher, _⟩ := sender.framed_keeps payload
  rw [hframed] at hcipher
  change middle.sendCipher = sender.sendCipher at hcipher
  have hnonce : next.sendCipher.nonce = sender.sendCipher.nonce + 1 := by
    rw [hmoved, ← hcipher]
  rw [hcipher] at hlimit
  obtain ⟨stream, nonce, _, hnext⟩ := sendFrame_keeps aead hlinked.profile
    hlinked.encoder payload
  rw [hok] at hnext
  change next = _ at hnext
  refine ⟨body, after, hpos, hmax, hout, hopened, ⟨?_, ?_, hsynced⟩, hnonce,
    by omega⟩
  · rw [hnext]
    exact hlinked.profile
  · rw [hnext]
    exact hlinked.encoder

end SecureTcpSession

/-- What a frame carries to the application: its payload, or nothing if it is
cover. -/
def SentFrame.content (frame : SentFrame) : Option Bytes :=
  if frame.frameType = .data then some frame.payload else none

namespace NegotiatedTcp

variable {rng : Rng}

inductive SendCall where
  | send (payload : Bytes) (elapsed : Nat)
  | sendCoverIfDue (request : CoverRequest)
deriving Repr, DecidableEq

def SendCall.elapsed : SendCall → Nat
  | send _ elapsed => elapsed
  | sendCoverIfDue request => request.elapsed

inductive SendAnswer where
  | sent (result : Except ShphError Unit)
  | covered (result : Option (Except ShphError Bool))

def serve (aead : Aead) (tcp : NegotiatedTcp rng) :
    SendCall → SendAnswer × NegotiatedTcp rng
  | .send payload elapsed =>
      let (result, tcp) := tcp.send aead payload elapsed
      (.sent result, tcp)
  | .sendCoverIfDue request =>
      let (result, tcp) := tcp.sendCoverIfDue aead request
      (.covered result, tcp)

/-- The content of the frame that a successful call sent, if it sent one. -/
def emission : SendCall × SendAnswer → Option (Option Bytes)
  | (.send payload _, .sent (.ok ())) => some (some payload)
  | (.sendCoverIfDue _, .covered (some (.ok true))) => some none
  | _ => none

/-- The contents of the frames of a run, in the order in which they were
sent. -/
def emissions (aead : Aead) (tcp : NegotiatedTcp rng)
    (calls : List SendCall) : List (Option Bytes) :=
  (trace (serve aead) tcp calls).filterMap emission

/-- The bytes of the frames of a run. -/
def emittedWire (aead : Aead) : NegotiatedTcp rng → List SendCall → Bytes
  | _, [] => []
  | tcp, call :: rest =>
      let (answer, next) := tcp.serve aead call
      (if (emission (call, answer)).isSome then
        next.session.stream.outgoing.drop tcp.session.stream.outgoing.length
      else []) ++ emittedWire aead next rest

open OutboundPolicy SecureTcpSession

/-- The bodies of frames on the wire, with the envelopes they open to. -/
def wireFrames (terms : Terms) (coming : List (Bytes × SentFrame)) :
    List (Bytes × Bytes) :=
  coming.map fun entry =>
    (entry.1, entry.2.bytes terms.config terms.generation)

/-- What one call can do: it sends no frame, or it sends the next frame of the
books and the receiver's opener can take it. -/
inductive Served (aead : Aead) (key : Key) (terms : Terms)
    (sent : List SentFrame) (tcp next : NegotiatedTcp rng)
    (opener : FrameOpener) : Option (Option Bytes) → Prop where
  | silent (more : List (EncodeCall × SentFrame))
      (hledger : Ledger terms more sent next.outbound)
      (hlinked : Linked key next.session opener)
      (hnonce : tcp.session.sendCipher.nonce ≤
        next.session.sendCipher.nonce) :
      Served aead key terms sent tcp next opener none
  | emitted (frame : SentFrame) (more : List (EncodeCall × SentFrame))
      (body : Bytes) (after : FrameOpener)
      (hledger : Ledger terms more (sent ++ [frame]) next.outbound)
      (hpos : 0 < body.length) (hmax : body.length ≤ maxFrameBytes)
      (hout : next.session.stream.outgoing =
        tcp.session.stream.outgoing ++ wireOf body)
      (hopened : opener.openBody aead body =
        (.ok (frame.bytes terms.config terms.generation), after))
      (hlinked : Linked key next.session after)
      (hnonce : next.session.sendCipher.nonce =
        tcp.session.sendCipher.nonce + 1)
      (hcap : next.session.sendCipher.nonce ≤ aeadNonceLimit) :
      Served aead key terms sent tcp next opener (some frame.content)

section Sender

variable (aead : Aead) {key : Key} {terms : Terms}
  {frames : List (EncodeCall × SentFrame)} {sent : List SentFrame}
  {tcp : NegotiatedTcp rng} {opener : FrameOpener}

theorem send_served (hledger : Ledger terms frames sent tcp.outbound)
    (hlinked : Linked key tcp.session opener) (payload : Bytes)
    {elapsed : Nat} (hnow : tcp.outbound.cover.lastObserved ≤ elapsed) :
    (tcp.send aead payload elapsed).2.outbound.cover.lastObserved ≤ elapsed ∧
      Served aead key terms sent tcp (tcp.send aead payload elapsed).2 opener
        (emission (.send payload elapsed,
          .sent (tcp.send aead payload elapsed).1)) := by
  unfold send
  rcases encodePayload_cases hledger payload hledger.limit_eq.le with
    ⟨error, more, outbound, hcall, hcover, _, hnext⟩ |
    ⟨frame, call, outbound, hcall, htype, hpayload, hcover, hready⟩
  · rw [hcall]
    refine ⟨?_, .silent more hnext hlinked (Nat.le_refl _)⟩
    change outbound.cover.lastObserved ≤ elapsed
    rw [hcover]
    exact hnow
  · rw [hcall]
    rw [← hcover] at hnow
    dsimp only
    cases hsend : tcp.session.sendFrame aead
        (frame.bytes terms.config terms.generation) with
    | mk result session =>
        cases result with
        | error error =>
            have hfailed := hlinked.send_failed aead
              (frame.bytes terms.config terms.generation)
            rw [hsend] at hfailed
            exact ⟨hnow, .silent _ hready.ledger hfailed.2 hfailed.1⟩
        | ok done =>
            obtain ⟨body, after, hpos, hmax, hout, hopened, hafter,
              hnonce, hcap⟩ := hlinked.send_ok hsend
            obtain ⟨next, hrecord, hobserved, hrecorded⟩ :=
              hready.record htype hpayload hnow
            rw [hrecord]
            have hcontent : some payload = frame.content := by
              rw [content, if_pos htype, hpayload]
            refine ⟨hobserved.le, ?_⟩
            change Served _ _ _ _ _ _ _ (some (some payload))
            rw [hcontent]
            exact .emitted frame _ body after hrecorded hpos hmax hout
              hopened hafter hnonce hcap

/-- What counting and encoding a granted cover frame can do. -/
theorem encodeCover_cases {outbound : OutboundPolicy rng}
    (hledger : Ledger terms frames sent outbound) {target : Nat}
    (haffords : Affords terms sent target outbound)
    (hoverhead : terms.overhead < 2 ^ 32) :
    (∃ error next, encodeCover outbound target = (.error error, next) ∧
        next.cover = outbound.cover ∧ Ledger terms frames sent next) ∨
      ∃ frame more next, encodeCover outbound target =
          (.ok (frame.bytes terms.config terms.generation), next) ∧
        frame.frameType = .keepalive ∧ next.cover = outbound.cover ∧
        Ready terms more sent frame next := by
  unfold encodeCover
  cases hreserve : outbound.sentUsage.reserve outbound.outboundBudget 0 with
  | error error => exact Or.inl ⟨error, outbound, rfl, rfl, hledger⟩
  | ok usage =>
      rw [hledger.budget_eq] at hreserve
      rcases outbound.encoder.encodeWithTarget_cases .keepalive [0] target
          outbound.outboundFrameLimit with
        ⟨error, encoder, hcall, hsame⟩ |
        ⟨frame, encoder, hcall, htype, hpayload, hemits⟩
      · simp only [hcall]
        refine Or.inl ⟨error, _, rfl, rfl, ?_⟩
        obtain ⟨hframes, hbytes, rfl⟩ :=
          FrameUsage.reserve_eq_ok_iff.mp hreserve
        exact hledger.with_encoder (hledger.produced.of_same hsame)
          hledger.sublist ⟨Nat.le_succ _, hframes⟩
          ⟨Nat.le_add_right _ _, hbytes⟩
      · obtain ⟨hlength, hlimit⟩ :=
          PhantomOneEncoder.encodeWithTarget_length hcall
        rw [bytes_length] at hlength
        rw [hledger.limit_eq] at hlimit
        have hready := hledger.ready_cover terms.frameLimit haffords hoverhead
          htype hpayload hemits hlength hlimit hreserve
        simp only [hcall]
        rw [hledger.produced.config_eq, hledger.produced.generation_eq]
        exact Or.inr ⟨frame, _, _, rfl, htype, rfl, hready⟩

theorem sendCoverIfDue_served
    (hledger : Ledger terms frames sent tcp.outbound)
    (hlinked : Linked key tcp.session opener)
    (hoverhead : terms.overhead = tcpCoverOverhead) (request : CoverRequest)
    (hnow : tcp.outbound.cover.lastObserved ≤ request.elapsed) :
    (tcp.sendCoverIfDue aead request).2.outbound.cover.lastObserved ≤
        request.elapsed ∧
      Served aead key terms sent tcp (tcp.sendCoverIfDue aead request).2 opener
        (emission (.sendCoverIfDue request,
          .covered (tcp.sendCoverIfDue aead request).1)) := by
  have hpos : 0 < terms.overhead := by
    rw [hoverhead]
    decide
  have hsmall : terms.overhead < 2 ^ 32 := by
    rw [hoverhead]
    decide
  unfold sendCoverIfDue
  rw [← hoverhead]
  rcases planCover_cases hledger hpos tcp.outbound.outboundFrameLimit request
      hnow with
    ⟨answer, outbound, hcall, hnone, htime, hnext⟩ |
    ⟨target, outbound, hcall, htime, hnext, haffords⟩
  · rw [hcall]
    cases answer with
    | error error => exact ⟨htime, .silent frames hnext hlinked (Nat.le_refl _)⟩
    | ok due =>
        cases due with
        | none => exact ⟨htime, .silent frames hnext hlinked (Nat.le_refl _)⟩
        | some target => exact absurd rfl (hnone target)
  · rw [hcall]
    dsimp only
    rcases encodeCover_cases hnext haffords hsmall with
      ⟨error, next, hencode, hcover, hkept⟩ |
      ⟨frame, more, next, hencode, htype, hcover, hready⟩
    · rw [hencode]
      refine ⟨?_, .silent frames hkept hlinked (Nat.le_refl _)⟩
      change next.cover.lastObserved ≤ request.elapsed
      rw [hcover]
      exact htime
    · rw [hencode]
      rw [← hcover] at htime
      dsimp only
      cases hsend : tcp.session.sendFrame aead
          (frame.bytes terms.config terms.generation) with
      | mk result session =>
          cases result with
          | error error =>
              have hfailed := hlinked.send_failed aead
                (frame.bytes terms.config terms.generation)
              rw [hsend] at hfailed
              exact ⟨htime, .silent more hready.ledger hfailed.2 hfailed.1⟩
          | ok done =>
              obtain ⟨body, after, hbody, hmax, hout, hopened, hafter,
                hnonce, hcap⟩ := hlinked.send_ok hsend
              have hcontent : none = frame.content := by
                simp [content, htype]
              refine ⟨htime, ?_⟩
              change Served _ _ _ _ _ _ _ (some none)
              rw [hcontent]
              exact .emitted frame more body after hready.hand_over hbody hmax
                hout hopened hafter hnonce hcap

theorem serve_served (hledger : Ledger terms frames sent tcp.outbound)
    (hlinked : Linked key tcp.session opener)
    (hoverhead : terms.overhead = tcpCoverOverhead) (call : SendCall)
    (hnow : tcp.outbound.cover.lastObserved ≤ call.elapsed) :
    (tcp.serve aead call).2.outbound.cover.lastObserved ≤ call.elapsed ∧
      Served aead key terms sent tcp (tcp.serve aead call).2 opener
        (emission (call, (tcp.serve aead call).1)) := by
  cases call with
  | send payload elapsed => exact send_served aead hledger hlinked payload hnow
  | sendCoverIfDue request =>
      exact sendCoverIfDue_served aead hledger hlinked hoverhead request hnow

/-- A run of calls at times that do not go back: the books are kept, and the
receiver opens the frames one after the other. -/
theorem serve_run (calls : List SendCall)
    (hledger : Ledger terms frames sent tcp.outbound)
    (hlinked : Linked key tcp.session opener)
    (hoverhead : terms.overhead = tcpCoverOverhead)
    (htimes : (calls.map SendCall.elapsed).Pairwise (· ≤ ·))
    (hnow : ∀ call ∈ calls, tcp.outbound.cover.lastObserved ≤ call.elapsed) :
    ∃ (more : List (EncodeCall × SentFrame))
        (coming : List (Bytes × SentFrame)),
      Ledger terms more (sent ++ coming.map Prod.snd)
        (final (serve aead) tcp calls).outbound ∧
      Opens aead opener (wireFrames terms coming) ∧
      emittedWire aead tcp calls = wires (wireFrames terms coming) ∧
      emissions aead tcp calls =
        (coming.map fun entry => entry.2.content) ∧
      (coming = [] ∨ tcp.session.sendCipher.nonce + coming.length ≤
        aeadNonceLimit) := by
  induction calls generalizing frames sent tcp opener with
  | nil =>
      refine ⟨frames, [], ?_, hlinked.synced.exclusive, rfl, rfl, Or.inl rfl⟩
      rw [List.map_nil, List.append_nil]
      exact hledger
  | cons call calls ih =>
      rw [List.map_cons, List.pairwise_cons] at htimes
      obtain ⟨hcall, hrest⟩ := List.forall_mem_cons.mp hnow
      obtain ⟨htime, hserved⟩ := serve_served aead hledger hlinked hoverhead
        call hcall
      have hlater : ∀ later ∈ calls,
          (tcp.serve aead call).2.outbound.cover.lastObserved ≤
            later.elapsed :=
        fun later hmem =>
          htime.trans (htimes.1 _ (List.mem_map_of_mem hmem))
      generalize hemission : emission (call, (tcp.serve aead call).1) =
        content at hserved
      have hwire : emittedWire aead tcp (call :: calls) =
          (if content.isSome then
            (tcp.serve aead call).2.session.stream.outgoing.drop
              tcp.session.stream.outgoing.length
          else []) ++ emittedWire aead (tcp.serve aead call).2 calls := by
        rw [← hemission]
        rfl
      have hcontents : emissions aead tcp (call :: calls) =
          content.toList ++ emissions aead (tcp.serve aead call).2 calls := by
        rw [emissions, trace_cons, List.filterMap_cons, hemission]
        cases content <;> rfl
      rw [hwire, hcontents]
      cases hserved with
      | silent more hnext hlink hnonce =>
          obtain ⟨all, coming, hbooks, hopens, hbytes, hemitted, hcount⟩ :=
            ih hnext hlink htimes.2 hlater
          exact ⟨all, coming, hbooks, hopens, hbytes, hemitted,
            hcount.imp_right (Nat.add_le_add_right hnonce _).trans⟩
      | emitted frame more body after hnext hpos hmax hout hopened hlink hnonce
          hcap =>
          obtain ⟨all, coming, hbooks, hopens, hbytes, hemitted, hcount⟩ :=
            ih hnext hlink htimes.2 hlater
          refine ⟨all, (body, frame) :: coming, ?_, ?_, ?_, ?_, Or.inr ?_⟩
          · rw [List.append_assoc] at hbooks
            exact hbooks
          · exact ⟨hlinked.synced.exclusive, hpos, hmax, after, hopened,
              hopens⟩
          · rw [hbytes, hout]
            simp [wireFrames]
          · rw [hemitted]
            rfl
          · rw [List.length_cons]
            rcases hcount with rfl | hcount
            · simp only [List.length_nil]
              omega
            · omega

end Sender

/-- The receiver's counters after it took these frames. -/
structure Counted (terms : Terms) (seen : List SentFrame)
    (tcp : NegotiatedTcp rng) : Prop where
  limit_eq : tcp.inbound.inboundFrameLimit = terms.frameLimit
  budget_eq : tcp.inbound.inboundBudget = terms.budget
  policy_eq : tcp.inbound.coverPolicy = terms.coverPolicy
  decoder : PhantomOneDecoder.Represents terms.config terms.generation
    phantomOneDefaultReplayWindow seen tcp.inbound.decoder
  usage_eq : tcp.inbound.receivedUsage = ⟨seen.length, dataBytes seen⟩
  cover_eq : tcp.receivedCoverBytes = coverCost terms.overhead seen

section Receiver

variable {terms : Terms} {seen rest : List SentFrame} {frame : SentFrame}
  {tcp : NegotiatedTcp rng}

/-- The next frame of an honest sender passes every check of the decoder. -/
theorem decode_next {decoder : PhantomOneDecoder}
    (hrepresents : PhantomOneDecoder.Represents terms.config terms.generation
      phantomOneDefaultReplayWindow seen decoder)
    (honest : Honest terms (seen ++ frame :: rest)) :
    ∃ next, decoder.decode (frame.bytes terms.config terms.generation)
        terms.frameLimit =
          (.ok (frame.decoded terms.config terms.generation), next) ∧
      PhantomOneDecoder.Represents terms.config terms.generation
        phantomOneDefaultReplayWindow (seen ++ [frame]) next := by
  have hmem : frame ∈ seen ++ frame :: rest := by simp
  have hadmissible : Admissible phantomOneDefaultReplayWindow
      (seen.map sequence) frame.sequence := by
    have hincreasing := honest.increasing
    rw [List.map_append, List.map_cons, List.pairwise_append] at hincreasing
    have hbelow : ∀ old ∈ seen.map sequence,
        old < frame.sequence :=
      fun old hold => hincreasing.2.2 old hold _ List.mem_cons_self
    constructor
    · intro hold
      exact absurd (hbelow _ hold) (Nat.lt_irrefl _)
    · intro old hold
      exact (hbelow old hold).trans_le (Nat.le_add_right _ _)
  have hpadding : PhantomOneDecoder.PaddingFits terms.config seen frame := by
    have hsublist : (seen ++ [frame]).Sublist (seen ++ frame :: rest) :=
      (List.sublist_append_left [frame] rest).append_left seen
    have hle := totalPadding_le_of_subperm hsublist.subperm
    exact ⟨hle.trans honest.padding_le.1, fun budget hbudget =>
      hle.trans (honest.padding_le.2 budget hbudget)⟩
  exact (PhantomOneDecoder.decode_sent hrepresents honest.valid
    (honest.fits frame hmem) (honest.target_le frame hmem)
    honest.limit_le).1 ⟨hadmissible, hpadding⟩

/-- The budget of the direction has room for the next frame. -/
theorem reserve_next (honest : Honest terms (seen ++ frame :: rest)) :
    (⟨seen.length, dataBytes seen⟩ : FrameUsage).reserve terms.budget
        frame.dataLen =
      .ok ⟨(seen ++ [frame]).length, dataBytes (seen ++ [frame])⟩ := by
  rw [FrameUsage.reserve_eq_ok_iff, dataBytes_snoc, List.length_append,
    List.length_singleton]
  have hframes := honest.frames_le
  have hpayload := honest.payload_le
  rw [List.length_append, List.length_cons] at hframes
  rw [List.append_cons, dataBytes_append, dataBytes_snoc] at hpayload
  dsimp only
  exact ⟨by omega, by omega, rfl⟩

theorem acceptCover_next (hcounted : Counted terms seen tcp)
    (honest : Honest terms (seen ++ frame :: rest))
    (hoverhead : terms.overhead = tcpCoverOverhead)
    {decoder : PhantomOneDecoder}
    (hrepresents : PhantomOneDecoder.Represents terms.config terms.generation
      phantomOneDefaultReplayWindow (seen ++ [frame]) decoder)
    (htype : frame.frameType = .keepalive) (hpayload : frame.payload = [0]) :
    ∃ next, { tcp with inbound := { tcp.inbound with
          decoder := decoder } }.acceptCover
        (frame.decoded terms.config terms.generation) frame.targetLen =
          (none, next) ∧
      Counted terms (seen ++ [frame]) next ∧ next.session = tcp.session := by
  obtain ⟨policy, hpolicy, hpaid⟩ := honest.paid seen frame rest rfl htype
  have hreserve := reserve_next honest
  rw [dataLen_of_keepalive htype, ← hcounted.usage_eq,
    ← hcounted.budget_eq] at hreserve
  have hcost : coverCost terms.overhead (seen ++ [frame]) =
      coverCost terms.overhead seen + (frame.targetLen + tcpCoverOverhead) := by
    rw [coverCost_snoc, coverLen_of_keepalive _ htype, hoverhead]
  have hword := allowance_le policy (dataBytes seen)
  have hcover : saturatingAdd tcp.receivedCoverBytes
      (frame.targetLen + tcpCoverOverhead) =
        coverCost terms.overhead (seen ++ [frame]) := by
    rw [hcounted.cover_eq, hcost]
    rw [hcost] at hpaid
    simp only [saturatingAdd]
    omega
  have hbytes : dataBytes (seen ++ [frame]) = dataBytes seen := by
    rw [dataBytes_snoc, dataLen_of_keepalive htype, Nat.add_zero]
  have hsettled : tcp.inbound.coverPolicy = some policy := by
    rw [hcounted.policy_eq]
    exact hpolicy
  have hallows : coverBudgetAllows policy (dataBytes (seen ++ [frame]))
      (coverCost terms.overhead (seen ++ [frame])) = true := by
    rw [hbytes]
    exact decide_eq_true hpaid
  simp only [acceptCover, hsettled, hreserve, hcover, hallows,
    decoded, hpayload, ne_eq, not_true_eq_false, or_self,
    if_false]
  refine ⟨_, rfl, ?_, rfl⟩
  exact
    { limit_eq := hcounted.limit_eq
      budget_eq := hcounted.budget_eq
      policy_eq := hsettled.symm.trans hcounted.policy_eq
      decoder := hrepresents
      usage_eq := rfl
      cover_eq := rfl }

/-- One turn of `recv` on the next frame of an honest sender: a payload ends
the call, a cover frame does not. -/
theorem acceptEnvelope_next (hcounted : Counted terms seen tcp)
    (honest : Honest terms (seen ++ frame :: rest))
    (hoverhead : terms.overhead = tcpCoverOverhead) :
    ∃ next, tcp.acceptEnvelope (frame.bytes terms.config terms.generation) =
        (frame.content.map .ok, next) ∧
      Counted terms (seen ++ [frame]) next ∧ next.session = tcp.session := by
  obtain ⟨decoder, hdecode, hrepresents⟩ :=
    decode_next hcounted.decoder honest
  unfold acceptEnvelope
  rw [hcounted.limit_eq, hdecode]
  rcases honest.regular frame (by simp) with htype | ⟨htype, hpayload⟩
  · have hreserve := reserve_next honest
    rw [dataLen_of_data htype, ← hcounted.usage_eq,
      ← hcounted.budget_eq] at hreserve
    simp only [decoded, htype, acceptData, hreserve,
      content, if_true, Option.map_some]
    refine ⟨_, rfl, ?_, rfl⟩
    exact
      { limit_eq := hcounted.limit_eq
        budget_eq := hcounted.budget_eq
        policy_eq := hcounted.policy_eq
        decoder := hrepresents
        usage_eq := rfl
        cover_eq := by
          rw [coverCost_snoc, coverLen_of_data _ htype, Nat.add_zero]
          exact hcounted.cover_eq }
  · obtain ⟨next, haccept, hnext, hsession⟩ := acceptCover_next hcounted honest
      hoverhead hrepresents htype hpayload
    have hcontent : frame.content = none := by
      simp [content, htype]
    refine ⟨next, ?_, hnext, hsession⟩
    rw [hcontent, ← bytes_length terms.config terms.generation frame]
      at *
    simp only [decoded, htype] at haccept ⊢
    exact haccept

theorem Counted.with_session (hcounted : Counted terms seen tcp)
    (session : SecureTcpSession rng) :
    Counted terms seen { tcp with session := session } :=
  ⟨hcounted.limit_eq, hcounted.budget_eq, hcounted.policy_eq,
    hcounted.decoder, hcounted.usage_eq, hcounted.cover_eq⟩

end Receiver

/-- A receiver that took `seen` and still has `coming` on the wire. -/
structure Expecting (aead : Aead) (terms : Terms) (seen : List SentFrame)
    (coming : List (Bytes × SentFrame)) (tcp : NegotiatedTcp rng) : Prop where
  counted : Counted terms seen tcp
  opens : Opens aead tcp.session.opener (wireFrames terms coming)
  buffered : TcpFrameReader.Buffered tcp.session.frameReader
    tcp.session.stream.incoming (wireFrames terms coming)
  quiet : ∀ event ∈ tcp.session.stream.reads, event.quiet = true

/-- How a `recv` call of so many turns ends that took these frames: with the
payload of the last one, with a timeout, or with the error of a call that met
cover frames only. -/
inductive RecvEnd (turns : Nat) :
    List (Bytes × SentFrame) → Except ShphError Bytes → Prop where
  | delivered (covers : List (Bytes × SentFrame)) (body : Bytes)
      (frame : SentFrame) (payload : Bytes)
      (hcovers : ∀ entry ∈ covers, entry.2.content = none)
      (hfew : covers.length < turns)
      (hcontent : frame.content = some payload) :
      RecvEnd turns (covers ++ [(body, frame)]) (.ok payload)
  | timedOut (covers : List (Bytes × SentFrame))
      (hcovers : ∀ entry ∈ covers, entry.2.content = none)
      (hfew : covers.length < turns) :
      RecvEnd turns covers (.error .timeout)
  | exhausted (covers : List (Bytes × SentFrame))
      (hcovers : ∀ entry ∈ covers, entry.2.content = none)
      (hlength : covers.length = turns) :
      RecvEnd turns covers (.error tooManyCoverFrames)

theorem RecvEnd.cons {turns : Nat} {taken : List (Bytes × SentFrame)}
    {result : Except ShphError Bytes} (hend : RecvEnd turns taken result)
    {entry : Bytes × SentFrame} (hentry : entry.2.content = none) :
    RecvEnd (turns + 1) (entry :: taken) result := by
  cases hend with
  | delivered covers body frame payload hcovers hfew hcontent =>
      exact .delivered (entry :: covers) body frame payload
        (List.forall_mem_cons.mpr ⟨hentry, hcovers⟩) (Nat.succ_lt_succ hfew)
        hcontent
  | timedOut covers hcovers hfew =>
      exact .timedOut _ (List.forall_mem_cons.mpr ⟨hentry, hcovers⟩)
        (Nat.succ_lt_succ hfew)
  | exhausted covers hcovers hlength =>
      exact .exhausted _ (List.forall_mem_cons.mpr ⟨hentry, hcovers⟩)
        (congrArg (· + 1) hlength)

/-- One for a call that timed out. -/
def lateness : Except ShphError Bytes → Nat
  | .error .timeout => 1
  | _ => 0

theorem RecvEnd.progress {turns : Nat} {taken : List (Bytes × SentFrame)}
    {result : Except ShphError Bytes} (hend : RecvEnd turns taken result)
    (hturns : 0 < turns) : 1 ≤ taken.length + lateness result := by
  cases hend with
  | delivered covers =>
      rw [List.length_append, List.length_singleton]
      omega
  | timedOut => exact Nat.le_add_left _ _
  | exhausted covers hcovers hlength => omega

/-- The read events that a call which leaves frames behind has used up. -/
structure Accounted (result : Except ShphError Bytes)
    (before after : TcpStream) : Prop where
  readies : readies before.reads + after.incoming.length ≤
    readies after.reads + before.incoming.length
  timeouts : after.reads = [] ∨
    timeouts after.reads + lateness result = timeouts before.reads

/-- A call of `recv` takes frames in order, whatever the socket does. -/
theorem recvTurns_expecting {aead : Aead} {terms : Terms}
    (hoverhead : terms.overhead = tcpCoverOverhead) (turns : Nat)
    {seen : List SentFrame} {coming : List (Bytes × SentFrame)}
    {tcp : NegotiatedTcp rng} (hexpecting : Expecting aead terms seen coming tcp)
    (honest : Honest terms (seen ++ coming.map Prod.snd)) :
    ∃ taken rest, coming = taken ++ rest ∧
      Expecting aead terms (seen ++ taken.map Prod.snd) rest
        (tcp.recvTurns aead turns).2 ∧
      RecvEnd turns taken (tcp.recvTurns aead turns).1 ∧
      (rest ≠ [] → Accounted (tcp.recvTurns aead turns).1 tcp.session.stream
        (tcp.recvTurns aead turns).2.session.stream) := by
  induction turns generalizing seen coming tcp with
  | zero =>
      refine ⟨[], coming, rfl, ?_, .exhausted [] (by simp) rfl, ?_⟩
      · rw [List.map_nil, List.append_nil]
        exact hexpecting
      · intro _
        exact ⟨Nat.le_refl _, Or.inr rfl⟩
  | succ turns ih =>
      obtain ⟨hquiet, remaining, hstep⟩ := recvFrame_step hexpecting.opens
        hexpecting.buffered hexpecting.quiet
      rw [recvTurns]
      generalize hframes : wireFrames terms coming = frames at hstep
      generalize tcp.session.recvFrame aead = outcome at hquiet hstep ⊢
      obtain ⟨result, session⟩ := outcome
      dsimp only at hquiet hstep
      cases hstep with
      | timedOut _ hopens hbuffered htimeouts hwaiting =>
          refine ⟨[], coming, rfl, ?_, .timedOut [] (by simp)
            (Nat.succ_pos _), ?_⟩
          · rw [List.map_nil, List.append_nil]
            exact ⟨hexpecting.counted.with_session session,
              hframes ▸ hopens, hframes ▸ hbuffered, hquiet⟩
          · intro hmore
            obtain ⟨hreadies, hlate⟩ := hwaiting (by
              rw [← hframes, wireFrames, ne_eq, List.map_eq_nil_iff]
              exact hmore)
            exact ⟨hreadies, hlate.symm.imp_right Eq.symm⟩
      | delivered _ envelope rest hopens hdefault hincoming htimeouts
          hreadies =>
          obtain ⟨⟨body, frame⟩, coming, rfl, hhead, rfl⟩ :=
            List.map_eq_cons_iff.mp hframes
          obtain ⟨rfl, rfl⟩ := Prod.mk.inj hhead
          rw [List.map_cons] at honest
          obtain ⟨next, haccept, hcounted, hsession⟩ := acceptEnvelope_next
            (hexpecting.counted.with_session session) honest hoverhead
          change next.session = session at hsession
          have hnext : Expecting aead terms (seen ++ [frame]) coming next := by
            refine ⟨hcounted, ?_, ?_, ?_⟩
            · rw [hsession]
              exact hopens
            · rw [hsession, hdefault, hincoming]
              exact TcpFrameReader.buffered_default _
            · rw [hsession]
              exact hquiet
          dsimp only
          rw [haccept]
          cases hcontent : frame.content with
          | some payload =>
              refine ⟨[(body, frame)], coming, rfl, hnext,
                .delivered [] body frame payload (by simp) (Nat.succ_pos _)
                  hcontent, ?_⟩
              intro _
              refine ⟨hsession ▸ hreadies, Or.inr ?_⟩
              change timeouts next.session.stream.reads + 0 = _
              rw [hsession]
              exact htimeouts.symm
          | none =>
              rw [List.append_cons] at honest
              obtain ⟨taken, rest, rfl, hafter, hend, haccounted⟩ :=
                ih hnext honest
              refine ⟨(body, frame) :: taken, rest, rfl, ?_,
                hend.cons hcontent, ?_⟩
              · rw [List.map_cons, List.append_cons]
                exact hafter
              · intro hmore
                obtain ⟨hread, hlate⟩ := haccounted hmore
                rw [hsession] at hread hlate
                refine ⟨?_, hlate.imp_right fun hcount =>
                  hcount.trans htimeouts.symm⟩
                change readies _ + (next.recvTurns aead
                  turns).2.session.stream.incoming.length ≤ readies
                    (next.recvTurns aead turns).2.session.stream.reads + _
                omega

/-- The contents of frames, in order. -/
def contents (frames : List (Bytes × SentFrame)) : List (Option Bytes) :=
  frames.map fun entry => entry.2.content

theorem contents_append (first second : List (Bytes × SentFrame)) :
    contents (first ++ second) = contents first ++ contents second :=
  List.map_append

theorem contents_covers {covers : List (Bytes × SentFrame)}
    (hcovers : ∀ entry ∈ covers, entry.2.content = none) :
    contents covers = List.replicate covers.length none :=
  List.eq_replicate_iff.mpr ⟨List.length_map _, by
    intro content hcontent
    obtain ⟨entry, hentry, rfl⟩ := List.mem_map.mp hcontent
    exact hcovers entry hentry⟩

theorem payloads_covers {covers : List (Bytes × SentFrame)}
    (hcovers : ∀ entry ∈ covers, entry.2.content = none) :
    (contents covers).filterMap id = [] := by
  rw [contents_covers hcovers, List.filterMap_replicate_of_none]
  rfl

/-- A receiver in the middle of a session: it has taken `taken` of `all` since
the socket was in the state `start`. -/
structure Delivering (aead : Aead) (terms : Terms)
    (all : List (Bytes × SentFrame)) (start : TcpStream)
    (history : List (Unit × Except ShphError Bytes))
    (tcp : NegotiatedTcp rng) (taken rest : List (Bytes × SentFrame)) :
    Prop where
  all_eq : all = taken ++ rest
  expecting : Expecting aead terms (taken.map Prod.snd) rest tcp
  values : (successes history).map Prod.snd = (contents taken).filterMap id
  errors : ∀ entry ∈ history, ∀ error, entry.2 = .error error →
    error = .timeout ∨ (error = tooManyCoverFrames ∧
      List.replicate maxRecvTurns none <:+: contents all)
  enough : start.incoming.length ≤ readies start.reads → rest ≠ [] →
    tcp.session.stream.incoming.length ≤ readies tcp.session.stream.reads ∧
      history.length + timeouts tcp.session.stream.reads ≤
        timeouts start.reads + taken.length

theorem Delivering.step {aead : Aead} {terms : Terms}
    {all : List (Bytes × SentFrame)} {start : TcpStream}
    {history : List (Unit × Except ShphError Bytes)}
    {tcp : NegotiatedTcp rng} {taken rest : List (Bytes × SentFrame)}
    (hdelivering : Delivering aead terms all start history tcp taken rest)
    (hoverhead : terms.overhead = tcpCoverOverhead)
    (honest : Honest terms (all.map Prod.snd)) :
    ∃ taken rest, Delivering aead terms all start
      (history ++ [((), (tcp.recv aead).1)]) (tcp.recv aead).2 taken rest := by
  rw [hdelivering.all_eq, List.map_append] at honest
  obtain ⟨more, left, rfl, hexpecting, hend, haccounted⟩ :=
    recvTurns_expecting hoverhead maxRecvTurns hdelivering.expecting honest
  change Expecting aead terms _ left (tcp.recv aead).2 at hexpecting
  change RecvEnd _ more (tcp.recv aead).1 at hend
  refine ⟨taken ++ more, left, ?_⟩
  exact
    { all_eq := by
        rw [List.append_assoc]
        exact hdelivering.all_eq
      expecting := by
        rw [List.map_append]
        exact hexpecting
      values := by
        rw [successes_append, List.map_append, hdelivering.values,
          contents_append, List.filterMap_append]
        congr 1
        generalize (tcp.recv aead).1 = result at hend
        cases hend with
        | delivered covers body frame payload hcovers hfew hcontent =>
            rw [contents_append, List.filterMap_append,
              payloads_covers hcovers]
            simp [contents, hcontent]
        | timedOut covers hcovers => exact (payloads_covers hcovers).symm
        | exhausted covers hcovers => exact (payloads_covers hcovers).symm
      errors := by
        intro entry hentry error herror
        rw [List.mem_append, List.mem_singleton] at hentry
        rcases hentry with hentry | rfl
        · exact hdelivering.errors entry hentry error herror
        · change (tcp.recv aead).1 = _ at herror
          rw [herror] at hend
          cases hend with
          | timedOut covers hcovers => exact Or.inl rfl
          | exhausted covers hcovers hlength =>
              refine Or.inr ⟨rfl, ?_⟩
              rw [hdelivering.all_eq, contents_append, contents_append,
                contents_covers hcovers, hlength]
              exact ⟨contents taken, contents left, by simp⟩
      enough := by
        intro hall hmore
        obtain ⟨hready, hcalls⟩ := hdelivering.enough hall (by simp [hmore])
        obtain ⟨hreadies, hlate⟩ := haccounted hmore
        change readies _ + (tcp.recv aead).2.session.stream.incoming.length ≤
          readies (tcp.recv aead).2.session.stream.reads + _ at hreadies
        change (tcp.recv aead).2.session.stream.reads = [] ∨ timeouts
          (tcp.recv aead).2.session.stream.reads + lateness (tcp.recv aead).1 =
            _ at hlate
        have hpending := hexpecting.buffered.incoming_length_pos (by
          rw [wireFrames, ne_eq, List.map_eq_nil_iff]
          exact hmore)
        rw [List.length_append, List.length_append, List.length_singleton]
        refine ⟨by omega, ?_⟩
        rcases hlate with hnone | hlate
        · -- Without a read event the rest of the stream could not arrive.
          rw [hnone] at hreadies
          simp only [readies, List.countP_nil] at hreadies hready
          omega
        · have hprogress := hend.progress (by decide)
          omega }

theorem recv_run {aead : Aead} {terms : Terms}
    {all : List (Bytes × SentFrame)} {tcp : NegotiatedTcp rng}
    (hexpecting : Expecting aead terms [] all tcp)
    (hoverhead : terms.overhead = tcpCoverOverhead)
    (honest : Honest terms (all.map Prod.snd)) (inputs : List Unit) :
    ∃ taken rest, Delivering aead terms all tcp.session.stream
      (trace (fun tcp _ => recv aead tcp) tcp inputs)
      (final (fun tcp _ => recv aead tcp) tcp inputs) taken rest := by
  apply history_invariant (P := fun history after => ∃ taken rest,
    Delivering aead terms all tcp.session.stream history after taken rest)
  · refine ⟨[], all, rfl, hexpecting, rfl, by simp, ?_⟩
    intro hall _
    exact ⟨hall, by simp⟩
  · rintro history after _ ⟨taken, rest, hdelivering⟩
    exact hdelivering.step hoverhead honest

/-- A socket that hands over the whole stream without a timeout. -/
structure Fed (tcp : NegotiatedTcp rng) : Prop where
  quick : timeouts tcp.session.stream.reads = 0
  enough : tcp.session.stream.incoming.length ≤
    readies tcp.session.stream.reads

section Fed

variable {aead : Aead} {terms : Terms} {seen : List SentFrame}
  {coming : List (Bytes × SentFrame)} {tcp : NegotiatedTcp rng}

theorem recv_fed (hexpecting : Expecting aead terms seen coming tcp)
    (honest : Honest terms (seen ++ coming.map Prod.snd))
    (hoverhead : terms.overhead = tcpCoverOverhead) (hfed : Fed tcp) :
    ∃ taken rest, coming = taken ++ rest ∧
      Expecting aead terms (seen ++ taken.map Prod.snd) rest
        (tcp.recv aead).2 ∧
      RecvEnd maxRecvTurns taken (tcp.recv aead).1 ∧
      (rest ≠ [] → lateness (tcp.recv aead).1 = 0 ∧ Fed (tcp.recv aead).2) := by
  obtain ⟨taken, rest, hsplit, hnext, hend, haccounted⟩ :=
    recvTurns_expecting hoverhead maxRecvTurns hexpecting honest
  refine ⟨taken, rest, hsplit, hnext, hend, ?_⟩
  intro hmore
  obtain ⟨hreadies, hlate⟩ := haccounted hmore
  have hpending := hnext.buffered.incoming_length_pos (by
    rw [wireFrames, ne_eq, List.map_eq_nil_iff]
    exact hmore)
  have henough := hfed.enough
  have hquick := hfed.quick
  rcases hlate with hnone | hlate
  · rw [hnone] at hreadies
    simp only [readies, List.countP_nil] at hreadies henough
    omega
  · rw [hquick] at hlate
    change timeouts (tcp.recv aead).2.session.stream.reads +
      lateness (tcp.recv aead).1 = 0 at hlate
    change readies _ + (tcp.recv aead).2.session.stream.incoming.length ≤
      readies (tcp.recv aead).2.session.stream.reads + _ at hreadies
    exact ⟨by omega, by omega, by omega⟩

/-- The covers in front of the first payload, read off in two ways. -/
theorem covers_unique {first second : Nat} {payload other : Bytes}
    {rest more : List (Option Bytes)}
    (heq : List.replicate first none ++ some payload :: rest =
      List.replicate second none ++ some other :: more) :
    first = second ∧ payload = other ∧ rest = more := by
  induction first generalizing second with
  | zero =>
      cases second with
      | zero => simpa using heq
      | succ second => simp [List.replicate_succ] at heq
  | succ first ih =>
      cases second with
      | zero => simp [List.replicate_succ] at heq
      | succ second =>
          simp only [List.replicate_succ, List.cons_append,
            List.cons.injEq, true_and] at heq
          obtain ⟨rfl, hrest⟩ := ih heq
          exact ⟨rfl, hrest⟩

theorem covers_le {first second : Nat} {payload : Bytes}
    {rest more : List (Option Bytes)}
    (heq : List.replicate first none ++ rest =
      List.replicate second none ++ some payload :: more) :
    first ≤ second := by
  induction first generalizing second with
  | zero => exact Nat.zero_le _
  | succ first ih =>
      cases second with
      | zero => simp [List.replicate_succ] at heq
      | succ second =>
          simp only [List.replicate_succ, List.cons_append,
            List.cons.injEq, true_and] at heq
          exact Nat.succ_le_succ (ih heq)

/-- With the frames at hand, a payload behind fewer than 32 cover frames comes
back. -/
theorem recv_payload (hexpecting : Expecting aead terms seen coming tcp)
    (honest : Honest terms (seen ++ coming.map Prod.snd))
    (hoverhead : terms.overhead = tcpCoverOverhead) (hfed : Fed tcp)
    {covers : Nat} {payload : Bytes} {more : List (Option Bytes)}
    (hfew : covers < maxRecvTurns)
    (hcontents : contents coming =
      List.replicate covers none ++ some payload :: more) :
    (tcp.recv aead).1 = .ok payload ∧ ∃ taken rest, coming = taken ++ rest ∧
      Expecting aead terms (seen ++ taken.map Prod.snd) rest
        (tcp.recv aead).2 ∧
      contents rest = more ∧ (rest ≠ [] → Fed (tcp.recv aead).2) := by
  obtain ⟨taken, rest, rfl, hnext, hend, hquick⟩ :=
    recv_fed hexpecting honest hoverhead hfed
  rw [contents_append] at hcontents
  generalize (tcp.recv aead).1 = result at hend hquick ⊢
  cases hend with
  | delivered passed body frame returned hpassed _ hcontent =>
      rw [contents_append, contents_covers hpassed, List.append_assoc]
        at hcontents
      simp only [contents, List.map_cons, List.map_nil, hcontent,
        List.singleton_append] at hcontents
      obtain ⟨_, rfl, hrest⟩ := covers_unique hcontents
      exact ⟨rfl, _, rest, rfl, hnext, hrest, fun hmore => (hquick hmore).2⟩
  | timedOut passed hpassed _ =>
      exfalso
      by_cases hmore : rest = []
      · rw [contents_covers hpassed, hmore] at hcontents
        have hmem : some payload ∈
            List.replicate taken.length none ++ contents [] := by
          rw [hcontents]
          simp
        simp [contents, List.mem_replicate] at hmem
      · exact absurd (hquick hmore).1 (by decide)
  | exhausted passed hpassed hlength =>
      rw [contents_covers hpassed, hlength] at hcontents
      have hle := covers_le hcontents
      omega

/-- With the frames at hand, 32 cover frames in a row end a call. -/
theorem recv_covers (hexpecting : Expecting aead terms seen coming tcp)
    (honest : Honest terms (seen ++ coming.map Prod.snd))
    (hoverhead : terms.overhead = tcpCoverOverhead) (hfed : Fed tcp)
    {more : List (Option Bytes)}
    (hcontents : contents coming =
      List.replicate maxRecvTurns none ++ more) :
    (tcp.recv aead).1 = .error tooManyCoverFrames := by
  obtain ⟨taken, rest, rfl, hnext, hend, hquick⟩ :=
    recv_fed hexpecting honest hoverhead hfed
  rw [contents_append] at hcontents
  generalize (tcp.recv aead).1 = result at hend hquick ⊢
  cases hend with
  | delivered passed body frame returned hpassed hfew hcontent =>
      rw [contents_append, contents_covers hpassed, List.append_assoc]
        at hcontents
      simp only [contents, List.map_cons, List.map_nil, hcontent,
        List.singleton_append] at hcontents
      have hle := covers_le hcontents.symm
      omega
  | timedOut passed hpassed hfew =>
      by_cases hmore : rest = []
      · have hlength := congrArg List.length hcontents
        simp only [hmore, contents, List.map_nil, List.append_nil,
          List.length_append, List.length_map, List.length_replicate]
          at hlength
        omega
      · exact absurd (hquick hmore).1 (by decide)
  | exhausted => rfl

end Fed

/-- Two ends of a connection on which everything that was sent has been
received: what the exchange of the policies leaves behind. -/
structure Aligned (sender receiver : SecureTcpSession rng) : Prop where
  key_eq : sender.sendCipher.key = receiver.recvCipher.key
  replay : ∃ last, receiver.recvCipher.replay = .strict last ∧
    ∀ counter ∈ last, counter < sender.sendCipher.nonce
  reader_eq : receiver.frameReader = .default

theorem ofAgreement_eq_ok {session : SecureTcpSession rng}
    {generation : UInt32} {agreement : NegotiatedPolicy}
    {coverPolicy : Option CoverPolicy} {seeded : rng.State}
    {tcp : NegotiatedTcp rng}
    (hok : ofAgreement session generation agreement coverPolicy seeded =
      .ok tcp) :
    OutboundPolicy.ofAgreement generation agreement coverPolicy seeded =
        .ok tcp.outbound ∧
      InboundPolicy.ofAgreement generation agreement coverPolicy =
        .ok tcp.inbound ∧
      tcp.receivedCoverBytes = 0 ∧
      tcp.session = { session with
        paddingProfile := none
        paddingPadder := none
        phantomOneEncoder := none
        phantomOneDecoder := none } := by
  simp only [ofAgreement, bind_eq_ok_iff, pure_eq_ok_iff] at hok
  obtain ⟨outbound, houtbound, inbound, hinbound, rfl⟩ := hok
  exact ⟨houtbound, hinbound, rfl, rfl⟩

/-- A receiver whose policy mirrors the sender's starts with empty books. -/
theorem ofAgreement_counted {session : SecureTcpSession rng}
    {generation : UInt32} {agreement : NegotiatedPolicy}
    {coverPolicy : Option CoverPolicy} {seeded : rng.State}
    {tcp : NegotiatedTcp rng}
    (hok : ofAgreement session generation agreement.swap coverPolicy seeded =
      .ok tcp) :
    Counted (.ofAgreement generation agreement coverPolicy tcpCoverOverhead) []
      tcp := by
  obtain ⟨_, hinbound, hcover, _⟩ := ofAgreement_eq_ok hok
  simp only [InboundPolicy.ofAgreement, bind_eq_ok_iff, pure_eq_ok_iff]
    at hinbound
  obtain ⟨decoder, hdecoder, hinbound⟩ := hinbound
  obtain ⟨_, _, inbound, _⟩ := tcp
  dsimp only at hinbound hcover
  subst hinbound
  exact ⟨rfl, rfl, rfl,
    (PhantomOneDecoder.withConfigAndWindow_ok hdecoder).2, rfl, hcover⟩

section Session

variable (aead : Aead) (offer peer : EnvelopeOffer)
  (agreement mirrored : NegotiatedPolicy) (generation : UInt32)
  (senderSeed receiverSeed : rng.State)
  (senderSession receiverSession : SecureTcpSession rng)
  (sender receiver : NegotiatedTcp rng) (calls : List SendCall)

/-- After the calls of the sender, the receiver has their frames to come. -/
theorem calls_expecting (hagreement : offer.negotiate peer = .ok agreement)
    (hmirrored : peer.negotiate offer = .ok mirrored)
    (hsender : ofAgreement senderSession generation agreement offer.cover
      senderSeed = .ok sender)
    (hreceiver : ofAgreement receiverSession generation mirrored peer.cover
      receiverSeed = .ok receiver)
    (haligned : Aligned senderSession receiverSession)
    (htimes : (calls.map SendCall.elapsed).Pairwise (· ≤ ·))
    (hincoming : receiverSession.stream.incoming =
      emittedWire aead sender calls)
    (hquiet : ∀ event ∈ receiverSession.stream.reads, event.quiet = true) :
    ∃ terms coming, terms.overhead = tcpCoverOverhead ∧
      Expecting aead terms [] coming receiver ∧
      Honest terms (coming.map Prod.snd) ∧
      emissions aead sender calls = contents coming ∧
      receiver.session.stream = receiverSession.stream := by
  obtain rfl : mirrored = agreement.swap := Except.ok.inj
    (hmirrored.symm.trans (EnvelopeOffer.negotiate_swap hagreement))
  obtain ⟨⟨_, _, hcover⟩, _, _, _, _, _, hpolicy⟩ :=
    EnvelopeOffer.negotiate_eq_ok_iff.mp hagreement
  rw [← hcover] at hreceiver
  obtain ⟨houtbound, _, _, hsenderSession⟩ := ofAgreement_eq_ok hsender
  obtain ⟨_, _, _, hreceiverSession⟩ := ofAgreement_eq_ok hreceiver
  obtain ⟨hvalid, hstart, hledger⟩ :=
    ofAgreement_ledger houtbound tcpCoverOverhead
  have hlimit : agreement.outboundFrameLimit ≤ phantomOneMaxEnvelopeBytes := by
    rw [hpolicy]
    exact Nat.le_of_lt_succ (UInt16.toNat_lt _)
  have hlinked : Linked senderSession.sendCipher.key sender.session
      receiver.session.opener := by
    rw [hsenderSession, hreceiverSession]
    exact ⟨rfl, rfl, rfl, haligned.key_eq.symm, haligned.replay, .plain none⟩
  obtain ⟨more, coming, hbooks, hopens, hwire, hemitted, hcount⟩ :=
    serve_run aead calls hledger hlinked rfl htimes (by simp [hstart])
  rw [List.nil_append] at hbooks
  have hstream : receiver.session.stream = receiverSession.stream := by
    rw [hreceiverSession]
  refine ⟨_, coming, rfl, ⟨ofAgreement_counted hreceiver, hopens, ?_, ?_⟩,
    hbooks.honest hvalid hlimit ?_, hemitted, hstream⟩
  · rw [hstream, hincoming, hwire, hreceiverSession, haligned.reader_eq]
    exact TcpFrameReader.buffered_default _
  · rw [hstream]
    exact hquiet
  · rw [List.length_map]
    rcases hcount with rfl | hcount
    · exact Nat.zero_le _
    · simp only [aeadNonceLimit] at hcount
      omega

/-- The session delivers: whatever one end sends, at times that do not go
back, and however the socket hands the frames over, the payloads come back in
order; every error is a timeout or comes after 32 cover frames in a row; and
once the socket has handed over the stream and there was a call for every
frame and every timeout, all payloads have come back. -/
theorem delivers_in_order (count : Nat)
    (hagreement : offer.negotiate peer = .ok agreement)
    (hmirrored : peer.negotiate offer = .ok mirrored)
    (hsender : ofAgreement senderSession generation agreement offer.cover
      senderSeed = .ok sender)
    (hreceiver : ofAgreement receiverSession generation mirrored peer.cover
      receiverSeed = .ok receiver)
    (haligned : Aligned senderSession receiverSession)
    (htimes : (calls.map SendCall.elapsed).Pairwise (· ≤ ·))
    (hincoming : receiverSession.stream.incoming =
      emittedWire aead sender calls)
    (hquiet : ∀ event ∈ receiverSession.stream.reads, event.quiet = true) :
    let recv := fun (tcp : NegotiatedTcp rng) (_ : Unit) => tcp.recv aead
    let history := trace recv receiver (List.replicate count ())
    let emitted := emissions aead sender calls
    let payloads := emitted.filterMap id
    (successes history).map Prod.snd <+: payloads ∧
      (∀ entry ∈ history, ∀ error, entry.2 = .error error →
        error = .timeout ∨ (error = tooManyCoverFrames ∧
          List.replicate maxRecvTurns none <:+: emitted)) ∧
      (receiverSession.stream.incoming.length ≤
          readies receiverSession.stream.reads →
        emitted.length + timeouts receiverSession.stream.reads ≤ count →
        (successes history).map Prod.snd = payloads) := by
  intro recv history emitted payloads
  obtain ⟨terms, coming, hoverhead, hexpecting, honest, hcontents, hstream⟩ :=
    calls_expecting aead offer peer agreement mirrored generation senderSeed
      receiverSeed senderSession receiverSession sender receiver calls
      hagreement hmirrored hsender hreceiver haligned htimes hincoming hquiet
  change emitted = contents coming at hcontents
  obtain ⟨taken, rest, hdelivering⟩ := recv_run hexpecting hoverhead honest
    (List.replicate count ())
  have hlength : history.length = count := by
    change (trace _ _ _).length = count
    rw [trace_length, List.length_replicate]
  have hvalues : (successes history).map Prod.snd =
      (contents taken).filterMap id := hdelivering.values
  refine ⟨?_, ?_, ?_⟩
  · change _ <+: emitted.filterMap id
    rw [hvalues, hcontents, hdelivering.all_eq, contents_append,
      List.filterMap_append]
    exact List.prefix_append _ _
  · rw [hcontents]
    exact hdelivering.errors
  · intro henough hmany
    rw [← hstream] at henough hmany
    have hdone : rest = [] := by
      by_contra hmore
      have hcalls := (hdelivering.enough henough hmore).2
      change history.length + _ ≤ _ at hcalls
      have htotal : emitted.length = taken.length + rest.length := by
        rw [hcontents, contents, List.length_map, hdelivering.all_eq,
          List.length_append]
      have hpos := List.length_pos_iff.mpr hmore
      omega
    change _ = emitted.filterMap id
    rw [hvalues, hcontents, hdelivering.all_eq, hdone, List.append_nil]

end Session

end NegotiatedTcp

namespace NegotiatedTcpWitness

open NegotiatedTcp PhantomOneWitness

def sessionKey : Key := FixedBytes.replicate 32 0x11

/-- One end of a connection after the exchange of the policies, which took two
frames in each direction. -/
def session (incoming : Bytes) (reads : List ReadEvent) :
    SecureTcpSession rng :=
  { SecureTcpSession.new ⟨[], incoming, [], reads⟩ sessionKey sessionKey ()
    with
    sendCipher := ⟨sessionKey, 2⟩
    recvCipher := ⟨sessionKey, .strict (some 1)⟩ }

/-- Cover every 100 ms for five minutes, up to the size of the payloads. -/
def coverPolicy : CoverPolicy := ⟨100, 300000, 4096, 100⟩

def offer : EnvelopeOffer :=
  { EnvelopeWitness.offerOf 2048 with cover := some coverPolicy }

def agreement : NegotiatedPolicy :=
  ⟨EnvelopeWitness.config, 2048, 2048, .default, .default⟩

/-- Both ends of the negotiated session. -/
def tcp (incoming : Bytes) (reads : List ReadEvent) : NegotiatedTcp rng where
  session := session incoming reads
  outbound :=
    { encoder := .fromValidatedConfig 0xAAAAAAAA 0 EnvelopeWitness.config ()
      outboundFrameLimit := 2048
      outboundBudget := .default
      sentUsage := .default
      cover := ⟨some coverPolicy, 0, none, none, 0, 0, false⟩ }
  inbound :=
    { decoder := ⟨0xAAAAAAAA, 64, EnvelopeWitness.config, none, 0, 0⟩
      inboundFrameLimit := 2048
      inboundBudget := .default
      receivedUsage := .default
      coverPolicy := some coverPolicy }
  receivedCoverBytes := 0

theorem negotiate_eq : offer.negotiate offer = .ok agreement := by
  decide

theorem ofAgreement_eq (incoming : Bytes) (reads : List ReadEvent) :
    ofAgreement (session incoming reads) 0xAAAAAAAA agreement offer.cover () =
      .ok (tcp incoming reads) := by
  rfl

theorem aligned (incoming : Bytes) (reads : List ReadEvent) :
    Aligned (session [] []) (session incoming reads) :=
  ⟨rfl, ⟨some 1, rfl, by decide⟩, rfl⟩

def hello : Bytes := [104, 101, 108, 108, 111]

/-- The envelope of `hello` as the first frame of the session, and the frame
body under nonce two. -/
def helloEnvelope : Bytes :=
  [80, 72, 49, 0, 1, 1, 170, 170, 170, 170, 1, 0, 0, 0, 0, 0, 0, 0, 0, 0, 5, 0,
    29, 0, 104, 101, 108, 108, 111]

def helloBody : Bytes :=
  [246, 43, 159, 34, 161, 45, 53, 70, 151, 7, 184, 201, 69, 89, 177, 163, 194,
    213, 2, 105, 113, 17, 253, 13, 94, 247, 227, 242, 139, 96, 144, 97, 175,
    123, 211, 72, 85, 45, 234, 100, 90, 223, 151, 26, 255]

def aead : Aead :=
  Aead.single sessionKey (nonceBytes 2) helloEnvelope helloBody rfl

/-- A payload, and a request for cover that comes too early. -/
def helloCalls : List SendCall :=
  [.send hello 5, .sendCoverIfDue ⟨7, false, false, false⟩]

def recv (aead : Aead) (tcp : NegotiatedTcp rng) (_ : Unit) :
    Except ShphError Bytes × NegotiatedTcp rng :=
  tcp.recv aead

/-- The frame arrives in pieces, with a timeout in between. -/
theorem delivers_in_order_hello :
    let incoming := emittedWire aead (tcp [] []) helloCalls
    let reads : List ReadEvent :=
      [.ready 3, .ready 9, .failed .timedOut, .ready 99]
    emissions aead (tcp [] []) helloCalls = [some hello] ∧
      (trace (recv aead) (tcp incoming reads) [(), ()]).map Prod.snd =
        [.error .timeout, .ok hello] ∧
      ∀ entry ∈ trace (recv aead) (tcp incoming reads)
          (List.replicate 2 ()), ∀ error, entry.2 = .error error →
        error = .timeout ∨ (error = tooManyCoverFrames ∧
          List.replicate maxRecvTurns none <:+:
            emissions aead (tcp [] []) helloCalls) := by
  refine ⟨by decide, by decide +kernel, ?_⟩
  exact (delivers_in_order aead offer offer agreement agreement 0xAAAAAAAA ()
    () (session [] []) _ (tcp [] []) _ helloCalls 2 negotiate_eq negotiate_eq
    (ofAgreement_eq [] []) (ofAgreement_eq _ _) (aligned _ _) (by decide) rfl
    (by decide)).2.1

/-- Only the lengths of the frames matter below. -/
def clear : Aead := .tagged

/-- A payload, cover every 100 ms for 3.2 s, and another payload. -/
def idleCalls : List SendCall :=
  .send (List.replicate 1824 0) 0 ::
    ((List.range 32).map fun index =>
      .sendCoverIfDue ⟨(index + 1) * 10 ^ 8, false, false, false⟩) ++
    [.send hello (33 * 10 ^ 8)]

theorem idle_emissions : emissions clear (tcp [] []) idleCalls =
    some (List.replicate 1824 0) ::
      (List.replicate maxRecvTurns none ++ [some hello]) := by
  decide +kernel

theorem idle_times : (idleCalls.map SendCall.elapsed).Pairwise (· ≤ ·) := by
  decide +kernel

/-- A socket on which every read is ready. -/
def readyReads (incoming : Bytes) : List ReadEvent :=
  List.replicate incoming.length (.ready 9999)

theorem readyReads_quiet (incoming : Bytes) :
    ∀ event ∈ readyReads incoming, event.quiet = true := by
  intro event hevent
  rw [(List.mem_replicate.mp hevent).2]
  rfl

theorem readyReads_fed (incoming : Bytes) :
    Fed (tcp incoming (readyReads incoming)) where
  quick := by
    change timeouts (readyReads incoming) = 0
    rw [timeouts, readyReads, List.countP_replicate]
    rfl
  enough := by
    change incoming.length ≤ readies (readyReads incoming)
    rw [readies, readyReads, List.countP_replicate]
    exact Nat.le_refl _

theorem idle_answers {incoming : Bytes}
    (hincoming : incoming = emittedWire clear (tcp [] []) idleCalls) :
    (trace (recv clear) (tcp incoming (readyReads incoming))
        [(), ()]).map Prod.snd =
      [.ok (List.replicate 1824 0), .error tooManyCoverFrames] := by
  obtain ⟨terms, coming, hoverhead, hexpecting, honest, hcontents, -⟩ :=
    calls_expecting clear offer offer agreement agreement 0xAAAAAAAA () ()
      (session [] []) _ (tcp [] []) _ idleCalls negotiate_eq negotiate_eq
      (ofAgreement_eq _ _) (ofAgreement_eq incoming (readyReads incoming))
      (aligned _ _) idle_times hincoming (readyReads_quiet incoming)
  rw [idle_emissions] at hcontents
  obtain ⟨hfirst, taken, rest, rfl, hnext, hrest, hfed⟩ := recv_payload
    hexpecting honest hoverhead (readyReads_fed incoming)
    (by decide : 0 < maxRecvTurns) hcontents.symm
  rw [List.map_append] at honest
  have hsecond := recv_covers hnext honest hoverhead (hfed (by
    rintro rfl
    simp [contents, maxRecvTurns] at hrest)) hrest
  exact congrArg₂ (fun first second => [first, second]) hfirst hsecond

/-- An idle sender within the agreed policy: the peer's second call returns
the error for too many cover frames, although every read is ready. -/
theorem recv_refuses_idle_sender :
    let incoming := emittedWire clear (tcp [] []) idleCalls
    offer.negotiate offer = .ok agreement ∧
      ofAgreement (session [] []) 0xAAAAAAAA agreement offer.cover () =
        .ok (tcp [] []) ∧
      ofAgreement (session incoming (readyReads incoming)) 0xAAAAAAAA
        agreement offer.cover () = .ok (tcp incoming (readyReads incoming)) ∧
      Aligned (session [] []) (session incoming (readyReads incoming)) ∧
      (idleCalls.map SendCall.elapsed).Pairwise (· ≤ ·) ∧
      emissions clear (tcp [] []) idleCalls =
        some (List.replicate 1824 0) ::
          (List.replicate maxRecvTurns none ++ [some hello]) ∧
      (trace (recv clear) (tcp incoming (readyReads incoming))
          [(), ()]).map Prod.snd =
        [.ok (List.replicate 1824 0), .error tooManyCoverFrames] :=
  ⟨negotiate_eq, ofAgreement_eq _ _, ofAgreement_eq _ _, aligned _ _,
    idle_times, idle_emissions, idle_answers rfl⟩

end NegotiatedTcpWitness

end Shph
