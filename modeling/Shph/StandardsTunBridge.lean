/-
Both directions of the bridge.  Its two loops are joined: their turns come in
any order, each at the moment it is over, and the first error of a loop is the
result of the bridge.  When the peer closes the connection, the close itself
and the operations that fail because of it are ready at once, and a loop that
takes one of the latter reports the wrong error.
-/
import Shph.Library.JoinedLoops
import Shph.StandardsTunSending

namespace Shph

/-- The connection as it would be had it not been lost. -/
def QuicPath.reopened (path : QuicPath) : QuicPath := { path with lost := none }

def SenderTurn.reopened : SenderTurn → SenderTurn
  | .closed => .closed
  | .packet read path waited pacer _ =>
      .packet read path.reopened waited
        { pacer with
          check := pacer.check.reopened
          send := pacer.send.reopened } false

theorem QuicPath.reopened_of_open {path : QuicPath}
    (hopen : path.lost = none) : path.reopened = path := by
  rw [QuicPath.reopened, ← hopen]

theorem QuicPath.sendDatagramWait_lost {path : QuicPath} {reason : String}
    (hlost : path.lost = some reason) (length : Nat) :
    path.sendDatagramWait length = .error (.transport "connection lost") := by
  simp only [sendDatagramWait, sendDatagram, hlost, SendDatagramError.toText]

namespace StandardsTun

open ByteCodec LoopRun Shroud3 Sending
variable {rng : Rng}

/-- The state of a receiving loop, in one of the three modes. -/
inductive Incoming where
  | plain (receiving : Receiving)
  | shroud3 (pathMtu : Nat) (receiving : Receiving)
  | phantomOne (state : PhantomOneReceiving)

def Incoming.step (aead : Aead) (config : StandardsTunBridgeConfig) :
    Incoming → ReceiverTurn → LoopStep Incoming
  | plain receiving, turn => (quicToTunStep config receiving turn).map plain
  | shroud3 pathMtu receiving, turn =>
      (shroud3QuicToTunStep config pathMtu receiving turn).map
        (shroud3 pathMtu)
  | phantomOne state, turn =>
      (phantomOneQuicToTunStep aead config state turn).map phantomOne

/-- What the join sees of a loop. -/
def resultOf {σ ι : Type} (step : σ → ι → LoopStep σ) (state : σ) (turn : ι) :
    LoopRun.Outcome σ (Except ShphError StandardsTunBridgeStats) :=
  match step state turn with
  | .running next => .running next
  | .ended loopEnd => .ended loopEnd.result

abbrev Bridge (rng : Rng) :=
  Joined (Sending rng) StandardsTunBridgeStats Incoming
    StandardsTunBridgeStats

namespace Bridge

def step (aead : Aead) (config : StandardsTunBridgeConfig) :
    Bridge rng → SenderTurn ⊕ ReceiverTurn →
      LoopRun.Outcome (Bridge rng) (Except ShphError
        (StandardsTunBridgeStats × StandardsTunBridgeStats)) :=
  tryJoin (resultOf (Sending.step aead))
    (resultOf (Incoming.step aead config))

/-- The loops of the mode, before their first turns.  The receiving loop of
Shroud 3 asks for the size limit when it starts. -/
def start (config : StandardsTunBridgeConfig)
    (phantomOne : Option (PhantomOneState rng)) (path : QuicPath)
    (seeded : rng.State) : Except ShphError (Bridge rng) := do
  config.validate
  if config.shroud3Adaptive then
    ensure phantomOne.isNone
      (.config "adaptive Shroud 3 cannot be combined with Phantom One")
    let morphology ← AdaptiveShroud3.withRng rng .default seeded
    let pathMtu ← okOr path.maxDatagramSize
      (.unsupported "QUIC DATAGRAM is not negotiated")
    return ⟨.polling (.shroud3 ⟨.default, morphology, 0⟩),
      .polling (.shroud3 pathMtu.toNat .default)⟩
  else
    match phantomOne with
    | some state =>
        let halves ← state.intoPhantomOneDatagramBridge
        return ⟨.polling (.phantomOne ⟨.default, halves.1⟩),
          .polling (.phantomOne ⟨.default, halves.2⟩)⟩
    | none =>
        return ⟨.polling (.plain .default), .polling (.plain .default)⟩

/-- The bridge on a connection, for the turns that its loops take. -/
def runTurns (aead : Aead) (config : StandardsTunBridgeConfig)
    (phantomOne : Option (PhantomOneState rng)) (path : QuicPath)
    (seeded : rng.State) (turns : List (SenderTurn ⊕ ReceiverTurn)) :
    LoopRun.Outcome (Bridge rng) (Except ShphError StandardsTunBridgeStats) :=
  match start config phantomOne path seeded with
  | .error error => .ended (.error error)
  | .ok bridge =>
      match run (step aead config) bridge turns with
      | .running bridge => .running bridge
      | .ended result => .ended (result.map fun stats =>
          stats.1.combine stats.2)

end Bridge

namespace Sending

/-- Nothing but a lost connection can stop the loop: with an open one the turn
would have led to the next. -/
def OnlyCloses (aead : Aead) (state : Sending rng) (turn : SenderTurn) :
    Prop :=
  turn = .closed ∨ ∃ next, step aead state turn.reopened = .running next

/-- The packet gets as far as `send_datagram`. -/
def handsOver (state : Sending rng) (packet : Bytes) (path : QuicPath)
    (waited : Nat) (pacer : PacerTurn) (closedMeanwhile : Bool) : Bool :=
  match state with
  | plain _ =>
      !(maxTunDatagramBytes < packet.length ||
        path.maxDatagramSize.any (·.toNat < packet.length))
  | shroud3 sender =>
      !closedMeanwhile &&
        (envelope sender packet path waited).any fun made =>
          DatagramPacer.onTime made.2 pacer &&
            pacer.check.maxDatagramSize.any (made.1.length ≤ ·.toNat) &&
            pacer.handedOver
  | phantomOne _ => true

/-- The turn hands a datagram to a connection that is lost. -/
def findsLost (state : Sending rng) : SenderTurn → Bool
  | .closed => false
  | .packet read path waited pacer closedMeanwhile =>
      match AsyncTunDevice.recvPacket read with
      | .error _ => false
      | .ok packet =>
          pacer.send.lost.isSome &&
            state.handsOver packet path waited pacer closedMeanwhile

end Sending

namespace Incoming

/-- Nothing but a lost connection can stop the loop. -/
def OnlyCloses (aead : Aead) (config : StandardsTunBridgeConfig) :
    Incoming → ReceiverTurn → Prop
  | _, .closed => True
  | state, .datagram path (.ok datagram) write =>
      ∃ next, step aead config state (.datagram path (.ok datagram) write) =
        .running next
  | phantomOne _, .datagram path (.error _) _ =>
      (phantomOnePathMtu path).isOk = true
  | _, .datagram _ (.error _) _ => True

/-- The turn reads from a connection that is lost, with no datagram left. -/
def findsLost : ReceiverTurn → Bool
  | .datagram _ (.error _) _ => true
  | _ => false

end Incoming

/-- What a turn of a loop comes to: it goes on, it reports the close, or it
reports the operation that failed. -/
def EndsByClose {σ : Type} (fails : Bool) (outcome : LoopStep σ) : Prop :=
  (fails = false ∧ ((∃ next, outcome = .running next) ∨
    ∃ closes, outcome = .ended ⟨closes, .error .connectionClosed⟩)) ∨
  (fails = true ∧ ∃ reason,
    outcome = .ended ⟨true, .error (.transport reason)⟩)

theorem EndsByClose.map {σ τ : Type} {fails : Bool} {outcome : LoopStep σ}
    (hends : EndsByClose fails outcome) (f : σ → τ) :
    EndsByClose fails (outcome.map f) := by
  rcases hends with ⟨hfails, ⟨next, rfl⟩ | ⟨closes, rfl⟩⟩ |
    ⟨hfails, reason, rfl⟩
  · exact Or.inl ⟨hfails, Or.inl ⟨f next, rfl⟩⟩
  · exact Or.inl ⟨hfails, Or.inr ⟨closes, rfl⟩⟩
  · exact Or.inr ⟨hfails, reason, rfl⟩

theorem map_eq_running_iff {σ τ : Type} {outcome : LoopStep σ} {f : σ → τ} :
    (∃ next, outcome.map f = .running next) ↔
      ∃ next, outcome = .running next := by
  cases outcome with
  | running state => exact ⟨fun _ => ⟨state, rfl⟩, fun _ => ⟨f state, rfl⟩⟩
  | ended result =>
      constructor
      · rintro ⟨next, hnext⟩
        cases hnext
      · rintro ⟨next, hnext⟩
        cases hnext

section Plain

variable {stats : StandardsTunBridgeStats} {turn : SenderTurn}

theorem handsOver_plain_iff {packet : Bytes} {path : QuicPath} {waited : Nat}
    {pacer : PacerTurn} {closedMeanwhile : Bool} :
    (plain stats : Sending rng).handsOver packet path waited pacer
        closedMeanwhile = true ↔
      ¬ (maxTunDatagramBytes < packet.length ∨
        path.maxDatagramSize.any (·.toNat < packet.length)) := by
  simp [handsOver]

theorem tunToQuicStep_ends (aead : Aead)
    (honly : Sending.OnlyCloses aead (.plain stats : Sending rng) turn) :
    EndsByClose (findsLost (.plain stats : Sending rng) turn)
      (tunToQuicStep stats turn) := by
  cases turn with
  | closed => exact Or.inl ⟨rfl, Or.inr ⟨false, rfl⟩⟩
  | packet read path waited pacer closedMeanwhile =>
      obtain ⟨next, hnext⟩ : ∃ next, tunToQuicStep stats
          (SenderTurn.packet read path waited pacer closedMeanwhile).reopened =
            .running next :=
        map_eq_running_iff.mp (honly.resolve_left nofun)
      cases hread : AsyncTunDevice.recvPacket read with
      | error error =>
          simp only [SenderTurn.reopened, tunToQuicStep, hread] at hnext
          cases hnext
      | ok packet =>
          obtain ⟨byte, rest, rfl⟩ :=
            List.exists_cons_of_ne_nil (recvPacket_ok hread).1
          simp only [SenderTurn.reopened, tunToQuicStep, hread] at hnext
          simp only [tunToQuicStep, hread, findsLost]
          by_cases hlarge : maxTunDatagramBytes < (byte :: rest).length ∨
              path.maxDatagramSize.any (·.toNat < (byte :: rest).length)
          · rw [sendDatagramLossy, if_pos hlarge]
            refine Or.inl ⟨?_, Or.inl ⟨_, rfl⟩⟩
            rw [Bool.eq_false_iff, ne_eq, Bool.and_eq_true,
              handsOver_plain_iff]
            exact fun hboth => hboth.2 hlarge
          · rw [sendDatagramLossy, if_neg hlarge]
            rw [sendDatagramLossy, QuicPath.reopened, if_neg hlarge] at hnext
            cases hlost : pacer.send.lost with
            | none =>
                rw [QuicPath.reopened_of_open hlost] at hnext
                exact Or.inl ⟨rfl, Or.inl ⟨next, hnext⟩⟩
            | some reason =>
                refine Or.inr ⟨?_, reason, ?_⟩
                · rw [Option.isSome_some, Bool.true_and, handsOver_plain_iff]
                  exact hlarge
                · simp only [QuicPath.sendDatagram, hlost]

end Plain

section PhantomOne

variable {aead : Aead} {state : PhantomOneSender rng} {turn : SenderTurn}

/-- Only the hand-over depends on whether the connection is lost. -/
theorem send_lost {sender next : PhantomOneDatagramSender rng}
    {packet ciphertext : Bytes} {path handover : QuicPath} {reason : String}
    (hsent : sender.send aead packet path handover.reopened =
      (.ok ciphertext, next)) (hlost : handover.lost = some reason) :
    ∃ later, sender.send aead packet path handover =
      (.error (.transport "connection lost"), later) := by
  unfold PhantomOneDatagramSender.send at hsent ⊢
  cases hpath : phantomOnePathMtu path with
  | error error =>
      rw [hpath] at hsent
      cases hsent
  | ok pathMtu =>
      rcases hencode : sender.encoder.encode .data packet pathMtu with
        ⟨encoded, encoder⟩
      simp only [hpath, hencode] at hsent ⊢
      cases encoded with
      | error error => cases hsent
      | ok envelope =>
          rcases hencrypt : sender.sendCipher.encrypt aead envelope with
            ⟨encrypted, sendCipher⟩
          simp only [hencrypt] at hsent ⊢
          cases encrypted with
          | error error => cases hsent
          | ok sealed =>
              simp only [QuicPath.sendDatagramWait_lost hlost]
              exact ⟨_, rfl⟩

theorem phantomOneTunToQuicStep_ends
    (honly : Sending.OnlyCloses aead (.phantomOne state) turn) :
    EndsByClose (findsLost (.phantomOne state) turn)
      (phantomOneTunToQuicStep aead state turn) := by
  cases turn with
  | closed => exact Or.inl ⟨rfl, Or.inr ⟨false, rfl⟩⟩
  | packet read path waited pacer closedMeanwhile =>
      obtain ⟨next, hnext⟩ : ∃ next, phantomOneTunToQuicStep aead state
          (SenderTurn.packet read path waited pacer closedMeanwhile).reopened =
            .running next :=
        map_eq_running_iff.mp (honly.resolve_left nofun)
      cases hread : AsyncTunDevice.recvPacket read with
      | error error =>
          simp only [SenderTurn.reopened, phantomOneTunToQuicStep, hread]
            at hnext
          cases hnext
      | ok packet =>
          obtain ⟨byte, rest, rfl⟩ :=
            List.exists_cons_of_ne_nil (recvPacket_ok hread).1
          simp only [SenderTurn.reopened, phantomOneTunToQuicStep, hread]
            at hnext
          simp only [phantomOneTunToQuicStep, hread, findsLost,
            handsOver, Bool.and_true]
          -- the size limit of the path is the same
          rw [show state.sender.send aead (byte :: rest) path.reopened
            pacer.send.reopened = state.sender.send aead (byte :: rest) path
              pacer.send.reopened from rfl] at hnext
          rcases hsend : state.sender.send aead (byte :: rest) path
            pacer.send.reopened with ⟨answer, sender⟩
          rw [hsend] at hnext
          cases answer with
          | error error => cases hnext
          | ok ciphertext =>
              cases hlost : pacer.send.lost with
              | none =>
                  rw [QuicPath.reopened_of_open hlost] at hsend
                  rw [hsend]
                  exact Or.inl ⟨rfl, Or.inl ⟨next, hnext⟩⟩
              | some reason =>
                  obtain ⟨later, hfails⟩ := send_lost hsend hlost
                  rw [hfails]
                  exact Or.inr ⟨rfl, "connection lost", rfl⟩

end PhantomOne

section Shroud3

variable {sender : Shroud3Sender rng} {turn : SenderTurn}

/-- The checks of the pacer in their order. -/
theorem pacerSend_eq_ite (length delay : Nat) (pacer : PacerTurn) :
    DatagramPacer.send length delay pacer =
      if length ≤ 65535 ∧ delay ≤ fromMillis 1000 then
        if DatagramPacer.onTime delay pacer = true then
          if pacer.check.maxDatagramSize.any (length ≤ ·.toNat) = true then
            if pacer.handedOver = true then
              pacer.send.sendDatagramWait length
            else .error .timeout
          else
            .error (.protocol "paced datagram exceeds current carrier limit")
        else .error .timeout
      else
        .error (.invalidArgument "invalid paced datagram or timestamp") := by
  unfold DatagramPacer.send DatagramPacer.validateCarrierLimit ensure
  split_ifs <;> rfl

theorem paced_ends {pacer : PacerTurn} {length delay packetLen : Nat}
    {next : Shroud3Sender rng}
    (hnext : sender.paced packetLen (DatagramPacer.send length delay
      { pacer with
        check := pacer.check.reopened
        send := pacer.send.reopened }) = .running next) :
    EndsByClose (pacer.send.lost.isSome &&
        (DatagramPacer.onTime delay pacer &&
          pacer.check.maxDatagramSize.any (length ≤ ·.toNat) &&
            pacer.handedOver))
      (sender.paced packetLen (DatagramPacer.send length delay pacer)) := by
  rw [pacerSend_eq_ite] at hnext ⊢
  by_cases hvalid : length ≤ 65535 ∧ delay ≤ fromMillis 1000
  · rw [if_pos hvalid] at hnext ⊢
    by_cases htime : DatagramPacer.onTime delay pacer = true
    · by_cases hfits :
          pacer.check.maxDatagramSize.any (length ≤ ·.toNat) = true
      · by_cases hhanded : pacer.handedOver = true
        · rw [if_pos htime, if_pos hfits, if_pos hhanded]
          rw [if_pos (by exact htime), if_pos (by exact hfits),
            if_pos (by exact hhanded)] at hnext
          rw [htime, hfits, hhanded, Bool.and_self, Bool.and_self,
            Bool.and_true]
          cases hlost : pacer.send.lost with
          | none =>
              rw [QuicPath.reopened_of_open hlost] at hnext
              exact Or.inl ⟨rfl, Or.inl ⟨next, hnext⟩⟩
          | some reason =>
              rw [QuicPath.sendDatagramWait_lost hlost]
              exact Or.inr ⟨rfl, "connection lost", rfl⟩
        · rw [if_pos htime, if_pos hfits, if_neg hhanded]
          exact Or.inl ⟨by simp [hhanded], Or.inl ⟨_, rfl⟩⟩
      · rw [if_pos htime, if_neg hfits]
        exact Or.inl ⟨by simp [hfits], Or.inl ⟨_, rfl⟩⟩
    · rw [if_neg htime]
      exact Or.inl ⟨by simp [htime], Or.inl ⟨_, rfl⟩⟩
  · rw [if_neg hvalid] at hnext
    cases hnext

section Envelope

variable {read : TunRead} {packet : Bytes} {path : QuicPath} {limit : UInt16}
  {waited : Nat} {morphology : AdaptiveShroud3 rng}

/-- The turn of a packet that the engine puts into an envelope. -/
theorem shroud3Step_envelope {datagram : Bytes}
    (hread : AsyncTunDevice.recvPacket read = .ok packet)
    (hpath : path.maxDatagramSize = some limit)
    (hencode : encodeShroud3TunDatagram sender.morphology packet limit.toNat
      ⟨sender.elapsed + waited, 0⟩ = (.ok (some datagram), morphology))
    (pacer : PacerTurn) (closedMeanwhile : Bool) :
    shroud3TunToQuicStep sender
        (.packet read path waited pacer closedMeanwhile) =
      if closedMeanwhile then .ended ⟨false, .error .connectionClosed⟩
      else Shroud3Sender.paced
        ⟨sender.stats, morphology, sender.elapsed + waited⟩ packet.length
        (DatagramPacer.send datagram.length morphology.pendingDelay pacer) := by
  obtain ⟨byte, rest, rfl⟩ :=
    List.exists_cons_of_ne_nil (recvPacket_ok hread).1
  simp [shroud3TunToQuicStep, hread, hpath, hencode]

theorem envelope_dropped (hpath : path.maxDatagramSize = some limit)
    (hencode : encodeShroud3TunDatagram sender.morphology packet limit.toNat
      ⟨sender.elapsed + waited, 0⟩ = (.ok none, morphology)) :
    envelope sender packet path waited = none := by
  simp only [envelope, hpath, hencode]

theorem envelope_made {datagram : Bytes}
    (hpath : path.maxDatagramSize = some limit)
    (hencode : encodeShroud3TunDatagram sender.morphology packet limit.toNat
      ⟨sender.elapsed + waited, 0⟩ = (.ok (some datagram), morphology)) :
    envelope sender packet path waited =
      some (datagram, morphology.pendingDelay) := by
  simp only [envelope, hpath, hencode]

end Envelope

theorem shroud3TunToQuicStep_ends (aead : Aead)
    (honly : Sending.OnlyCloses aead (.shroud3 sender) turn) :
    EndsByClose (findsLost (.shroud3 sender) turn)
      (shroud3TunToQuicStep sender turn) := by
  cases turn with
  | closed => exact Or.inl ⟨rfl, Or.inr ⟨false, rfl⟩⟩
  | packet read path waited pacer closedMeanwhile =>
      obtain ⟨next, hnext⟩ : ∃ next, shroud3TunToQuicStep sender
          (SenderTurn.packet read path waited pacer closedMeanwhile).reopened =
            .running next :=
        map_eq_running_iff.mp (honly.resolve_left nofun)
      rw [SenderTurn.reopened] at hnext
      cases hread : AsyncTunDevice.recvPacket read with
      | error error =>
          simp only [shroud3TunToQuicStep, hread] at hnext
          cases hnext
      | ok packet =>
          simp only [findsLost, hread, handsOver]
          cases hpath : path.maxDatagramSize with
          | none =>
              obtain ⟨byte, rest, rfl⟩ :=
                List.exists_cons_of_ne_nil (recvPacket_ok hread).1
              simp only [shroud3TunToQuicStep, hread, QuicPath.reopened, hpath]
                at hnext
              cases hnext
          | some limit =>
              have hsame : path.reopened.maxDatagramSize = some limit := hpath
              rcases hencode : encodeShroud3TunDatagram sender.morphology
                packet limit.toNat ⟨sender.elapsed + waited, 0⟩ with
                ⟨encoded, morphology⟩
              rcases encoded with error | made
              · obtain ⟨byte, rest, rfl⟩ :=
                  List.exists_cons_of_ne_nil (recvPacket_ok hread).1
                simp only [shroud3TunToQuicStep, hread, hsame, hencode]
                  at hnext
                cases hnext
              · cases made with
                | none =>
                    rw [envelope_dropped hpath hencode, Option.any_none,
                      Bool.and_false, Bool.and_false]
                    obtain ⟨byte, rest, rfl⟩ :=
                      List.exists_cons_of_ne_nil (recvPacket_ok hread).1
                    simp only [shroud3TunToQuicStep, hread, hpath, hencode]
                    exact Or.inl ⟨rfl, Or.inl ⟨_, rfl⟩⟩
                | some datagram =>
                    rw [shroud3Step_envelope hread hsame hencode,
                      if_neg Bool.false_ne_true] at hnext
                    rw [shroud3Step_envelope hread hpath hencode,
                      envelope_made hpath hencode, Option.any_some]
                    cases closedMeanwhile with
                    | true =>
                        rw [if_pos rfl, Bool.not_true, Bool.false_and,
                          Bool.and_false]
                        exact Or.inl ⟨rfl, Or.inr ⟨false, rfl⟩⟩
                    | false =>
                        rw [if_neg Bool.false_ne_true, Bool.not_false,
                          Bool.true_and]
                        exact paced_ends hnext

end Shroud3

theorem Sending.step_ends {aead : Aead} {state : Sending rng}
    {turn : SenderTurn} (honly : OnlyCloses aead state turn) :
    EndsByClose (state.findsLost turn) (step aead state turn) := by
  cases state with
  | plain stats => exact (tunToQuicStep_ends aead honly).map _
  | shroud3 sender => exact (shroud3TunToQuicStep_ends aead honly).map _
  | phantomOne state => exact (phantomOneTunToQuicStep_ends honly).map _

theorem Incoming.step_ends {aead : Aead} {config : StandardsTunBridgeConfig}
    {state : Incoming} {turn : ReceiverTurn}
    (honly : OnlyCloses aead config state turn) :
    EndsByClose (findsLost turn) (step aead config state turn) := by
  rcases turn with - | ⟨path, reason | datagram, write⟩
  · refine Or.inl ⟨rfl, Or.inr ⟨false, ?_⟩⟩
    cases state with
    | plain receiving => rfl
    | shroud3 pathMtu receiving => rfl
    | phantomOne state => rfl
  · refine Or.inr ⟨rfl, reason, ?_⟩
    cases state with
    | plain receiving => rfl
    | shroud3 pathMtu receiving => rfl
    | phantomOne state =>
        cases hpath : phantomOnePathMtu path with
        | error error =>
            rw [OnlyCloses, hpath] at honly
            cases honly
        | ok pathMtu =>
            simp only [step, phantomOneQuicToTunStep,
              PhantomOneDatagramReceiver.recv, hpath, Outcome.map]
  · exact Or.inl ⟨rfl, Or.inl honly⟩

namespace Bridge

def OnlyCloses (aead : Aead) (config : StandardsTunBridgeConfig) :
    Bridge rng → SenderTurn ⊕ ReceiverTurn → Prop
  | ⟨.polling state, _⟩, .inl turn => state.OnlyCloses aead turn
  | ⟨_, .polling state⟩, .inr turn => state.OnlyCloses aead config turn
  | _, _ => True

def findsLost : Bridge rng → SenderTurn ⊕ ReceiverTurn → Bool
  | ⟨.polling state, _⟩, .inl turn => state.findsLost turn
  | ⟨_, .polling _⟩, .inr turn => Incoming.findsLost turn
  | _, _ => false

/-- Neither loop has finished. -/
def Polling (bridge : Bridge rng) : Prop :=
  ∃ sender receiver, bridge = ⟨.polling sender, .polling receiver⟩

theorem start_polling {config : StandardsTunBridgeConfig}
    {phantomOne : Option (PhantomOneState rng)} {path : QuicPath}
    {seeded : rng.State} {bridge : Bridge rng}
    (hstart : start config phantomOne path seeded = .ok bridge) :
    bridge.Polling := by
  unfold start at hstart
  rw [bind_eq_ok_iff] at hstart
  obtain ⟨-, -, hstart⟩ := hstart
  split_ifs at hstart
  · simp only [bind_eq_ok_iff] at hstart
    obtain ⟨-, -, morphology, -, pathMtu, -, hstart⟩ := hstart
    cases hstart
    exact ⟨_, _, rfl⟩
  · cases phantomOne with
    | none =>
        cases hstart
        exact ⟨_, _, rfl⟩
    | some state =>
        simp only [bind_eq_ok_iff] at hstart
        obtain ⟨halves, -, hstart⟩ := hstart
        cases hstart
        exact ⟨_, _, rfl⟩

section Steps

variable {aead : Aead} {config : StandardsTunBridgeConfig}
  {bridge : Bridge rng} {turn : SenderTurn ⊕ ReceiverTurn}

/-- What a turn of either loop does to the bridge. -/
theorem step_endsAs (hpolling : bridge.Polling)
    (honly : bridge.OnlyCloses aead config turn) :
    EndsAs (step aead config) Polling (fun bridge turn => bridge.findsLost turn)
      (.error .connectionClosed) bridge turn := by
  obtain ⟨sender, receiver, rfl⟩ := hpolling
  cases turn with
  | inl turn =>
      rcases step_ends honly with
        ⟨hfine, ⟨next, hnext⟩ | ⟨closes, hended⟩⟩ | ⟨hlost, reason, hended⟩
      · refine Or.inl ⟨Bool.eq_false_iff.mp hfine, Or.inl ⟨_,
          tryJoin_left_running ?_ receiver, next, receiver, rfl⟩⟩
        rw [resultOf, hnext]
      · refine Or.inl ⟨Bool.eq_false_iff.mp hfine,
          Or.inr (tryJoin_left_error ?_ _)⟩
        rw [resultOf, hended]
      · refine Or.inr ⟨hlost, .error (.transport reason), nofun,
          tryJoin_left_error ?_ _⟩
        rw [resultOf, hended]
  | inr turn =>
      rcases Incoming.step_ends honly with
        ⟨hfine, ⟨next, hnext⟩ | ⟨closes, hended⟩⟩ | ⟨hlost, reason, hended⟩
      · refine Or.inl ⟨Bool.eq_false_iff.mp hfine, Or.inl ⟨_,
          tryJoin_right_running ?_ sender, sender, next, rfl⟩⟩
        rw [resultOf, hnext]
      · refine Or.inl ⟨Bool.eq_false_iff.mp hfine,
          Or.inr (tryJoin_right_error ?_ _)⟩
        rw [resultOf, hended]
      · refine Or.inr ⟨hlost, .error (.transport reason), nofun,
          tryJoin_right_error ?_ _⟩
        rw [resultOf, hended]

theorem step_keeps_polling {next : Bridge rng} (hpolling : bridge.Polling)
    (hnext : step aead config bridge turn = .running next)
    (honly : bridge.OnlyCloses aead config turn) : next.Polling := by
  rcases step_endsAs hpolling honly with
    ⟨-, ⟨other, hother, hkept⟩ | hended⟩ | ⟨-, other, -, hended⟩
  · rw [hother] at hnext
    cases hnext
    exact hkept
  · rw [hended] at hnext
    cases hnext
  · rw [hended] at hnext
    cases hnext

/-- A turn that takes the close ends the bridge. -/
theorem step_closed (hpolling : bridge.Polling)
    (hclosed : turn = .inl .closed ∨ turn = .inr .closed) :
    step aead config bridge turn = .ended (.error .connectionClosed) := by
  obtain ⟨sender, receiver, rfl⟩ := hpolling
  rcases hclosed with rfl | rfl
  · refine tryJoin_left_error ?_ _
    cases sender with
    | plain stats => rfl
    | shroud3 sender => rfl
    | phantomOne state => rfl
  · refine tryJoin_right_error ?_ _
    cases receiver with
    | plain receiving => rfl
    | shroud3 pathMtu receiving => rfl
    | phantomOne state => rfl

end Steps

/-- The bridge ends once a loop takes the close of the connection, and what it
returns is the close exactly if no turn found the connection lost before.
Nothing else is to go wrong: with an open connection every turn would have led
to the next. -/
theorem peer_close_reported_iff {aead : Aead}
    {config : StandardsTunBridgeConfig}
    {phantomOne : Option (PhantomOneState rng)} {path : QuicPath}
    {seeded : rng.State} {bridge : Bridge rng}
    (hstart : start config phantomOne path seeded = .ok bridge)
    {turns : List (SenderTurn ⊕ ReceiverTurn)}
    (honly : Along (step aead config) (OnlyCloses aead config) bridge turns) :
    (∀ result, runTurns aead config phantomOne path seeded turns =
        .ended result →
      (result = .error .connectionClosed ↔
        Along (step aead config) (fun bridge turn => ¬ bridge.findsLost turn)
          bridge turns)) ∧
    (.inl .closed ∈ turns ∨ .inr .closed ∈ turns →
      ∃ result, runTurns aead config phantomOne path seeded turns =
        .ended result) := by
  have hpolling := start_polling hstart
  simp only [runTurns, hstart]
  constructor
  · intro result hresult
    cases hrun : run (step aead config) bridge turns with
    | running last =>
        rw [hrun] at hresult
        cases hresult
    | ended pair =>
        rw [hrun] at hresult
        cases hresult
        rw [← ended_as_iff (fun _ _ => step_endsAs) hpolling honly hrun]
        cases pair with
        | error error =>
            constructor
            · rintro ⟨⟩
              rfl
            · rintro ⟨⟩
              rfl
        | ok stats => exact iff_of_false nofun nofun
  · intro hclosed
    obtain ⟨last, hmem, hlast⟩ : ∃ last ∈ turns,
        last = .inl .closed ∨ last = .inr .closed := by
      rcases hclosed with hmem | hmem
      · exact ⟨_, hmem, Or.inl rfl⟩
      · exact ⟨_, hmem, Or.inr rfl⟩
    have hkeeps : ∀ (state : Bridge rng) turn next, state.Polling →
        step aead config state turn = .running next →
        state.OnlyCloses aead config turn → next.Polling :=
      fun _ _ _ => step_keeps_polling
    obtain ⟨pair, hrun⟩ := ended_of_mem hkeeps
      (fun _ hkept => ⟨_, step_closed hkept hlast⟩) hpolling honly hmem
    rw [hrun]
    exact ⟨_, rfl⟩

end Bridge

namespace BridgeWitness

open Bridge SendingWitness

def config : StandardsTunBridgeConfig := ⟨64, false⟩

def plain : Bridge Rng.zeros :=
  ⟨.polling (.plain .default), .polling (.plain .default)⟩

theorem start_plain :
    Bridge.start config (none : Option (PhantomOneState Rng.zeros))
      (path 1400) () = .ok plain := rfl

/-- What the peer's close says. -/
def closedByPeer : String := "closed by peer: 0"

def lostPath : QuicPath := { path 1400 with lost := some closedByPeer }

/-- A packet is sent, then the receiving loop takes the close. -/
def orderly : List (SenderTurn ⊕ ReceiverTurn) :=
  [.inl (turn 1400), .inr .closed]

theorem step_turn : ∃ next, Sending.step aead
    (.plain .default : Sending Rng.zeros) (turn 1400) = .running next := by
  simp only [turn, Sending.step, map_eq_running_iff]
  exact ⟨_, tunToQuicStep_packet recvPacket_packet rfl rfl⟩

theorem peer_close_reported_orderly :
    (∀ result, runTurns aead config
        (none : Option (PhantomOneState Rng.zeros)) (path 1400) () orderly =
          .ended result →
      (result = .error .connectionClosed ↔
        Along (Bridge.step aead config)
          (fun bridge turn => ¬ bridge.findsLost turn) plain orderly)) ∧
    (.inl .closed ∈ orderly ∨ .inr .closed ∈ orderly →
      ∃ result, runTurns aead config
        (none : Option (PhantomOneState Rng.zeros)) (path 1400) () orderly =
          .ended result) := by
  refine peer_close_reported_iff start_plain
    ⟨Or.inr step_turn, fun next hnext => ?_⟩
  obtain ⟨sender, hsender⟩ := step_turn
  rw [Bridge.step, plain, tryJoin_left_running (by rw [resultOf, hsender])]
    at hnext
  cases hnext
  refine ⟨trivial, fun last hlast => ?_⟩
  rw [step_closed ⟨_, _, rfl⟩ (Or.inr rfl)] at hlast
  cases hlast

/-- The receiving loop finds the close and the failed read ready at once and
takes the read. -/
theorem read_taken_before_close :
    Bridge.start config (none : Option (PhantomOneState Rng.zeros))
        (path 1400) () = .ok plain ∧
      Along (Bridge.step aead config) (OnlyCloses aead config) plain
        [.inr (.datagram lostPath (.error closedByPeer) (.ok 0))] ∧
      runTurns aead config (none : Option (PhantomOneState Rng.zeros))
          (path 1400) ()
          [.inr (.datagram lostPath (.error closedByPeer) (.ok 0))] =
        .ended (.error (.transport closedByPeer)) := by
  refine ⟨start_plain, ⟨trivial, fun next hnext => ?_⟩, rfl⟩
  cases hnext

end BridgeWitness

end StandardsTun

end Shph
