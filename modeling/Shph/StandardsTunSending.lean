/-
The sending loops of the bridge and packets that are too large for the path.
Only a failed read of the device may end a loop while the connection is open
and takes datagrams.  The plain loop keeps to that; the loop with Shroud 3
does unless the path shrinks between the check of the pacer and the send, and
the loop with Phantom One only as long as every packet fits.
-/
import Shph.PhantomOneFits
import Shph.Shroud3Envelope

namespace Shph.StandardsTun

open ByteCodec LoopRun Shroud3 AsyncTunDevice DatagramPacer PhantomOneEncoder
variable {rng : Rng}

/-- The state of a sending loop, in one of the three modes. -/
inductive Sending (rng : Rng) where
  | plain (stats : StandardsTunBridgeStats)
  | shroud3 (sender : Shroud3Sender rng)
  | phantomOne (state : PhantomOneSender rng)

namespace Sending

def stats : Sending rng → StandardsTunBridgeStats
  | plain stats => stats
  | shroud3 sender => sender.stats
  | phantomOne state => state.stats

def step (aead : Aead) : Sending rng → SenderTurn → LoopStep (Sending rng)
  | plain stats, turn => (tunToQuicStep stats turn).map plain
  | shroud3 sender, turn => (shroud3TunToQuicStep sender turn).map shroud3
  | phantomOne state, turn =>
      (phantomOneTunToQuicStep aead state turn).map phantomOne

/-- How `run` starts the loops. -/
inductive Starts : Sending rng → Prop where
  | plain : Starts (plain .default)
  | shroud3 {morphology : AdaptiveShroud3 rng} {seeded : rng.State}
      (hnew : AdaptiveShroud3.withRng rng .default seeded = .ok morphology) :
      Starts (shroud3 ⟨.default, morphology, 0⟩)
  | phantomOne {sender : PhantomOneDatagramSender rng} {profile : ProfileTier}
      (hprofile : sender.encoder.config = .forProfile profile) :
      Starts (phantomOne ⟨.default, sender⟩)

/-- The envelope that the engine makes of a packet. -/
def envelope (sender : Shroud3Sender rng) (packet : Bytes) (path : QuicPath)
    (waited : Nat) : Option (Bytes × Nat) :=
  match path.maxDatagramSize with
  | none => none
  | some pathMtu =>
      match encodeShroud3TunDatagram sender.morphology packet pathMtu.toNat
          ⟨sender.elapsed + waited, 0⟩ with
      | (.ok (some datagram), morphology) =>
          some (datagram, morphology.pendingDelay)
      | _ => none

/-- A packet that is too large for the path when the size is checked or when
it is handed over. -/
def plainTooLarge (packet : Bytes) (path send : QuicPath) : Bool :=
  maxTunDatagramBytes < packet.length ||
    path.maxDatagramSize.any (·.toNat < packet.length) ||
    send.maxDatagramSize.any (·.toNat < packet.length)

/-- With Shroud 3 the header has to fit as well, and the envelope when the
pacer looks at it. -/
def shroud3TooLarge (sender : Shroud3Sender rng) (packet : Bytes)
    (path : QuicPath) (waited : Nat) (pacer : PacerTurn) : Bool :=
  path.maxDatagramSize.any (·.toNat < packet.length + shroud3HeaderBytes) ||
    (envelope sender packet path waited).any fun made =>
      onTime made.2 pacer &&
        pacer.check.maxDatagramSize.any (·.toNat < made.1.length)

/-- With Phantom One the profile needs a size for the packet. -/
def phantomOneTooLarge (state : PhantomOneSender rng) (packet : Bytes)
    (path : QuicPath) : Bool :=
  path.maxDatagramSize.any fun limit =>
    !(fitsProfile state.sender.encoder.config.profile
      packet.length (limit.toNat - shphAeadOverheadBytes))

def packetTooLarge (state : Sending rng) (packet : Bytes) (path : QuicPath)
    (waited : Nat) (pacer : PacerTurn) : Bool :=
  match state with
  | plain _ => plainTooLarge packet path pacer.send
  | shroud3 sender => shroud3TooLarge sender packet path waited pacer
  | phantomOne state => phantomOneTooLarge state packet path

/-- The packet of this turn is too large for the path. -/
def tooLarge (state : Sending rng) : SenderTurn → Bool
  | .closed => false
  | .packet read path waited pacer _ =>
      match recvPacket read with
      | .error _ => false
      | .ok packet => state.packetTooLarge packet path waited pacer

/-- What the loops rely on.  With Shroud 3 an envelope that passed the check
of the pacer still fits when it is sent; with Phantom One every packet fits
and its envelope still does when it is sent, and neither the sequence numbers
nor the nonces are used up. -/
def Steady : Sending rng → SenderTurn → Prop
  | plain _, _ => True
  | _, .closed => True
  | shroud3 sender, .packet read path waited pacer _ =>
      ∀ packet, recvPacket read = .ok packet →
        ∀ made ∈ envelope sender packet path waited,
          onTime made.2 pacer = true →
          pacer.handedOver = true →
          pacer.check.maxDatagramSize.any (made.1.length ≤ ·.toNat) = true →
          pacer.send.maxDatagramSize.any (made.1.length ≤ ·.toNat) = true
  | phantomOne state, turn@(.packet read path _ pacer _) =>
      state.sender.encoder.nextSequence.isSome = true ∧
      state.sender.sendCipher.nonce < aeadNonceLimit ∧
      tooLarge (phantomOne state) turn = false ∧
      ∀ packet pathMtu envelope encoder,
        recvPacket read = .ok packet →
        phantomOnePathMtu path = .ok pathMtu →
        state.sender.encoder.encode .data packet pathMtu =
          (.ok envelope, encoder) →
        pacer.send.maxDatagramSize.any
          (envelope.length + shphAeadOverheadBytes ≤ ·.toNat) = true

/-- What keeps an encoder of a loop working. -/
def Ready : Sending rng → Prop
  | plain _ => True
  | shroud3 sender => sender.morphology.config = .default ∧
      ∀ last ∈ sender.morphology.lastObservation, last ≤ sender.elapsed
  | phantomOne state => ∃ profile,
      state.sender.encoder.config = .forProfile profile

theorem tooLarge_packet (state : Sending rng) {read : TunRead}
    {packet : Bytes} (hread : recvPacket read = .ok packet)
    (path : QuicPath) (waited : Nat) (pacer : PacerTurn)
    (closedMeanwhile : Bool) :
    tooLarge state (.packet read path waited pacer closedMeanwhile) =
      state.packetTooLarge packet path waited pacer := by
  rw [tooLarge, hread]

theorem Starts.ready {state : Sending rng} (hstarts : Starts state) :
    Ready state ∧ state.stats = .default := by
  cases hstarts with
  | plain => exact ⟨trivial, rfl⟩
  | shroud3 hnew =>
      rw [AdaptiveShroud3.withRng, bind_eq_ok_iff] at hnew
      obtain ⟨-, -, hnew⟩ := hnew
      cases hnew
      exact ⟨⟨rfl, by simp⟩, rfl⟩
  | phantomOne hprofile => exact ⟨⟨_, hprofile⟩, rfl⟩

end Sending

/-- The connection stays open and takes datagrams throughout the turn. -/
def CapableTurn : SenderTurn → Prop
  | .closed => False
  | .packet _ path _ pacer closedMeanwhile =>
      path.isCapable = true ∧ pacer.check.isCapable = true ∧
        pacer.send.isCapable = true ∧ closedMeanwhile = false

/-- The read of the device fails with this error. -/
def DeviceFails (error : ShphError) : SenderTurn → Prop
  | .closed => False
  | .packet read _ _ _ _ => recvPacket read = .error error

/-- The cipher takes every plaintext of a 16-bit length. -/
def SealsEnvelopes (aead : Aead) : Prop :=
  ∀ key nonce plaintext, plaintext.length ≤ 2 ^ 16 - 1 →
    (aead.encrypt key nonce plaintext).isSome = true

theorem isCapable_iff {path : QuicPath} :
    path.isCapable = true ↔
      ∃ limit, path = ⟨none, true, some limit⟩ := by
  obtain ⟨lost, enabled, size⟩ := path
  cases lost <;> cases enabled <;> cases size <;> simp [QuicPath.isCapable]

theorem sendDatagramWait_capable (limit : UInt16) (length : Nat) :
    (QuicPath.mk none true (some limit)).sendDatagramWait length =
      if limit.toNat < length then .error (.transport "datagram too large")
      else .ok () := by
  unfold QuicPath.sendDatagramWait QuicPath.sendDatagram
  by_cases hlong : limit.toNat < length
  · simp [hlong, SendDatagramError.toText]
  · simp [hlong]

/-- A packet that the device hands over is not empty. -/
theorem recvPacket_ok {read : TunRead} {packet : Bytes}
    (hread : recvPacket read = .ok packet) :
    packet ≠ [] ∧ packet.length ≤ maxTunPacketBytes ∧
      validateIpPacket packet = .ok () := by
  cases read with
  | failed kind => cases hread
  | bytes data =>
      simp only [recvPacket, bind_eq_ok_iff, ensure_eq_ok_iff, exists_const,
        pure_eq_ok_iff] at hread
      obtain ⟨hlength, hnonempty, ⟨⟩, hvalid, rfl⟩ := hread
      exact ⟨hnonempty, hlength, hvalid⟩

namespace Sending

/-- What a turn should lead to: the next turn, with a packet that is too large
counted, unless the device fails. -/
def Survives (state : Sending rng) (turn : SenderTurn)
    (outcome : LoopStep (Sending rng)) : Prop :=
  (∃ next, outcome = .running next ∧ Ready next ∧
    next.stats.droppedOversizedPackets =
      if tooLarge state turn then
        saturatingAdd state.stats.droppedOversizedPackets 1
      else state.stats.droppedOversizedPackets) ∨
  ∃ error, DeviceFails error turn ∧ outcome = .ended ⟨true, .error error⟩

section Plain

variable {stats : StandardsTunBridgeStats} {read : TunRead} {packet : Bytes}
  {path : QuicPath} {waited : Nat} {pacer : PacerTurn} {closedMeanwhile : Bool}

theorem tunToQuicStep_packet
    (hread : recvPacket read = .ok packet)
    {limit last : UInt16} (hpath : path = ⟨none, true, some limit⟩)
    (hsend : pacer.send = ⟨none, true, some last⟩) :
    tunToQuicStep stats (.packet read path waited pacer closedMeanwhile) =
      .running (if maxTunDatagramBytes < packet.length ∨
          limit.toNat < packet.length ∨ last.toNat < packet.length then
        stats.droppedOversized else stats.sent packet.length) := by
  obtain ⟨byte, rest, rfl⟩ := List.exists_cons_of_ne_nil
    (recvPacket_ok hread).1
  simp only [tunToQuicStep, hread, sendDatagramLossy, hpath, hsend,
    Option.any_some, decide_eq_true_eq, QuicPath.sendDatagram]
  by_cases hfirst : maxTunDatagramBytes < (byte :: rest).length ∨
      limit.toNat < (byte :: rest).length
  · rw [if_pos hfirst, if_pos (hfirst.imp_right Or.inl)]
  · by_cases hsecond : last.toNat < (byte :: rest).length
    · rw [if_neg hfirst, if_pos hsecond, if_pos (Or.inr (Or.inr hsecond))]
    · rw [if_neg hfirst, if_neg hsecond, if_neg (by tauto)]

end Plain

theorem plain_survives (aead : Aead) (stats : StandardsTunBridgeStats)
    {turn : SenderTurn} (hcapable : CapableTurn turn) :
    Survives (plain stats : Sending rng) turn
      (step aead (plain stats) turn) := by
  cases turn with
  | closed => exact absurd hcapable id
  | packet read path waited pacer closedMeanwhile =>
      obtain ⟨hpath, -, hsend, -⟩ := hcapable
      obtain ⟨limit, rfl⟩ := isCapable_iff.mp hpath
      obtain ⟨last, hlast⟩ := isCapable_iff.mp hsend
      cases hread : recvPacket read with
      | error error =>
          exact Or.inr ⟨error, hread, by simp [step, tunToQuicStep, hread,
            Outcome.map]⟩
      | ok packet =>
          refine Or.inl ⟨_, congrArg (Outcome.map plain)
            (tunToQuicStep_packet hread rfl hlast), trivial, ?_⟩
          rw [tooLarge_packet _ hread]
          simp only [packetTooLarge, plainTooLarge, hlast, Option.any_some,
            Bool.or_eq_true, decide_eq_true_eq, or_assoc]
          simp only [Sending.stats]
          split
          · rfl
          · rfl

section Shroud3

variable {sender : Shroud3Sender rng} {read : TunRead} {packet : Bytes}
  {path : QuicPath} {waited : Nat} {pacer : PacerTurn}

/-- A packet that does not fit is dropped before the pacer sees it. -/
theorem shroud3Step_dropped
    (hread : recvPacket read = .ok packet) {limit : UInt16}
    (hpath : path.maxDatagramSize = some limit)
    (hlong : limit.toNat < packet.length + shroud3HeaderBytes) :
    shroud3TunToQuicStep sender (.packet read path waited pacer false) =
      .running ⟨sender.stats.droppedOversized, sender.morphology,
        sender.elapsed + waited⟩ := by
  obtain ⟨hnonempty, hlength, -⟩ := recvPacket_ok hread
  obtain ⟨byte, rest, rfl⟩ := List.exists_cons_of_ne_nil hnonempty
  have hsum : saturatingAdd (byte :: rest).length shroud3HeaderBytes =
      (byte :: rest).length + shroud3HeaderBytes := by
    unfold maxTunPacketBytes at hlength
    unfold shroud3HeaderBytes saturatingAdd u64Max
    omega
  simp only [shroud3TunToQuicStep, hread, hpath, encodeShroud3TunDatagram,
    hsum]
  rw [if_pos (Or.inr hlong)]

/-- A packet that fits goes through the pacer in its envelope. -/
theorem shroud3Step_paced (hrng : rng.Infallible)
    (hread : recvPacket read = .ok packet) {limit : UInt16}
    (hpath : path.maxDatagramSize = some limit)
    (hfits : packet.length + shroud3HeaderBytes ≤ limit.toNat)
    (hmonotone : ∀ last ∈ sender.morphology.lastObservation,
      last ≤ sender.elapsed) :
    ∃ datagram next,
      sender.morphology.Emits packet limit.toNat
        ⟨sender.elapsed + waited, 0⟩ datagram next ∧
      envelope sender packet path waited =
        some (datagram, next.pendingDelay) ∧
      shroud3TunToQuicStep sender (.packet read path waited pacer false) =
        Shroud3Sender.paced ⟨sender.stats, next, sender.elapsed + waited⟩
          packet.length (DatagramPacer.send datagram.length
            next.pendingDelay pacer) := by
  obtain ⟨hnonempty, hlength, -⟩ := recvPacket_ok hread
  have hlimit := limit.toNat_lt
  have hsum : saturatingAdd packet.length shroud3HeaderBytes =
      packet.length + shroud3HeaderBytes := by
    unfold maxTunPacketBytes at hlength
    unfold shroud3HeaderBytes saturatingAdd u64Max
    omega
  have hpathMtu : limit.toNat ≤ maxShroud3DatagramBytes := by
    unfold maxShroud3DatagramBytes
    omega
  obtain ⟨datagram, next, hencode, hemits⟩ : ∃ bytes next,
      sender.morphology.encode packet limit.toNat
          ⟨sender.elapsed + waited, 0⟩ = (.ok bytes, next) ∧
        sender.morphology.Emits packet limit.toNat
          ⟨sender.elapsed + waited, 0⟩ bytes next :=
    AdaptiveShroud3.encode_of_fits hrng hpathMtu hnonempty hfits
      fun last hlast =>
        Nat.le_trans (hmonotone last hlast) (Nat.le_add_right _ _)
  have henvelope : encodeShroud3TunDatagram sender.morphology packet
      limit.toNat ⟨sender.elapsed + waited, 0⟩ = (.ok (some datagram), next) := by
    rw [encodeShroud3TunDatagram, hsum, if_neg (by omega), hencode]
  refine ⟨datagram, next, hemits, ?_, ?_⟩
  · simp only [envelope, hpath, henvelope]
  · obtain ⟨byte, rest, rfl⟩ := List.exists_cons_of_ne_nil hnonempty
    simp [shroud3TunToQuicStep, hread, hpath, henvelope]

/-- What the pacer does with an envelope while the connection is open. -/
theorem pacerSend_eq {length delay : Nat} {checked last : UInt16}
    (hlength : length ≤ 65535) (hdelay : delay ≤ fromMillis 1000)
    (hcheck : pacer.check.maxDatagramSize = some checked)
    (hsend : pacer.send = ⟨none, true, some last⟩) :
    DatagramPacer.send length delay pacer =
      if onTime delay pacer = false then .error .timeout
      else if checked.toNat < length then
        .error (.protocol "paced datagram exceeds current carrier limit")
      else if pacer.handedOver = false then .error .timeout
      else if last.toNat < length then
        .error (.transport "datagram too large")
      else .ok () := by
  simp only [DatagramPacer.send, validateCarrierLimit, hcheck,
    hsend, sendDatagramWait_capable, Option.any_some, decide_eq_true_eq]
  rw [ensure, if_pos ⟨hlength, hdelay⟩]
  cases honTime : onTime delay pacer with
  | false => rfl
  | true =>
      by_cases hchecked : checked.toNat < length
      · simp [ensure, hchecked, Nat.not_le.mpr hchecked, bind, Except.bind]
      · cases hhanded : pacer.handedOver with
        | false =>
            simp [ensure, hchecked, Nat.le_of_not_lt hchecked, bind,
              Except.bind]
        | true =>
            simp [ensure, hchecked, Nat.le_of_not_lt hchecked, bind,
              Except.bind]

/-- The pacer ends the loop with no envelope that still fits when it is sent,
and one that does not fit when the pacer checks it is counted. -/
theorem paced_running {length delay : Nat} {checked last : UInt16}
    (hlength : length ≤ 65535) (hdelay : delay ≤ fromMillis 1000)
    (hcheck : pacer.check.maxDatagramSize = some checked)
    (hsend : pacer.send = ⟨none, true, some last⟩)
    (hstill : onTime delay pacer = true →
      pacer.handedOver = true → length ≤ checked.toNat →
        length ≤ last.toNat) (packetLen : Nat) :
    ∃ stats, sender.paced packetLen (DatagramPacer.send length delay pacer) =
        .running { sender with stats } ∧
      stats.droppedOversizedPackets =
        if onTime delay pacer && checked.toNat < length then
          saturatingAdd sender.stats.droppedOversizedPackets 1
        else sender.stats.droppedOversizedPackets := by
  rw [pacerSend_eq hlength hdelay hcheck hsend]
  by_cases honTime : onTime delay pacer = true
  · rw [if_neg (by simp [honTime])]
    by_cases hlong : checked.toNat < length
    · rw [if_pos hlong, if_pos (by simp [honTime, hlong])]
      exact ⟨sender.stats.droppedOversized, rfl, rfl⟩
    · have hother : ¬ (onTime delay pacer &&
          checked.toNat < length) = true := by simp [hlong]
      rw [if_neg hlong, if_neg hother]
      by_cases hhanded : pacer.handedOver = true
      · have hfits := hstill honTime hhanded (Nat.le_of_not_lt hlong)
        rw [if_neg (by simp [hhanded]), if_neg (Nat.not_lt.mpr hfits)]
        exact ⟨sender.stats.sent packetLen, rfl, rfl⟩
      · rw [if_pos (by simpa using hhanded)]
        exact ⟨sender.stats.droppedPacing, rfl, rfl⟩
  · have hother : ¬ (onTime delay pacer &&
        checked.toNat < length) = true := by simp [honTime]
    rw [if_pos (by simpa using honTime), if_neg hother]
    exact ⟨sender.stats.droppedPacing, rfl, rfl⟩

theorem shroud3TooLarge_of_envelope {limit checked : UInt16}
    {datagram : Bytes} {delay : Nat}
    (hfits : packet.length + shroud3HeaderBytes ≤ limit.toNat)
    (henvelope : envelope sender packet ⟨none, true, some limit⟩ waited =
      some (datagram, delay))
    (hcheck : pacer.check.maxDatagramSize = some checked) :
    shroud3TooLarge sender packet ⟨none, true, some limit⟩ waited pacer =
      (onTime delay pacer &&
        checked.toNat < datagram.length) := by
  rw [shroud3TooLarge, henvelope, hcheck, Option.any_some, Option.any_some,
    Option.any_some, decide_eq_false (Nat.not_lt.mpr hfits), Bool.false_or]

end Shroud3

theorem shroud3_survives (aead : Aead) (hrng : rng.Infallible)
    (sender : Shroud3Sender rng) {turn : SenderTurn}
    (hready : Ready (shroud3 sender)) (hcapable : CapableTurn turn)
    (hsteady : Steady (shroud3 sender) turn) :
    Survives (shroud3 sender) turn (step aead (shroud3 sender) turn) := by
  cases turn with
  | closed => exact absurd hcapable id
  | packet read path waited pacer closedMeanwhile =>
      obtain ⟨hpath, hcheck, hsend, rfl⟩ := hcapable
      obtain ⟨limit, rfl⟩ := isCapable_iff.mp hpath
      obtain ⟨checked, hchecked⟩ := isCapable_iff.mp hcheck
      obtain ⟨last, hlast⟩ := isCapable_iff.mp hsend
      have hcheckedSize : pacer.check.maxDatagramSize = some checked := by
        rw [hchecked]
      obtain ⟨hconfig, hmonotone⟩ := hready
      cases hread : recvPacket read with
      | error error =>
          exact Or.inr ⟨error, hread, by simp [step, shroud3TunToQuicStep,
            hread, Outcome.map]⟩
      | ok packet =>
          refine Or.inl ?_
          by_cases hlong : limit.toNat < packet.length + shroud3HeaderBytes
          · refine ⟨_, congrArg (Outcome.map shroud3)
              (shroud3Step_dropped hread rfl hlong), ⟨hconfig, ?_⟩, ?_⟩
            · intro last hmem
              exact Nat.le_trans (hmonotone last hmem) (Nat.le_add_right _ _)
            · have hlarge : shroud3TooLarge sender packet
                  ⟨none, true, some limit⟩ waited pacer = true := by
                simp [shroud3TooLarge, hlong]
              rw [tooLarge_packet _ hread, packetTooLarge, hlarge, if_pos rfl]
              rfl
          · obtain ⟨datagram, next, hemits, henvelope, hstep⟩ :
                ∃ datagram next,
                  sender.morphology.Emits packet limit.toNat
                    ⟨sender.elapsed + waited, 0⟩ datagram next ∧
                  envelope sender packet ⟨none, true, some limit⟩ waited =
                    some (datagram, next.pendingDelay) ∧
                  shroud3TunToQuicStep sender (.packet read
                      ⟨none, true, some limit⟩ waited pacer false) =
                    Shroud3Sender.paced
                      ⟨sender.stats, next, sender.elapsed + waited⟩
                      packet.length (DatagramPacer.send datagram.length
                        next.pendingDelay pacer) :=
              shroud3Step_paced hrng hread rfl (Nat.le_of_not_lt hlong)
                hmonotone
            have hlength := hemits.length_le.2
            have hlimit := limit.toNat_lt
            have hready : next.config = .default ∧
                ∀ last ∈ next.lastObservation,
                  last ≤ sender.elapsed + waited := by
              refine ⟨hemits.config_eq.trans hconfig, ?_⟩
              rw [hemits.lastObservation_eq]
              simp
            have hshort : datagram.length ≤ 65535 := by omega
            obtain ⟨stats, hpaced, hcount⟩ := paced_running hshort
              (Nat.le_of_lt (hemits.delay_lt hconfig)) hcheckedSize hlast
              (fun honTime hhanded hfits => by
                simpa [hlast] using hsteady packet hread _ henvelope honTime
                  hhanded (by simpa [hcheckedSize] using hfits))
              packet.length
            have hrunning : shroud3TunToQuicStep sender (.packet read
                ⟨none, true, some limit⟩ waited pacer false) =
                  .running ⟨stats, next, sender.elapsed + waited⟩ :=
              hstep.trans hpaced
            have hlarge : shroud3TooLarge sender packet
                ⟨none, true, some limit⟩ waited pacer =
                  (onTime next.pendingDelay pacer &&
                    checked.toNat < datagram.length) :=
              shroud3TooLarge_of_envelope (Nat.le_of_not_lt hlong) henvelope
                hcheckedSize
            refine ⟨_, congrArg (Outcome.map shroud3) hrunning, hready, ?_⟩
            rw [tooLarge_packet _ hread, packetTooLarge, hlarge]
            exact hcount

section PhantomOne

variable {state : PhantomOneSender rng} {read : TunRead} {packet : Bytes}
  {waited : Nat} {pacer : PacerTurn} {closedMeanwhile : Bool}

/-- What a profile needs leaves room for the header. -/
theorem phantomOnePathMtu_of_fits {profile : ProfileTier} {length : Nat}
    {limit : UInt16} (hfits : fitsProfile profile length
      (limit.toNat - shphAeadOverheadBytes) = true) :
    phantomOnePathMtu ⟨none, true, some limit⟩ =
      .ok (limit.toNat - shphAeadOverheadBytes) := by
  obtain ⟨size, -, hleast, -, hmost⟩ :=
    fitsProfile_iff.mp hfits
  unfold phantomOneHeaderBytes at hleast
  have hroom : shphAeadOverheadBytes ≤ limit.toNat := by omega
  have hheader : phantomOneHeaderBytes ≤
      limit.toNat - shphAeadOverheadBytes := by
    unfold phantomOneHeaderBytes
    omega
  simp [phantomOnePathMtu, okOr, checkedSub, hroom, ensure, hheader, bind,
    Except.bind, pure, Except.pure]

/-- A packet that fits is sent, under the next number and the next nonce. -/
theorem phantomOneSend_of_fits {sender : PhantomOneDatagramSender rng}
    {aead : Aead} {profile : ProfileTier} {limit last : UInt16}
    (haead : SealsEnvelopes aead) (hrng : rng.Infallible)
    (hconfig : sender.encoder.config = .forProfile profile)
    (hsequence : sender.encoder.nextSequence.isSome = true)
    (hnonce : sender.sendCipher.nonce < aeadNonceLimit)
    (hfits : fitsProfile profile packet.length
      (limit.toNat - shphAeadOverheadBytes) = true)
    (hstill : ∀ envelope encoder, sender.encoder.encode .data packet
          (limit.toNat - shphAeadOverheadBytes) = (.ok envelope, encoder) →
        envelope.length + shphAeadOverheadBytes ≤ last.toNat) :
    ∃ ciphertext next, sender.send aead packet ⟨none, true, some limit⟩
        ⟨none, true, some last⟩ = (.ok ciphertext, next) ∧
      next.encoder.config = .forProfile profile ∧
      next.encoder.nextSequence =
        sender.encoder.nextSequence.bind (checkedAdd · 1) ∧
      next.sendCipher.nonce = sender.sendCipher.nonce + 1 := by
  have hlimit : limit.toNat - shphAeadOverheadBytes ≤
      phantomOneMaxEnvelopeBytes := by
    have hsmall := limit.toNat_lt
    unfold phantomOneMaxEnvelopeBytes
    omega
  obtain ⟨ciphertext, next, hseal, hnextConfig, hnextSequence, hnextNonce,
      envelope, encoder, hencode, hlength⟩ :=
    seal_of_fits haead hrng hconfig hsequence hnonce .data hlimit hfits
  have hroom : ¬ last.toNat < ciphertext.length := by
    have hbound := hstill _ _ hencode
    omega
  refine ⟨ciphertext, next, ?_, hnextConfig, hnextSequence, hnextNonce⟩
  simp only [send_eq_seal, phantomOnePathMtu_of_fits hfits, hseal,
    sendDatagramWait_capable, if_neg hroom]

/-- The step of a packet that fits. -/
theorem phantomOneStep_sent {aead : Aead} {profile : ProfileTier}
    {limit last : UInt16} (haead : SealsEnvelopes aead)
    (hrng : rng.Infallible)
    (hconfig : state.sender.encoder.config = .forProfile profile)
    (hsequence : state.sender.encoder.nextSequence.isSome = true)
    (hnonce : state.sender.sendCipher.nonce < aeadNonceLimit)
    (hread : recvPacket read = .ok packet)
    (hfits : fitsProfile profile packet.length
      (limit.toNat - shphAeadOverheadBytes) = true)
    (hsend : pacer.send = ⟨none, true, some last⟩)
    (hstill : ∀ envelope encoder,
      state.sender.encoder.encode .data packet
          (limit.toNat - shphAeadOverheadBytes) = (.ok envelope, encoder) →
        envelope.length + shphAeadOverheadBytes ≤ last.toNat) :
    ∃ sender, sender.encoder.config = .forProfile profile ∧
      phantomOneTunToQuicStep aead state (.packet read
          ⟨none, true, some limit⟩ waited pacer closedMeanwhile) =
        .running ⟨state.stats.sent packet.length, sender⟩ := by
  obtain ⟨ciphertext, next, hsent, hnext, -, -⟩ := phantomOneSend_of_fits
    haead hrng hconfig hsequence hnonce hfits hstill
  obtain ⟨byte, rest, rfl⟩ := List.exists_cons_of_ne_nil
    (recvPacket_ok hread).1
  refine ⟨next, hnext, ?_⟩
  simp only [phantomOneTunToQuicStep, hread, hsend, hsent]

end PhantomOne

theorem phantomOne_survives {aead : Aead} (haead : SealsEnvelopes aead)
    (hrng : rng.Infallible) (state : PhantomOneSender rng)
    {turn : SenderTurn} (hready : Ready (phantomOne state))
    (hcapable : CapableTurn turn) (hsteady : Steady (phantomOne state) turn) :
    Survives (phantomOne state) turn (step aead (phantomOne state) turn) := by
  cases turn with
  | closed => exact absurd hcapable id
  | packet read path waited pacer closedMeanwhile =>
      obtain ⟨hpath, -, hsend, rfl⟩ := hcapable
      obtain ⟨limit, rfl⟩ := isCapable_iff.mp hpath
      obtain ⟨last, hlast⟩ := isCapable_iff.mp hsend
      obtain ⟨profile, hconfig⟩ := hready
      obtain ⟨hsequence, hnonce, hsmall, hstill⟩ := hsteady
      cases hread : recvPacket read with
      | error error =>
          exact Or.inr ⟨error, hread, by simp [step, phantomOneTunToQuicStep,
            hread, Outcome.map]⟩
      | ok packet =>
          have hfits : fitsProfile profile packet.length
              (limit.toNat - shphAeadOverheadBytes) = true := by
            rw [tooLarge_packet _ hread, packetTooLarge] at hsmall
            simpa [phantomOneTooLarge, hconfig, PhantomOneConfig.forProfile]
              using hsmall
          obtain ⟨sender, hsender, hstep⟩ : ∃ sender,
              sender.encoder.config = .forProfile profile ∧
              phantomOneTunToQuicStep aead state (.packet read
                  ⟨none, true, some limit⟩ waited pacer false) =
                .running ⟨state.stats.sent packet.length, sender⟩ :=
            phantomOneStep_sent haead hrng hconfig hsequence hnonce hread
              hfits hlast fun envelope encoder hencode => by
                simpa [hlast] using hstill packet _ envelope encoder hread
                  (phantomOnePathMtu_of_fits hfits) hencode
          refine Or.inl ⟨_, congrArg (Outcome.map phantomOne) hstep,
            ⟨profile, hsender⟩, ?_⟩
          rw [hsmall]
          rfl

/-- The step of every mode. -/
theorem step_survives {aead : Aead} (haead : SealsEnvelopes aead)
    (hrng : rng.Infallible) {state : Sending rng} {turn : SenderTurn}
    (hready : Ready state) (hcapable : CapableTurn turn)
    (hsteady : Steady state turn) :
    Survives state turn (step aead state turn) := by
  cases state with
  | plain stats => exact plain_survives aead stats hcapable
  | shroud3 sender =>
      exact shroud3_survives aead hrng sender hready hcapable hsteady
  | phantomOne state =>
      exact phantomOne_survives haead hrng state hready hcapable hsteady

/-- A whole run goes on, counting every packet that was too large, or the
device has failed. -/
theorem run_survives {aead : Aead} (haead : SealsEnvelopes aead)
    (hrng : rng.Infallible) {turns : List SenderTurn} {state : Sending rng}
    (hready : Ready state)
    (hcount : state.stats.droppedOversizedPackets ≤ u64Max)
    (hcapable : ∀ turn ∈ turns, CapableTurn turn)
    (hsteady : Along (step aead) Steady state turns) :
    (∃ last, run (step aead) state turns = .running last ∧
      last.stats.droppedOversizedPackets =
        saturatingAdd state.stats.droppedOversizedPackets
          (countAlong (step aead) tooLarge state turns)) ∨
    ∃ turn ∈ turns, ∃ error, DeviceFails error turn ∧
      run (step aead) state turns = .ended ⟨true, .error error⟩ := by
  induction turns generalizing state with
  | nil =>
      refine Or.inl ⟨state, rfl, ?_⟩
      rw [countAlong, saturatingAdd, Nat.add_zero, Nat.min_eq_left hcount]
  | cons turn turns ih =>
      obtain ⟨hturn, hturns⟩ := List.forall_mem_cons.mp hcapable
      rcases step_survives haead hrng hready hturn hsteady.1 with
        ⟨next, hstep, hnext, hdropped⟩ | ⟨error, hfails, hstep⟩
      · have hbound : next.stats.droppedOversizedPackets ≤ u64Max := by
          rw [hdropped]
          split
          · exact Nat.min_le_right _ _
          · exact hcount
        rw [run_cons_running hstep]
        rcases ih hnext hbound hturns (hsteady.2 next hstep) with
          ⟨last, hlast, hcounted⟩ | ⟨other, hmem, error, hfails, hended⟩
        · refine Or.inl ⟨last, hlast, ?_⟩
          rw [hcounted, hdropped, countAlong, hstep]
          unfold saturatingAdd
          cases htoo : tooLarge state turn with
          | true =>
              simp only [if_true, Bool.toNat_true]
              omega
          | false =>
              simp only [Bool.false_eq_true, if_false, Bool.toNat_false]
              omega
        · exact Or.inr ⟨other, List.mem_cons_of_mem _ hmem, error, hfails,
            hended⟩
      · exact Or.inr ⟨turn, List.mem_cons_self, error, hfails,
          run_cons_ended hstep turns⟩

/-- While the connection stays open and takes datagrams, the sending loop of
each mode drops and counts every packet that is too large for the path and
goes on, as long as no envelope outgrows the path after its size was checked
and, with Phantom One, no packet is too large at all. -/
theorem oversized_packets_survive {aead : Aead} (haead : SealsEnvelopes aead)
    (hrng : rng.Infallible) {start : Sending rng} (hstarts : Starts start)
    {turns : List SenderTurn} (hcapable : ∀ turn ∈ turns, CapableTurn turn)
    (hsteady : Along (step aead) Steady start turns) :
    (∃ last, run (step aead) start turns = .running last ∧
      last.stats.droppedOversizedPackets =
        min (countAlong (step aead) tooLarge start turns) u64Max) ∨
    ∃ turn ∈ turns, ∃ error, DeviceFails error turn ∧
      run (step aead) start turns = .ended ⟨true, .error error⟩ := by
  obtain ⟨hready, hdefault⟩ := hstarts.ready
  have hzero : start.stats.droppedOversizedPackets = 0 := by
    rw [hdefault]
    rfl
  rcases run_survives haead hrng hready (by omega) hcapable hsteady with
    ⟨last, hlast, hcounted⟩ | hended
  · rw [hzero, saturatingAdd, Nat.zero_add] at hcounted
    exact Or.inl ⟨last, hlast, hcounted⟩
  · exact Or.inr hended

end Sending

namespace SendingWitness

open Sending

/-- An IPv4 packet of 1200 bytes. -/
def packet : Bytes := [0x45, 0, 0x04, 0xb0] ++ List.replicate 1196 0

def path (limit : UInt16) : QuicPath := ⟨none, true, some limit⟩

def pacer (limit : UInt16) : PacerTurn where
  enqueuedAt := 0
  releasedAt := 0
  monotone := Nat.le_refl 0
  check := path limit
  send := path limit
  handedOver := true

def turn (limit : UInt16) : SenderTurn :=
  .packet (.bytes packet) (path limit) 0 (pacer limit) false

def aead : Aead := .tagged

theorem packet_length : packet.length = 1200 := by
  rw [packet, List.length_append, List.length_replicate]
  rfl

theorem recvPacket_packet :
    recvPacket (.bytes packet) = .ok packet := by
  have hlength := packet_length
  have hhead : packet.headD 0 = 0x45 := rfl
  have htotal : ofBigEndian (slice packet 2 2) = 1200 := rfl
  have hnonempty : packet ≠ [] := by
    intro hempty
    rw [hempty] at hlength
    cases hlength
  have hvalid : validateIpv4Packet packet = .ok () := by
    simp only [validateIpv4Packet, bind_eq_ok_iff, ensure_eq_ok_iff, hlength,
      hhead, htotal, exists_const]
    decide
  have hversion : validateIpPacket packet = .ok () := by
    have hnibble : ((0x45 : UInt8) >>> 4).toNat = 4 := by decide
    simp only [validateIpPacket, hhead, hnibble, hvalid, bind_eq_ok_iff,
      ensure_eq_ok_iff, hlength, exists_const, and_true]
    exact ⟨hnonempty, by decide⟩
  simp only [recvPacket, hversion, bind_eq_ok_iff,
    ensure_eq_ok_iff, hlength, exists_const, pure, Except.pure, and_true]
  exact ⟨by decide, hnonempty⟩

/-- In the plain mode the packet is dropped at a limit of 1100 bytes, and sent
at one of 1400. -/
theorem oversized_packets_survive_plain :
    (∃ last, run (step aead) (plain .default : Sending Rng.zeros)
        [turn 1100, turn 1400] = .running last ∧
      last.stats.droppedOversizedPackets =
        min (countAlong (step aead) tooLarge (plain .default : Sending Rng.zeros)
          [turn 1100, turn 1400]) u64Max) ∨
    ∃ other ∈ [turn 1100, turn 1400], ∃ error, DeviceFails error other ∧
      run (step aead) (plain .default : Sending Rng.zeros)
        [turn 1100, turn 1400] = .ended ⟨true, .error error⟩ := by
  have hseals : SealsEnvelopes aead := fun _ _ _ _ => rfl
  have hsteady : ∀ (stats : StandardsTunBridgeStats) turns,
      Along (step aead) Steady (plain stats : Sending Rng.zeros) turns := by
    intro stats turns
    induction turns generalizing stats with
    | nil => trivial
    | cons first turns ih =>
        refine ⟨trivial, fun next hnext => ?_⟩
        rw [step] at hnext
        cases hfirst : tunToQuicStep stats first with
        | running later =>
            rw [hfirst] at hnext
            cases hnext
            exact ih later
        | ended result =>
            rw [hfirst] at hnext
            cases hnext
  refine oversized_packets_survive hseals (fun _ _ => rfl) .plain ?_
    (hsteady _ _)
  intro other hother
  rw [List.mem_cons, List.mem_singleton] at hother
  rcases hother with rfl | rfl
  · exact ⟨rfl, rfl, rfl, rfl⟩
  · exact ⟨rfl, rfl, rfl, rfl⟩

/-- A Phantom One session at its start. -/
def phantomOneStart : PhantomOneSender Rng.zeros where
  stats := .default
  sender :=
    { sendCipher := ⟨FixedBytes.replicate 32 7, 0⟩
      encoder := .fromValidatedConfig 0 0 (.forProfile .medium) () }

/-- No size is left for so long a payload. -/
theorem encode_too_long {payload : Bytes} (hlength : payload.length = 1200) :
    phantomOneStart.sender.encoder.encode .data payload 1172 =
      (.error (.protocol "Phantom One minimum target exceeds path MTU"),
        phantomOneStart.sender.encoder) := by
  have hbounds : phantomOneStart.sender.encoder.targetBounds 1200 1172 =
      .error (.protocol "Phantom One minimum target exceeds path MTU") := by
    decide
  simp only [encode, targetSize, hlength,
    hbounds]

/-- With Phantom One the packet ends the loop, although the connection is open
and takes datagrams. -/
theorem phantom_one_ends_on_oversized :
    Starts (phantomOne phantomOneStart) ∧ CapableTurn (turn 1200) ∧
      tooLarge (phantomOne phantomOneStart) (turn 1200) = true ∧
      run (step aead) (phantomOne phantomOneStart) [turn 1200] =
        .ended ⟨true, .error (.protocol
          "Phantom One minimum target exceeds path MTU")⟩ := by
  have hpath : phantomOnePathMtu (path 1200) = .ok 1172 := by decide
  have hencode := encode_too_long packet_length
  have hread := recvPacket_packet
  have hlarge : fitsProfile .medium 1200 1172 = false := by
    decide
  refine ⟨.phantomOne rfl, ⟨rfl, rfl, rfl, rfl⟩, ?_, ?_⟩
  · rw [turn, tooLarge_packet _ hread, packetTooLarge, phantomOneTooLarge,
      packet_length]
    exact congrArg not hlarge
  · have hsend : phantomOneStart.sender.send aead packet (path 1200)
        (pacer 1200).send = (.error (.protocol
          "Phantom One minimum target exceeds path MTU"),
            phantomOneStart.sender) := by
      simp only [PhantomOneDatagramSender.send, hpath, hencode]
    have hstep : phantomOneTunToQuicStep aead phantomOneStart (turn 1200) =
        .ended ⟨true, .error (.protocol
          "Phantom One minimum target exceeds path MTU")⟩ := by
      obtain ⟨byte, rest, hbytes⟩ :=
        List.exists_cons_of_ne_nil (recvPacket_ok hread).1
      rw [hbytes] at hread hsend
      simp only [turn, hbytes, phantomOneTunToQuicStep, hread, hsend]
    have hstarted : step aead (phantomOne phantomOneStart) (turn 1200) =
        .ended ⟨true, .error (.protocol
          "Phantom One minimum target exceeds path MTU")⟩ := by
      rw [step, hstep]
      rfl
    rw [run_cons_ended hstarted]

end SendingWitness

end Shph.StandardsTun
