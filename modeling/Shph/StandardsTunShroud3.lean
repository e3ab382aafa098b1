/-
Both ends of the bridge with Shroud 3.  The sender asks for the size of the
path at every packet, the receiver once, when its loop starts.  It accepts
exactly the datagrams that are not longer than the size it found then.
-/
import Shph.StandardsTunSending

namespace Shph.StandardsTun

open ByteCodec LoopRun Shroud3

variable {rng : Rng}

/-- The packet and the datagram that a turn of the sender hands over. -/
def shroud3Sent (sender : Shroud3Sender rng) :
    SenderTurn → Option (Bytes × Bytes)
  | .closed => none
  | .packet read path waited pacer closedMeanwhile =>
      match AsyncTunDevice.recvPacket read with
      | .error _ => none
      | .ok packet =>
          match Sending.envelope sender packet path waited with
          | none => none
          | some (datagram, delay) =>
              if closedMeanwhile = false ∧
                  DatagramPacer.send datagram.length delay pacer = .ok () then
                some (packet, datagram)
              else none

/-- What a run of the sender hands over, in order. -/
def sentAlong : Shroud3Sender rng → List SenderTurn → List (Bytes × Bytes)
  | _, [] => []
  | sender, turn :: turns =>
      (shroud3Sent sender turn).toList ++
        match shroud3TunToQuicStep sender turn with
        | .running next => sentAlong next turns
        | .ended _ => []

/-- An envelope of the default configuration around a packet of the device. -/
def HonestDatagram (packet datagram : Bytes) : Prop :=
  validateIpPacket packet = .ok () ∧ packet ≠ [] ∧
    packet.length ≤ maxTunPacketBytes ∧
    ∀ limit ≤ maxShroud3DatagramBytes,
      datagram.length ≤ limit → decodeInPlace datagram limit = .ok packet

section Sender

variable {sender next : Shroud3Sender rng} {turn : SenderTurn}
  {packet datagram : Bytes}

theorem honestDatagram_of_envelope
    (hconfig : sender.morphology.config = .default) {read : TunRead}
    (hread : AsyncTunDevice.recvPacket read = .ok packet) {path : QuicPath}
    {waited delay : Nat}
    (henvelope : Sending.envelope sender packet path waited =
      some (datagram, delay)) :
    HonestDatagram packet datagram := by
  obtain ⟨hnonempty, hlength, hvalid⟩ := recvPacket_ok hread
  refine ⟨hvalid, hnonempty, hlength, fun limit hlimit hfits => ?_⟩
  unfold Sending.envelope at henvelope
  split at henvelope
  · cases henvelope
  · rename_i pathMtu hpath
    unfold encodeShroud3TunDatagram at henvelope
    by_cases hlong : maxTunPacketBytes < packet.length ∨
        pathMtu.toNat < saturatingAdd packet.length shroud3HeaderBytes
    · rw [if_pos hlong] at henvelope
      cases henvelope
    · rw [if_neg hlong] at henvelope
      rcases sender.morphology.encode_cases packet pathMtu.toNat
          ⟨sender.elapsed + waited, 0⟩ with
        ⟨error, herror⟩ | ⟨bytes, after, hencode, hemits⟩
      · rw [herror] at henvelope
        cases henvelope
      · rw [hencode] at henvelope
        cases henvelope
        have hpadding : sender.morphology.config.maxPaddingBytes ≤
            maxShroud3PaddingBytes := by
          rw [hconfig]
          decide
        exact hemits.decodeInPlace_eq hpadding hlimit hfits

theorem honestDatagram_of_sent
    (hconfig : sender.morphology.config = .default)
    (hsent : shroud3Sent sender turn = some (packet, datagram)) :
    HonestDatagram packet datagram := by
  cases turn with
  | closed => cases hsent
  | packet read path waited pacer closedMeanwhile =>
      simp only [shroud3Sent] at hsent
      cases hread : AsyncTunDevice.recvPacket read with
      | error error =>
          rw [hread] at hsent
          cases hsent
      | ok bytes =>
          cases henvelope : Sending.envelope sender bytes path waited with
          | none =>
              simp only [hread, henvelope] at hsent
              cases hsent
          | some made =>
              simp only [hread, henvelope] at hsent
              rw [Option.ite_none_right_eq_some, Option.some.injEq,
                Prod.mk.injEq] at hsent
              obtain ⟨-, rfl, rfl⟩ := hsent
              exact honestDatagram_of_envelope hconfig hread henvelope

theorem encodeShroud3TunDatagram_config (morphology : AdaptiveShroud3 rng)
    (packet : Bytes) (pathMtu : Nat) (observation : Shroud3Observation) :
    (encodeShroud3TunDatagram morphology packet pathMtu observation).2.config =
      morphology.config := by
  unfold encodeShroud3TunDatagram
  split
  · rfl
  · rcases morphology.encode_cases packet pathMtu observation with
      ⟨error, herror⟩ | ⟨bytes, after, hencode, hemits⟩
    · rw [herror]
    · rw [hencode]
      exact hemits.config_eq

theorem paced_config {length : Nat} {answer : Except ShphError Unit}
    (hstep : sender.paced length answer = .running next) :
    next.morphology = sender.morphology := by
  unfold Shroud3Sender.paced at hstep
  split at hstep <;> cases hstep <;> rfl

/-- A turn keeps the configuration of the engine. -/
theorem shroud3Step_config
    (hstep : shroud3TunToQuicStep sender turn = .running next) :
    next.morphology.config = sender.morphology.config := by
  cases turn with
  | closed => cases hstep
  | packet read path waited pacer closedMeanwhile =>
      simp only [shroud3TunToQuicStep] at hstep
      split at hstep
      · cases hstep
      · cases hstep
      · rename_i bytes hnonempty hread
        split at hstep
        · cases hstep
        · rename_i pathMtu hpath
          have hengine := encodeShroud3TunDatagram_config sender.morphology
            bytes pathMtu.toNat ⟨sender.elapsed + waited, 0⟩
          split at hstep
          · rename_i morphology hencode
            rw [hencode] at hengine
            cases hstep
            exact hengine
          · cases hstep
          · rename_i made morphology hencode
            rw [hencode] at hengine
            split at hstep
            · cases hstep
            · rw [paced_config hstep]
              exact hengine

theorem sentAlong_honest {turns : List SenderTurn}
    (hconfig : sender.morphology.config = .default)
    (hsent : (packet, datagram) ∈ sentAlong sender turns) :
    HonestDatagram packet datagram := by
  induction turns generalizing sender with
  | nil => simp [sentAlong] at hsent
  | cons turn turns ih =>
      rw [sentAlong, List.mem_append, Option.mem_toList] at hsent
      rcases hsent with hsent | hsent
      · exact honestDatagram_of_sent hconfig hsent
      · split at hsent
        · rename_i next hstep
          exact ih ((shroud3Step_config hstep).trans hconfig) hsent
        · simp at hsent

end Sender

section Receiver

variable {config : StandardsTunBridgeConfig} {receiving : Receiving}
  {packet datagram : Bytes} {path : QuicPath} {limit : UInt16}

/-- A datagram that the receiver takes reaches the device as the packet. -/
theorem decodeShroud3TunDatagram_honest
    (hhonest : HonestDatagram packet datagram)
    (hfits : datagram.length ≤ limit.toNat) :
    decodeShroud3TunDatagram datagram limit.toNat = .ok packet := by
  obtain ⟨hvalid, hnonempty, hlength, hdecode⟩ := hhonest
  have hlimit := limit.toNat_lt
  have hpayload := hdecode limit.toNat
    (by unfold maxShroud3DatagramBytes; omega) hfits
  have hinvalid : isInvalidTunDatagram packet = false := by
    simp [isInvalidTunDatagram, hvalid, hnonempty, Except.isOk, Except.toBool]
  have hoversized : isOversizedTunDatagram packet = false := by
    simp [isOversizedTunDatagram, hlength]
  simp only [decodeShroud3TunDatagram, hpayload, hinvalid, hoversized, ensure,
    bind, Except.bind, pure, Except.pure]
  rfl

theorem sendPacket_honest (hhonest : HonestDatagram packet datagram) :
    AsyncTunDevice.sendPacket packet (.ok packet.length) = .ok () := by
  obtain ⟨hvalid, hnonempty, hlength, -⟩ := hhonest
  simp [AsyncTunDevice.sendPacket, AsyncTunDevice.classifyTunWriteResult,
    bind_eq_ok_iff, hvalid, hnonempty, hlength]

theorem shroud3QuicToTunStep_accepted
    (hhonest : HonestDatagram packet datagram)
    (hfits : datagram.length ≤ limit.toNat)
    (hlimit : receiving.invalidDatagrams < config.maxInvalidDatagrams) :
    shroud3QuicToTunStep config limit.toNat receiving
        (.datagram path (.ok datagram) (.ok packet.length)) =
      .running { receiving with
        stats := receiving.stats.received packet.length } := by
  have hsmall := limit.toNat_lt
  have hshort : ¬ (limit.toNat < datagram.length ∨
      maxTunPacketBytes < datagram.length) := by
    unfold maxTunPacketBytes
    omega
  simp only [shroud3QuicToTunStep, if_neg hshort,
    decodeShroud3TunDatagram_honest hhonest hfits, sendPacket_honest hhonest,
    Receiving.checkLimit, if_neg (Nat.not_le.mpr hlimit)]

/-- A datagram above the size of the start is counted as malformed. -/
theorem shroud3QuicToTunStep_oversized (hlong : limit.toNat < datagram.length)
    (write : Except IoErrorKind Nat) :
    shroud3QuicToTunStep config limit.toNat receiving
        (.datagram path (.ok datagram) write) =
      receiving.oversized.checkLimit config "Shroud 3 QUIC datagrams"
        receiving.oversized := by
  simp only [shroud3QuicToTunStep, if_pos (Or.inl hlong)]

/-- A read of one of these datagrams, which the device takes as a whole. -/
def HonestRead (sent : List (Bytes × Bytes)) : ReceiverTurn → Prop
  | .closed => False
  | .datagram _ read write => ∃ packet datagram, (packet, datagram) ∈ sent ∧
      read = .ok datagram ∧ write = .ok packet.length

/-- Every read was delivered and none was counted as malformed. -/
structure Receiving.Delivered (receiving : Receiving) (count : Nat) : Prop where
  invalid : receiving.invalidDatagrams = 0
  packets : receiving.stats.quicToTunPackets = min count u64Max
  oversized : receiving.stats.droppedOversizedPackets = 0
  malformed : receiving.stats.droppedInvalidDatagrams = 0

/-- Reads of honest datagrams that fit are all delivered. -/
theorem run_delivered {sent : List (Bytes × Bytes)} (hpositive :
      0 < config.maxInvalidDatagrams)
    (hhonest : ∀ entry ∈ sent, HonestDatagram entry.1 entry.2)
    (hfits : ∀ entry ∈ sent, entry.2.length ≤ limit.toNat)
    {reads : List ReceiverTurn} (hreads : ∀ read ∈ reads, HonestRead sent read)
    {count : Nat} (hstart : receiving.Delivered count) :
    ∃ last, run (shroud3QuicToTunStep config limit.toNat) receiving reads =
        .running last ∧ last.Delivered (count + reads.length) := by
  induction reads generalizing receiving count with
  | nil => exact ⟨receiving, rfl, hstart⟩
  | cons read reads ih =>
      obtain ⟨hread, hrest⟩ := List.forall_mem_cons.mp hreads
      cases read with
      | closed => exact absurd hread id
      | datagram path read write =>
          obtain ⟨packet, datagram, hmem, rfl, rfl⟩ := hread
          have hstep : shroud3QuicToTunStep config limit.toNat receiving
              (.datagram path (.ok datagram) (.ok packet.length)) =
                .running { receiving with
                  stats := receiving.stats.received packet.length } :=
            shroud3QuicToTunStep_accepted (hhonest _ hmem) (hfits _ hmem)
              (by rw [hstart.invalid]; exact hpositive)
          have hnext : Receiving.Delivered { receiving with
              stats := receiving.stats.received packet.length } (count + 1) := by
            refine ⟨hstart.invalid, ?_, hstart.oversized, hstart.malformed⟩
            have hcount := hstart.packets
            simp only [StandardsTunBridgeStats.received, hcount, saturatingAdd]
            omega
          rw [run_cons_running hstep, List.length_cons, Nat.add_comm reads.length,
            ← Nat.add_assoc]
          exact ih hrest hnext

end Receiver

/-- What an honest sender hands over is decoded to its packets, and reads of
it never count as malformed, if and only if no datagram is longer than the
size that the receiver found when it started. -/
theorem honest_peer_accepted_iff {sender : Shroud3Sender rng}
    (hstarts : Sending.Starts (.shroud3 sender)) (turns : List SenderTurn)
    (config : StandardsTunBridgeConfig) (hconfig : config.validate = .ok ())
    (limit : UInt16) :
    ((∀ entry ∈ sentAlong sender turns,
        decodeShroud3TunDatagram entry.2 limit.toNat = .ok entry.1) ∧
      ∀ reads : List ReceiverTurn,
        (∀ read ∈ reads, HonestRead (sentAlong sender turns) read) →
        ∃ receiving, run (shroud3QuicToTunStep config limit.toNat) .default
            reads = .running receiving ∧
          receiving.Delivered reads.length) ↔
      ∀ entry ∈ sentAlong sender turns, entry.2.length ≤ limit.toNat := by
  have hengine : sender.morphology.config = .default := hstarts.ready.1.1
  have hhonest : ∀ entry ∈ sentAlong sender turns,
      HonestDatagram entry.1 entry.2 := fun entry hentry =>
    sentAlong_honest hengine hentry
  constructor
  · rintro ⟨-, hdelivered⟩ entry hentry
    by_contra hlong
    rw [Nat.not_le] at hlong
    obtain ⟨receiving, hrun, hcounts⟩ := hdelivered
      [.datagram ⟨none, true, some limit⟩ (.ok entry.2)
        (.ok entry.1.length)] (by
          intro read hread
          rw [List.mem_singleton] at hread
          subst hread
          exact ⟨entry.1, entry.2, hentry, rfl, rfl⟩)
    rw [run, shroud3QuicToTunStep_oversized hlong] at hrun
    unfold Receiving.checkLimit at hrun
    split at hrun
    · rename_i next hnext
      split at hnext
      · cases hnext
      · cases hnext
        cases hrun
        have hzero := hcounts.invalid
        simp [Receiving.oversized, Receiving.default, saturatingAdd,
          u64Max] at hzero
    · cases hrun
  · intro hfits
    have hpositive : 0 < config.maxInvalidDatagrams := by
      rw [StandardsTunBridgeConfig.validate, ensure_eq_ok_iff] at hconfig
      exact hconfig.1
    refine ⟨fun entry hentry => decodeShroud3TunDatagram_honest
      (hhonest entry hentry) (hfits entry hentry), fun reads hreads => ?_⟩
    have hstart : Receiving.default.Delivered 0 := ⟨rfl, rfl, rfl, rfl⟩
    obtain ⟨last, hlast, hcounts⟩ :=
      run_delivered hpositive hhonest hfits hreads hstart
    rw [Nat.zero_add] at hcounts
    exact ⟨last, hlast, hcounts⟩

namespace Shroud3Witness

open SendingWitness

def morphology : AdaptiveShroud3 Rng.zeros where
  config := .default
  rngState := ()
  mode := .interactive
  history := Vector.replicate _ ⟨0, none⟩
  historyLen := 0
  historyNext := 0
  pendingMode := none
  pendingCount := 0
  lastObservation := none
  lastTransition := none
  burstLength := 0
  pendingDelay := 0
  metrics := .default

def sender : Shroud3Sender Rng.zeros := ⟨.default, morphology, 0⟩

theorem withRng_default :
    AdaptiveShroud3.withRng Rng.zeros .default () = .ok morphology := by
  have hvalid : Shroud3Config.default.validate = .ok () := by decide
  simp only [AdaptiveShroud3.withRng, hvalid, bind, Except.bind]
  rfl

theorem starts : Sending.Starts (.shroud3 sender) :=
  .shroud3 withRng_default

/-- The packet of 1200 bytes leaves on a path of 1400 bytes. -/
theorem exists_sent : ∃ datagram, packet.length < datagram.length ∧
    datagram.length ≤ 1400 ∧
    sentAlong sender [turn 1400] = [(packet, datagram)] := by
  have hread := recvPacket_packet
  have hlength := packet_length
  obtain ⟨datagram, next, hemits, henvelope, -⟩ : ∃ datagram next,
      sender.morphology.Emits packet (1400 : UInt16).toNat
        ⟨sender.elapsed + 0, 0⟩ datagram next ∧
      Sending.envelope sender packet (path 1400) 0 =
        some (datagram, next.pendingDelay) ∧
      shroud3TunToQuicStep sender (.packet (.bytes packet) (path 1400) 0
          (pacer 1400) false) =
        Shroud3Sender.paced ⟨sender.stats, next, sender.elapsed + 0⟩
          packet.length (DatagramPacer.send datagram.length
            next.pendingDelay (pacer 1400)) :=
    Sending.shroud3Step_paced (fun _ _ => rfl) hread rfl
      (by rw [hlength]; decide) (by simp [sender, morphology])
  obtain ⟨hleast, hmost⟩ := hemits.length_le
  have hdelay := hemits.delay_lt rfl
  have hlimit : (1400 : UInt16).toNat = 1400 := rfl
  have honTime : DatagramPacer.onTime next.pendingDelay (pacer 1400) =
      true := by
    have hearly : max 0 (0 + min next.pendingDelay (fromMillis 1000)) <
        0 + fromMillis 1000 := by
      omega
    exact decide_eq_true hearly
  have hpacer : DatagramPacer.send datagram.length next.pendingDelay
      (pacer 1400) = .ok () := by
    rw [Sending.pacerSend_eq (by omega) (Nat.le_of_lt hdelay) rfl rfl]
    rw [if_neg (by simp [honTime]), if_neg (by omega),
      if_neg (by simp [pacer]), if_neg (by omega)]
  refine ⟨datagram, ?_, by omega, ?_⟩
  · unfold shroud3HeaderBytes at hleast
    omega
  · have hsent : shroud3Sent sender (turn 1400) = some (packet, datagram) := by
      simp only [shroud3Sent, turn, hread, henvelope, hpacer, and_self, if_true]
    rw [sentAlong, hsent]
    split <;> rfl

/-- The receiver started on a path of at least 1400 bytes. -/
theorem honest_peer_accepted_same_path :
    ((∀ entry ∈ sentAlong sender [turn 1400],
        decodeShroud3TunDatagram entry.2 (1400 : UInt16).toNat =
          .ok entry.1) ∧
      ∀ reads : List ReceiverTurn,
        (∀ read ∈ reads, HonestRead (sentAlong sender [turn 1400]) read) →
        ∃ receiving, run (shroud3QuicToTunStep ⟨64, true⟩
            (1400 : UInt16).toNat) .default reads = .running receiving ∧
          receiving.Delivered reads.length) ∧
      sentAlong sender [turn 1400] ≠ [] := by
  obtain ⟨datagram, -, hmost, hsent⟩ := exists_sent
  have haccepted := honest_peer_accepted_iff starts [turn 1400] ⟨64, true⟩
    (by decide) 1400
  refine ⟨haccepted.mpr ?_, by rw [hsent]; simp⟩
  intro entry hentry
  rw [hsent, List.mem_singleton] at hentry
  rw [hentry]
  exact hmost

/-- The state after as many oversized datagrams. -/
def oversizedTimes : Nat → Receiving
  | 0 => .default
  | count + 1 => (oversizedTimes count).oversized

theorem oversizedTimes_invalid (count : Nat) (hcount : count ≤ u64Max) :
    (oversizedTimes count).invalidDatagrams = count := by
  induction count with
  | zero => rfl
  | succ count ih =>
      rw [oversizedTimes, Receiving.oversized, ih (by omega), saturatingAdd]
      exact Nat.min_eq_left hcount

/-- Before the limit every oversized datagram is only counted. -/
theorem run_oversized {datagram : Bytes} {limit : UInt16}
    (hlong : limit.toNat < datagram.length) {count : Nat} (hcount : count < 64)
    (write : Except IoErrorKind Nat) :
    run (shroud3QuicToTunStep ⟨64, true⟩ limit.toNat) .default
        (List.replicate count
          (.datagram ⟨none, true, some limit⟩ (.ok datagram) write)) =
      .running (oversizedTimes count) := by
  induction count with
  | zero => rfl
  | succ count ih =>
      have hinvalid := oversizedTimes_invalid (count + 1)
        (by unfold u64Max; omega)
      rw [List.replicate_succ', run_snoc_running (ih (by omega)),
        shroud3QuicToTunStep_oversized hlong, Receiving.checkLimit]
      rw [oversizedTimes] at hinvalid
      rw [hinvalid, if_neg (Nat.not_le.mpr hcount), oversizedTimes]

/-- A receiver that started on a path of 1162 bytes drops what a sender on a
path of 1400 bytes sends, and ends after 64 of its datagrams. -/
theorem larger_path_ends_receiver :
    ∃ datagram, sentAlong sender [turn 1400] = [(packet, datagram)] ∧
      run (shroud3QuicToTunStep ⟨64, true⟩ (1162 : UInt16).toNat) .default
        (List.replicate 64 (.datagram (path 1162) (.ok datagram)
          (.ok packet.length))) =
        .ended ⟨true, .error (.protocol
          "received 64 malformed Shroud 3 QUIC datagrams")⟩ := by
  obtain ⟨datagram, hlong, -, hsent⟩ := exists_sent
  have hlimit : (1162 : UInt16).toNat < datagram.length := by
    have hlength := packet_length
    have hvalue : (1162 : UInt16).toNat = 1162 := rfl
    omega
  refine ⟨datagram, hsent, ?_⟩
  have hinvalid : (oversizedTimes 63).oversized.invalidDatagrams = 64 :=
    oversizedTimes_invalid 64 (by decide)
  rw [List.replicate_succ', path, run_snoc_running
    (run_oversized hlimit (by decide) _),
    shroud3QuicToTunStep_oversized hlimit, Receiving.checkLimit, hinvalid,
    if_pos (Nat.le_refl 64)]
  rfl

end Shroud3Witness

end Shph.StandardsTun
