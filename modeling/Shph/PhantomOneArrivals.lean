/-
The datagrams of a Phantom One bridge, lost and reordered on the path.  The
receiving loop ends with the first envelope that it cannot open, so it goes on
exactly as long as no datagram arrives behind one that is 64 ahead of it, as
the connection takes datagrams of that length and as the counter of the
padding bytes has room.
-/
import Shph.PhantomOneEnvelopes
import Shph.StandardsTunSending

namespace Shph.PhantomOneChannel

open ByteCodec LoopRun SlidingWindow StandardsTun

variable {rng : Rng}

/-- A call of the sender: the connection when its size limit is asked for and
when the datagram is handed over. -/
structure SendCall where
  packet : Bytes
  path : QuicPath
  handover : QuicPath

/-- The datagrams of a run of the sender.  A call that fails sends nothing,
although it may use up a number. -/
def sentBy (aead : Aead) :
    PhantomOneDatagramSender rng → List SendCall → List SentEnvelope
  | _, [] => []
  | sender, call :: calls =>
      match sender.send aead call.packet call.path call.handover with
      | (.error _, next) => sentBy aead next calls
      | (.ok ciphertext, next) =>
          ⟨sender.encoder.nextSequence.getD 0, call.packet, ciphertext⟩ ::
            sentBy aead next calls

/-- A datagram that arrives, and the receiving connection then. -/
structure DatagramArrival where
  datagram : SentEnvelope
  path : QuicPath

/-- The device takes the whole packet. -/
def DatagramArrival.turn (arrival : DatagramArrival) : ReceiverTurn :=
  .datagram arrival.path (.ok arrival.datagram.ciphertext)
    (.ok arrival.datagram.payload.length)

/-- What the loop needs of a datagram, given what arrived before it. -/
structure InTime (before : List DatagramArrival) (arrival : DatagramArrival) :
    Prop where
  taken : takes arrival.path arrival.datagram = true
  reached : Reached (before.map DatagramArrival.datagram) arrival.datagram
  counted :
    PaddingCounted ((before ++ [arrival]).map DatagramArrival.datagram)

/-- Every datagram is in time, given what arrived before it. -/
def AllInTime (arrivals : List DatagramArrival) : Prop :=
  ∀ before arrival after, arrivals = before ++ arrival :: after →
    InTime before arrival

namespace Direction

variable {direction : Direction} {log : List SealedFrame}
  {sender : PhantomOneDatagramSender rng}

/-- The datagrams of a run carry envelopes that the sender has sealed, in this
order. -/
theorem HasSealed.sentBy_carries (hsealed : direction.HasSealed log sender)
    (calls : List SendCall) :
    ∃ (more : List SealedFrame) (last : PhantomOneDatagramSender rng)
        (picked : List SealedFrame), direction.HasSealed (log ++ more) last ∧
      picked.Sublist more ∧
      List.Forall₂ Carries (sentBy direction.aead sender calls) picked := by
  induction calls generalizing log sender with
  | nil =>
      exact ⟨[], sender, [], by rwa [List.append_nil], List.Sublist.refl _,
        List.Forall₂.nil⟩
  | cons call calls ih =>
      rcases hsealed.send_cases call.packet call.path call.handover with
        ⟨error, next, first, hsend, hnext⟩ |
        ⟨entry, next, hsend, hnext, hcarries⟩
      · obtain ⟨more, last, picked, hlast, hpicked, hall⟩ := ih hnext
        rw [List.append_assoc] at hlast
        refine ⟨first ++ more, last, picked, hlast,
          hpicked.trans (List.sublist_append_right _ _), ?_⟩
        simp only [sentBy, hsend]
        exact hall
      · obtain ⟨more, last, picked, hlast, hpicked, hall⟩ := ih hnext
        rw [List.append_assoc] at hlast
        refine ⟨[entry] ++ more, last, entry :: picked, hlast,
          hpicked.cons_cons entry, ?_⟩
        simp only [sentBy, hsend]
        exact List.Forall₂.cons hcarries hall

end Direction

section Receiver

variable {direction : Direction} {log opened : List SealedFrame}
  {entry : SealedFrame} {config : StandardsTunBridgeConfig}
  {state : PhantomOneReceiving} {arrival : DatagramArrival}
  {before : List DatagramArrival}

/-- A packet of the sender is written to the device. -/
theorem deliver_valid {packet : Bytes}
    (hvalid : validateIpPacket packet = .ok ()) {receiving : Receiving}
    (hlimit : receiving.invalidDatagrams < config.maxInvalidDatagrams)
    {σ : Type} (kind : String) (next : Receiving → σ) :
    deliver config kind receiving packet (.ok packet.length) next =
      .running (next { receiving with
        stats := receiving.stats.received packet.length }) := by
  obtain ⟨hnonempty, hlength, -⟩ : packet ≠ [] ∧
      packet.length ≤ maxTunPacketBytes ∧ True := by
    simp only [validateIpPacket, bind_eq_ok_iff, ensure_eq_ok_iff,
      exists_const] at hvalid
    exact ⟨hvalid.1, hvalid.2.1, trivial⟩
  have hinvalid : isInvalidTunDatagram packet = false := by
    simp [isInvalidTunDatagram, hvalid, hnonempty, Except.isOk, Except.toBool]
  have hoversized : isOversizedTunDatagram packet = false := by
    simp [isOversizedTunDatagram, hlength]
  have hwrite : AsyncTunDevice.sendPacket packet (.ok packet.length) =
      .ok () := by
    simp [AsyncTunDevice.sendPacket, AsyncTunDevice.classifyTunWriteResult,
      bind_eq_ok_iff, hvalid, hnonempty, hlength]
  simp only [deliver, hinvalid, hoversized, hwrite, Receiving.checkLimit,
    if_neg (Nat.not_le.mpr hlimit), Bool.false_eq_true, if_false]

section Step

variable
  (hbefore : List.Forall₂ direction.Delivers
    (before.map DatagramArrival.datagram) opened)
  (hdelivers : direction.Delivers arrival.datagram entry)
  (hreceives : direction.Receives log opened state.receiver)
  (hmem : entry ∈ log) (hnew : entry ∉ opened)

include hbefore hdelivers in
theorem counted_iff :
    PaddingCounted ((before ++ [arrival]).map DatagramArrival.datagram) ↔
      Direction.PaddingRoom opened entry := by
  rw [List.map_append, List.map_singleton]
  exact Direction.paddingCounted_iff
    (List.rel_append hbefore (List.Forall₂.cons hdelivers List.Forall₂.nil))

include hbefore hdelivers hreceives hmem hnew

/-- A datagram in time is delivered. -/
theorem step_in_time
    (hvalid : validateIpPacket arrival.datagram.payload = .ok ())
    (hlimit : state.receiving.invalidDatagrams < config.maxInvalidDatagrams)
    (hintime : InTime before arrival) :
    ∃ next, phantomOneQuicToTunStep direction.aead config state arrival.turn =
        .running next ∧
      next.receiving.invalidDatagrams = state.receiving.invalidDatagrams ∧
      direction.Receives log (opened ++ [entry]) next.receiver := by
  obtain ⟨htaken, hreached, hcounted⟩ := hintime
  obtain ⟨next, hrecv, hnext⟩ := hreceives.recv_opens hmem hnew hdelivers
    htaken ((Direction.reached_iff hbefore hdelivers).mp hreached)
    ((counted_iff hbefore hdelivers).mp hcounted)
  refine ⟨⟨{ state.receiving with stats :=
    state.receiving.stats.received arrival.datagram.payload.length }, next⟩,
    ?_, rfl, hnext⟩
  simp only [DatagramArrival.turn, phantomOneQuicToTunStep, hrecv,
    deliver_valid hvalid hlimit]

/-- Any other datagram ends the loop with an error, and the connection with
it. -/
theorem step_late (config : StandardsTunBridgeConfig)
    (hlate : ¬ InTime before arrival) :
    ∃ error, phantomOneQuicToTunStep direction.aead config state
      arrival.turn = .ended ⟨true, .error error⟩ := by
  obtain ⟨error, next, hrecv⟩ := hreceives.recv_fails hmem hnew hdelivers
    fun hgood => hlate
      { taken := hgood.1
        reached := (Direction.reached_iff hbefore hdelivers).mpr hgood.2.1
        counted := (counted_iff hbefore hdelivers).mpr hgood.2.2 }
  exact ⟨error, by
    simp only [DatagramArrival.turn, phantomOneQuicToTunStep, hrecv]⟩

end Step

/-- The loop goes on while every datagram arrives in time; one that does not
closes the connection. -/
theorem run_in_time {arrivals : List DatagramArrival}
    (hknown : ∀ arrival ∈ arrivals,
      ∃ entry ∈ log, direction.Delivers arrival.datagram entry)
    (hvalid : ∀ arrival ∈ arrivals,
      validateIpPacket arrival.datagram.payload = .ok ())
    (hnodup : ((before ++ arrivals).map
      fun arrival => arrival.datagram.sequence).Nodup)
    (hbefore : List.Forall₂ direction.Delivers
      (before.map DatagramArrival.datagram) opened)
    (hlimit : state.receiving.invalidDatagrams < config.maxInvalidDatagrams)
    (hreceives : direction.Receives log opened state.receiver) :
    (∃ last, run (phantomOneQuicToTunStep direction.aead config) state
          (arrivals.map DatagramArrival.turn) = .running last ∧
        ∀ between arrival after, arrivals = between ++ arrival :: after →
          InTime (before ++ between) arrival) ∨
      ∃ error, run (phantomOneQuicToTunStep direction.aead config) state
          (arrivals.map DatagramArrival.turn) = .ended ⟨true, .error error⟩ ∧
        ∃ between arrival after, arrivals = between ++ arrival :: after ∧
          ¬ InTime (before ++ between) arrival := by
  induction arrivals generalizing before opened state with
  | nil => exact Or.inl ⟨state, rfl, by simp⟩
  | cons arrival arrivals ih =>
      obtain ⟨⟨entry, hmem, hdelivers⟩, hlater⟩ :=
        List.forall_mem_cons.mp hknown
      obtain ⟨hpacket, hrest⟩ := List.forall_mem_cons.mp hvalid
      have hnew : entry ∉ opened := by
        refine hdelivers.fresh hbefore fun hold => ?_
        rw [List.map_map] at hold
        rw [List.map_append] at hnodup
        exact List.disjoint_of_nodup_append hnodup hold
          (List.mem_map_of_mem List.mem_cons_self)
      rw [List.map_cons]
      by_cases hintime : InTime before arrival
      · obtain ⟨next, hstep, hinvalid, hnext⟩ := step_in_time hbefore
          hdelivers hreceives hmem hnew hpacket hlimit hintime
        have hgiven : List.Forall₂ direction.Delivers
            ((before ++ [arrival]).map DatagramArrival.datagram)
            (opened ++ [entry]) := by
          rw [List.map_append]
          exact List.rel_append hbefore
            (List.Forall₂.cons hdelivers List.Forall₂.nil)
        rw [run_cons_running hstep]
        rcases ih hlater hrest (by rwa [List.append_assoc]) hgiven
          (by rwa [hinvalid]) hnext with
          ⟨last, hrun, hall⟩ | ⟨error, hrun, between, late, after, rfl, hlate⟩
        · refine Or.inl ⟨last, hrun, forall_split_cons_iff.mpr
            ⟨by rwa [List.append_nil], fun between other after heq => ?_⟩⟩
          rw [List.append_cons]
          exact hall between other after heq
        · refine Or.inr ⟨error, hrun, arrival :: between, late, after, rfl, ?_⟩
          rwa [List.append_cons]
      · obtain ⟨error, hstep⟩ := step_late hbefore hdelivers hreceives hmem
          hnew config hintime
        refine Or.inr ⟨error, run_cons_ended hstep _, [], arrival, arrivals,
          rfl, ?_⟩
        rwa [List.append_nil]

end Receiver

/-- The datagrams of a run carry the packets that were sent. -/
theorem call_of_mem_sentBy {aead : Aead} {calls : List SendCall}
    {sender : PhantomOneDatagramSender rng} {datagram : SentEnvelope}
    (hmem : datagram ∈ sentBy aead sender calls) :
    ∃ call ∈ calls, call.packet = datagram.payload := by
  induction calls generalizing sender with
  | nil => cases hmem
  | cons call calls ih =>
      unfold sentBy at hmem
      split at hmem
      · obtain ⟨other, hother, hsame⟩ := ih hmem
        exact ⟨other, List.mem_cons_of_mem call hother, hsame⟩
      · rcases List.mem_cons.mp hmem with rfl | hrest
        · exact ⟨call, List.mem_cons_self, rfl⟩
        · obtain ⟨other, hother, hsame⟩ := ih hrest
          exact ⟨other, List.mem_cons_of_mem call hother, hsame⟩

/-- Whatever the path loses and reorders of the datagrams of an honest sender,
the receiving loop goes on if and only if each of those that arrive does so in
time; otherwise it ends with an error and closes the connection. -/
theorem honest_datagrams_tolerated_iff {peerRng : Rng} (aead : Aead)
    {key peerKey : Key} {generation : UInt32} {profile : ProfileTier}
    {seeded : rng.State} {peerSeeded : peerRng.State}
    {sending : PhantomOneState rng} {receiving : PhantomOneState peerRng}
    (hsending : enablePhantomOne none key peerKey (.ok generation) profile
      seeded = .ok sending)
    (hreceiving : enablePhantomOne none peerKey key (.ok generation) profile
      peerSeeded = .ok receiving)
    {calls : List SendCall}
    (hpackets : ∀ call ∈ calls, validateIpPacket call.packet = .ok ())
    {config : StandardsTunBridgeConfig} (hconfig : config.validate = .ok ())
    {arrivals : List DatagramArrival}
    (harrivals : (arrivals.map DatagramArrival.datagram).Subperm
      (sentBy aead sending.sender calls)) :
    let outcome := run (phantomOneQuicToTunStep aead config)
      ⟨.default, receiving.receiver⟩ (arrivals.map DatagramArrival.turn)
    ((∃ last, outcome = .running last) ↔ AllInTime arrivals) ∧
      (¬ AllInTime arrivals →
        ∃ error, outcome = .ended ⟨true, .error error⟩) := by
  intro outcome
  let direction : Direction := ⟨aead, key, generation, profile⟩
  have hstart : direction.HasSealed [] sending.sender := by
    rw [sender_of_enable hsending aead]
    exact Direction.newSender_hasSealed seeded
  obtain ⟨log, last, picked, hsealed, hpicked, hcarries⟩ :=
    hstart.sentBy_carries calls
  rw [List.nil_append] at hsealed
  have hknown : ∀ arrival ∈ arrivals,
      ∃ entry ∈ log, direction.Delivers arrival.datagram entry :=
    fun arrival harrival => hsealed.delivers_of_mem hpicked hcarries
      (harrivals.subset (List.mem_map_of_mem harrival))
  have hvalid : ∀ arrival ∈ arrivals,
      validateIpPacket arrival.datagram.payload = .ok () := by
    intro arrival harrival
    obtain ⟨call, hcall, heq⟩ := call_of_mem_sentBy
      (harrivals.subset (List.mem_map_of_mem harrival))
    exact heq ▸ hpackets call hcall
  have hdistinct :
      (arrivals.map fun arrival => arrival.datagram.sequence).Nodup := by
    obtain ⟨arrived, hperm, hsublist⟩ := harrivals
    have hmapped := (hperm.map SentEnvelope.sequence).nodup
      ((hsublist.map SentEnvelope.sequence).nodup
        (hsealed.nodup_sequences hpicked hcarries))
    rwa [List.map_map] at hmapped
  let start : PhantomOneReceiving := ⟨.default, receiving.receiver⟩
  have hlimit : start.receiving.invalidDatagrams <
      config.maxInvalidDatagrams := by
    rw [StandardsTunBridgeConfig.validate, ensure_eq_ok_iff] at hconfig
    exact hconfig.1
  rcases run_in_time hknown hvalid
    (by rwa [List.nil_append]) List.Forall₂.nil hlimit
    (receiver_of_enable hreceiving aead hsealed.ordered) with
    ⟨last, hrun, hall⟩ | ⟨error, hrun, before, arrival, after, heq, hlate⟩
  · exact ⟨iff_of_true ⟨last, hrun⟩ hall, fun hnot => absurd hall hnot⟩
  · have hnot : ¬ AllInTime arrivals := fun hall =>
      hlate (hall before arrival after heq)
    refine ⟨iff_of_false ?_ hnot, fun _ => ⟨error, hrun⟩⟩
    rintro ⟨last, hlast⟩
    cases hlast.symm.trans hrun

namespace ArrivalsWitness

/-- The shortest IPv4 packet. -/
def packet : Bytes := [0x45, 0, 0, 20] ++ List.replicate 16 0

theorem packet_valid : validateIpPacket packet = .ok () := by decide

def path : QuicPath := ⟨none, true, some 1400⟩

def call : SendCall := ⟨packet, path, path⟩

def key : Key := FixedBytes.replicate 32 7

def peerKey : Key := FixedBytes.replicate 32 9

def config : StandardsTunBridgeConfig := ⟨64, false⟩

def decoder : PhantomOneDecoder where
  generation := 0
  windowSize := 64
  config := .forProfile .medium
  highestSequence := none
  seenBitmap := 0
  paddingBytesUsed := 0

/-- An end that has just enabled the medium profile. -/
def enabled (sendKey recvKey : Key) : PhantomOneState Rng.zeros where
  profile := .medium
  sender := ⟨.new sendKey, .fromValidatedConfig 0 0 (.forProfile .medium) ()⟩
  receiver := ⟨.newWithReplayWindow recvKey 128, decoder⟩
  applicationSend := none
  applicationRecv := none

theorem enable_eq (sendKey recvKey : Key) :
    enablePhantomOne none sendKey recvKey (.ok 0) .medium () =
      .ok (enabled sendKey recvKey) := rfl

def sent (count : Nat) : List SentEnvelope :=
  sentBy .tagged (enabled key peerKey).sender (List.replicate count call)

theorem call_valid (count : Nat) : ∀ other ∈ List.replicate count call,
    validateIpPacket other.packet = .ok () := by
  intro other hother
  rw [List.eq_of_mem_replicate hother]
  exact packet_valid

/-- Two datagrams that overtake each other. -/
theorem honest_datagrams_tolerated_swapped :
    let arrivals := (sent 2).reverse.map fun datagram =>
      DatagramArrival.mk datagram path
    let outcome := run (phantomOneQuicToTunStep .tagged config)
      ⟨.default, (enabled peerKey key).receiver⟩
      (arrivals.map DatagramArrival.turn)
    ((∃ last, outcome = .running last) ↔ AllInTime arrivals) ∧
      (¬ AllInTime arrivals →
        ∃ error, outcome = .ended ⟨true, .error error⟩) := by
  refine honest_datagrams_tolerated_iff .tagged (enable_eq key peerKey)
    (enable_eq peerKey key) (call_valid 2) rfl ?_
  rw [List.map_map, show DatagramArrival.datagram ∘ (fun datagram =>
    DatagramArrival.mk datagram path) = id from rfl, List.map_id]
  exact (List.reverse_perm (sent 2)).subperm

end ArrivalsWitness

end Shph.PhantomOneChannel
