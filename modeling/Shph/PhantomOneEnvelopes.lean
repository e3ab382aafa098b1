/-
Datagrams on their way.  Each one that a sender has let go carries a frame that
was sealed; the peer opens it under a condition on those that it has opened
before.
-/
import Shph.PhantomOneChannel

namespace Shph.PhantomOneChannel

open ByteCodec SlidingWindow StandardsTun

variable {rng : Rng}

/-- A datagram that was handed over, with its number and its payload. -/
structure SentEnvelope where
  sequence : Nat
  payload : Bytes
  ciphertext : Bytes
deriving Repr, DecidableEq

def SentEnvelope.paddingLen (envelope : SentEnvelope) : Nat :=
  envelope.ciphertext.length - shphAeadOverheadBytes - phantomOneHeaderBytes -
    envelope.payload.length

/-- The connection takes datagrams of this length. -/
def takes (path : QuicPath) (envelope : SentEnvelope) : Bool :=
  path.maxDatagramSize.any (envelope.ciphertext.length ≤ ·.toNat)

/-- None of the envelopes is 64 or more ahead of this one. -/
def Reached (before : List SentEnvelope) (envelope : SentEnvelope) : Prop :=
  ∀ earlier ∈ before, earlier.sequence < envelope.sequence + 64

/-- The counter of the padding bytes has room for all of them. -/
def PaddingCounted (envelopes : List SentEnvelope) : Prop :=
  (envelopes.map SentEnvelope.paddingLen).sum ≤ u64Max

/-- The frame that was sealed for the envelope. -/
structure Carries (envelope : SentEnvelope) (entry : SealedFrame) : Prop where
  sequence_eq : entry.sequence = envelope.sequence
  payload_eq : entry.frame.payload = envelope.payload
  ciphertext_eq : entry.ciphertext = envelope.ciphertext
  frameType_eq : entry.frame.frameType = .data

theorem map_eq_map_of_forall₂ {α β γ : Type} {R : α → β → Prop}
    {left : List α} {right : List β} (hall : List.Forall₂ R left right)
    (f : α → γ) (g : β → γ) (hsame : ∀ a b, R a b → f a = g b) :
    left.map f = right.map g := by
  rw [← List.forall₂_eq_eq_eq, List.forall₂_map_left_iff,
    List.forall₂_map_right_iff]
  exact hall.imp hsame

/-- What holds of every element of a list behind those before it. -/
theorem forall_split_cons_iff {α : Type} {P : List α → α → Prop} {first : α}
    {rest : List α} :
    (∀ before other after, first :: rest = before ++ other :: after →
        P before other) ↔
      P [] first ∧ ∀ before other after, rest = before ++ other :: after →
        P (first :: before) other := by
  constructor
  · intro hall
    refine ⟨hall [] first rest rfl, fun before other after heq => ?_⟩
    exact hall (first :: before) other after (by rw [heq, List.cons_append])
  · rintro ⟨hfirst, hrest⟩ before other after heq
    cases before with
    | nil =>
        cases heq
        exact hfirst
    | cons head before =>
        rw [List.cons_append] at heq
        cases heq
        exact hrest before other after rfl

section Wire

variable {path : QuicPath}

theorem recv_eq_unseal (aead : Aead) (receiver : PhantomOneDatagramReceiver)
    (path : QuicPath) (ciphertext : Bytes) :
    receiver.recv aead path (.ok ciphertext) =
      match phantomOnePathMtu path with
      | .error error => (.error error, receiver)
      | .ok pathMtu =>
          if pathMtu + shphAeadOverheadBytes < ciphertext.length then
            (.error (.protocol
              "Phantom One QUIC DATAGRAM exceeds the negotiated bound"),
              receiver)
          else
            match receiver.unseal aead ciphertext pathMtu with
            | (.error error, next) => (.error error, next)
            | (.ok frame, next) =>
                if frame.frameType ≠ .data then
                  (.error (.protocol
                    "unexpected Phantom One frame type on DATAGRAM"), next)
                else (.ok frame.payload, next) := by
  unfold PhantomOneDatagramReceiver.recv PhantomOneDatagramReceiver.unseal
  cases phantomOnePathMtu path with
  | error error => rfl
  | ok pathMtu =>
      dsimp only
      split_ifs
      · rfl
      · rcases receiver.recvCipher.decrypt aead ciphertext with
          ⟨error | plaintext, recvCipher⟩
        · rfl
        · dsimp only
          rcases receiver.decoder.decode plaintext pathMtu with
            ⟨error | frame, decoder⟩
          · rfl
          · rfl

/-- The path MTU is what the AEAD leaves of the size limit. -/
theorem phantomOnePathMtu_eq_ok_iff {path : QuicPath} {pathMtu : Nat} :
    phantomOnePathMtu path = .ok pathMtu ↔
      phantomOneHeaderBytes ≤ pathMtu ∧ ∃ limit,
        path.maxDatagramSize = some limit ∧
          limit.toNat = pathMtu + shphAeadOverheadBytes := by
  simp only [phantomOnePathMtu, bind_eq_ok_iff, okOr_eq_ok_iff,
    ensure_eq_ok_iff, exists_const, pure_eq_ok_iff, checkedSub]
  constructor
  · rintro ⟨limit, hlimit, left, hleft, hheader, rfl⟩
    split_ifs at hleft with hroom
    cases hleft
    exact ⟨hheader, limit, hlimit, by omega⟩
  · rintro ⟨hheader, limit, hlimit, hsum⟩
    refine ⟨limit, hlimit, pathMtu, ?_, hheader, rfl⟩
    rw [if_pos (by omega), hsum, Nat.add_sub_cancel]

/-- A datagram that is too long is not looked at. -/
theorem recv_of_not_takes {envelope : SentEnvelope} (aead : Aead)
    (receiver : PhantomOneDatagramReceiver)
    (hlong : ¬ takes path envelope = true) :
    ∃ error, receiver.recv aead path (.ok envelope.ciphertext) =
      (.error error, receiver) := by
  rw [recv_eq_unseal]
  cases hmtu : phantomOnePathMtu path with
  | error error => exact ⟨error, rfl⟩
  | ok pathMtu =>
      obtain ⟨-, limit, hlimit, hsum⟩ := phantomOnePathMtu_eq_ok_iff.mp hmtu
      have hover : pathMtu + shphAeadOverheadBytes <
          envelope.ciphertext.length := by
        rw [takes, hlimit, Option.any_some, decide_eq_true_eq] at hlong
        omega
      dsimp only
      rw [if_pos hover]
      exact ⟨_, rfl⟩

/-- Any other one is decrypted and decoded. -/
theorem recv_of_takes {envelope : SentEnvelope} (aead : Aead)
    (receiver : PhantomOneDatagramReceiver)
    (htakes : takes path envelope = true)
    {targetLen : Nat} (hheader : phantomOneHeaderBytes ≤ targetLen)
    (hlength : envelope.ciphertext.length =
      targetLen + shphAeadOverheadBytes) :
    ∃ pathMtu, targetLen ≤ pathMtu ∧ pathMtu ≤ phantomOneMaxEnvelopeBytes ∧
      receiver.recv aead path (.ok envelope.ciphertext) =
        match receiver.unseal aead envelope.ciphertext pathMtu with
        | (.error error, next) => (.error error, next)
        | (.ok frame, next) =>
            if frame.frameType ≠ .data then
              (.error (.protocol
                "unexpected Phantom One frame type on DATAGRAM"), next)
            else (.ok frame.payload, next) := by
  obtain ⟨limit, hpath, hfits⟩ := (Option.any_eq_true _ _).mp htakes
  rw [decide_eq_true_eq] at hfits
  have hmtu : phantomOnePathMtu path =
      .ok (limit.toNat - shphAeadOverheadBytes) :=
    phantomOnePathMtu_eq_ok_iff.mpr ⟨by omega, limit, hpath, by omega⟩
  refine ⟨limit.toNat - shphAeadOverheadBytes, by omega, ?_, ?_⟩
  · have hsmall := limit.toNat_lt
    unfold phantomOneMaxEnvelopeBytes
    omega
  · rw [recv_eq_unseal, hmtu]
    dsimp only
    rw [if_neg (by omega)]

end Wire

namespace Direction

variable {direction : Direction} {log opened : List SealedFrame}
  {entry : SealedFrame} {envelope : SentEnvelope} {before : List SentEnvelope}

/-- The envelope carries a genuine one of the direction. -/
def Delivers (direction : Direction) (envelope : SentEnvelope)
    (entry : SealedFrame) : Prop :=
  Carries envelope entry ∧ direction.Genuine entry

theorem Delivers.paddingLen_eq (hdelivers : direction.Delivers envelope entry) :
    envelope.paddingLen = entry.frame.padding.length := by
  obtain ⟨hcarries, hgenuine⟩ := hdelivers
  have hlength := hgenuine.ciphertext_length
  rw [SentEnvelope.paddingLen, ← hcarries.ciphertext_eq, hlength,
    ← hcarries.payload_eq, SentFrame.targetLen]
  omega

theorem reached_iff
    (hbefore : List.Forall₂ direction.Delivers before opened)
    (hdelivers : direction.Delivers envelope entry) :
    Reached before envelope ↔ InReach opened entry := by
  have hsame := map_eq_map_of_forall₂ hbefore SentEnvelope.sequence
    SealedFrame.sequence fun _ _ hdelivers => hdelivers.1.sequence_eq.symm
  rw [Reached, InReach, hdelivers.1.sequence_eq,
    ← List.forall_mem_map (f := SentEnvelope.sequence)
      (P := fun number => number < envelope.sequence + 64), hsame,
    List.forall_mem_map]

/-- A number that did not come before belongs to a new envelope. -/
theorem Delivers.fresh (hdelivers : direction.Delivers envelope entry)
    (hbefore : List.Forall₂ direction.Delivers before opened)
    (hnew : envelope.sequence ∉ before.map SentEnvelope.sequence) :
    entry ∉ opened := by
  intro hold
  refine hnew ?_
  rw [map_eq_map_of_forall₂ hbefore SentEnvelope.sequence
    SealedFrame.sequence fun _ _ hdelivers => hdelivers.1.sequence_eq.symm,
    ← hdelivers.1.sequence_eq]
  exact List.mem_map_of_mem hold

theorem paddingCounted_iff
    (hbefore : List.Forall₂ direction.Delivers before opened) :
    PaddingCounted before ↔
      totalPadding (opened.map SealedFrame.frame) ≤ u64Max := by
  have hsame := map_eq_map_of_forall₂ hbefore SentEnvelope.paddingLen
    (fun entry => entry.frame.padding.length)
    fun _ _ hdelivers => hdelivers.paddingLen_eq
  rw [PaddingCounted, totalPadding, List.map_map, hsame]
  exact Iff.rfl

section Sender

variable {sender : PhantomOneDatagramSender rng}

/-- What handing a datagram to the sender can do. -/
theorem HasSealed.send_cases (hsealed : direction.HasSealed log sender)
    (payload : Bytes) (path handover : QuicPath) :
    (∃ error next more,
        sender.send direction.aead payload path handover =
          (.error error, next) ∧
        direction.HasSealed (log ++ more) next) ∨
      ∃ entry next,
        sender.send direction.aead payload path handover =
          (.ok entry.ciphertext, next) ∧
        direction.HasSealed (log ++ [entry]) next ∧
        Carries ⟨sender.encoder.nextSequence.getD 0, payload,
          entry.ciphertext⟩ entry := by
  rw [send_eq_seal]
  cases phantomOnePathMtu path with
  | error error =>
      exact Or.inl ⟨error, sender, [], rfl, by rwa [List.append_nil]⟩
  | ok pathMtu =>
      dsimp only
      rcases hsealed.seal_cases .data payload pathMtu with
        ⟨error, next, hseal, hkept⟩ |
        ⟨entry, next, hseal, hnext, hsequence, htype, hpayload, -⟩
      · rw [hseal]
        exact Or.inl ⟨error, next, [], rfl, by rwa [List.append_nil]⟩
      · rw [hseal]
        dsimp only
        cases handover.sendDatagramWait entry.ciphertext.length with
        | error error => exact Or.inl ⟨error, next, [entry], rfl, hnext⟩
        | ok =>
            refine Or.inr ⟨entry, next, rfl, hnext, ?_, hpayload, rfl, htype⟩
            rw [hsequence, Option.getD_some]

/-- No two envelopes have one number. -/
theorem HasSealed.nodup_sequences (hsealed : direction.HasSealed log sender)
    {picked : List SealedFrame} (hpicked : picked.Sublist log)
    {sent : List SentEnvelope} (hcarries : List.Forall₂ Carries sent picked) :
    (sent.map SentEnvelope.sequence).Nodup := by
  have hordered : (picked.map SealedFrame.sequence).Pairwise (· < ·) := by
    rw [List.pairwise_map]
    refine (hsealed.ordered.sublist hpicked).imp ?_
    rintro first second ⟨hnonce, hlead⟩
    omega
  rw [map_eq_map_of_forall₂ hcarries SentEnvelope.sequence
    SealedFrame.sequence fun _ _ hcarries => hcarries.sequence_eq.symm]
  exact hordered.imp Nat.ne_of_lt

/-- Each of them carries an envelope of the log. -/
theorem HasSealed.delivers_of_mem (hsealed : direction.HasSealed log sender)
    {picked : List SealedFrame} (hpicked : picked.Sublist log)
    {sent : List SentEnvelope} (hcarries : List.Forall₂ Carries sent picked)
    (hmem : envelope ∈ sent) :
    ∃ entry ∈ log, direction.Delivers envelope entry := by
  obtain ⟨index, hindex, rfl⟩ := List.mem_iff_getElem.mp hmem
  have hentry := hpicked.subset
    (List.getElem_mem (l := picked) (hcarries.length_eq ▸ hindex))
  exact ⟨_, hentry, hcarries.get _ _, hsealed.genuine _ hentry⟩

end Sender

section Receiver

variable {receiver : PhantomOneDatagramReceiver} {path : QuicPath}
  (hreceives : direction.Receives log opened receiver)
  (hmem : entry ∈ log) (hnew : entry ∉ opened)
  (hdelivers : direction.Delivers envelope entry)

include hdelivers in
theorem Delivers.recv_of_takes (receiver : PhantomOneDatagramReceiver)
    (htakes : takes path envelope = true) :
    ∃ pathMtu, entry.frame.targetLen ≤ pathMtu ∧
      pathMtu ≤ phantomOneMaxEnvelopeBytes ∧
      receiver.recv direction.aead path (.ok envelope.ciphertext) =
        match receiver.unseal direction.aead entry.ciphertext pathMtu with
        | (.error error, next) => (.error error, next)
        | (.ok frame, next) =>
            if frame.frameType ≠ .data then
              (.error (.protocol
                "unexpected Phantom One frame type on DATAGRAM"), next)
            else (.ok frame.payload, next) := by
  obtain ⟨hcarries, hgenuine⟩ := hdelivers
  have hlength := hgenuine.ciphertext_length
  rw [hcarries.ciphertext_eq] at hlength ⊢
  refine PhantomOneChannel.recv_of_takes direction.aead receiver htakes ?_
    hlength
  rw [SentFrame.targetLen]
  omega

include hreceives hmem hnew hdelivers

/-- A datagram in reach is opened. -/
theorem Receives.recv_opens (htakes : takes path envelope = true)
    (hreach : InReach opened entry) (hroom : PaddingRoom opened entry) :
    ∃ next, receiver.recv direction.aead path (.ok envelope.ciphertext) =
        (.ok envelope.payload, next) ∧
      direction.Receives log (opened ++ [entry]) next := by
  obtain ⟨pathMtu, htarget, hlimit, hrecv⟩ :=
    hdelivers.recv_of_takes receiver htakes
  obtain ⟨next, hunseal, hnext⟩ := hreceives.unseal_opens hmem hnew
    hdelivers.2 htarget hlimit hreach hroom
  refine ⟨next, ?_, hnext⟩
  rw [hrecv, hunseal]
  dsimp only [decoded, SentFrame.decoded]
  rw [if_neg (not_not_intro hdelivers.1.frameType_eq), hdelivers.1.payload_eq]

/-- Any other datagram is refused. -/
theorem Receives.recv_fails
    (hbad : ¬ (takes path envelope = true ∧ InReach opened entry ∧
      PaddingRoom opened entry)) :
    ∃ error next, receiver.recv direction.aead path
      (.ok envelope.ciphertext) = (.error error, next) := by
  by_cases htakes : takes path envelope = true
  · obtain ⟨pathMtu, htarget, hlimit, hrecv⟩ :=
      hdelivers.recv_of_takes receiver htakes
    obtain ⟨error, next, hunseal⟩ := hreceives.unseal_fails hmem hnew
      hdelivers.2 htarget hlimit fun hgood => hbad ⟨htakes, hgood⟩
    exact ⟨error, next, by rw [hrecv, hunseal]⟩
  · obtain ⟨error, hrecv⟩ := recv_of_not_takes direction.aead receiver htakes
    exact ⟨error, receiver, hrecv⟩

end Receiver

end Direction

/-- The sending half of an end that was just enabled. -/
theorem sender_of_enable {sendKey recvKey : Key} {generation : UInt32}
    {profile : ProfileTier} {seeded : rng.State} {state : PhantomOneState rng}
    (henable : enablePhantomOne none sendKey recvKey (.ok generation) profile
      seeded = .ok state) (aead : Aead) :
    state.sender =
      (Direction.mk aead sendKey generation profile).newSender seeded := by
  simp only [enablePhantomOne, bind_eq_ok_iff] at henable
  obtain ⟨_, ⟨⟩, decoder, -, ⟨⟩⟩ := henable
  rfl

/-- The receiving half. -/
theorem receiver_of_enable {sendKey recvKey : Key} {generation : UInt32}
    {profile : ProfileTier} {seeded : rng.State} {state : PhantomOneState rng}
    (henable : enablePhantomOne none sendKey recvKey (.ok generation) profile
      seeded = .ok state) (aead : Aead) {log : List SealedFrame}
    (hordered :
      log.Pairwise (Before SealedFrame.nonce SealedFrame.sequence)) :
    (Direction.mk aead recvKey generation profile).Receives log []
      state.receiver := by
  simp only [enablePhantomOne, bind_eq_ok_iff] at henable
  obtain ⟨_, ⟨⟩, decoder, hdecoder, ⟨⟩⟩ := henable
  exact Direction.newReceiver_receives hordered hdecoder

end Shph.PhantomOneChannel
