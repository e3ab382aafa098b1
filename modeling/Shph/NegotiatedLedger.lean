/-
The sender's books.  Whatever a run of sends and cover frames did, the frames
that went out are among those the encoder produced, the counters cover them,
and every cover frame was paid for by the payloads sent before it.
-/
import Shph.NegotiatedSession
import Shph.PhantomOneSession

namespace Shph

open ByteCodec

namespace SentFrame

/-- The payload bytes a frame counts for. -/
def dataLen (frame : SentFrame) : Nat :=
  if frame.frameType = .data then frame.payload.length else 0

/-- The cover bytes a frame counts for on a transport that adds `overhead`
bytes to an envelope. -/
def coverLen (overhead : Nat) (frame : SentFrame) : Nat :=
  if frame.frameType = .keepalive then frame.targetLen + overhead else 0

/-- What goes into a negotiated session: payloads and cover frames. -/
def Regular (frame : SentFrame) : Prop :=
  frame.frameType = .data ∨
    (frame.frameType = .keepalive ∧ frame.payload = [0])

variable {frame : SentFrame} (overhead : Nat)

theorem dataLen_of_data (htype : frame.frameType = .data) :
    frame.dataLen = frame.payload.length :=
  if_pos htype

theorem coverLen_of_data (htype : frame.frameType = .data) :
    frame.coverLen overhead = 0 := by
  simp [coverLen, htype]

theorem dataLen_of_keepalive (htype : frame.frameType = .keepalive) :
    frame.dataLen = 0 := by
  simp [dataLen, htype]

theorem coverLen_of_keepalive (htype : frame.frameType = .keepalive) :
    frame.coverLen overhead = frame.targetLen + overhead :=
  if_pos htype

end SentFrame

def dataBytes (frames : List SentFrame) : Nat :=
  (frames.map SentFrame.dataLen).sum

def coverCost (overhead : Nat) (frames : List SentFrame) : Nat :=
  (frames.map (SentFrame.coverLen overhead)).sum

@[simp] theorem dataBytes_nil : dataBytes [] = 0 := rfl

@[simp] theorem coverCost_nil (overhead : Nat) : coverCost overhead [] = 0 :=
  rfl

theorem dataBytes_append (first second : List SentFrame) :
    dataBytes (first ++ second) = dataBytes first + dataBytes second := by
  simp [dataBytes]

theorem dataBytes_snoc (frames : List SentFrame) (frame : SentFrame) :
    dataBytes (frames ++ [frame]) = dataBytes frames + frame.dataLen := by
  simp [dataBytes]

theorem coverCost_snoc (overhead : Nat) (frames : List SentFrame)
    (frame : SentFrame) :
    coverCost overhead (frames ++ [frame]) =
      coverCost overhead frames + frame.coverLen overhead := by
  simp [coverCost]

theorem dataBytes_le_of_subperm {left right : List SentFrame}
    (hsub : left.Subperm right) : dataBytes left ≤ dataBytes right := by
  obtain ⟨middle, hperm, hsublist⟩ := hsub
  calc dataBytes left = dataBytes middle := (hperm.symm.map _).sum_eq
    _ ≤ dataBytes right := (hsublist.map _).sum_le_sum (by simp)

/-- Every cover frame, together with the cover frames before it, is paid for
by the payloads before it. -/
def Paid (policy : Option CoverPolicy) (overhead : Nat)
    (frames : List SentFrame) : Prop :=
  ∀ before frame after, frames = before ++ frame :: after →
    frame.frameType = .keepalive →
    ∃ terms ∈ policy,
      coverCost overhead (before ++ [frame]) ≤ terms.allowance (dataBytes before)

theorem paid_nil (policy : Option CoverPolicy) (overhead : Nat) :
    Paid policy overhead [] := by
  intro before frame after heq
  simp at heq

theorem Paid.snoc {policy : Option CoverPolicy} {overhead : Nat}
    {frames : List SentFrame} {frame : SentFrame}
    (hpaid : Paid policy overhead frames)
    (hframe : frame.frameType = .keepalive → ∃ terms ∈ policy,
      coverCost overhead (frames ++ [frame]) ≤
        terms.allowance (dataBytes frames)) :
    Paid policy overhead (frames ++ [frame]) := by
  intro before other after heq hkeepalive
  rcases List.eq_nil_or_concat after with rfl | ⟨rest, last, rfl⟩
  · obtain ⟨rfl, rfl⟩ := List.append_inj' heq rfl |>.imp_right
      fun htail => List.singleton_inj.mp htail
    exact hframe hkeepalive
  · rw [List.concat_eq_append, ← List.cons_append, ← List.append_assoc] at heq
    exact hpaid before other rest (List.append_inj' heq rfl).1 hkeepalive

/-- A reservation that fits, as a conjunction of bounds. -/
theorem FrameUsage.reserve_eq_ok_iff {usage next : FrameUsage}
    {budget : FrameBudget} {payloadBytes : Nat} :
    usage.reserve budget payloadBytes = .ok next ↔
      usage.frames + 1 ≤ budget.maxFrames.toNat ∧
        usage.payloadBytes + payloadBytes ≤ budget.maxPayloadBytes.toNat ∧
        next = ⟨usage.frames + 1, usage.payloadBytes + payloadBytes⟩ := by
  have hframes := budget.maxFrames.toNat_lt
  have hpayload := budget.maxPayloadBytes.toNat_lt
  simp only [reserve, bind_eq_ok_iff, okOr_eq_ok_iff, checkedAdd_eq_some_iff,
    ensure_eq_ok_iff, exists_const, pure_eq_ok_iff]
  constructor
  · rintro ⟨_, ⟨_, rfl⟩, _, ⟨_, rfl⟩, hle, rfl⟩
    exact ⟨hle.1, hle.2, rfl⟩
  · rintro ⟨hfirst, hsecond, rfl⟩
    refine ⟨_, ⟨?_, rfl⟩, _, ⟨?_, rfl⟩, ⟨hfirst, hsecond⟩, rfl⟩
    · simp only [u64Max]
      omega
    · simp only [u64Max]
      omega

namespace OutboundPolicy

variable {rng : Rng}

/-- What is fixed for a session: the agreed settings, the cover policy and the
bytes the transport adds to an envelope. -/
structure Terms where
  config : PhantomOneConfig
  generation : UInt32
  frameLimit : Nat
  budget : FrameBudget
  coverPolicy : Option CoverPolicy
  overhead : Nat

def Terms.ofAgreement (generation : UInt32) (agreement : NegotiatedPolicy)
    (coverPolicy : Option CoverPolicy) (overhead : Nat) : Terms where
  config := agreement.config
  generation := generation
  frameLimit := agreement.outboundFrameLimit
  budget := agreement.outboundBudget
  coverPolicy := coverPolicy
  overhead := overhead

/-- The books of a sender whose encoder produced `frames` and which handed
`sent` to the transport. -/
structure Ledger (terms : Terms) (frames : List (EncodeCall × SentFrame))
    (sent : List SentFrame) (outbound : OutboundPolicy rng) : Prop where
  limit_eq : outbound.outboundFrameLimit = terms.frameLimit
  budget_eq : outbound.outboundBudget = terms.budget
  policy_eq : outbound.cover.policy = terms.coverPolicy
  produced : PhantomOneEncoder.Produced terms.config terms.generation 0 frames
    outbound.encoder
  sublist : sent.Sublist (frames.map Prod.snd)
  target_le : ∀ frame ∈ sent, frame.targetLen ≤ terms.frameLimit
  regular : ∀ frame ∈ sent, frame.Regular
  frames_le : sent.length ≤ outbound.sentUsage.frames ∧
    outbound.sentUsage.frames ≤ terms.budget.maxFrames.toNat
  payload_le : dataBytes sent ≤ outbound.sentUsage.payloadBytes ∧
    outbound.sentUsage.payloadBytes ≤ terms.budget.maxPayloadBytes.toNat
  recorded : outbound.cover.payloadBytes ≤ dataBytes sent
  reserved : coverCost terms.overhead sent ≤ outbound.cover.coverBytes ∧
    outbound.cover.coverBytes ≤ u64Max
  paid : Paid terms.coverPolicy terms.overhead sent
  observed : ∀ since, outbound.cover.lastData = some since ∨
    outbound.cover.lastCover = some since →
      since ≤ outbound.cover.lastObserved

/-- An envelope is ready for the transport: encoded and counted, and paid for
if it is cover. -/
structure Ready (terms : Terms) (frames : List (EncodeCall × SentFrame))
    (sent : List SentFrame) (frame : SentFrame)
    (outbound : OutboundPolicy rng) : Prop where
  ledger : Ledger terms frames sent outbound
  sublist : (sent ++ [frame]).Sublist (frames.map Prod.snd)
  target_le : frame.targetLen ≤ terms.frameLimit
  regular : frame.Regular
  frames_room : sent.length + 1 ≤ outbound.sentUsage.frames
  payload_room : dataBytes sent + frame.dataLen ≤
    outbound.sentUsage.payloadBytes
  cover_room : coverCost terms.overhead sent + frame.coverLen terms.overhead ≤
    outbound.cover.coverBytes
  paid : frame.frameType = .keepalive → ∃ policy ∈ terms.coverPolicy,
    coverCost terms.overhead (sent ++ [frame]) ≤
      policy.allowance (dataBytes sent)

section Steps

variable {terms : Terms} {frames : List (EncodeCall × SentFrame)}
  {sent : List SentFrame} {outbound : OutboundPolicy rng}

/-- The encoder goes on and the usage grows; nothing is handed over. -/
theorem Ledger.with_encoder (hledger : Ledger terms frames sent outbound)
    {more : List (EncodeCall × SentFrame)} {encoder : PhantomOneEncoder rng}
    {usage : FrameUsage}
    (hproduced : PhantomOneEncoder.Produced terms.config terms.generation 0
      more encoder)
    (hsublist : sent.Sublist (more.map Prod.snd))
    (hframes : outbound.sentUsage.frames ≤ usage.frames ∧
      usage.frames ≤ terms.budget.maxFrames.toNat)
    (hpayload : outbound.sentUsage.payloadBytes ≤ usage.payloadBytes ∧
      usage.payloadBytes ≤ terms.budget.maxPayloadBytes.toNat) :
    Ledger terms more sent
      { outbound with encoder := encoder, sentUsage := usage } :=
  { hledger with
    produced := hproduced
    sublist := hsublist
    frames_le := ⟨hledger.frames_le.1.trans hframes.1, hframes.2⟩
    payload_le := ⟨hledger.payload_le.1.trans hpayload.1, hpayload.2⟩ }

theorem Ledger.of_same (hledger : Ledger terms frames sent outbound)
    {encoder : PhantomOneEncoder rng}
    (hsame : PhantomOneEncoder.SameSession encoder outbound.encoder) :
    Ledger terms frames sent { outbound with encoder := encoder } :=
  hledger.with_encoder (hledger.produced.of_same hsame) hledger.sublist
    ⟨Nat.le_refl _, hledger.frames_le.2⟩ ⟨Nat.le_refl _, hledger.payload_le.2⟩

/-- A produced frame stays in the books whether or not it is handed over. -/
theorem Ledger.sublist_snoc (hledger : Ledger terms frames sent outbound)
    (call : EncodeCall) (frame : SentFrame) :
    sent.Sublist ((frames ++ [(call, frame)]).map Prod.snd) ∧
      (sent ++ [frame]).Sublist
        ((frames ++ [(call, frame)]).map Prod.snd) := by
  rw [List.map_append]
  exact ⟨hledger.sublist.trans (List.sublist_append_left _ _),
    hledger.sublist.append_right [frame]⟩

theorem Ready.hand_over {frame : SentFrame}
    (hready : Ready terms frames sent frame outbound) :
    Ledger terms frames (sent ++ [frame]) outbound :=
  { hready.ledger with
    sublist := hready.sublist
    target_le := List.forall_mem_append.mpr
      ⟨hready.ledger.target_le, by simpa using hready.target_le⟩
    regular := List.forall_mem_append.mpr
      ⟨hready.ledger.regular, by simpa using hready.regular⟩
    frames_le := by
      rw [List.length_append, List.length_singleton]
      exact ⟨hready.frames_room, hready.ledger.frames_le.2⟩
    payload_le := by
      rw [dataBytes_snoc]
      exact ⟨hready.payload_room, hready.ledger.payload_le.2⟩
    recorded := by
      rw [dataBytes_snoc]
      exact hready.ledger.recorded.trans (Nat.le_add_right _ _)
    reserved := by
      rw [coverCost_snoc]
      exact ⟨hready.cover_room, hready.ledger.reserved.2⟩
    paid := hready.ledger.paid.snoc hready.paid }

/-- Handing a payload over and recording it at a time that is not in the
past. -/
theorem Ready.record {frame : SentFrame}
    (hready : Ready terms frames sent frame outbound) {payload : Bytes}
    {elapsed : Nat} (htype : frame.frameType = .data)
    (hpayload : frame.payload = payload)
    (hnow : outbound.cover.lastObserved ≤ elapsed) :
    ∃ next, outbound.recordPayload elapsed payload = (.ok (), next) ∧
      next.cover.lastObserved = elapsed ∧
      Ledger terms frames (sent ++ [frame]) next := by
  have hledger := hready.hand_over
  have hlen : (UInt64.ofNat payload.length).toNat ≤ frame.dataLen := by
    rw [SentFrame.dataLen_of_data htype, hpayload, UInt64.toNat_ofNat']
    exact Nat.mod_le _ _
  have hrecorded := hready.ledger.recorded
  simp only [recordPayload, CoverScheduler.recordPayload,
    CoverScheduler.observe, if_neg (Nat.not_lt.mpr hnow)]
  refine ⟨_, rfl, rfl, ?_⟩
  exact
    { hledger with
      recorded := by
        rw [dataBytes_snoc]
        change saturatingAdd _ _ ≤ _
        simp only [saturatingAdd]
        omega
      observed := by
        rintro since (hdata | hcover)
        · exact (Option.some.inj hdata).ge
        · exact (hledger.observed since (Or.inr hcover)).trans hnow }

/-- What the part of `send` before the transport can do. -/
theorem encodePayload_cases (hledger : Ledger terms frames sent outbound)
    (payload : Bytes) {limit : Nat} (hlimit : limit ≤ terms.frameLimit) :
    (∃ error more next, outbound.encodePayload payload limit =
        (.error error, next) ∧ next.cover = outbound.cover ∧
        frames <+: more ∧ Ledger terms more sent next) ∨
      ∃ frame call next, outbound.encodePayload payload limit =
          (.ok (frame.bytes terms.config terms.generation), next) ∧
        frame.frameType = .data ∧ frame.payload = payload ∧
        next.cover = outbound.cover ∧
        Ready terms (frames ++ [(call, frame)]) sent frame next := by
  unfold encodePayload
  cases outbound.checkPayload payload with
  | error error =>
      exact Or.inl ⟨error, frames, outbound, rfl, rfl, List.prefix_rfl,
        hledger⟩
  | ok checked =>
      have hconfig := hledger.produced.config_eq
      have hgeneration := hledger.produced.generation_eq
      rcases outbound.encoder.run_cases (.encode .data payload limit) with
        ⟨error, encoder, hcall, hsame⟩ |
        ⟨frame, encoder, hcall, htype, hpayload, hemits⟩
      · simp only [EncodeCall.run] at hcall
        simp only [hcall]
        exact Or.inl ⟨error, frames, _, rfl, rfl, List.prefix_rfl,
          hledger.of_same hsame⟩
      · simp only [EncodeCall.run] at hcall
        have hlength := PhantomOneEncoder.encode_length_le hcall
        rw [SentFrame.bytes_length] at hlength
        have hproduced := hledger.produced.emit htype hpayload hemits
        obtain ⟨hold, hnew⟩ := hledger.sublist_snoc
          (.encode .data payload limit) frame
        change frame.frameType = .data at htype
        change frame.payload = payload at hpayload
        simp only [hcall]
        cases hreserve : outbound.sentUsage.reserve outbound.outboundBudget
            payload.length with
        | error error =>
            exact Or.inl ⟨error, _, _, rfl, rfl, List.prefix_append _ _,
              hledger.with_encoder hproduced hold
                ⟨Nat.le_refl _, hledger.frames_le.2⟩
                ⟨Nat.le_refl _, hledger.payload_le.2⟩⟩
        | ok usage =>
            rw [hledger.budget_eq, FrameUsage.reserve_eq_ok_iff] at hreserve
            obtain ⟨hframes, hbytes, rfl⟩ := hreserve
            have hdata : frame.dataLen = payload.length := by
              rw [SentFrame.dataLen_of_data htype, hpayload]
            rw [hconfig, hgeneration]
            refine Or.inr ⟨frame, _, _, rfl, htype, hpayload, rfl,
                { ledger := hledger.with_encoder hproduced hold
                    ⟨Nat.le_succ _, hframes⟩ ⟨Nat.le_add_right _ _, hbytes⟩
                  sublist := hnew
                  target_le := hlength.trans hlimit
                  regular := Or.inl htype
                  frames_room := Nat.succ_le_succ hledger.frames_le.1
                  payload_room := by
                    rw [hdata]
                    exact Nat.add_le_add_right hledger.payload_le.1 _
                  cover_room := by
                    rw [SentFrame.coverLen_of_data _ htype]
                    exact hledger.reserved.1
                  paid := by
                    intro hkeepalive
                    rw [htype] at hkeepalive
                    exact absurd hkeepalive (by decide) }⟩

/-- The scheduler granted a cover frame of this size, and the payloads that
were handed over pay for it. -/
def Affords (terms : Terms) (sent : List SentFrame) (target : Nat)
    (outbound : OutboundPolicy rng) : Prop :=
  target + terms.overhead < 2 ^ 64 → ∃ policy ∈ terms.coverPolicy,
    coverCost terms.overhead sent + (target + terms.overhead) ≤
        outbound.cover.coverBytes ∧
      coverCost terms.overhead sent + (target + terms.overhead) ≤
        policy.allowance (dataBytes sent)

theorem Ledger.withhold (hledger : Ledger terms frames sent outbound)
    {call : CoverScheduler.Reservation}
    (hnow : outbound.cover.lastObserved ≤ call.now) :
    Ledger terms frames sent
      { outbound with cover := outbound.cover.withheld call } :=
  { hledger with
    observed := fun since hsince =>
      (hledger.observed since hsince).trans hnow }

theorem allowance_le (policy : CoverPolicy) (payloadBytes : Nat) :
    policy.allowance payloadBytes ≤ u64Max := by
  have hword := policy.maximumBytes.toNat_lt
  simp only [CoverPolicy.allowance, u64Max]
  omega

theorem Ledger.grant (hledger : Ledger terms frames sent outbound)
    {call : CoverScheduler.Reservation}
    (hnow : outbound.cover.lastObserved ≤ call.now) :
    Ledger terms frames sent
      { outbound with cover := outbound.cover.granted call } :=
  { hledger with
    reserved := by
      obtain ⟨hreserved, hword⟩ := hledger.reserved
      change coverCost _ _ ≤ saturatingAdd _ _ ∧ saturatingAdd _ _ ≤ _
      simp only [saturatingAdd]
      omega
    observed := by
      rintro since (hdata | hcover)
      · exact (hledger.observed since (Or.inl hdata)).trans hnow
      · exact (Option.some.inj hcover).ge }

/-- A granted reservation stays within the allowance of what was recorded, and
no more was recorded than handed over. -/
theorem Ledger.affords (hledger : Ledger terms frames sent outbound)
    (hoverhead : 0 < terms.overhead) {request : CoverRequest}
    {policy : CoverPolicy} {lastData target : Nat}
    (hgrants : CoverScheduler.Grants policy lastData outbound.cover
      (request.reservation (target + terms.overhead))) :
    Affords terms sent target { outbound with
      cover := outbound.cover.granted
        (request.reservation (target + terms.overhead)) } := by
  intro hsmall
  have hbytes : (request.reservation (target + terms.overhead)).bytes.toNat =
      target + terms.overhead := by
    rw [CoverRequest.reservation, UInt64.toNat_ofNat']
    exact Nat.mod_eq_of_lt hsmall
  have hbudget := hgrants.budget
  rw [hbytes] at hbudget
  have hword := allowance_le policy outbound.cover.payloadBytes
  have hmono := CoverScheduler.allowance_mono policy hledger.recorded
  have hreserved := hledger.reserved.1
  refine ⟨policy, ?_, ?_, by omega⟩
  · rw [← hledger.policy_eq]
    exact hgrants.policy_eq
  · change _ ≤ saturatingAdd outbound.cover.coverBytes _
    rw [hbytes]
    simp only [saturatingAdd]
    omega

/-- What the part of `send_cover_if_due` up to the reservation can do at a
time that is not in the past.  It does not panic. -/
theorem planCover_cases (hledger : Ledger terms frames sent outbound)
    (hoverhead : 0 < terms.overhead) (limit : Nat) (request : CoverRequest)
    (hnow : outbound.cover.lastObserved ≤ request.elapsed) :
    (∃ answer next, outbound.planCover limit terms.overhead request =
        (some answer, next) ∧ (∀ target, answer ≠ .ok (some target)) ∧
        next.cover.lastObserved ≤ request.elapsed ∧
        Ledger terms frames sent next) ∨
      ∃ target next, outbound.planCover limit terms.overhead request =
          (some (.ok (some target)), next) ∧
        next.cover.lastObserved ≤ request.elapsed ∧
        Ledger terms frames sent next ∧ Affords terms sent target next := by
  unfold planCover
  split
  · exact Or.inl ⟨_, outbound, rfl, by simp, hnow, hledger⟩
  · have hsame := outbound.encoder.targetSize_same 1 limit
    cases hsize : outbound.encoder.targetSize 1 limit with
    | mk result encoder =>
        rw [hsize] at hsame
        cases result with
        | error error =>
            exact Or.inl ⟨_, _, rfl, by simp, hnow, hledger.of_same hsame⟩
        | ok target =>
            have hencoded := hledger.of_same hsame
            dsimp only
            rcases outbound.cover.reserve_cases
                (request.reservation (target + terms.overhead)) with
              ⟨hback, _⟩ | ⟨_, hanswer | hgranted | hpanic⟩
            · exact absurd hback (Nat.not_lt.mpr hnow)
            · rw [hanswer]
              exact Or.inl ⟨_, _, rfl, by simp [Except.map], Nat.le_refl _,
                hencoded.withhold hnow⟩
            · obtain ⟨policy, lastData, hgrants, hanswer⟩ := hgranted
              rw [hanswer]
              exact Or.inr ⟨target, _, rfl, Nat.le_refl _, hencoded.grant hnow,
                hledger.affords hoverhead hgrants⟩
            · obtain ⟨since, hsince, hlate⟩ := hpanic
              have hle := hledger.observed since hsince
              have hlater : request.elapsed < since := hlate
              omega

/-- A granted cover frame that was encoded and counted is ready. -/
theorem Ledger.ready_cover (hledger : Ledger terms frames sent outbound)
    (limit : Nat) {target : Nat}
    (haffords : Affords terms sent target outbound)
    (hoverhead : terms.overhead < 2 ^ 32) {encoder : PhantomOneEncoder rng}
    {frame : SentFrame} {usage : FrameUsage}
    (htype : frame.frameType = .keepalive) (hpayload : frame.payload = [0])
    (hemits : PhantomOneEncoder.Emits outbound.encoder encoder frame)
    (htarget : frame.targetLen = target) (hlimit : target ≤ terms.frameLimit)
    (hreserve : outbound.sentUsage.reserve terms.budget 0 = .ok usage) :
    Ready terms
      (frames ++ [(.encodeWithTarget .keepalive [0] target limit, frame)]) sent
      frame { outbound with encoder := encoder, sentUsage := usage } := by
  rw [FrameUsage.reserve_eq_ok_iff] at hreserve
  obtain ⟨hframes, hbytes, rfl⟩ := hreserve
  have hproduced : PhantomOneEncoder.Produced terms.config terms.generation 0
      (frames ++ [(.encodeWithTarget .keepalive [0] target limit, frame)])
      encoder :=
    hledger.produced.emit htype hpayload hemits
  obtain ⟨hold, hnew⟩ := hledger.sublist_snoc
    (.encodeWithTarget .keepalive [0] target limit) frame
  have hsmall : target + terms.overhead < 2 ^ 64 := by
    have hle := hemits.target_le
    simp only [phantomOneMaxEnvelopeBytes] at hle
    omega
  obtain ⟨policy, hpolicy, hroom, hpaid⟩ := haffords hsmall
  have hcost := SentFrame.coverLen_of_keepalive terms.overhead htype
  rw [htarget] at hcost
  exact
    { ledger := hledger.with_encoder hproduced hold
        ⟨Nat.le_succ _, hframes⟩ ⟨Nat.le_add_right _ _, hbytes⟩
      sublist := hnew
      target_le := htarget.trans_le hlimit
      regular := Or.inr ⟨htype, hpayload⟩
      frames_room := Nat.succ_le_succ hledger.frames_le.1
      payload_room := by
        rw [SentFrame.dataLen_of_keepalive htype]
        exact hledger.payload_le.1
      cover_room := by
        rw [hcost]
        exact hroom
      paid := by
        intro _
        refine ⟨policy, hpolicy, ?_⟩
        rw [coverCost_snoc, hcost]
        exact hpaid }

end Steps

/-- The books of a session that has sent nothing. -/
theorem ofAgreement_ledger {generation : UInt32}
    {agreement : NegotiatedPolicy} {coverPolicy : Option CoverPolicy}
    {seeded : rng.State} {outbound : OutboundPolicy rng}
    (hok : ofAgreement generation agreement coverPolicy seeded = .ok outbound)
    (overhead : Nat) :
    agreement.config.validate = .ok () ∧
      outbound.cover.lastObserved = 0 ∧
      Ledger (.ofAgreement generation agreement coverPolicy overhead) [] []
        outbound := by
  simp only [ofAgreement, bind_eq_ok_iff, pure_eq_ok_iff] at hok
  obtain ⟨checked, hvalid, cover, hcover, rfl⟩ := hok
  obtain ⟨frames, hsent, hproduced⟩ := sentDatagrams_produced agreement.config
    generation 0 seeded []
  have hnil : frames = [] := by simpa [sentDatagrams] using hsent.symm
  subst hnil
  have hscheduler : cover = ⟨coverPolicy, 0, none, none, 0, 0, false⟩ := by
    cases coverPolicy with
    | none => exact (Except.ok.inj hcover).symm
    | some policy =>
        simp only [CoverScheduler.new, bind_eq_ok_iff] at hcover
        obtain ⟨_, _, hcover⟩ := hcover
        exact (Except.ok.inj hcover).symm
  subst hscheduler
  refine ⟨hvalid, rfl, ?_⟩
  exact
    { limit_eq := rfl
      budget_eq := rfl
      policy_eq := rfl
      produced := hproduced
      sublist := List.Sublist.refl _
      target_le := by simp
      regular := by simp
      frames_le := ⟨Nat.le_refl _, Nat.zero_le _⟩
      payload_le := ⟨Nat.le_refl _, Nat.zero_le _⟩
      recorded := Nat.le_refl _
      reserved := ⟨Nat.le_refl _, Nat.zero_le _⟩
      paid := paid_nil _ _
      observed := by simp }

/-- What the receiver may rely on about the frames of an honest sender. -/
structure Honest (terms : Terms) (sent : List SentFrame) : Prop where
  valid : terms.config.validate = .ok ()
  limit_le : terms.frameLimit ≤ phantomOneMaxEnvelopeBytes
  fits : ∀ frame ∈ sent, frame.Fits terms.config
  target_le : ∀ frame ∈ sent, frame.targetLen ≤ terms.frameLimit
  regular : ∀ frame ∈ sent, frame.Regular
  increasing : (sent.map SentFrame.sequence).Pairwise (· < ·)
  padding_le : totalPadding sent ≤ u64Max ∧
    ∀ budget ∈ terms.config.paddingBudget, totalPadding sent ≤ budget.toNat
  frames_le : sent.length ≤ terms.budget.maxFrames.toNat
  payload_le : dataBytes sent ≤ terms.budget.maxPayloadBytes.toNat
  paid : Paid terms.coverPolicy terms.overhead sent

theorem maxPadding_le {config : PhantomOneConfig}
    (hvalid : config.validate = .ok ()) :
    config.maxPadding ≤ phantomOneMaxPaddingBytes := by
  simp only [PhantomOneConfig.validate, bind_eq_ok_iff, ensure_eq_ok_iff,
    exists_const] at hvalid
  exact hvalid.2.2

/-- The sequence numbers the encoder gave out increase. -/
theorem produced_increasing {config : PhantomOneConfig} {generation : UInt32}
    {frames : List (EncodeCall × SentFrame)} {encoder : PhantomOneEncoder rng}
    (hproduced : PhantomOneEncoder.Produced config generation 0 frames
      encoder) :
    ((frames.map Prod.snd).map SentFrame.sequence).Pairwise (· < ·) := by
  rw [List.map_map, List.pairwise_map, List.pairwise_iff_getElem]
  intro first second hfirst hsecond hlt
  have hleft := hproduced.sequence_eq first _
    (List.getElem?_eq_getElem hfirst)
  have hright := hproduced.sequence_eq second _
    (List.getElem?_eq_getElem hsecond)
  simp only [Function.comp_apply, hleft, hright]
  omega

/-- A frame gets the number of frames before it. -/
theorem produced_last {config : PhantomOneConfig} {generation : UInt32}
    {frames : List (EncodeCall × SentFrame)} {call : EncodeCall}
    {frame : SentFrame} {encoder : PhantomOneEncoder rng}
    (hproduced : PhantomOneEncoder.Produced config generation 0
      (frames ++ [(call, frame)]) encoder) :
    frame.sequence = frames.length := by
  have hlast := hproduced.sequence_eq frames.length (call, frame) (by simp)
  simpa using hlast

/-- The books of at most `2 ^ 48` frames show an honest sender. -/
theorem Ledger.honest {terms : Terms}
    {frames : List (EncodeCall × SentFrame)} {sent : List SentFrame}
    {outbound : OutboundPolicy rng}
    (hledger : Ledger terms frames sent outbound)
    (hvalid : terms.config.validate = .ok ())
    (hlimit : terms.frameLimit ≤ phantomOneMaxEnvelopeBytes)
    (hcount : sent.length ≤ 2 ^ 48) : Honest terms sent := by
  have hfits : ∀ frame ∈ sent, frame.Fits terms.config := by
    intro frame hframe
    obtain ⟨entry, hentry, rfl⟩ :=
      List.mem_map.mp (hledger.sublist.subset hframe)
    exact (hledger.produced.entry_ok entry hentry).2.2
  have hpadding := totalPadding_le_of_forall sent phantomOneMaxPaddingBytes
    fun frame hframe => (hfits frame hframe).padding_mem.2.trans
      (maxPadding_le hvalid)
  exact
    { valid := hvalid
      limit_le := hlimit
      fits := hfits
      target_le := hledger.target_le
      regular := hledger.regular
      increasing := (produced_increasing hledger.produced).sublist
        (hledger.sublist.map _)
      padding_le := by
        refine ⟨hpadding.trans ?_, ?_⟩
        · simp only [phantomOneMaxPaddingBytes, u64Max]
          omega
        · intro budget hbudget
          exact (totalPadding_le_of_subperm hledger.sublist.subperm).trans
            (hledger.produced.budget budget hbudget).2
      frames_le := hledger.frames_le.1.trans hledger.frames_le.2
      payload_le := hledger.payload_le.1.trans hledger.payload_le.2
      paid := hledger.paid }

end OutboundPolicy

end Shph
