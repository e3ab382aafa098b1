/-
Both peers of a policy negotiation come to the same result.  Negotiating with
the roles swapped swaps the directions of the agreement and nothing else, and
the acknowledged bytes determine the two offers.
-/
import Shph.EnvelopePolicy
import Shph.PhantomOneSession

namespace Shph

open ByteCodec

namespace EnvelopeOffer

/-- The offers that the constructors build and that `decode` produces. -/
inductive Built : EnvelopeOffer → Prop where
  | new {transcriptHex config frameLimit offer}
      (hoffer : new transcriptHex config frameLimit = .ok offer) : Built offer
  | withSupportedProfiles {offer profiles next} (hbuilt : Built offer)
      (hnext : offer.withSupportedProfiles profiles = .ok next) : Built next
  | withDirectionalLimits {offer outbound inbound next} (hbuilt : Built offer)
      (hnext : offer.withDirectionalLimits outbound inbound = .ok next) :
      Built next
  | withDirectionalBudgets {offer outbound inbound next}
      (hbuilt : Built offer)
      (hnext : offer.withDirectionalBudgets outbound inbound = .ok next) :
      Built next
  | withCover {offer cover next} (hbuilt : Built offer)
      (hnext : offer.withCover cover = .ok next) : Built next
  | decode {bytes offer} (hoffer : decode bytes = .ok offer) : Built offer

/-- The paddings of a configuration, which an encoded offer keeps in two bytes
each. -/
def PaddingFits (config : PhantomOneConfig) : Prop :=
  config.minPadding < 256 ^ 2 ∧ config.maxPadding < 256 ^ 2

theorem paddingFits_of_validate {config : PhantomOneConfig}
    (hvalid : config.validate = .ok ()) : PaddingFits config := by
  simp only [PhantomOneConfig.validate, bind_eq_ok_iff,
    ensure_eq_ok_iff] at hvalid
  obtain ⟨-, -, -, hle, hmax⟩ := hvalid
  unfold phantomOneMaxPaddingBytes at hmax
  unfold PaddingFits
  omega

theorem new_paddingFits {transcriptHex : String} {config : PhantomOneConfig}
    {frameLimit : Nat} {offer : EnvelopeOffer}
    (hoffer : new transcriptHex config frameLimit = .ok offer) :
    PaddingFits offer.config := by
  simp only [new, bind_eq_ok_iff] at hoffer
  obtain ⟨binding, -, mtu, -, valid, hvalid, hoffer⟩ := hoffer
  rw [← Except.ok.inj hoffer]
  exact paddingFits_of_validate hvalid

theorem withSupportedProfiles_config {offer next : EnvelopeOffer}
    {profiles : List ProfileTier}
    (hnext : offer.withSupportedProfiles profiles = .ok next) :
    next.config = offer.config := by
  simp only [withSupportedProfiles, bind_eq_ok_iff] at hnext
  obtain ⟨-, -, mask, -, -, -, -, -, hnext⟩ := hnext
  rw [← Except.ok.inj hnext]

theorem withDirectionalLimits_config {offer next : EnvelopeOffer}
    {outbound inbound : Nat}
    (hnext : offer.withDirectionalLimits outbound inbound = .ok next) :
    next.config = offer.config := by
  simp only [withDirectionalLimits, bind_eq_ok_iff] at hnext
  obtain ⟨-, -, -, -, -, -, -, -, hnext⟩ := hnext
  rw [← Except.ok.inj hnext]

theorem withDirectionalBudgets_config {offer next : EnvelopeOffer}
    {outbound inbound : FrameBudget}
    (hnext : offer.withDirectionalBudgets outbound inbound = .ok next) :
    next.config = offer.config := by
  simp only [withDirectionalBudgets, bind_eq_ok_iff] at hnext
  obtain ⟨-, -, -, -, hnext⟩ := hnext
  rw [← Except.ok.inj hnext]

theorem withCover_config {offer next : EnvelopeOffer}
    {cover : Option CoverPolicy} (hnext : offer.withCover cover = .ok next) :
    next.config = offer.config := by
  simp only [withCover, bind_eq_ok_iff] at hnext
  obtain ⟨-, -, hnext⟩ := hnext
  rw [← Except.ok.inj hnext]

theorem decodePaddingBudget_paddingFits {bytes : Bytes}
    {config next : PhantomOneConfig} (hfits : PaddingFits config)
    (hnext : decodePaddingBudget bytes config = .ok next) :
    PaddingFits next := by
  unfold decodePaddingBudget at hnext
  dsimp only at hnext
  split_ifs at hnext
  · rw [← Except.ok.inj hnext]
    exact hfits
  · rw [← Except.ok.inj hnext]
    exact hfits

theorem decodeConfig_paddingFits {bytes : Bytes} {profile : ProfileTier}
    {config : PhantomOneConfig}
    (hconfig : decodeConfig bytes profile = .ok config) :
    PaddingFits config := by
  simp only [decodeConfig, PhantomOneConfig.withSelection,
    bind_eq_ok_iff] at hconfig
  obtain ⟨first, -, bound, -, selection, -, selected, ⟨valid, hvalid, hselected⟩,
    hconfig⟩ := hconfig
  apply decodePaddingBudget_paddingFits _ hconfig
  rw [← Except.ok.inj hselected]
  exact paddingFits_of_validate hvalid

theorem decode_paddingFits {bytes : Bytes} {offer : EnvelopeOffer}
    (hoffer : decode bytes = .ok offer) : PaddingFits offer.config := by
  simp only [decode, bind_eq_ok_iff] at hoffer
  obtain ⟨-, -, profile, -, -, -, config, hconfig, hoffer⟩ := hoffer
  obtain ⟨-, -, -, -, -, -, -, -, -, -, cover, -, binding, -, hoffer⟩ := hoffer
  rw [← Except.ok.inj hoffer]
  exact decodeConfig_paddingFits hconfig

theorem Built.paddingFits {offer : EnvelopeOffer} (hbuilt : Built offer) :
    PaddingFits offer.config := by
  induction hbuilt with
  | new hoffer => exact new_paddingFits hoffer
  | withSupportedProfiles hbuilt hnext ih =>
      exact withSupportedProfiles_config hnext ▸ ih
  | withDirectionalLimits hbuilt hnext ih =>
      exact withDirectionalLimits_config hnext ▸ ih
  | withDirectionalBudgets hbuilt hnext ih =>
      exact withDirectionalBudgets_config hnext ▸ ih
  | withCover hbuilt hnext ih => exact withCover_config hnext ▸ ih
  | decode hoffer => exact decode_paddingFits hoffer

theorem selectionBytes_length (selection : SizeSelection) :
    (selectionBytes selection).length = 15 := by
  cases selection <;> simp [selectionBytes, List.length_flatMap]

theorem coverBytes_length (cover : Option CoverPolicy) :
    (coverBytes cover).length = 19 := by
  cases cover <;> simp [coverBytes]

theorem encodedFields_lengths (offer : EnvelopeOffer) :
    offer.encodedFields.map List.length =
      [9, 32, 1, 1, 1, 2, 2, 15, 9, 2, 2, 16, 16, 19] := by
  simp [encodedFields, policyMagic, offer.binding.length_eq,
    selectionBytes_length, paddingBudgetBytes, budgetBytes, coverBytes_length]

theorem encode_length (offer : EnvelopeOffer) :
    offer.encode.length = offerBytes := by
  rw [encode, List.length_flatten, encodedFields_lengths]
  rfl

theorem profileId_inj {left right : ProfileTier} (hid : left.id = right.id) :
    left = right := by
  have hleft := ProfileTier.fromId_id left
  rw [hid, ProfileTier.fromId_id, Option.some.injEq] at hleft
  exact hleft.symm

theorem uint16_bytes_inj {left right : UInt16}
    (hbytes : bigEndian 2 left.toNat = bigEndian 2 right.toNat) :
    left = right :=
  UInt16.toNat_inj.mp (bigEndian_inj left.toNat_lt right.toNat_lt hbytes)

theorem uint32_bytes_inj {left right : UInt32}
    (hbytes : bigEndian 4 left.toNat = bigEndian 4 right.toNat) :
    left = right :=
  UInt32.toNat_inj.mp (bigEndian_inj left.toNat_lt right.toNat_lt hbytes)

theorem uint64_bytes_inj {left right : UInt64}
    (hbytes : bigEndian 8 left.toNat = bigEndian 8 right.toNat) :
    left = right :=
  UInt64.toNat_inj.mp (bigEndian_inj left.toNat_lt right.toNat_lt hbytes)

theorem weightBytes_inj {left right : List UInt16}
    (hlength : left.length = right.length)
    (hbytes : left.flatMap (fun weight => bigEndian 2 weight.toNat) =
      right.flatMap fun weight => bigEndian 2 weight.toNat) : left = right := by
  induction left generalizing right with
  | nil => simpa using hlength.symm
  | cons weight left ih =>
      cases right with
      | nil => simp at hlength
      | cons other right =>
          rw [List.flatMap_cons, List.flatMap_cons] at hbytes
          obtain ⟨hweight, hrest⟩ := List.append_inj hbytes (by simp)
          rw [uint16_bytes_inj hweight, ih (by simpa using hlength) hrest]

theorem selectionBytes_inj {left right : SizeSelection}
    (hbytes : selectionBytes left = selectionBytes right) : left = right := by
  cases left with
  | firstFit =>
      cases right with
      | firstFit => rfl
      | weighted weights => simp [selectionBytes] at hbytes
  | weighted weights =>
      cases right with
      | firstFit => simp [selectionBytes] at hbytes
      | weighted others =>
          have hweights := weightBytes_inj (by simp)
            (List.cons.inj hbytes).2
          rw [Vector.toList_inj.mp hweights]

theorem paddingBudgetBytes_inj {left right : Option UInt64}
    (hbytes : paddingBudgetBytes left = paddingBudgetBytes right) :
    left = right := by
  obtain ⟨hflag, hvalue⟩ := List.cons.inj hbytes
  have hsame := uint64_bytes_inj hvalue
  cases left <;> cases right <;> simp_all

theorem budgetBytes_inj {left right : FrameBudget}
    (hbytes : budgetBytes left = budgetBytes right) : left = right := by
  obtain ⟨hframes, hpayload⟩ := List.append_inj hbytes (by simp)
  cases left
  cases right
  exact FrameBudget.mk.injEq .. ▸
    ⟨uint64_bytes_inj hframes, uint64_bytes_inj hpayload⟩

theorem coverBytes_inj {left right : Option CoverPolicy}
    (hbytes : coverBytes left = coverBytes right) : left = right := by
  cases left with
  | none =>
      cases right with
      | none => rfl
      | some cover => simp [coverBytes, List.replicate_succ] at hbytes
  | some cover =>
      cases right with
      | none => simp [coverBytes, List.replicate_succ] at hbytes
      | some other =>
          obtain ⟨hinterval, hrest⟩ :=
            List.append_inj (List.cons.inj hbytes).2 (by simp)
          obtain ⟨hidle, hrest⟩ := List.append_inj hrest (by simp)
          obtain ⟨hmaximum, hpercent⟩ := List.append_inj hrest (by simp)
          cases cover
          cases other
          rw [Option.some.injEq, CoverPolicy.mk.injEq]
          exact ⟨uint32_bytes_inj hinterval, uint32_bytes_inj hidle,
            uint64_bytes_inj hmaximum, uint16_bytes_inj hpercent⟩

/-- The encoding of an offer determines its parts. -/
theorem encodedFields_inj {left right : EnvelopeOffer}
    (hencode : left.encode = right.encode) :
    left.encodedFields = right.encodedFields := by
  rw [List.eq_iff_flatten_eq, encodedFields_lengths, encodedFields_lengths]
  exact ⟨hencode, rfl⟩

theorem encode_inj {left right : EnvelopeOffer}
    (hleft : PaddingFits left.config) (hright : PaddingFits right.config)
    (hencode : left.encode = right.encode) : left = right := by
  have hfields := encodedFields_inj hencode
  simp only [encodedFields, List.cons.injEq, and_true, true_and] at hfields
  obtain ⟨hbinding, hprofile, hmask, hbound, hmin, hmax, hselection, hpadding,
    houtbound, hinbound, houtBudget, hinBudget, hcover⟩ := hfields
  have hconfig : left.config = right.config := by
    obtain ⟨hleftMin, hleftMax⟩ := hleft
    obtain ⟨hrightMin, hrightMax⟩ := hright
    cases hleftConfig : left.config
    cases hrightConfig : right.config
    simp only [hleftConfig, hrightConfig] at *
    rw [PhantomOneConfig.mk.injEq]
    refine ⟨profileId_inj hprofile, bigEndian_inj hleftMin hrightMin hmin,
      bigEndian_inj hleftMax hrightMax hmax, ?_,
      selectionBytes_inj hselection, paddingBudgetBytes_inj hpadding⟩
    split_ifs at hbound <;> simp_all
  cases left
  cases right
  rw [EnvelopeOffer.mk.injEq]
  exact ⟨FixedBytes.ext hbinding, hmask, hconfig, uint16_bytes_inj houtbound,
    uint16_bytes_inj hinbound, budgetBytes_inj houtBudget,
    budgetBytes_inj hinBudget, coverBytes_inj hcover⟩

theorem mismatches_comm (left right : ProfileTier) :
    mismatches left right = mismatches right left :=
  funext fun _ => Nat.add_comm _ _

theorem selectProfile_comm (leftMask rightMask : UInt8)
    (left right : ProfileTier) :
    selectProfile (leftMask &&& rightMask) left right =
      selectProfile (rightMask &&& leftMask) right left := by
  rw [selectProfile, selectProfile, UInt8.and_comm, mismatches_comm]

theorem samePolicySettings_iff {left right : PhantomOneConfig} :
    samePolicySettings left right = true ↔
      left.minPadding = right.minPadding ∧
        left.maxPadding = right.maxPadding ∧
        left.selection = right.selection ∧
        left.paddingBudget = right.paddingBudget ∧
        left.profileBound = right.profileBound := by
  simp [samePolicySettings, and_assoc]

/-- The configuration that is selected differs in its profile only, and only a
bound one may differ. -/
theorem profileConfig_eq_ok {config selected : PhantomOneConfig}
    {profile : ProfileTier}
    (hselected : profileConfig config profile = .ok selected) :
    selected.validate = .ok () ∧ selected = { config with profile } := by
  unfold profileConfig at hselected
  split_ifs at hselected with hbound hprofile
  · obtain ⟨valid, hvalid, hselected⟩ := bind_eq_ok_iff.mp hselected
    rw [← Except.ok.inj hselected]
    refine ⟨hvalid, ?_⟩
    rw [PhantomOneConfig.withProfile, ← hbound]
  · obtain ⟨valid, hvalid, hselected⟩ := bind_eq_ok_iff.mp hselected
    rw [← Except.ok.inj hselected]
    exact ⟨hvalid, by rw [← hprofile]⟩

/-- Configurations with the same settings become one for the same profile. -/
theorem profileConfig_eq_of_same {left right config other : PhantomOneConfig}
    {profile : ProfileTier} (hsame : samePolicySettings left right = true)
    (hleft : profileConfig left profile = .ok config)
    (hright : profileConfig right profile = .ok other) : config = other := by
  obtain ⟨hmin, hmax, hselection, hbudget, hbound⟩ :=
    samePolicySettings_iff.mp hsame
  obtain ⟨hprofile, hconfig⟩ := profileConfig_eq_ok hleft
  obtain ⟨hprofile', hother⟩ := profileConfig_eq_ok hright
  cases left
  cases right
  simp_all

end EnvelopeOffer

/-- An agreement as the other peer sees it. -/
def NegotiatedPolicy.swap (policy : NegotiatedPolicy) : NegotiatedPolicy where
  config := policy.config
  outboundFrameLimit := policy.inboundFrameLimit
  inboundFrameLimit := policy.outboundFrameLimit
  outboundBudget := policy.inboundBudget
  inboundBudget := policy.outboundBudget

namespace EnvelopeOffer

theorem intersect_comm (left right : FrameBudget) :
    left.intersect right = right.intersect left := by
  have hcomm (first second : UInt64) : min first second = min second first :=
    Std.Commutative.comm first second
  rw [FrameBudget.intersect, FrameBudget.intersect, hcomm left.maxFrames,
    hcomm left.maxPayloadBytes]

/-- What negotiation checks and what it returns. -/
theorem negotiate_eq_ok_iff {offer peer : EnvelopeOffer}
    {policy : NegotiatedPolicy} :
    offer.negotiate peer = .ok policy ↔
      (offer.binding = peer.binding ∧
        samePolicySettings offer.config peer.config ∧
        offer.cover = peer.cover) ∧
      ∃ profile, selectProfile
          (offer.supportedProfiles &&& peer.supportedProfiles)
          offer.config.profile peer.config.profile = some profile ∧
        ∃ config, profileConfig offer.config profile = .ok config ∧
        (∃ other, profileConfig peer.config profile = .ok other) ∧
        policy = {
          config
          outboundFrameLimit :=
            (min offer.outboundFrameLimit peer.inboundFrameLimit).toNat
          inboundFrameLimit :=
            (min offer.inboundFrameLimit peer.outboundFrameLimit).toNat
          outboundBudget := offer.outboundBudget.intersect peer.inboundBudget
          inboundBudget :=
            offer.inboundBudget.intersect peer.outboundBudget } := by
  simp only [negotiate, bind_eq_ok_iff, ensure_eq_ok_iff, okOr_eq_ok_iff]
  constructor
  · rintro ⟨-, hsame, profile, hprofile, config, hconfig, other, hother,
      hpolicy⟩
    exact ⟨hsame, profile, hprofile, config, hconfig, ⟨other, hother⟩,
      (Except.ok.inj hpolicy).symm⟩
  · rintro ⟨hsame, profile, hprofile, config, hconfig, ⟨other, hother⟩, rfl⟩
    exact ⟨(), hsame, profile, hprofile, config, hconfig, other, hother, rfl⟩

theorem negotiate_swap {offer peer : EnvelopeOffer}
    {policy : NegotiatedPolicy} (hpolicy : offer.negotiate peer = .ok policy) :
    peer.negotiate offer = .ok policy.swap := by
  obtain ⟨⟨hbinding, hsame, hcover⟩, profile, hprofile, config, hconfig,
    ⟨other, hother⟩, rfl⟩ := negotiate_eq_ok_iff.mp hpolicy
  have hback : samePolicySettings peer.config offer.config = true := by
    rw [samePolicySettings_iff] at hsame ⊢
    simp [hsame]
  have hcomm (first second : UInt16) : min first second = min second first :=
    Std.Commutative.comm first second
  rw [negotiate_eq_ok_iff]
  refine ⟨⟨hbinding.symm, hback, hcover.symm⟩, profile, ?_, other, hother,
    ⟨config, hconfig⟩, ?_⟩
  · rw [selectProfile_comm, hprofile]
  · rw [← profileConfig_eq_of_same hsame hconfig hother,
      intersect_comm peer.outboundBudget, intersect_comm peer.inboundBudget,
      hcomm peer.outboundFrameLimit, hcomm peer.inboundFrameLimit]
    rfl

/-- Offers with one encoding have the same directional limits. -/
theorem limits_of_encode_eq {left right : EnvelopeOffer}
    (hencode : left.encode = right.encode) :
    left.outboundFrameLimit = right.outboundFrameLimit ∧
      left.inboundFrameLimit = right.inboundFrameLimit ∧
      left.outboundBudget = right.outboundBudget ∧
      left.inboundBudget = right.inboundBudget := by
  have hfields := encodedFields_inj hencode
  simp only [encodedFields, List.cons.injEq, and_true, true_and] at hfields
  obtain ⟨-, -, -, -, -, -, -, -, houtbound, hinbound, houtBudget, hinBudget,
    -⟩ := hfields
  exact ⟨uint16_bytes_inj houtbound, uint16_bytes_inj hinbound,
    budgetBytes_inj houtBudget, budgetBytes_inj hinBudget⟩

/-- With equal encodings the two directions of the agreement are equal. -/
theorem swap_eq_of_encode_eq {offer peer : EnvelopeOffer}
    {policy : NegotiatedPolicy} (hpolicy : offer.negotiate peer = .ok policy)
    (hencode : offer.encode = peer.encode) : policy.swap = policy := by
  obtain ⟨houtbound, hinbound, houtBudget, hinBudget⟩ :=
    limits_of_encode_eq hencode
  have hcomm (first second : UInt16) : min first second = min second first :=
    Std.Commutative.comm first second
  obtain ⟨-, profile, -, config, -, -, rfl⟩ := negotiate_eq_ok_iff.mp hpolicy
  rw [NegotiatedPolicy.swap, NegotiatedPolicy.mk.injEq]
  refine ⟨rfl, ?_, ?_, ?_, ?_⟩
  · rw [houtbound, hinbound, hcomm]
  · rw [houtbound, hinbound, hcomm]
  · rw [houtBudget, hinBudget, intersect_comm]
  · rw [houtBudget, hinBudget, intersect_comm]

/-- Both peers hash the same bytes. -/
theorem acknowledgementInput_swap {offer peer : EnvelopeOffer}
    {policy : NegotiatedPolicy} (hpolicy : offer.negotiate peer = .ok policy) :
    acknowledgementInput peer offer policy.swap =
      acknowledgementInput offer peer policy := by
  by_cases hencode : offer.encode = peer.encode
  · rw [swap_eq_of_encode_eq hpolicy hencode, acknowledgementInput,
      acknowledgementInput, hencode]
  · rcases lexLe_total offer.encode peer.encode with hle | hge
    · have hnot : ¬ lexLe peer.encode offer.encode = true := fun hge =>
        hencode (lexLe_antisymm hle hge)
      rw [acknowledgementInput, acknowledgementInput, if_pos hle, if_neg hnot]
      rfl
    · have hnot : ¬ lexLe offer.encode peer.encode = true := fun hle =>
        hencode (lexLe_antisymm hle hge)
      rw [acknowledgementInput, acknowledgementInput, if_pos hge, if_neg hnot]
      rfl

/-- The hashed bytes start with the two encodings in one of their orders. -/
theorem acknowledgementInput_offers (offer peer : EnvelopeOffer)
    (policy : NegotiatedPolicy) :
    ∃ first second rest,
      (first = offer ∧ second = peer ∨ first = peer ∧ second = offer) ∧
      acknowledgementInput offer peer policy =
        acknowledgementDomain ++ (first.encode ++ (second.encode ++ rest)) := by
  unfold acknowledgementInput
  split
  · exact ⟨offer, peer, _, Or.inl ⟨rfl, rfl⟩, rfl⟩
  · exact ⟨peer, offer, _, Or.inr ⟨rfl, rfl⟩, rfl⟩

/-- The hashed bytes determine the two offers, up to their order. -/
theorem offers_of_acknowledgementInput {a b c d : EnvelopeOffer}
    (ha : Built a) (hb : Built b) (hc : Built c) (hd : Built d)
    {policy other : NegotiatedPolicy}
    (hinput : acknowledgementInput a b policy =
      acknowledgementInput c d other) :
    a = c ∧ b = d ∨ a = d ∧ b = c := by
  obtain ⟨first, second, rest, hfirst, hleft⟩ :=
    acknowledgementInput_offers a b policy
  obtain ⟨first', second', rest', hfirst', hright⟩ :=
    acknowledgementInput_offers c d other
  rw [hleft, hright] at hinput
  obtain ⟨-, hinput⟩ := List.append_inj hinput rfl
  obtain ⟨hone, hinput⟩ := List.append_inj hinput
    (by rw [encode_length, encode_length])
  obtain ⟨htwo, -⟩ := List.append_inj hinput
    (by rw [encode_length, encode_length])
  have hinj {left right : EnvelopeOffer} (hleft : Built left)
      (hright : Built right) (hencode : left.encode = right.encode) :
      left = right := encode_inj hleft.paddingFits hright.paddingFits hencode
  rcases hfirst with ⟨rfl, rfl⟩ | ⟨rfl, rfl⟩ <;>
    rcases hfirst' with ⟨rfl, rfl⟩ | ⟨rfl, rfl⟩
  · exact Or.inl ⟨hinj ha hc hone, hinj hb hd htwo⟩
  · exact Or.inr ⟨hinj ha hd hone, hinj hb hc htwo⟩
  · exact Or.inr ⟨hinj ha hd htwo, hinj hb hc hone⟩
  · exact Or.inl ⟨hinj ha hc htwo, hinj hb hd hone⟩

/-- Two offers are negotiated by both peers or by none, to the same
configuration and to limits and budgets that mirror each other, and both
acknowledge the same bytes, which determine the offers and the outcome. -/
theorem negotiation_agrees (sha256 : Bytes → FixedBytes 32)
    {a b : EnvelopeOffer} (ha : Built a) (hb : Built b) :
    ((∃ policy, a.negotiate b = .ok policy) ↔
      ∃ policy, b.negotiate a = .ok policy) ∧
    (∀ p q, a.negotiate b = .ok p → b.negotiate a = .ok q →
      p.config = q.config ∧ p.config.profile = q.config.profile ∧
      p.outboundFrameLimit = q.inboundFrameLimit ∧
      p.inboundFrameLimit = q.outboundFrameLimit ∧
      p.outboundBudget = q.inboundBudget ∧
      p.inboundBudget = q.outboundBudget ∧
      a.acknowledgement sha256 b = b.acknowledgement sha256 a) ∧
    ∀ c d p q, Built c → Built d → a.negotiate b = .ok p →
      c.negotiate d = .ok q →
      acknowledgementInput a b p = acknowledgementInput c d q →
        a = c ∧ b = d ∧ p = q ∨ a = d ∧ b = c ∧ p = q.swap := by
  refine ⟨⟨?_, ?_⟩, ?_, ?_⟩
  · rintro ⟨policy, hpolicy⟩
    exact ⟨policy.swap, negotiate_swap hpolicy⟩
  · rintro ⟨policy, hpolicy⟩
    exact ⟨policy.swap, negotiate_swap hpolicy⟩
  · intro p q hp hq
    obtain rfl : p.swap = q := Except.ok.inj
      ((negotiate_swap hp).symm.trans hq)
    refine ⟨rfl, rfl, rfl, rfl, rfl, rfl, ?_⟩
    rw [acknowledgement, acknowledgement, hp, hq]
    exact congrArg (fun bytes => Except.ok (sha256 bytes))
      (acknowledgementInput_swap hp).symm
  · intro c d p q hc hd hp hq hinput
    rcases offers_of_acknowledgementInput ha hb hc hd hinput with
      ⟨rfl, rfl⟩ | ⟨rfl, rfl⟩
    · exact Or.inl ⟨rfl, rfl, Except.ok.inj (hp.symm.trans hq)⟩
    · exact Or.inr ⟨rfl, rfl, Except.ok.inj
        (hp.symm.trans (negotiate_swap hq))⟩

end EnvelopeOffer

namespace EnvelopeWitness

open EnvelopeOffer

def transcript : String := String.ofList (List.replicate 64 'a')

def config : PhantomOneConfig := ⟨.medium, 0, 0, false, .firstFit, none⟩

/-- An offer with one limit for both directions. -/
def offerOf (frameLimit : UInt16) : EnvelopeOffer where
  binding := FixedBytes.replicate 32 0xAA
  supportedProfiles := 2
  config := config
  outboundFrameLimit := frameLimit
  inboundFrameLimit := frameLimit
  outboundBudget := .default
  inboundBudget := .default
  cover := none

theorem new_offerOf {frameLimit : Nat}
    (hlimit : 24 ≤ frameLimit ∧ frameLimit ≤ 65535) :
    new transcript config frameLimit =
      .ok (offerOf (UInt16.ofNat frameLimit)) := by
  have hbinding : parseBinding transcript =
      .ok (FixedBytes.replicate 32 0xAA) := by decide
  have hmtu : validatePathMtu frameLimit = .ok () := if_pos hlimit
  have hvalid : config.validate = .ok () := by decide
  rw [new, hbinding]
  change (validatePathMtu frameLimit >>= _) = _
  rw [hmtu]
  change (config.validate >>= _) = _
  rw [hvalid]
  rfl

theorem offerOf_built (frameLimit : Nat)
    (hlimit : 24 ≤ frameLimit ∧ frameLimit ≤ 65535) :
    EnvelopeOffer.Built (offerOf (UInt16.ofNat frameLimit)) :=
  .new (new_offerOf hlimit)

/-- The SHA-256 digest of the bytes that the two offers acknowledge. -/
def digest : FixedBytes 32 :=
  ⟨[10, 160, 245, 4, 23, 71, 6, 86, 140, 111, 140, 114, 251, 61, 203, 159,
    148, 87, 134, 194, 7, 82, 163, 25, 20, 219, 133, 153, 209, 31, 88, 0],
    rfl⟩

def agreement : NegotiatedPolicy :=
  ⟨config, 1200, 1200, .default, .default⟩

theorem negotiate_eq :
    (offerOf 1360).negotiate (offerOf 1200) = .ok agreement ∧
      (offerOf 1200).negotiate (offerOf 1360) = .ok agreement := by
  decide

/-- Offers with different limits agree on the smaller one. -/
theorem negotiation_agrees_limits :
    EnvelopeOffer.Built (offerOf 1360) ∧ EnvelopeOffer.Built (offerOf 1200) ∧
      (offerOf 1360).negotiate (offerOf 1200) = .ok agreement ∧
      agreement.outboundFrameLimit = agreement.inboundFrameLimit ∧
      (offerOf 1360).acknowledgement (fun _ => digest) (offerOf 1200) =
        (offerOf 1200).acknowledgement (fun _ => digest) (offerOf 1360) := by
  have hlarge := offerOf_built 1360 (by decide)
  have hsmall := offerOf_built 1200 (by decide)
  obtain ⟨-, -, hlimits, -, -, -, hack⟩ := (negotiation_agrees (fun _ => digest)
    hlarge hsmall).2.1 agreement agreement negotiate_eq.1 negotiate_eq.2
  exact ⟨hlarge, hsmall, negotiate_eq.1, hlimits, hack⟩

end EnvelopeWitness

end Shph
