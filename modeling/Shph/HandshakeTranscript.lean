/-
Transcript binding: the stream fed to the transcript hasher determines the
profile, the initiator, both parties' keys and the exchanged ciphertext.
-/
import Shph.HandshakeHonest

namespace Shph

open ByteCodec Record

/-- All fields fit their length prefixes. -/
def FieldsFit (fields : List (Bytes × Bytes)) : Prop :=
  ∀ field ∈ fields, Fits transcriptLayout field

theorem FieldsFit.append {left right : List (Bytes × Bytes)}
    (hleft : FieldsFit left) (hright : FieldsFit right) :
    FieldsFit (left ++ right) := by
  intro field hfield
  rcases List.mem_append.mp hfield with hmem | hmem
  · exact hleft field hmem
  · exact hright field hmem

theorem transcriptField_fits {label : String} {value : Bytes}
    (hlabel : (textBytes label).length < 2 ^ 32)
    (hvalue : value.length < 2 ^ 64) :
    FieldsFit (transcriptField label value) := by
  intro field hfield
  rw [transcriptField, List.mem_singleton] at hfield
  subst hfield
  exact ⟨by simpa [transcriptLayout] using hlabel,
    by simpa [transcriptLayout] using hvalue⟩

theorem transcriptOptionalField_fits {label : String} {value : Option Bytes}
    (hlabel : (textBytes label).length < 2 ^ 32)
    (hvalue : ∀ bytes ∈ value, bytes.length < 2 ^ 64) :
    FieldsFit (transcriptOptionalField label value) := by
  apply FieldsFit.append (transcriptField_fits hlabel (by simp))
  cases value with
  | none => simp [FieldsFit]
  | some bytes => exact transcriptField_fits hlabel (hvalue bytes rfl)

theorem transcriptField_append_inj {label : String} {left right : Bytes}
    {restLeft restRight : List (Bytes × Bytes)}
    (heq : transcriptField label left ++ restLeft =
      transcriptField label right ++ restRight) :
    left = right ∧ restLeft = restRight := by
  simpa [transcriptField] using heq

/-- The presence flags decide whether a value follows, so an absent value and
a present one cannot be confused with what comes after. -/
theorem transcriptOptionalField_append_inj {label : String}
    {left right : Option Bytes} {restLeft restRight : List (Bytes × Bytes)}
    (heq : transcriptOptionalField label left ++ restLeft =
      transcriptOptionalField label right ++ restRight) :
    left = right ∧ restLeft = restRight := by
  unfold transcriptOptionalField at heq
  simp only [List.append_assoc] at heq
  obtain ⟨hflag, hrest⟩ := transcriptField_append_inj heq
  cases left with
  | none =>
      cases right with
      | none => exact ⟨rfl, hrest⟩
      | some right => simp at hflag
  | some left =>
      cases right with
      | none => simp at hflag
      | some right =>
          obtain ⟨hvalue, htail⟩ := transcriptField_append_inj hrest
          exact ⟨congrArg some hvalue, htail⟩

theorem transcriptU64_append_inj {label : String} {left right : UInt64}
    {restLeft restRight : List (Bytes × Bytes)}
    (heq : transcriptU64 label left ++ restLeft =
      transcriptU64 label right ++ restRight) :
    left = right ∧ restLeft = restRight := by
  obtain ⟨hbytes, hrest⟩ := transcriptField_append_inj heq
  have hword (word : UInt64) : word.toNat < 256 ^ 8 := by
    simpa using word.toNat_lt
  have hnat := bigEndian_inj (hword left) (hword right) hbytes
  exact ⟨UInt64.toNat_inj.mp hnat, hrest⟩

/-- The six fields of one party under the labels of its place. -/
def partyFields (party : String) (keys : PeerKeys) : List (Bytes × Bytes) :=
  transcriptField (party ++ "-identity") keys.identity.val ++
    (transcriptField (party ++ "-signing") keys.signing.val ++
      (transcriptOptionalField (party ++ "-pqc") keys.pqc ++
        (transcriptField (party ++ "-ephemeral") keys.ephemeral.val ++
          (transcriptField (party ++ "-nonce") keys.nonce.val ++
            transcriptU64 (party ++ "-timestamp") keys.timestamp))))

theorem partyFields_append_inj {party : String} {left right : PeerKeys}
    {restLeft restRight : List (Bytes × Bytes)}
    (heq : partyFields party left ++ restLeft =
      partyFields party right ++ restRight) :
    left = right ∧ restLeft = restRight := by
  simp only [partyFields, List.append_assoc] at heq
  obtain ⟨hidentity, heq⟩ := transcriptField_append_inj heq
  obtain ⟨hsigning, heq⟩ := transcriptField_append_inj heq
  obtain ⟨hpqc, heq⟩ := transcriptOptionalField_append_inj heq
  obtain ⟨hephemeral, heq⟩ := transcriptField_append_inj heq
  obtain ⟨hnonce, heq⟩ := transcriptField_append_inj heq
  obtain ⟨htimestamp, heq⟩ := transcriptU64_append_inj heq
  exact ⟨PeerKeys.ext (FixedBytes.ext hidentity) (FixedBytes.ext hsigning) hpqc
    (FixedBytes.ext hephemeral) (FixedBytes.ext hnonce) htimestamp, heq⟩

theorem partyFields_fits {party : String} {keys : PeerKeys}
    (hlabels : ∀ suffix ∈ ["-identity", "-signing", "-pqc", "-ephemeral",
      "-nonce", "-timestamp"], (textBytes (party ++ suffix)).length < 2 ^ 32)
    (hpqc : ∀ pqc ∈ keys.pqc, pqc.length < 2 ^ 64) :
    FieldsFit (partyFields party keys) := by
  simp only [List.forall_mem_cons, List.not_mem_nil, false_implies,
    implies_true, and_true] at hlabels
  obtain ⟨hidentity, hsigning, hkey, hephemeral, hnonce, htimestamp⟩ := hlabels
  have hword (key : Key) : key.val.length < 2 ^ 64 := by
    rw [key.length_eq]
    decide
  exact (transcriptField_fits hidentity (hword _)).append
    ((transcriptField_fits hsigning (hword _)).append
      ((transcriptOptionalField_fits hkey hpqc).append
        ((transcriptField_fits hephemeral (hword _)).append
          ((transcriptField_fits hnonce (hword _)).append
            (transcriptField_fits htimestamp (by simp))))))

namespace SessionInputs

/-- The party with the smaller identity key. -/
def firstKeys (inputs : SessionInputs) : PeerKeys :=
  (inputs.inIdentityOrder id).1

def secondKeys (inputs : SessionInputs) : PeerKeys :=
  (inputs.inIdentityOrder id).2

theorem inIdentityOrder_eq (inputs : SessionInputs) {α : Type}
    (field : PeerKeys → α) :
    inputs.inIdentityOrder field =
      (field inputs.firstKeys, field inputs.secondKeys) := by
  unfold firstKeys secondKeys inIdentityOrder
  split <;> rfl

/-- Ordering the two parties forgets only which of them is the local one. -/
theorem parties_eq_or_swapped {left right : SessionInputs}
    (hfirst : left.firstKeys = right.firstKeys)
    (hsecond : left.secondKeys = right.secondKeys) :
    left.localKeys = right.localKeys ∧ left.peerKeys = right.peerKeys ∨
      left.localKeys = right.peerKeys ∧ left.peerKeys = right.localKeys := by
  unfold firstKeys inIdentityOrder at hfirst
  unfold secondKeys inIdentityOrder at hsecond
  split at hfirst <;> split at hfirst <;> simp_all

def headerFields (inputs : SessionInputs) : List (Bytes × Bytes) :=
  transcriptField "domain" (textBytes "shph/handshake-transcript-v2") ++
    (transcriptField "protocol" (textBytes inputs.profile.protocolTag) ++
      (transcriptField "profile" (textBytes inputs.profile.asStr) ++
        transcriptField "initiator-identity" inputs.initiatorIdentity.val))

end SessionInputs

theorem transcriptFields_eq (inputs : SessionInputs) :
    transcriptFields inputs = inputs.headerFields ++
      (partyFields "peer-a" inputs.firstKeys ++
        (partyFields "peer-b" inputs.secondKeys ++
          transcriptOptionalField "pqc-ciphertext" inputs.ciphertext)) := by
  simp only [transcriptFields, SessionInputs.inIdentityOrder_eq,
    SessionInputs.headerFields, partyFields, List.append_assoc]
  rfl

theorem protocolTag_inj {left right : HandshakeProfile}
    (heq : textBytes left.protocolTag = textBytes right.protocolTag) :
    left = right := by
  cases left <;> cases right <;> first | rfl | exact absurd heq (by decide)

theorem headerFields_append_inj {left right : SessionInputs}
    {restLeft restRight : List (Bytes × Bytes)}
    (heq : left.headerFields ++ restLeft = right.headerFields ++ restRight) :
    left.profile = right.profile ∧
      left.initiatorIdentity = right.initiatorIdentity ∧
      restLeft = restRight := by
  simp only [SessionInputs.headerFields, List.append_assoc] at heq
  obtain ⟨_, heq⟩ := transcriptField_append_inj heq
  obtain ⟨htag, heq⟩ := transcriptField_append_inj heq
  obtain ⟨_, heq⟩ := transcriptField_append_inj heq
  obtain ⟨hinitiator, heq⟩ := transcriptField_append_inj heq
  exact ⟨protocolTag_inj htag, FixedBytes.ext hinitiator, heq⟩

theorem headerFields_fits (inputs : SessionInputs) :
    FieldsFit inputs.headerFields := by
  have hidentity : inputs.initiatorIdentity.val.length < 2 ^ 64 := by
    rw [inputs.initiatorIdentity.length_eq]
    decide
  have htag : (textBytes inputs.profile.protocolTag).length < 2 ^ 64 := by
    cases inputs.profile <;> decide
  have hname : (textBytes inputs.profile.asStr).length < 2 ^ 64 := by
    cases inputs.profile <;> decide
  exact (transcriptField_fits (by decide) (by decide)).append
    ((transcriptField_fits (by decide) htag).append
      ((transcriptField_fits (by decide) hname).append
        (transcriptField_fits (by decide) hidentity)))

/-- The lengths the checks leave open are all far below the prefixes. -/
structure SessionInputs.Bounded (inputs : SessionInputs) : Prop where
  local_pqc : ∀ pqc ∈ inputs.localKeys.pqc, pqc.length < 2 ^ 64
  peer_pqc : ∀ pqc ∈ inputs.peerKeys.pqc, pqc.length < 2 ^ 64
  ciphertext : ∀ raw ∈ inputs.ciphertext, raw.length < 2 ^ 64

theorem transcriptFields_fits {inputs : SessionInputs}
    (hbounded : inputs.Bounded) : FieldsFit (transcriptFields inputs) := by
  have hfirst : ∀ pqc ∈ inputs.firstKeys.pqc, pqc.length < 2 ^ 64 := by
    unfold SessionInputs.firstKeys SessionInputs.inIdentityOrder
    split
    · exact hbounded.local_pqc
    · exact hbounded.peer_pqc
  have hsecond : ∀ pqc ∈ inputs.secondKeys.pqc, pqc.length < 2 ^ 64 := by
    unfold SessionInputs.secondKeys SessionInputs.inIdentityOrder
    split
    · exact hbounded.peer_pqc
    · exact hbounded.local_pqc
  rw [transcriptFields_eq]
  exact (headerFields_fits inputs).append
    ((partyFields_fits (by decide) hfirst).append
      ((partyFields_fits (by decide) hsecond).append
        (transcriptOptionalField_fits (by decide) hbounded.ciphertext)))

/-- The field encoding is injective on everything it encodes. -/
theorem transcript_inj {left right : SessionInputs} (hleft : left.Bounded)
    (hright : right.Bounded) (heq : transcript left = transcript right) :
    left.profile = right.profile ∧
      left.initiatorIdentity = right.initiatorIdentity ∧
      left.firstKeys = right.firstKeys ∧ left.secondKeys = right.secondKeys ∧
      left.ciphertext = right.ciphertext := by
  have hfields := encodeFields_inj (by decide) (transcriptFields_fits hleft)
    (transcriptFields_fits hright) heq
  rw [transcriptFields_eq, transcriptFields_eq] at hfields
  obtain ⟨hprofile, hinitiator, hfields⟩ := headerFields_append_inj hfields
  obtain ⟨hfirst, hfields⟩ := partyFields_append_inj hfields
  obtain ⟨hsecond, hfields⟩ := partyFields_append_inj hfields
  have hrest : transcriptOptionalField "pqc-ciphertext" left.ciphertext ++ [] =
      transcriptOptionalField "pqc-ciphertext" right.ciphertext ++ [] := by
    rw [hfields]
  have hciphertext := (transcriptOptionalField_append_inj hrest).1
  exact ⟨hprofile, hinitiator, hfirst, hsecond, hciphertext⟩

/-- One call of the derivation. -/
structure DeriveCall (prims : Primitives) where
  localIdentity : IdentityKeyPair
  material : HandshakeMaterial prims
  peerHello : Hello
  initiator : Bool
  policy : PeerPolicy
  firstNow : Option UInt64
  secondNow : Option UInt64

namespace DeriveCall

variable {prims : Primitives}

def inputs (call : DeriveCall prims) : Except ShphError SessionInputs :=
  sessionInputs call.localIdentity call.material call.peerHello call.initiator
    call.policy call.firstNow call.secondNow

def run (call : DeriveCall prims) : Except ShphError HandshakeState :=
  verifyAndDeriveWithProfile call.localIdentity call.material call.peerHello
    call.initiator call.policy call.firstNow call.secondNow

/-- The stream the call feeds to its transcript hasher, if it gets there. -/
def stream (call : DeriveCall prims) : Except ShphError Bytes :=
  transcript <$> call.inputs

theorem run_eq (call : DeriveCall prims) :
    call.run = call.inputs >>= deriveSession prims :=
  rfl

end DeriveCall

theorem Established.bounded {prims : Primitives}
    {localIdentity : IdentityKeyPair} {material : HandshakeMaterial prims}
    {peerHello : Hello} {initiator : Bool} {policy : PeerPolicy}
    {firstNow secondNow : Option UInt64} {inputs : SessionInputs}
    (hinputs : Established localIdentity material peerHello initiator policy
      firstNow secondNow inputs) : inputs.Bounded where
  local_pqc := by
    intro pqc hpqc
    rw [hinputs.local_valid.pqc_length pqc hpqc]
    decide
  peer_pqc := by
    intro pqc hpqc
    rw [hinputs.authentic.pqc_length pqc hpqc]
    decide
  ciphertext := by
    intro raw hraw
    rw [hinputs.ciphertext_eq] at hraw
    by_cases huses : material.profile.usesPqc = true
    · obtain ⟨_, ciphertext, _, hciphertext, hlength⟩ := hinputs.secure huses
      rw [hciphertext, Option.mem_some_iff] at hraw
      rw [← hraw, hlength]
      decide
    · have hnone := hinputs.local_valid.classical (by simpa using huses)
      rw [hnone.2] at hraw
      simp at hraw

/-- Two successful calls that hash one stream agree on the profile, on whose
identity key is the initiator's, on the two parties' keys up to the exchange of
local and peer, and on the ciphertext. -/
theorem transcript_binding (prims : Primitives) (left right : DeriveCall prims)
    (leftState rightState : HandshakeState) (hleft : left.run = .ok leftState)
    (hright : right.run = .ok rightState)
    (hstream : left.stream = right.stream) :
    left.material.profile = right.material.profile ∧
      left.material.pqCiphertext = right.material.pqCiphertext ∧
      ∃ leftLocal leftPeer rightLocal rightPeer,
        left.material.localHello.Carries leftLocal ∧
        left.peerHello.Carries leftPeer ∧
        right.material.localHello.Carries rightLocal ∧
        right.peerHello.Carries rightPeer ∧
        (if left.initiator then leftLocal.identity else leftPeer.identity) =
          (if right.initiator then rightLocal.identity
            else rightPeer.identity) ∧
        (leftLocal = rightLocal ∧ leftPeer = rightPeer ∨
          leftLocal = rightPeer ∧ leftPeer = rightLocal) := by
  rw [DeriveCall.run_eq, bind_eq_ok_iff] at hleft hright
  obtain ⟨leftInputs, hleftInputs, _⟩ := hleft
  obtain ⟨rightInputs, hrightInputs, _⟩ := hright
  have hequal : transcript leftInputs = transcript rightInputs := by
    simpa [DeriveCall.stream, hleftInputs, hrightInputs] using hstream
  have hL := sessionInputs_ok hleftInputs
  have hR := sessionInputs_ok hrightInputs
  obtain ⟨hprofile, hinitiator, hfirst, hsecond, hciphertext⟩ :=
    transcript_inj hL.bounded hR.bounded hequal
  rw [hL.profile_eq, hR.profile_eq] at hprofile
  rw [hL.ciphertext_eq, hR.ciphertext_eq] at hciphertext
  simp only [SessionInputs.initiatorIdentity, hL.initiator_eq,
    hR.initiator_eq] at hinitiator
  exact ⟨hprofile, hciphertext, _, _, _, _, hL.local_valid.carries,
    hL.authentic.carries, hR.local_valid.carries, hR.authentic.carries,
    hinitiator, SessionInputs.parties_eq_or_swapped hfirst hsecond⟩

namespace HandshakeWitness

def callA : DeriveCall primitives :=
  ⟨identityA, materialA, materialB.localHello, true, policyA, now, now⟩

def callB : DeriveCall primitives :=
  ⟨identityB, materialB, materialA.localHello, false, policyB, now, now⟩

theorem callA_run : callA.run = .ok (valueOf _ derivedA_isOk) := by
  simp only [DeriveCall.run, callA]
  exact eq_ok_valueOf derivedA_isOk

theorem callB_run : callB.run = .ok (valueOf _ derivedB_isOk) := by
  simp only [DeriveCall.run, callB]
  exact eq_ok_valueOf derivedB_isOk

theorem streams_eq : callA.stream = callB.stream := by
  have hinputsA : callA.inputs = .ok inputsA := by
    simp only [DeriveCall.inputs, callA]
    exact sessionInputsA
  have hinputsB : callB.inputs = .ok inputsB := by
    simp only [DeriveCall.inputs, callB]
    exact sessionInputsB
  rw [DeriveCall.stream, DeriveCall.stream, hinputsA, hinputsB]
  exact congrArg Except.ok mirrored.transcript_eq

end HandshakeWitness

open HandshakeWitness in
/-- The two sides of one classical handshake hash one stream, so they agree on
the initiator although each calls another party local. -/
theorem transcript_binding_classical :
    ∃ localA peerA localB peerB, callA.material.localHello.Carries localA ∧
      callA.peerHello.Carries peerA ∧
      callB.material.localHello.Carries localB ∧
      callB.peerHello.Carries peerB ∧ localA.identity = peerB.identity := by
  obtain ⟨_, _, localA, peerA, localB, peerB, hlocalA, hpeerA, hlocalB, hpeerB,
    hinitiator, _⟩ := transcript_binding primitives callA callB _ _ callA_run
      callB_run streams_eq
  exact ⟨localA, peerA, localB, peerB, hlocalA, hpeerA, hlocalB, hpeerB,
    hinitiator⟩

end Shph
