/-
What the successful handshake calls have established: one lemma for each
function, stated in terms of the keys a hello carries.
-/
import Shph.Handshake

namespace Shph

open ByteCodec

theorem foldl_diff_eq_zero_iff {left right : Bytes}
    (hlength : left.length = right.length) (start : UInt8) :
    (left.zip right).foldl (fun diff pair => diff ||| (pair.1 ^^^ pair.2))
        start = 0 ↔ start = 0 ∧ left = right := by
  induction left generalizing right start with
  | nil =>
      have hnil : right = [] := List.length_eq_zero_iff.mp hlength.symm
      simp [hnil]
  | cons a left ih =>
      cases right with
      | nil => simp at hlength
      | cons b right =>
          simp only [List.length_cons, Nat.add_right_cancel_iff] at hlength
          rw [List.zip_cons_cons, List.foldl_cons, ih hlength]
          simp only [UInt8.or_eq_zero_iff, UInt8.xor_eq_zero_iff,
            List.cons.injEq, and_assoc]

@[simp] theorem constantTimeEq_iff (left right : Bytes) :
    constantTimeEq left right = true ↔ left = right := by
  unfold constantTimeEq
  by_cases hlength : left.length = right.length
  · simp [hlength, foldl_diff_eq_zero_iff hlength]
  · have hne : left ≠ right := fun heq => hlength (congrArg List.length heq)
    simp [hlength, hne]

theorem PeerPolicy.allows_iff (policy : PeerPolicy) (identity signing : Key) :
    policy.allows identity signing = true ↔
      (⟨identity, signing⟩ : PeerPin) ∈ policy.pins := by
  rw [allows, List.any_eq_true]
  constructor
  · rintro ⟨pin, hmem, hequal⟩
    rw [Bool.and_eq_true, constantTimeEq_iff, constantTimeEq_iff] at hequal
    have hpin : pin = ⟨identity, signing⟩ := by
      cases pin
      simp only [PeerPin.mk.injEq]
      exact ⟨FixedBytes.ext hequal.1, FixedBytes.ext hequal.2⟩
    rwa [← hpin]
  · intro hmem
    exact ⟨_, hmem, by simp⟩

/-- The signed parts one after the other. -/
def payloadBytes (profile : HandshakeProfile) (keys : PeerKeys) : Bytes :=
  textBytes profile.protocolTag ++ (keys.identity.val ++ (keys.signing.val ++
    (keys.pqc.getD [] ++ (keys.ephemeral.val ++ (keys.nonce.val ++
      bigEndian 8 keys.timestamp.toNat)))))

theorem appendSignedPart_eq_ok_iff {buffer part result : Bytes} :
    appendSignedPart buffer part = .ok result ↔
      (buffer ++ part).length ≤ maxSignedPayloadBytes ∧
        result = buffer ++ part := by
  simp only [appendSignedPart, bind_eq_ok_iff, ensure_eq_ok_iff, exists_const,
    pure_eq_ok_iff, List.length_append]
  constructor
  · rintro ⟨_, hlength, hresult⟩
    exact ⟨hlength, hresult.symm⟩
  · rintro ⟨hlength, hresult⟩
    have hword : maxSignedPayloadBytes < 2 ^ 64 := by decide
    exact ⟨by omega, hlength, hresult.symm⟩

/-- A payload that fits the buffer is the concatenation of its parts. -/
theorem signedPayload_eq_ok_iff {profile : HandshakeProfile} {keys : PeerKeys}
    {payload : Bytes} :
    signedPayload profile keys = .ok payload ↔
      (payloadBytes profile keys).length ≤ maxSignedPayloadBytes ∧
        payload = payloadBytes profile keys := by
  cases hpqc : keys.pqc with
  | none =>
      simp only [signedPayload, hpqc, bind_eq_ok_iff,
        appendSignedPart_eq_ok_iff, pure_eq_ok_iff, payloadBytes,
        Option.getD_none, List.nil_append]
      constructor
      · rintro ⟨_, ⟨_, rfl⟩, _, ⟨_, rfl⟩, _, ⟨_, rfl⟩, _, rfl, _, ⟨_, rfl⟩, _,
          ⟨_, rfl⟩, hlength, rfl⟩
        refine ⟨?_, by simp only [List.append_assoc]⟩
        simpa only [List.append_assoc] using hlength
      · rintro ⟨hlength, rfl⟩
        simp only [List.length_append] at hlength
        refine ⟨_, ⟨?_, rfl⟩, _, ⟨?_, rfl⟩, _, ⟨?_, rfl⟩, _, rfl, _, ⟨?_, rfl⟩,
          _, ⟨?_, rfl⟩, ?_, by simp only [List.append_assoc]⟩
        all_goals
          first
          | omega
          | simp only [List.length_append]
            omega
  | some pqc =>
      simp only [signedPayload, hpqc, bind_eq_ok_iff,
        appendSignedPart_eq_ok_iff, payloadBytes, Option.getD_some,
        List.nil_append]
      constructor
      · rintro ⟨_, ⟨_, rfl⟩, _, ⟨_, rfl⟩, _, ⟨_, rfl⟩, _, ⟨_, rfl⟩, _, ⟨_, rfl⟩,
          _, ⟨_, rfl⟩, hlength, rfl⟩
        refine ⟨?_, by simp only [List.append_assoc]⟩
        simpa only [List.append_assoc] using hlength
      · rintro ⟨hlength, rfl⟩
        simp only [List.length_append] at hlength
        refine ⟨_, ⟨?_, rfl⟩, _, ⟨?_, rfl⟩, _, ⟨?_, rfl⟩, _, ⟨?_, rfl⟩, _,
          ⟨?_, rfl⟩, _, ⟨?_, rfl⟩, ?_, by simp only [List.append_assoc]⟩
        all_goals
          first
          | omega
          | simp only [List.length_append]
            omega

/-- The signature is valid base64 and verifies over the payload. -/
def SignatureValid (prims : Primitives) (profile : HandshakeProfile)
    (keys : PeerKeys) (sig : String) : Prop :=
  ∃ raw, Base64.decode sig = some raw ∧
    prims.ed25519Verify keys.signing (payloadBytes profile keys) raw = true

theorem verifyPeerSignature_eq_ok_iff {prims : Primitives}
    {profile : HandshakeProfile} {keys : PeerKeys} {sig : String} :
    verifyPeerSignature prims profile keys sig = .ok () ↔
      (payloadBytes profile keys).length ≤ maxSignedPayloadBytes ∧
        SignatureValid prims profile keys sig := by
  simp only [verifyPeerSignature, verifyHandshakeSignature, bind_eq_ok_iff,
    signedPayload_eq_ok_iff, okOr_eq_ok_iff, ensure_eq_ok_iff, SignatureValid]
  constructor
  · rintro ⟨_, ⟨hlength, rfl⟩, hvalid⟩
    exact ⟨hlength, hvalid⟩
  · rintro ⟨hlength, hvalid⟩
    exact ⟨_, ⟨hlength, rfl⟩, hvalid⟩

/-- The keys are what the hello's fields decode to. -/
structure Hello.Carries (hello : Hello) (keys : PeerKeys) : Prop where
  identity : Base64.decode hello.identityPubB64 = some keys.identity.val
  signing : Base64.decode hello.signPubB64 = some keys.signing.val
  pqc : hello.pqcPubB64.map Base64.decode = keys.pqc.map some
  ephemeral : Base64.decode hello.ephemeralPubB64 = some keys.ephemeral.val
  nonce : Base64.decode hello.nonceB64 = some keys.nonce.val
  timestamp : hello.timestampSecs = keys.timestamp

theorem Hello.Carries.unique {hello : Hello} {left right : PeerKeys}
    (hleft : hello.Carries left) (hright : hello.Carries right) :
    left = right := by
  have hkey {a b : Key} {decoded : Option Bytes} (ha : decoded = some a.val)
      (hb : decoded = some b.val) : a = b := by
    rw [ha, Option.some.injEq] at hb
    exact FixedBytes.ext hb
  have hpqc : left.pqc = right.pqc :=
    Option.map_injective (Option.some_injective _)
      (hleft.pqc.symm.trans hright.pqc)
  exact PeerKeys.ext (hkey hleft.identity hright.identity)
    (hkey hleft.signing hright.signing) hpqc
    (hkey hleft.ephemeral hright.ephemeral) (hkey hleft.nonce hright.nonce)
    (hleft.timestamp.symm.trans hright.timestamp)

theorem b64Decode_eq_ok_iff {inputB64 what : String} {raw : Bytes} :
    b64Decode inputB64 what = .ok raw ↔ Base64.decode inputB64 = some raw := by
  rw [b64Decode, okOr_eq_ok_iff]

theorem decode32_eq_ok_iff {inputB64 what : String} {key : Key} :
    decode32 inputB64 what = .ok key ↔
      Base64.decode inputB64 = some key.val := by
  simp only [decode32, bind_eq_ok_iff, b64Decode_eq_ok_iff, okOr_eq_ok_iff,
    FixedBytes.ofBytes?_eq_some_iff]
  constructor
  · rintro ⟨_, hdecode, rfl⟩
    exact hdecode
  · intro hdecode
    exact ⟨_, hdecode, rfl⟩

theorem map_eq_ok_iff {α β : Type} {f : α → β} {first : Except ShphError α}
    {result : β} :
    f <$> first = .ok result ↔ ∃ value, first = .ok value ∧ f value = result := by
  cases first with
  | error error => simp [Functor.map, Except.map]
  | ok value => simp [Functor.map, Except.map]

theorem b64DecodeOptional_eq_ok_iff {inputB64 : Option String} {what : String}
    {raw : Option Bytes} :
    b64DecodeOptional inputB64 what = .ok raw ↔
      inputB64.map Base64.decode = raw.map some := by
  cases inputB64 with
  | none => cases raw <;> simp [b64DecodeOptional, pure, Except.pure]
  | some inputB64 =>
      simp only [b64DecodeOptional, map_eq_ok_iff, b64Decode_eq_ok_iff,
        Option.map_some]
      cases raw with
      | none => simp
      | some raw => simp

/-- The clock could be read and is at most five minutes from the timestamp. -/
def WithinWindow (now : Option UInt64) (timestamp : UInt64) : Prop :=
  ∃ seconds, now = some seconds ∧
    absDiff seconds.toNat timestamp.toNat ≤ 300

theorem decodePeerHello_eq_ok_iff {profile : HandshakeProfile}
    {peerHello : Hello} {now : Option UInt64} {keys : PeerKeys} :
    decodePeerHello profile peerHello now = .ok keys ↔
      peerHello.Carries keys ∧ WithinWindow now peerHello.timestampSecs ∧
        profile.usesPqc = keys.pqc.isSome := by
  simp only [decodePeerHello, bind_eq_ok_iff, decode32_eq_ok_iff,
    okOr_eq_ok_iff, ensure_eq_ok_iff, exists_const, b64DecodeOptional_eq_ok_iff,
    pure_eq_ok_iff]
  constructor
  · rintro ⟨identity, hidentity, ephemeral, hephemeral, nonce, hnonce, seconds,
      hnow, hwindow, signing, hsigning, pqc, hpqc, hprofile, rfl⟩
    exact ⟨⟨hidentity, hsigning, hpqc, hephemeral, hnonce, rfl⟩,
      ⟨seconds, hnow, hwindow⟩, hprofile⟩
  · rintro ⟨hcarries, ⟨seconds, hnow, hwindow⟩, hprofile⟩
    exact ⟨_, hcarries.identity, _, hcarries.ephemeral, _, hcarries.nonce,
      seconds, hnow, hwindow, _, hcarries.signing, _, hcarries.pqc, hprofile,
      by rw [hcarries.timestamp]⟩

section

variable {prims : Primitives}

/-- The local material belongs to the identity, and its hello carries the
material's own keys. -/
structure LocalValid (localIdentity : IdentityKeyPair)
    (material : HandshakeMaterial prims) (keys : PeerKeys) : Prop where
  carries : material.localHello.Carries keys
  identity : keys.identity = localIdentity.publicKey
  signing : keys.signing = localIdentity.signingPublic
  ephemeral : keys.ephemeral = material.localEphemeral.publicKey
  nonce : keys.nonce = material.localNonce
  pqc_isSome : material.profile.usesPqc = keys.pqc.isSome
  pqc_length : ∀ pqc ∈ keys.pqc, pqc.length = mlKem768PublicKeyBytes
  classical : material.profile.usesPqc = false →
    material.pqShared = none ∧ material.pqCiphertext = none

theorem validateLocalPqc_ok {material : HandshakeMaterial prims}
    {pqc : Option Bytes} (hok : validateLocalPqc material = .ok ())
    (hpqc : material.localHello.pqcPubB64.map Base64.decode = pqc.map some) :
    material.profile.usesPqc = pqc.isSome ∧
      (∀ key ∈ pqc, key.length = mlKem768PublicKeyBytes) ∧
      (material.profile.usesPqc = false →
        material.pqShared = none ∧ material.pqCiphertext = none) := by
  unfold validateLocalPqc at hok
  split at hok
  · rename_i huses
    simp only [bind_eq_ok_iff, okOr_eq_ok_iff, b64Decode_eq_ok_iff,
      ensure_eq_ok_iff] at hok
    obtain ⟨pair, _, encoded, hencoded, raw, hraw, hequal⟩ := hok
    rw [hencoded, Option.map_some, hraw] at hpqc
    cases pqc with
    | none => simp at hpqc
    | some key =>
        simp only [Option.map_some, Option.some.injEq] at hpqc
        refine ⟨by simpa using huses, ?_, by simp [huses]⟩
        intro other hother
        rw [Option.mem_some_iff] at hother
        rw [← hother, ← hpqc, hequal]
        exact pair.encapKey.length_eq
  · rename_i huses
    rw [ensure_eq_ok_iff] at hok
    simp only [not_or, Bool.not_eq_true, Option.isSome_eq_false_iff,
      Option.isNone_iff_eq_none] at hok
    obtain ⟨_, hnone, hshared, hciphertext, _⟩ := hok
    rw [hnone, Option.map_none] at hpqc
    have hpqcNone : pqc = none := Option.map_eq_none_iff.mp hpqc.symm
    subst hpqcNone
    exact ⟨by simpa using huses, by simp, fun _ => ⟨hshared, hciphertext⟩⟩

theorem validateLocalMaterial_ok {localIdentity : IdentityKeyPair}
    {material : HandshakeMaterial prims}
    (hok : validateLocalMaterial localIdentity material = .ok ()) :
    ∃ keys, LocalValid localIdentity material keys := by
  simp only [validateLocalMaterial, checkLocalProfile, bind_eq_ok_iff,
    ensure_eq_ok_iff, exists_const, decode32_eq_ok_iff, constantTimeEq_iff,
    b64DecodeOptional_eq_ok_iff] at hok
  obtain ⟨_, identity, hidentity, hidentityEq, signing, hsigning, hsigningEq,
    ephemeral, hephemeral, hephemeralEq, nonce, hnonce, hnonceEq, _, hlocal,
    pqc, hpqc, _⟩ := hok
  obtain ⟨hisSome, hlength, hclassical⟩ := validateLocalPqc_ok hlocal hpqc
  exact ⟨⟨identity, signing, pqc, ephemeral, nonce,
      material.localHello.timestampSecs⟩,
    { carries := ⟨hidentity, hsigning, hpqc, hephemeral, hnonce, rfl⟩
      identity := FixedBytes.ext hidentityEq
      signing := FixedBytes.ext hsigningEq
      ephemeral := FixedBytes.ext hephemeralEq
      nonce := FixedBytes.ext hnonceEq
      pqc_isSome := hisSome
      pqc_length := hlength
      classical := hclassical }⟩

/-- What makes a peer's hello authentic at a clock reading: the profile and
its tag, the time window, a pinned pair of keys, and a signature by the pinned
signing key over everything the hello says. -/
structure Authentic (prims : Primitives) (profile : HandshakeProfile)
    (policy : PeerPolicy) (now : Option UInt64) (hello : Hello)
    (keys : PeerKeys) : Prop where
  profile_eq : hello.profile = profile
  proto_eq : hello.proto = profile.protocolTag
  no_ciphertext : hello.pqcCtB64 = none
  carries : hello.Carries keys
  window : WithinWindow now hello.timestampSecs
  pqc_isSome : profile.usesPqc = keys.pqc.isSome
  pqc_length : ∀ pqc ∈ keys.pqc, pqc.length = mlKem768PublicKeyBytes
  signature : SignatureValid prims profile keys hello.sig
  pinned : (⟨keys.identity, keys.signing⟩ : PeerPin) ∈ policy.pins

theorem verifyHelloSignature_ok {localIdentity : IdentityKeyPair}
    {material : HandshakeMaterial prims} {peerHello : Hello}
    {policy : PeerPolicy} {now : Option UInt64}
    (hok : verifyHelloSignature localIdentity material peerHello policy now =
      .ok ()) :
    (∃ keys, LocalValid localIdentity material keys) ∧
      ∃ keys, Authentic prims material.profile policy now peerHello keys := by
  simp only [verifyHelloSignature, checkPeerProfile, checkLocalProfile,
    bind_eq_ok_iff, ensure_eq_ok_iff, exists_const,
    decodePeerHello_eq_ok_iff, PeerPolicy.allows_iff] at hok
  obtain ⟨_, hlocal, ⟨hprofile, hproto⟩, _, hciphertext, keys,
    ⟨hcarries, hwindow, hisSome⟩, hlength, _, hsignature, hpinned⟩ := hok
  have hvalid := (verifyPeerSignature_eq_ok_iff.mp hsignature).2
  exact ⟨validateLocalMaterial_ok hlocal, keys,
    ⟨hprofile, hproto, hciphertext, hcarries, hwindow, hisSome, hlength, hvalid,
      hpinned⟩⟩

/-- Everything a successful run of the checks has established. -/
structure Established (localIdentity : IdentityKeyPair)
    (material : HandshakeMaterial prims) (peerHello : Hello) (initiator : Bool)
    (policy : PeerPolicy) (firstNow secondNow : Option UInt64)
    (inputs : SessionInputs) : Prop where
  local_valid : LocalValid localIdentity material inputs.localKeys
  authentic : Authentic prims material.profile policy firstNow peerHello
    inputs.peerKeys
  window : WithinWindow secondNow peerHello.timestampSecs
  profile_eq : inputs.profile = material.profile
  initiator_eq : inputs.initiator = initiator
  ciphertext_eq : inputs.ciphertext = material.pqCiphertext
  secure : material.profile.usesPqc = true →
    ∃ shared ciphertext, material.pqShared = some shared ∧
      material.pqCiphertext = some ciphertext ∧
      ciphertext.length = mlKem768CiphertextBytes
  shared_eq : inputs.shared =
    ((material.localEphemeral.deriveShared prims inputs.peerKeys.ephemeral).val ++
      (material.pqShared.getD (FixedBytes.replicate 32 0)).val).take
        (if material.profile.usesPqc then 64 else 32)

theorem sessionPq_ok {material : HandshakeMaterial prims}
    {shared : Option Key} {ciphertext : Option Bytes}
    (hshared : sessionPqShared material = .ok shared)
    (hciphertext : sessionPqCiphertext material = .ok ciphertext)
    (hclassical : material.profile.usesPqc = false →
      material.pqShared = none ∧ material.pqCiphertext = none) :
    shared = material.pqShared ∧ ciphertext = material.pqCiphertext ∧
      (material.profile.usesPqc = true →
        ∃ secret raw, material.pqShared = some secret ∧
          material.pqCiphertext = some raw ∧
          raw.length = mlKem768CiphertextBytes) := by
  unfold sessionPqShared at hshared
  unfold sessionPqCiphertext at hciphertext
  by_cases huses : material.profile.usesPqc = true
  · rw [if_pos huses] at hshared hciphertext
    simp only [map_eq_ok_iff, okOr_eq_ok_iff] at hshared
    simp only [bind_eq_ok_iff, okOr_eq_ok_iff, ensure_eq_ok_iff, exists_const,
      pure_eq_ok_iff] at hciphertext
    obtain ⟨secret, hsecret, rfl⟩ := hshared
    obtain ⟨raw, hraw, hlength, rfl⟩ := hciphertext
    exact ⟨hsecret.symm, hraw.symm, fun _ => ⟨secret, raw, hsecret, hraw,
      hlength⟩⟩
  · rw [if_neg huses] at hshared hciphertext
    simp only [bind_eq_ok_iff, ensure_eq_ok_iff, exists_const, pure_eq_ok_iff]
      at hshared hciphertext
    obtain ⟨hsecret, rfl⟩ := hshared
    subst hciphertext
    have hnone := hclassical (Bool.not_eq_true _ ▸ huses)
    exact ⟨hsecret.symm, hnone.2.symm, fun htrue => absurd htrue huses⟩

theorem sessionInputs_ok {localIdentity : IdentityKeyPair}
    {material : HandshakeMaterial prims} {peerHello : Hello} {initiator : Bool}
    {policy : PeerPolicy} {firstNow secondNow : Option UInt64}
    {inputs : SessionInputs}
    (hok : sessionInputs localIdentity material peerHello initiator policy
      firstNow secondNow = .ok inputs) :
    Established localIdentity material peerHello initiator policy firstNow
      secondNow inputs := by
  simp only [sessionInputs, bind_eq_ok_iff, ensure_eq_ok_iff, exists_const,
    decodePeerHello_eq_ok_iff, decode32_eq_ok_iff, b64DecodeOptional_eq_ok_iff,
    pure_eq_ok_iff] at hok
  obtain ⟨_, hverify, _, _, _, _, peerKeys, ⟨hcarries, hwindow, _⟩, _, _, _,
    shared, hshared, ciphertext, hciphertext, identity, hidentity, signing,
    hsigning, ephemeral, hephemeral, pqc, hpqc, rfl⟩ := hok
  obtain ⟨⟨localKeys, hlocal⟩, firstKeys, hauthentic⟩ :=
    verifyHelloSignature_ok hverify
  have hpeer : firstKeys = peerKeys := hauthentic.carries.unique hcarries
  subst hpeer
  have hown : localKeys = ⟨identity, signing, pqc, ephemeral,
      material.localNonce, material.localHello.timestampSecs⟩ := by
    apply hlocal.carries.unique
    exact ⟨hidentity, hsigning, hpqc, hephemeral,
      hlocal.nonce ▸ hlocal.carries.nonce, rfl⟩
  subst hown
  obtain ⟨rfl, hciphertextEq, hsecure⟩ :=
    sessionPq_ok hshared hciphertext hlocal.classical
  exact
    { local_valid := hlocal
      authentic := hauthentic
      window := hwindow
      profile_eq := rfl
      initiator_eq := rfl
      ciphertext_eq := hciphertextEq
      secure := hsecure
      shared_eq := rfl }

theorem verifyAndDeriveWithProfile_ok {localIdentity : IdentityKeyPair}
    {material : HandshakeMaterial prims} {peerHello : Hello} {initiator : Bool}
    {policy : PeerPolicy} {firstNow secondNow : Option UInt64}
    {state : HandshakeState}
    (hok : verifyAndDeriveWithProfile localIdentity material peerHello initiator
      policy firstNow secondNow = .ok state) :
    ∃ inputs, Established localIdentity material peerHello initiator policy
      firstNow secondNow inputs ∧ deriveSession prims inputs = .ok state := by
  rw [verifyAndDeriveWithProfile, bind_eq_ok_iff] at hok
  obtain ⟨inputs, hinputs, hderive⟩ := hok
  exact ⟨inputs, sessionInputs_ok hinputs, hderive⟩

end

end Shph
