/-
Agreement: two parties that complete the handshake with each other's unmodified
hellos hold complementary keys and one transcript hash.
-/
import Shph.HandshakeSpec

namespace Shph

open ByteCodec

section

variable {prims : Primitives}

/-- The initiator after the hellos are exchanged: encapsulate to the peer if
the profile asks for it, then derive.  The ciphertext is what it sends. -/
def initiatorHandshake (localIdentity : IdentityKeyPair)
    (material : HandshakeMaterial prims) (peerHello : Hello)
    (policy : PeerPolicy) (pqNow firstNow secondNow : Option UInt64)
    (coins : Key) : Except ShphError (Option Bytes × HandshakeState) :=
  if material.profile.usesPqc then
    match finalizeInitiatorPq localIdentity peerHello policy pqNow coins
        material with
    | (.error error, _) => .error error
    | (.ok ciphertext, material) => do
        let state ← verifyAndDeriveWithProfile localIdentity material peerHello
          true policy firstNow secondNow
        return (some ciphertext, state)
  else do
    let state ← verifyAndDeriveWithProfile localIdentity material peerHello true
      policy firstNow secondNow
    return (none, state)

/-- The responder, which reads a ciphertext only if the profile asks for it. -/
def responderHandshake (localIdentity : IdentityKeyPair)
    (material : HandshakeMaterial prims) (peerHello : Hello)
    (peerCt : Option Bytes) (policy : PeerPolicy)
    (pqNow firstNow secondNow : Option UInt64) :
    Except ShphError HandshakeState :=
  if material.profile.usesPqc then do
    let peerCt ← okOr peerCt .timeout
    match absorbResponderPq localIdentity peerHello peerCt policy pqNow
        material with
    | (.error error, _) => .error error
    | (.ok _, material) =>
        verifyAndDeriveWithProfile localIdentity material peerHello false policy
          firstNow secondNow
  else
    verifyAndDeriveWithProfile localIdentity material peerHello false policy
      firstNow secondNow

/-- What a freshly built hello carries, and where its keys come from. -/
structure Built (localIdentity : IdentityKeyPair) (profile : HandshakeProfile)
    (material : HandshakeMaterial prims) (keys : PeerKeys) : Prop where
  carries : material.localHello.Carries keys
  profile_eq : material.profile = profile
  identity : keys.identity = localIdentity.publicKey
  ephemeral : keys.ephemeral =
    prims.x25519Public material.localEphemeral.privateKey
  pqc : material.localHello.pqcPubB64 =
    material.localPqc.map fun pair => Base64.encode pair.encapPublicBytes
  paired : ∀ pair ∈ material.localPqc,
    pair.encapKey = prims.encapsulationKey pair.decapKey

theorem generateLocalPqc_ok {profile : HandshakeProfile}
    {seed : Option (FixedBytes 64)} {pqc : Option (PqcKeypair prims)}
    (hok : generateLocalPqc prims profile seed = .ok pqc) :
    ∀ pair ∈ pqc, pair.encapKey = prims.encapsulationKey pair.decapKey := by
  intro pair hpair
  unfold generateLocalPqc at hok
  split at hok
  · simp only [map_eq_ok_iff, PqcKeypair.generate, bind_eq_ok_iff,
      okOr_eq_ok_iff, pure_eq_ok_iff] at hok
    obtain ⟨_, ⟨seed, _, rfl⟩, rfl⟩ := hok
    rw [Option.mem_some_iff] at hpair
    subst hpair
    rfl
  · simp only [pure_eq_ok_iff] at hok
    subst hok
    simp at hpair

theorem buildHelloWithProfile_ok {localIdentity : IdentityKeyPair}
    {profile : HandshakeProfile} {draws : HelloDraws}
    {material : HandshakeMaterial prims}
    (hok : buildHelloWithProfile prims localIdentity profile draws =
      .ok material) :
    ∃ keys, Built localIdentity profile material keys := by
  simp only [buildHelloWithProfile, IdentityKeyPair.generate, bind_eq_ok_iff,
    okOr_eq_ok_iff, signedPayload_eq_ok_iff, pure_eq_ok_iff] at hok
  obtain ⟨_, ⟨dhSeed, _, signSeed, _, rfl⟩, nonce, _, now, _, pqc, hpqc, _, _,
    rfl⟩ := hok
  exact ⟨⟨localIdentity.publicKey, localIdentity.signingPublic,
      pqc.map PqcKeypair.encapPublicBytes, prims.x25519Public dhSeed, nonce,
      now⟩,
    { carries :=
        { identity := Base64.decode_encode _
          signing := Base64.decode_encode _
          pqc := by cases pqc <;> simp
          ephemeral := Base64.decode_encode _
          nonce := Base64.decode_encode _
          timestamp := rfl }
      profile_eq := rfl
      identity := rfl
      ephemeral := rfl
      pqc := by cases pqc <;> rfl
      paired := generateLocalPqc_ok hpqc }⟩

/-- The key a party published is the public half of the pair it decapsulates
with. -/
theorem Built.decapsulate_eq {localIdentity : IdentityKeyPair}
    {profile : HandshakeProfile} {material : HandshakeMaterial prims}
    {keys : PeerKeys} (hbuilt : Built localIdentity profile material keys)
    {pair : PqcKeypair prims} {encoded : String}
    {peer : FixedBytes mlKem768PublicKeyBytes} {coins shared : Key}
    {ciphertext : FixedBytes mlKem768CiphertextBytes}
    (hpair : material.localPqc = some pair)
    (hencoded : material.localHello.pqcPubB64 = some encoded)
    (hdecoded : Base64.decode encoded = some peer.val)
    (hencapsulate : prims.encapsulate peer coins = some (ciphertext, shared)) :
    prims.decapsulate pair.decapKey ciphertext = shared := by
  have hpublic := hbuilt.pqc
  rw [hpair, hencoded, Option.map_some, Option.some.injEq] at hpublic
  rw [hpublic, Base64.decode_encode, Option.some.injEq] at hdecoded
  have hpeer : peer = pair.encapKey := FixedBytes.ext hdecoded.symm
  rw [hpeer, hbuilt.paired pair hpair] at hencapsulate
  exact prims.decapsulate_encapsulate hencapsulate

/-- The two views of one session: local and peer swapped, opposite roles, the
same exchanged secrets. -/
structure Mirrored (initiator responder : SessionInputs) : Prop where
  profile_eq : initiator.profile = responder.profile
  roles : initiator.initiator = true ∧ responder.initiator = false
  sent : initiator.localKeys = responder.peerKeys
  received : initiator.peerKeys = responder.localKeys
  distinct : initiator.localKeys.identity ≠ initiator.peerKeys.identity
  ciphertext_eq : initiator.ciphertext = responder.ciphertext
  shared_eq : initiator.shared = responder.shared

namespace Mirrored

variable {initiator responder : SessionInputs}

theorem inIdentityOrder_eq (hmirrored : Mirrored initiator responder)
    {α : Type} (field : PeerKeys → α) :
    initiator.inIdentityOrder field = responder.inIdentityOrder field := by
  unfold SessionInputs.inIdentityOrder
  rw [← hmirrored.sent, ← hmirrored.received]
  by_cases hle : lexLe initiator.localKeys.identity.val
      initiator.peerKeys.identity.val = true
  · have hnot : ¬ lexLe initiator.peerKeys.identity.val
        initiator.localKeys.identity.val = true := by
      intro hge
      exact hmirrored.distinct (FixedBytes.ext (lexLe_antisymm hle hge))
    rw [if_pos hle, if_neg hnot]
  · have hge := (lexLe_total initiator.localKeys.identity.val
      initiator.peerKeys.identity.val).resolve_left hle
    rw [if_neg hle, if_pos hge]

theorem initiatorIdentity_eq (hmirrored : Mirrored initiator responder) :
    initiator.initiatorIdentity = responder.initiatorIdentity := by
  unfold SessionInputs.initiatorIdentity
  rw [hmirrored.roles.1, hmirrored.roles.2, ← hmirrored.sent]
  rfl

theorem transcript_eq (hmirrored : Mirrored initiator responder) :
    transcript initiator = transcript responder := by
  unfold transcript transcriptFields
  simp only [hmirrored.inIdentityOrder_eq, hmirrored.initiatorIdentity_eq,
    hmirrored.profile_eq, hmirrored.ciphertext_eq]

theorem directionKey_eq (hmirrored : Mirrored initiator responder)
    (hash : FixedBytes 32) (direction : String) :
    directionKey prims initiator hash direction =
      directionKey prims responder hash direction := by
  unfold directionKey
  rw [hmirrored.shared_eq, hmirrored.profile_eq]

theorem deriveSession_complementary (hmirrored : Mirrored initiator responder)
    {left right : HandshakeState}
    (hleft : deriveSession prims initiator = .ok left)
    (hright : deriveSession prims responder = .ok right) :
    left.sessionKeys.sendKey = right.sessionKeys.recvKey ∧
      left.sessionKeys.recvKey = right.sessionKeys.sendKey ∧
      left.transcriptHashHex = right.transcriptHashHex := by
  simp only [deriveSession, hmirrored.roles.1, hmirrored.roles.2,
    hmirrored.directionKey_eq, hmirrored.transcript_eq, bind_eq_ok_iff,
    pure_eq_ok_iff, if_true, Bool.false_eq_true, if_false] at hleft hright
  obtain ⟨outbound, houtbound, inbound, hinbound, rfl⟩ := hleft
  obtain ⟨backward, hbackward, forward, hforward, rfl⟩ := hright
  have hsend : outbound = forward := by
    rwa [houtbound, Except.ok.injEq] at hforward
  have hrecv : inbound = backward := by
    rwa [hinbound, Except.ok.injEq] at hbackward
  exact ⟨hsend, hrecv, rfl⟩

end Mirrored

theorem finalizeInitiatorPq_ok {localIdentity : IdentityKeyPair}
    {peerHello : Hello} {policy : PeerPolicy} {now : Option UInt64}
    {coins : Key} {material after : HandshakeMaterial prims} {sent : Bytes}
    (hok : finalizeInitiatorPq localIdentity peerHello policy now coins
      material = (.ok sent, after)) :
    ∃ encoded peer ciphertext shared, peerHello.pqcPubB64 = some encoded ∧
      Base64.decode encoded = some peer.val ∧
      prims.encapsulate peer coins = some (ciphertext, shared) ∧
      sent = ciphertext.val ∧
      after = { material with
        localHello := { material.localHello with
          pqcCtB64 := some (Base64.encode ciphertext.val) }
        pqShared := some shared
        pqCiphertext := some ciphertext.val } := by
  unfold finalizeInitiatorPq at hok
  dsimp only at hok
  split at hok
  · simp at hok
  · rename_i _ raw shared hsealed
    simp only [PqcKeypair.encapsulateAgainst, bind_eq_ok_iff, ensure_eq_ok_iff,
      exists_const, okOr_eq_ok_iff, b64Decode_eq_ok_iff,
      FixedBytes.ofBytes?_eq_some_iff, pure_eq_ok_iff, Prod.mk.injEq] at hsealed
    obtain ⟨_, _, _, encoded, hencoded, _, hdecoded, peer, rfl,
      ⟨ciphertext, secret⟩, hencapsulate, rfl, rfl⟩ := hsealed
    simp only [Prod.mk.injEq, Except.ok.injEq] at hok
    exact ⟨encoded, peer, ciphertext, secret, hencoded, hdecoded, hencapsulate,
      hok.1.symm, hok.2.symm⟩

theorem absorbResponderPq_ok {localIdentity : IdentityKeyPair}
    {peerHello : Hello} {peerCt : Bytes} {policy : PeerPolicy}
    {now : Option UInt64} {material after : HandshakeMaterial prims}
    (hok : absorbResponderPq localIdentity peerHello peerCt policy now
      material = (.ok (), after)) :
    ∃ pair ciphertext, material.localPqc = some pair ∧
      peerCt = FixedBytes.val ciphertext ∧
      after = { material with
        pqShared := some (prims.decapsulate pair.decapKey ciphertext)
        pqCiphertext := some peerCt } := by
  unfold absorbResponderPq at hok
  dsimp only at hok
  split at hok
  · simp at hok
  · rename_i _ shared hopened
    simp only [PqcKeypair.decapsulate, bind_eq_ok_iff, ensure_eq_ok_iff,
      exists_const, okOr_eq_ok_iff, FixedBytes.ofBytes?_eq_some_iff,
      pure_eq_ok_iff] at hopened
    obtain ⟨_, _, _, pair, hpair, ciphertext, hciphertext, rfl⟩ := hopened
    simp only [Prod.mk.injEq, true_and] at hok
    exact ⟨pair, ciphertext, hpair, hciphertext, hok.symm⟩

/-- The material the initiator derives from, and what the exchange put into
it. -/
theorem initiatorHandshake_ok {localIdentity : IdentityKeyPair}
    {material : HandshakeMaterial prims} {peerHello : Hello}
    {policy : PeerPolicy} {pqNow firstNow secondNow : Option UInt64}
    {coins : Key} {sent : Option Bytes} {state : HandshakeState}
    (hok : initiatorHandshake localIdentity material peerHello policy pqNow
      firstNow secondNow coins = .ok (sent, state)) :
    ∃ after : HandshakeMaterial prims,
      verifyAndDeriveWithProfile localIdentity after peerHello true policy
        firstNow secondNow = .ok state ∧
      after.profile = material.profile ∧
      after.localEphemeral = material.localEphemeral ∧
      (∀ keys, material.localHello.Carries keys →
        after.localHello.Carries keys) ∧
      (material.profile.usesPqc = true →
        ∃ encoded peer ciphertext shared, peerHello.pqcPubB64 = some encoded ∧
          Base64.decode encoded = some peer.val ∧
          prims.encapsulate peer coins = some (ciphertext, shared) ∧
          sent = some ciphertext.val ∧ after.pqShared = some shared ∧
          after.pqCiphertext = some ciphertext.val) := by
  unfold initiatorHandshake at hok
  by_cases huses : material.profile.usesPqc = true
  · rw [if_pos huses] at hok
    cases hcall : finalizeInitiatorPq localIdentity peerHello policy pqNow coins
        material with
    | mk result after =>
        rw [hcall] at hok
        cases result with
        | error error => simp at hok
        | ok raw =>
            simp only [bind_eq_ok_iff, pure_eq_ok_iff, Prod.mk.injEq] at hok
            obtain ⟨_, hderive, rfl, rfl⟩ := hok
            obtain ⟨encoded, peer, ciphertext, shared, hencoded, hdecoded,
              hencapsulate, rfl, rfl⟩ := finalizeInitiatorPq_ok hcall
            refine ⟨_, hderive, rfl, rfl, ?_, ?_⟩
            · intro keys hkeys
              exact ⟨hkeys.identity, hkeys.signing, hkeys.pqc, hkeys.ephemeral,
                hkeys.nonce, hkeys.timestamp⟩
            · intro _
              exact ⟨encoded, peer, ciphertext, shared, hencoded, hdecoded,
                hencapsulate, rfl, rfl, rfl⟩
  · rw [if_neg huses] at hok
    simp only [bind_eq_ok_iff, pure_eq_ok_iff, Prod.mk.injEq] at hok
    obtain ⟨_, hderive, rfl, rfl⟩ := hok
    exact ⟨material, hderive, rfl, rfl, fun _ hkeys => hkeys,
      fun htrue => absurd htrue huses⟩

theorem responderHandshake_ok {localIdentity : IdentityKeyPair}
    {material : HandshakeMaterial prims} {peerHello : Hello}
    {received : Option Bytes} {policy : PeerPolicy}
    {pqNow firstNow secondNow : Option UInt64} {state : HandshakeState}
    (hok : responderHandshake localIdentity material peerHello received policy
      pqNow firstNow secondNow = .ok state) :
    ∃ after : HandshakeMaterial prims,
      verifyAndDeriveWithProfile localIdentity after peerHello false policy
        firstNow secondNow = .ok state ∧
      after.profile = material.profile ∧
      after.localEphemeral = material.localEphemeral ∧
      (∀ keys, material.localHello.Carries keys →
        after.localHello.Carries keys) ∧
      (material.profile.usesPqc = true →
        ∃ pair ciphertext, material.localPqc = some pair ∧
          received = some (FixedBytes.val ciphertext) ∧
          after.pqShared = some (prims.decapsulate pair.decapKey ciphertext) ∧
          after.pqCiphertext = some ciphertext.val) := by
  unfold responderHandshake at hok
  by_cases huses : material.profile.usesPqc = true
  · rw [if_pos huses, bind_eq_ok_iff] at hok
    obtain ⟨raw, hraw, hok⟩ := hok
    rw [okOr_eq_ok_iff] at hraw
    cases hcall : absorbResponderPq localIdentity peerHello raw policy pqNow
        material with
    | mk result after =>
        rw [hcall] at hok
        cases result with
        | error error => simp at hok
        | ok done =>
            obtain ⟨pair, ciphertext, hpair, rfl, rfl⟩ :=
              absorbResponderPq_ok hcall
            exact ⟨_, hok, rfl, rfl, fun _ hkeys => hkeys,
              fun _ => ⟨pair, ciphertext, hpair, hraw, rfl, rfl⟩⟩
  · rw [if_neg huses] at hok
    exact ⟨material, hok, rfl, rfl, fun _ hkeys => hkeys,
      fun htrue => absurd htrue huses⟩

theorem initiatorHandshake_of_classical {localIdentity : IdentityKeyPair}
    {material : HandshakeMaterial prims} {peerHello : Hello}
    {policy : PeerPolicy} {firstNow secondNow : Option UInt64}
    {state : HandshakeState} (pqNow : Option UInt64) (coins : Key)
    (hclassical : material.profile.usesPqc = false)
    (hderive : verifyAndDeriveWithProfile localIdentity material peerHello true
      policy firstNow secondNow = .ok state) :
    initiatorHandshake localIdentity material peerHello policy pqNow firstNow
      secondNow coins = .ok (none, state) := by
  rw [initiatorHandshake, if_neg (by simp [hclassical]), hderive]
  rfl

theorem responderHandshake_of_classical {localIdentity : IdentityKeyPair}
    {material : HandshakeMaterial prims} {peerHello : Hello}
    {policy : PeerPolicy} {firstNow secondNow : Option UInt64}
    {state : HandshakeState} (received : Option Bytes) (pqNow : Option UInt64)
    (hclassical : material.profile.usesPqc = false)
    (hderive : verifyAndDeriveWithProfile localIdentity material peerHello false
      policy firstNow secondNow = .ok state) :
    responderHandshake localIdentity material peerHello received policy pqNow
      firstNow secondNow = .ok state := by
  rw [responderHandshake, if_neg (by simp [hclassical]), hderive]

/-- Whichever identity key is the smaller one, and under either profile, what
one side sends with the other receives with, and both hash one transcript. -/
theorem handshake_agreement (prims : Primitives)
    (identityA identityB : IdentityKeyPair) (profile : HandshakeProfile)
    (drawsA drawsB : HelloDraws) (materialA materialB : HandshakeMaterial prims)
    (policyA policyB : PeerPolicy) (coins : Key)
    (pqNowA firstNowA secondNowA pqNowB firstNowB secondNowB : Option UInt64)
    (sent : Option Bytes) (stateA stateB : HandshakeState)
    (hdistinct : identityA.publicKey ≠ identityB.publicKey)
    (hbuildA : buildHelloWithProfile prims identityA profile drawsA =
      .ok materialA)
    (hbuildB : buildHelloWithProfile prims identityB profile drawsB =
      .ok materialB)
    (hinitiator : initiatorHandshake identityA materialA materialB.localHello
      policyA pqNowA firstNowA secondNowA coins = .ok (sent, stateA))
    (hresponder : responderHandshake identityB materialB materialA.localHello
      sent policyB pqNowB firstNowB secondNowB = .ok stateB) :
    stateA.sessionKeys.sendKey = stateB.sessionKeys.recvKey ∧
      stateA.sessionKeys.recvKey = stateB.sessionKeys.sendKey ∧
      stateA.transcriptHashHex = stateB.transcriptHashHex := by
  obtain ⟨keysA, hbuiltA⟩ := buildHelloWithProfile_ok hbuildA
  obtain ⟨keysB, hbuiltB⟩ := buildHelloWithProfile_ok hbuildB
  obtain ⟨afterA, hderiveA, hprofileA, hephemeralA, hcarriesA, hexchangeA⟩ :=
    initiatorHandshake_ok hinitiator
  obtain ⟨afterB, hderiveB, hprofileB, hephemeralB, hcarriesB, hexchangeB⟩ :=
    responderHandshake_ok hresponder
  obtain ⟨inputsA, hA, hsessionA⟩ := verifyAndDeriveWithProfile_ok hderiveA
  obtain ⟨inputsB, hB, hsessionB⟩ := verifyAndDeriveWithProfile_ok hderiveB
  have hlocalA : inputsA.localKeys = keysA :=
    hA.local_valid.carries.unique (hcarriesA keysA hbuiltA.carries)
  have hlocalB : inputsB.localKeys = keysB :=
    hB.local_valid.carries.unique (hcarriesB keysB hbuiltB.carries)
  have hpeerA : inputsA.peerKeys = keysB :=
    hA.authentic.carries.unique hbuiltB.carries
  have hpeerB : inputsB.peerKeys = keysA :=
    hB.authentic.carries.unique hbuiltA.carries
  rw [hbuiltA.profile_eq] at hprofileA
  rw [hbuiltB.profile_eq] at hprofileB
  have hecdh : afterA.localEphemeral.deriveShared prims keysB.ephemeral =
      afterB.localEphemeral.deriveShared prims keysA.ephemeral := by
    unfold IdentityKeyPair.deriveShared
    rw [hbuiltA.ephemeral, hbuiltB.ephemeral, hephemeralA, hephemeralB]
    exact prims.diffieHellman_comm _ _
  have hpq : afterA.pqShared = afterB.pqShared ∧
      afterA.pqCiphertext = afterB.pqCiphertext := by
    by_cases huses : profile.usesPqc = true
    · obtain ⟨encoded, peer, ciphertext, shared, hencoded, hdecoded,
        hencapsulate, rfl, hsharedA, hciphertextA⟩ :=
        hexchangeA (hbuiltA.profile_eq ▸ huses)
      obtain ⟨pair, other, hpair, hother, hsharedB, hciphertextB⟩ :=
        hexchangeB (hbuiltB.profile_eq ▸ huses)
      rw [Option.some.injEq] at hother
      have hsame : ciphertext = other := FixedBytes.ext hother
      subst hsame
      rw [hsharedA, hsharedB, hciphertextA, hciphertextB,
        hbuiltB.decapsulate_eq hpair hencoded hdecoded hencapsulate]
      exact ⟨rfl, rfl⟩
    · have hnoneA := hA.local_valid.classical (by simpa [hprofileA] using huses)
      have hnoneB := hB.local_valid.classical (by simpa [hprofileB] using huses)
      rw [hnoneA.1, hnoneA.2, hnoneB.1, hnoneB.2]
      exact ⟨rfl, rfl⟩
  have hmirrored : Mirrored inputsA inputsB :=
    { profile_eq := by
        rw [hA.profile_eq, hB.profile_eq, hprofileA, hprofileB]
      roles := ⟨hA.initiator_eq, hB.initiator_eq⟩
      sent := hlocalA.trans hpeerB.symm
      received := hpeerA.trans hlocalB.symm
      distinct := by
        rw [hlocalA, hpeerA, hbuiltA.identity, hbuiltB.identity]
        exact hdistinct
      ciphertext_eq := by
        rw [hA.ciphertext_eq, hB.ciphertext_eq, hpq.2]
      shared_eq := by
        rw [hA.shared_eq, hB.shared_eq, hpeerA, hpeerB, hecdh, hpq.1,
          hprofileA, hprofileB] }
  exact hmirrored.deriveSession_complementary hsessionA hsessionB

end

end Shph
