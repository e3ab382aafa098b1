/-
Honest parties complete the handshake.  Freshly built material passes every
check it meets, before the exchange of the post-quantum secret and after it,
and so both sides derive keys from two views of one session.
-/
import Shph.HandshakeAgreement

namespace Shph

open ByteCodec FixedBytes
/-- What the primitives promise to those who use them as they should: own
signatures verify and have their size, an honest public key can be
encapsulated to, and a key can be expanded to its 32 bytes. -/
structure Primitives.Reliable (prims : Primitives) : Prop where
  verify_sign : ∀ seed message, prims.ed25519Verify (prims.ed25519Public seed)
    message (prims.ed25519Sign seed message) = true
  sign_length : ∀ seed message, (prims.ed25519Sign seed message).length = 64
  encapsulate : ∀ key coins,
    (prims.encapsulate (prims.encapsulationKey key) coins).isSome = true
  expand : ∀ salt inputKey, (prims.hkdfExpand salt inputKey 32).isSome = true

section

variable {prims : Primitives}

/-- The material of one party and the keys its hello carries.  The secret of
the exchange may be there or not. -/
structure HonestParty (localIdentity : IdentityKeyPair)
    (profile : HandshakeProfile) (material : HandshakeMaterial prims)
    (keys : PeerKeys) : Prop where
  carries : material.localHello.Carries keys
  profile_eq : material.profile = profile
  hello : material.localHello.proto = profile.protocolTag ∧
    material.localHello.profile = profile
  identity : keys.identity = localIdentity.publicKey
  signing : keys.signing = localIdentity.signingPublic
  ephemeral : keys.ephemeral = material.localEphemeral.publicKey
  nonce : keys.nonce = material.localNonce
  pqc : keys.pqc = material.localPqc.map PqcKeypair.encapPublicBytes
  uses : material.localPqc.isSome = profile.usesPqc
  bound : ∀ encoded ∈ material.localHello.pqcCtB64,
    ∃ ciphertext, Base64.decode encoded = some ciphertext ∧
      material.pqCiphertext = some ciphertext
  classical : profile.usesPqc = false → material.pqShared = none ∧
    material.pqCiphertext = none ∧ material.localHello.pqcCtB64 = none
  payload : (payloadBytes profile keys).length ≤ maxSignedPayloadBytes
  signature : SignatureValid prims profile keys material.localHello.sig

/-- Before the exchange there is no ciphertext in the hello, and the keypair
is a pair. -/
structure Fresh (localIdentity : IdentityKeyPair) (profile : HandshakeProfile)
    (material : HandshakeMaterial prims) (keys : PeerKeys) : Prop where
  honest : HonestParty localIdentity profile material keys
  noCiphertext : material.localHello.pqcCtB64 = none
  paired : ∀ pair ∈ material.localPqc,
    pair.encapKey = prims.encapsulationKey pair.decapKey
  ephemeral : material.localEphemeral.publicKey =
    prims.x25519Public material.localEphemeral.privateKey

theorem generateLocalPqc_isSome {profile : HandshakeProfile}
    {seed : Option (FixedBytes 64)} {pqc : Option (PqcKeypair prims)}
    (hok : generateLocalPqc prims profile seed = .ok pqc) :
    pqc.isSome = profile.usesPqc := by
  unfold generateLocalPqc at hok
  split at hok
  · rename_i huses
    rw [map_eq_ok_iff] at hok
    obtain ⟨pair, _, rfl⟩ := hok
    exact huses.symm
  · rename_i huses
    simp only [pure_eq_ok_iff] at hok
    subst hok
    simpa using huses

/-- What a hello is built from is what it carries. -/
theorem buildHelloWithProfile_drawn {localIdentity : IdentityKeyPair}
    {profile : HandshakeProfile} {dhSeed signSeed nonce : Key} {now : UInt64}
    {pqcSeed : Option (FixedBytes 64)} {material : HandshakeMaterial prims}
    (hok : buildHelloWithProfile prims localIdentity profile
      ⟨some dhSeed, some signSeed, some nonce, some now, pqcSeed⟩ =
        .ok material) :
    ∃ pqc, generateLocalPqc prims profile pqcSeed = .ok pqc ∧
      material.localEphemeral = .fromSeeds prims dhSeed signSeed ∧
      let keys : PeerKeys := ⟨localIdentity.publicKey,
        localIdentity.signingPublic, pqc.map PqcKeypair.encapPublicBytes,
        prims.x25519Public dhSeed, nonce, now⟩
      (prims.ed25519Verify keys.signing (payloadBytes profile keys)
          (prims.ed25519Sign localIdentity.signSeed
            (payloadBytes profile keys)) = true →
        Fresh localIdentity profile material keys) := by
  simp only [buildHelloWithProfile, IdentityKeyPair.generate, bind_eq_ok_iff,
    okOr_eq_ok_iff, signedPayload_eq_ok_iff, pure_eq_ok_iff, Option.some.injEq]
    at hok
  obtain ⟨_, ⟨_, rfl, _, rfl, rfl⟩, _, rfl, _, rfl, pqc, hpqc, _,
    ⟨hlength, rfl⟩, rfl⟩ := hok
  refine ⟨pqc, hpqc, rfl, fun hverify => ?_⟩
  exact
    { honest :=
        { carries := ⟨Base64.decode_encode _, Base64.decode_encode _,
            by cases pqc <;> simp, Base64.decode_encode _,
            Base64.decode_encode _, rfl⟩
          profile_eq := rfl
          hello := ⟨rfl, rfl⟩
          identity := rfl
          signing := rfl
          ephemeral := rfl
          nonce := rfl
          pqc := rfl
          uses := generateLocalPqc_isSome hpqc
          bound := by simp
          classical := fun _ => ⟨rfl, rfl, rfl⟩
          payload := hlength
          signature := ⟨_, Base64.decode_encode _, hverify⟩ }
      noCiphertext := rfl
      paired := generateLocalPqc_ok hpqc
      ephemeral := rfl }

theorem buildHelloWithProfile_fresh (hreliable : prims.Reliable)
    {localIdentity : IdentityKeyPair} {profile : HandshakeProfile}
    {draws : HelloDraws} {material : HandshakeMaterial prims}
    (hsigning : localIdentity.signingPublic =
      prims.ed25519Public localIdentity.signSeed)
    (hok : buildHelloWithProfile prims localIdentity profile draws =
      .ok material) :
    ∃ keys, Fresh localIdentity profile material keys := by
  obtain ⟨dhSeed, signSeed, nonce, now, pqcSeed⟩ := draws
  have hdrawn := hok
  simp only [buildHelloWithProfile, IdentityKeyPair.generate, bind_eq_ok_iff,
    okOr_eq_ok_iff] at hdrawn
  obtain ⟨_, ⟨_, rfl, _, rfl, _⟩, _, rfl, _, rfl, _⟩ := hdrawn
  obtain ⟨_, _, _, hfresh⟩ := buildHelloWithProfile_drawn hok
  refine ⟨_, hfresh ?_⟩
  rw [hsigning]
  exact hreliable.verify_sign _ _

namespace HonestParty

variable {localIdentity peerIdentity : IdentityKeyPair}
  {profile : HandshakeProfile} {material peer : HandshakeMaterial prims}
  {keys peerKeys : PeerKeys} {policy : PeerPolicy}

theorem pqcPubB64_eq_none
    (hlocal : HonestParty localIdentity profile material keys)
    (hclassical : profile.usesPqc = false) :
    material.localPqc = none ∧ material.localHello.pqcPubB64 = none := by
  have hnone : material.localPqc = none := by
    have huses := hlocal.uses
    rw [hclassical] at huses
    exact Option.isSome_eq_false_iff.mp huses |> Option.isNone_iff_eq_none.mp
  have hcarries := hlocal.carries.pqc
  rw [hlocal.pqc, hnone] at hcarries
  exact ⟨hnone, Option.map_eq_none_iff.mp hcarries⟩

/-- The key of the pair is what the hello carries. -/
theorem exists_pair
    (hlocal : HonestParty localIdentity profile material keys)
    (huses : profile.usesPqc = true) :
    ∃ pair encoded, material.localPqc = some pair ∧
      material.localHello.pqcPubB64 = some encoded ∧
      Base64.decode encoded = some pair.encapPublicBytes := by
  have hsome := hlocal.uses
  rw [huses, Option.isSome_iff_exists] at hsome
  obtain ⟨pair, hpair⟩ := hsome
  have hcarries := hlocal.carries.pqc
  rw [hlocal.pqc, hpair, Option.map_some, Option.map_some,
    Option.map_eq_some_iff] at hcarries
  obtain ⟨encoded, hencoded, hdecoded⟩ := hcarries
  exact ⟨pair, encoded, hpair, hencoded, hdecoded⟩

theorem validateLocalPqc_eq
    (hlocal : HonestParty localIdentity profile material keys) :
    validateLocalPqc material = .ok () := by
  unfold validateLocalPqc
  rw [hlocal.profile_eq]
  by_cases huses : profile.usesPqc = true
  · rw [if_pos huses]
    obtain ⟨pair, encoded, hpair, hencoded, hdecoded⟩ :=
      hlocal.exists_pair huses
    simp only [bind_eq_ok_iff, okOr_eq_ok_iff, b64Decode_eq_ok_iff,
      ensure_eq_ok_iff]
    exact ⟨pair, hpair, encoded, hencoded, _, hdecoded, rfl⟩
  · have hclassical := Bool.eq_false_of_not_eq_true huses
    rw [if_neg huses, ensure_eq_ok_iff]
    simp [hlocal.pqcPubB64_eq_none hclassical, hlocal.classical hclassical]

theorem verifyPeerSignature_eq
    (hlocal : HonestParty localIdentity profile material keys) :
    verifyPeerSignature prims profile keys material.localHello.sig = .ok () :=
  verifyPeerSignature_eq_ok_iff.mpr ⟨hlocal.payload, hlocal.signature⟩

theorem validateLocalMaterial_eq
    (hlocal : HonestParty localIdentity profile material keys) :
    validateLocalMaterial localIdentity material = .ok () := by
  have hsigned := hlocal.verifyPeerSignature_eq
  simp only [verifyPeerSignature, bind_eq_ok_iff] at hsigned
  obtain ⟨payload, hpayload, hverified⟩ := hsigned
  have hkeys : keys = ⟨keys.identity, keys.signing, keys.pqc, keys.ephemeral,
      keys.nonce, material.localHello.timestampSecs⟩ := by
    rw [hlocal.carries.timestamp]
  simp only [validateLocalMaterial, checkLocalProfile, bind_eq_ok_iff,
    ensure_eq_ok_iff, exists_const, decode32_eq_ok_iff, constantTimeEq_iff,
    b64DecodeOptional_eq_ok_iff, hlocal.profile_eq, hlocal.hello]
  refine ⟨⟨trivial, trivial⟩, keys.identity, hlocal.carries.identity,
    by rw [hlocal.identity], keys.signing, hlocal.carries.signing,
    by rw [hlocal.signing], keys.ephemeral, hlocal.carries.ephemeral,
    by rw [hlocal.ephemeral], keys.nonce, hlocal.carries.nonce,
    by rw [hlocal.nonce], (), hlocal.validateLocalPqc_eq, keys.pqc,
    hlocal.carries.pqc, payload, by rw [← hkeys]; exact hpayload, (),
    hverified, ?_⟩
  cases hct : material.localHello.pqcCtB64 with
  | none => rfl
  | some encoded =>
      obtain ⟨ciphertext, hdecoded, hciphertext⟩ := hlocal.bound encoded hct
      simp only [bind_eq_ok_iff, b64Decode_eq_ok_iff, ensure_eq_ok_iff]
      exact ⟨ciphertext, hdecoded, hciphertext⟩

/-- The keys of an honest hello have the sizes the peer asks for. -/
theorem pqc_length (hlocal : HonestParty localIdentity profile material keys) :
    ∀ pqc ∈ keys.pqc, pqc.length = mlKem768PublicKeyBytes := by
  intro pqc hpqc
  rw [hlocal.pqc, Option.mem_def, Option.map_eq_some_iff] at hpqc
  obtain ⟨pair, _, rfl⟩ := hpqc
  exact pair.encapKey.length_eq

theorem decodePeerHello_eq
    (hpeer : HonestParty peerIdentity profile peer peerKeys)
    {now : Option UInt64} (hnow : WithinWindow now peerKeys.timestamp) :
    decodePeerHello profile peer.localHello now = .ok peerKeys :=
  decodePeerHello_eq_ok_iff.mpr ⟨hpeer.carries,
    hpeer.carries.timestamp ▸ hnow,
    by rw [hpeer.pqc, Option.isSome_map, hpeer.uses]⟩

theorem verifyHelloSignature_eq
    (hlocal : HonestParty localIdentity profile material keys)
    (hpeer : Fresh peerIdentity profile peer peerKeys)
    (hpinned : (⟨peerKeys.identity, peerKeys.signing⟩ : PeerPin) ∈ policy.pins)
    {now : Option UInt64} (hnow : WithinWindow now peerKeys.timestamp) :
    verifyHelloSignature localIdentity material peer.localHello policy now =
      .ok () := by
  simp only [verifyHelloSignature, checkPeerProfile, checkLocalProfile,
    bind_eq_ok_iff, ensure_eq_ok_iff, exists_const, PeerPolicy.allows_iff,
    hlocal.profile_eq, hlocal.hello, hpeer.honest.hello]
  exact ⟨(), hlocal.validateLocalMaterial_eq, ⟨trivial, trivial⟩,
    ⟨trivial, trivial⟩, hpeer.noCiphertext, peerKeys,
    hpeer.honest.decodePeerHello_eq hnow, hpeer.honest.pqc_length, (),
    hpeer.honest.verifyPeerSignature_eq, hpinned⟩

/-- Both parts of the exchange, or neither: what a party holds of it when it
derives its keys. -/
structure Exchanged (profile : HandshakeProfile)
    (material : HandshakeMaterial prims) (exchange : Option (Bytes × Key)) :
    Prop where
  uses : exchange.isSome = profile.usesPqc
  shared : material.pqShared = exchange.map Prod.snd
  ciphertext : material.pqCiphertext = exchange.map Prod.fst
  length : ∀ entry ∈ exchange, entry.1.length = mlKem768CiphertextBytes

theorem exchanged_some (huses : profile.usesPqc = true)
    (ciphertext : FixedBytes mlKem768CiphertextBytes) {shared : Key}
    (hshared : material.pqShared = some shared)
    (hciphertext : material.pqCiphertext = some ciphertext.val) :
    Exchanged profile material (some (ciphertext.val, shared)) where
  uses := huses.symm
  shared := hshared
  ciphertext := hciphertext
  length := by
    intro entry hentry
    rw [Option.mem_some_iff] at hentry
    subst hentry
    exact ciphertext.length_eq

/-- The view a party has of its session. -/
def view (material : HandshakeMaterial prims) (initiator : Bool)
    (keys peerKeys : PeerKeys) (exchange : Option (Bytes × Key)) :
    SessionInputs where
  profile := material.profile
  initiator := initiator
  localKeys := keys
  peerKeys := peerKeys
  ciphertext := exchange.map Prod.fst
  shared :=
    ((material.localEphemeral.deriveShared prims peerKeys.ephemeral).val ++
      ((exchange.map Prod.snd).getD (replicate 32 0)).val).take
        (if material.profile.usesPqc then 64 else 32)

theorem sessionPqShared_eq
    (hlocal : HonestParty localIdentity profile material keys)
    {exchange : Option (Bytes × Key)}
    (hexchange : Exchanged profile material exchange) :
    sessionPqShared material = .ok (exchange.map Prod.snd) ∧
      sessionPqCiphertext material = .ok (exchange.map Prod.fst) := by
  unfold sessionPqShared sessionPqCiphertext
  rw [hlocal.profile_eq, hexchange.shared, hexchange.ciphertext]
  have huses := hexchange.uses
  cases exchange with
  | none =>
      have hclassical : ¬ profile.usesPqc = true := by simp [← huses]
      rw [if_neg hclassical, if_neg hclassical]
      exact ⟨rfl, rfl⟩
  | some entry =>
      have hsecure : profile.usesPqc = true := by simp [← huses]
      have hlength := hexchange.length entry rfl
      rw [if_pos hsecure, if_pos hsecure]
      refine ⟨rfl, ?_⟩
      simp only [Option.map_some, bind_eq_ok_iff, okOr_eq_ok_iff,
        ensure_eq_ok_iff, exists_const, pure_eq_ok_iff]
      exact ⟨entry.1, rfl, hlength, rfl⟩

theorem sessionInputs_eq
    (hlocal : HonestParty localIdentity profile material keys)
    (hpeer : Fresh peerIdentity profile peer peerKeys) (initiator : Bool)
    {exchange : Option (Bytes × Key)}
    (hexchange : Exchanged profile material exchange)
    (hpinned : (⟨peerKeys.identity, peerKeys.signing⟩ : PeerPin) ∈ policy.pins)
    {firstNow secondNow : Option UInt64}
    (hfirst : WithinWindow firstNow peerKeys.timestamp)
    (hsecond : WithinWindow secondNow peerKeys.timestamp)
    (hshared : material.localEphemeral.deriveShared prims peerKeys.ephemeral ≠
      replicate 32 0) :
    sessionInputs localIdentity material peer.localHello initiator policy
      firstNow secondNow =
        .ok (view material initiator keys peerKeys exchange) := by
  have hverify := hlocal.verifyHelloSignature_eq hpeer hpinned hfirst
  have hsecret := hlocal.sessionPqShared_eq hexchange
  have hkeys : keys = ⟨keys.identity, keys.signing, keys.pqc, keys.ephemeral,
      material.localNonce, material.localHello.timestampSecs⟩ := by
    rw [← hlocal.nonce, hlocal.carries.timestamp]
  simp only [sessionInputs, checkPeerProfile, checkLocalProfile, bind_eq_ok_iff,
    ensure_eq_ok_iff, exists_const, decode32_eq_ok_iff,
    b64DecodeOptional_eq_ok_iff, hlocal.profile_eq, hlocal.hello,
    hpeer.honest.hello, pure_eq_ok_iff]
  refine ⟨(), hverify, ⟨trivial, trivial⟩, ⟨trivial, trivial⟩, peerKeys,
    hpeer.honest.decodePeerHello_eq hsecond, (),
    hpeer.honest.verifyPeerSignature_eq, hshared, _, hsecret.1, _, hsecret.2,
    keys.identity, hlocal.carries.identity, keys.signing,
    hlocal.carries.signing, keys.ephemeral, hlocal.carries.ephemeral, keys.pqc,
    hlocal.carries.pqc, ?_⟩
  rw [← hkeys, view, hlocal.profile_eq]

end HonestParty

namespace Fresh

variable {localIdentity peerIdentity : IdentityKeyPair}
  {profile : HandshakeProfile} {material peer : HandshakeMaterial prims}
  {keys peerKeys : PeerKeys} {policy : PeerPolicy}

/-- The classical profile exchanges nothing. -/
theorem exchanged_none (hlocal : Fresh localIdentity profile material keys)
    (hclassical : profile.usesPqc = false) :
    HonestParty.Exchanged profile material none where
  uses := hclassical.symm
  shared := (hlocal.honest.classical hclassical).1
  ciphertext := (hlocal.honest.classical hclassical).2.1
  length := by simp

/-- The initiator encapsulates to the key in the hello of its peer, and only
the peer's key opens it. -/
theorem finalizeInitiatorPq_eq (hreliable : prims.Reliable)
    (hlocal : Fresh localIdentity profile material keys)
    (hpeer : Fresh peerIdentity profile peer peerKeys)
    (huses : profile.usesPqc = true)
    (hpinned : (⟨peerKeys.identity, peerKeys.signing⟩ : PeerPin) ∈ policy.pins)
    {now : Option UInt64} (hnow : WithinWindow now peerKeys.timestamp)
    (coins : Key) :
    ∃ (ciphertext : FixedBytes mlKem768CiphertextBytes) (shared : Key)
        (after : HandshakeMaterial prims),
      finalizeInitiatorPq localIdentity peer.localHello policy now coins
        material = (.ok ciphertext.val, after) ∧
      HonestParty localIdentity profile after keys ∧
      HonestParty.Exchanged profile after (some (ciphertext.val, shared)) ∧
      after.localEphemeral = material.localEphemeral ∧
      ∀ pair ∈ peer.localPqc,
        prims.decapsulate pair.decapKey ciphertext = shared := by
  obtain ⟨pair, encoded, hpair, hencoded, hdecoded⟩ :=
    hpeer.honest.exists_pair huses
  have hencapsulate := hreliable.encapsulate pair.decapKey coins
  rw [← hpeer.paired pair hpair, Option.isSome_iff_exists] at hencapsulate
  obtain ⟨⟨ciphertext, shared⟩, hsealed⟩ := hencapsulate
  have hverify := hlocal.honest.verifyHelloSignature_eq hpeer hpinned hnow
  refine ⟨ciphertext, shared, { material with
    localHello := { material.localHello with
      pqcCtB64 := some (Base64.encode ciphertext.val) }
    pqShared := some shared
    pqCiphertext := some ciphertext.val }, ?_, ?_, ?_, rfl, ?_⟩
  · have hdone : (do
      ensure material.profile.usesPqc
        (.handshake "classical lab profile does not use post-quantum exchange")
      verifyHelloSignature localIdentity material peer.localHello policy now
      let peerPqcPubB64 ← okOr peer.localHello.pqcPubB64
        (.handshake "missing peer PQ public key")
      let peerPqcPub ← b64Decode peerPqcPubB64 "peer PQ public key"
      PqcKeypair.encapsulateAgainst prims peerPqcPub coins :
        Except ShphError (Bytes × Key)) = .ok (ciphertext.val, shared) := by
      simp only [bind_eq_ok_iff, ensure_eq_ok_iff, exists_const, okOr_eq_ok_iff,
        b64Decode_eq_ok_iff, PqcKeypair.encapsulateAgainst, pure_eq_ok_iff,
        hlocal.honest.profile_eq]
      exact ⟨huses, (), hverify, encoded, hencoded, _, hdecoded, pair.encapKey,
        ofBytes?_val _, _, hsealed, rfl⟩
    rw [finalizeInitiatorPq, hdone]
  · exact
      { hlocal.honest with
        carries := { hlocal.honest.carries with }
        bound := by
          intro encoded hencoded
          rw [Option.mem_some_iff] at hencoded
          subst hencoded
          exact ⟨_, Base64.decode_encode _, rfl⟩
        classical := fun hclassical => by simp [huses] at hclassical }
  · exact HonestParty.exchanged_some huses ciphertext rfl rfl
  · intro other hother
    obtain rfl := Option.mem_unique hpair hother
    rw [hpeer.paired pair hpair] at hsealed
    exact prims.decapsulate_encapsulate hsealed

theorem absorbResponderPq_eq
    (hlocal : Fresh localIdentity profile material keys)
    (hpeer : Fresh peerIdentity profile peer peerKeys)
    (huses : profile.usesPqc = true)
    (hpinned : (⟨peerKeys.identity, peerKeys.signing⟩ : PeerPin) ∈ policy.pins)
    {now : Option UInt64} (hnow : WithinWindow now peerKeys.timestamp)
    {ciphertext : FixedBytes mlKem768CiphertextBytes} {shared : Key}
    (hopens : ∀ pair ∈ material.localPqc,
      prims.decapsulate pair.decapKey ciphertext = shared) :
    ∃ after : HandshakeMaterial prims,
      absorbResponderPq localIdentity peer.localHello ciphertext.val policy now
        material = (.ok (), after) ∧
      HonestParty localIdentity profile after keys ∧
      HonestParty.Exchanged profile after (some (ciphertext.val, shared)) ∧
      after.localEphemeral = material.localEphemeral := by
  obtain ⟨pair, _, hpair, _⟩ := hlocal.honest.exists_pair huses
  have hverify := hlocal.honest.verifyHelloSignature_eq hpeer hpinned hnow
  refine ⟨{ material with
    pqShared := some shared
    pqCiphertext := some ciphertext.val }, ?_, ?_, ?_, rfl⟩
  · have hdone : (do
      verifyHelloSignature localIdentity material peer.localHello policy now
      ensure material.profile.usesPqc
        (.handshake "classical lab profile does not use post-quantum exchange")
      let localPqc ← okOr material.localPqc
        (.handshake "missing local PQ keypair")
      localPqc.decapsulate ciphertext.val : Except ShphError Key) =
        .ok shared := by
      simp only [bind_eq_ok_iff, ensure_eq_ok_iff, exists_const, okOr_eq_ok_iff,
        PqcKeypair.decapsulate, pure_eq_ok_iff, hlocal.honest.profile_eq]
      exact ⟨(), hverify, huses, pair, hpair, ciphertext,
        ofBytes?_val _, hopens pair hpair⟩
    rw [absorbResponderPq, hdone]
  · exact
      { hlocal.honest with
        bound := by simp [hlocal.noCiphertext]
        classical := fun hclassical => by simp [huses] at hclassical }
  · exact HonestParty.exchanged_some huses ciphertext rfl rfl

end Fresh

theorem directionKey_isOk (hreliable : prims.Reliable) (inputs : SessionInputs)
    (hash : FixedBytes 32) {direction : String}
    (hdirection : (textBytes direction).length ≤ 16) :
    ∃ key, directionKey prims inputs hash direction = .ok key := by
  have htag : (textBytes inputs.profile.protocolTag).length ≤ 32 := by
    cases inputs.profile <;> decide
  have hdomain : (textBytes "shph-session-v2").length = 15 := by decide
  have hcontext : ([textBytes "shph-session-v2",
      textBytes inputs.profile.protocolTag, hash.val,
      textBytes direction] : List Bytes).flatten.length ≤ 128 := by
    simp only [List.flatten_cons, List.flatten_nil, List.length_append,
      List.length_nil, hash.length_eq]
    omega
  have hexpand := hreliable.expand ([textBytes "shph-session-v2",
    textBytes inputs.profile.protocolTag, hash.val,
    textBytes direction] : List Bytes).flatten inputs.shared
  rw [Option.isSome_iff_exists] at hexpand
  obtain ⟨key, hkey⟩ := hexpand
  refine ⟨key, ?_⟩
  simp only [directionKey, hkdfSha256Into, bind_eq_ok_iff, ensure_eq_ok_iff,
    exists_const, okOr_eq_ok_iff]
  refine ⟨by decide, ?_, ?_, hkey⟩
  · omega
  · rw [show maxHkdfContextBytes = 262144 from rfl]
    omega

theorem deriveSession_isOk (hreliable : prims.Reliable)
    (inputs : SessionInputs) : ∃ state, deriveSession prims inputs =
      .ok state := by
  have hdirections : (textBytes "initiator").length ≤ 16 ∧
      (textBytes "responder").length ≤ 16 := by decide
  have hkey (direction : String)
      (hdirection : direction = "initiator" ∨ direction = "responder") :
      ∃ key, directionKey prims inputs (prims.sha256 (transcript inputs))
        direction = .ok key := by
    apply directionKey_isOk hreliable
    rcases hdirection with rfl | rfl
    · exact hdirections.1
    · exact hdirections.2
  obtain ⟨sendKey, hsend⟩ :=
    hkey (if inputs.initiator then "initiator" else "responder")
      (by split <;> simp)
  obtain ⟨recvKey, hrecv⟩ :=
    hkey (if inputs.initiator then "responder" else "initiator")
      (by split <;> simp)
  simp only [deriveSession, hsend, hrecv, bind_eq_ok_iff, Except.ok.injEq,
    exists_eq_left', pure, Except.pure]
  exact ⟨_, rfl⟩

/-- The views of two honest parties of one exchange mirror each other. -/
theorem HonestParty.view_mirrored {identityA identityB : IdentityKeyPair}
    {profile : HandshakeProfile} {materialA materialB : HandshakeMaterial prims}
    {keysA keysB : PeerKeys} {exchange : Option (Bytes × Key)}
    (hA : HonestParty identityA profile materialA keysA)
    (hB : HonestParty identityB profile materialB keysB)
    (hdistinct : identityA.publicKey ≠ identityB.publicKey)
    (hephemeralA : materialA.localEphemeral.publicKey =
      prims.x25519Public materialA.localEphemeral.privateKey)
    (hephemeralB : materialB.localEphemeral.publicKey =
      prims.x25519Public materialB.localEphemeral.privateKey) :
    Mirrored (HonestParty.view materialA true keysA keysB exchange)
      (HonestParty.view materialB false keysB keysA exchange) where
  profile_eq := hA.profile_eq.trans hB.profile_eq.symm
  roles := ⟨rfl, rfl⟩
  sent := rfl
  received := rfl
  distinct := by
    change keysA.identity ≠ keysB.identity
    rw [hA.identity, hB.identity]
    exact hdistinct
  ciphertext_eq := rfl
  shared_eq := by
    simp only [HonestParty.view, hA.profile_eq, hB.profile_eq]
    unfold IdentityKeyPair.deriveShared
    rw [hA.ephemeral, hB.ephemeral, hephemeralA, hephemeralB,
      prims.diffieHellman_comm]

section Completion

variable {identityA identityB : IdentityKeyPair} {profile : HandshakeProfile}
  {materialA materialB : HandshakeMaterial prims} {keysA keysB : PeerKeys}
  {policyA policyB : PeerPolicy} {nowA nowB : Option UInt64}

theorem HonestParty.verifyAndDerive_isOk (hreliable : prims.Reliable)
    (hA : HonestParty identityA profile materialA keysA)
    (hB : Fresh identityB profile materialB keysB) (initiator : Bool)
    {exchange : Option (Bytes × Key)}
    (hexchange : Exchanged profile materialA exchange)
    (hpinned : (⟨keysB.identity, keysB.signing⟩ : PeerPin) ∈ policyA.pins)
    (hnow : WithinWindow nowA keysB.timestamp)
    (hshared : materialA.localEphemeral.deriveShared prims keysB.ephemeral ≠
      replicate 32 0) :
    ∃ state, verifyAndDeriveWithProfile identityA materialA
      materialB.localHello initiator policyA nowA nowA = .ok state := by
  have hinputs := hA.sessionInputs_eq hB initiator hexchange hpinned hnow hnow
    hshared
  obtain ⟨state, hstate⟩ := deriveSession_isOk hreliable
    (view materialA initiator keysA keysB exchange)
  exact ⟨state, bind_eq_ok_iff.mpr ⟨_, hinputs, hstate⟩⟩

/-- Under either profile two honest parties that pin each other and whose
clocks agree complete the handshake. -/
theorem Fresh.handshake_completes (hreliable : prims.Reliable)
    (hA : Fresh identityA profile materialA keysA)
    (hB : Fresh identityB profile materialB keysB)
    (hpinsA : (⟨keysB.identity, keysB.signing⟩ : PeerPin) ∈ policyA.pins)
    (hpinsB : (⟨keysA.identity, keysA.signing⟩ : PeerPin) ∈ policyB.pins)
    (hnowA : WithinWindow nowA keysB.timestamp)
    (hnowB : WithinWindow nowB keysA.timestamp)
    (hsharedA : materialA.localEphemeral.deriveShared prims keysB.ephemeral ≠
      replicate 32 0)
    (hsharedB : materialB.localEphemeral.deriveShared prims keysA.ephemeral ≠
      replicate 32 0) (coins : Key) :
    ∃ sent stateA stateB,
      initiatorHandshake identityA materialA materialB.localHello policyA nowA
        nowA nowA coins = .ok (sent, stateA) ∧
      responderHandshake identityB materialB materialA.localHello sent policyB
        nowB nowB nowB = .ok stateB ∧ sent.isSome = profile.usesPqc := by
  by_cases huses : profile.usesPqc = true
  · obtain ⟨ciphertext, shared, afterA, hfinalize, hafterA, hexchangedA,
      hephemeralA, hopens⟩ :=
      hA.finalizeInitiatorPq_eq hreliable hB huses hpinsA hnowA coins
    obtain ⟨afterB, habsorb, hafterB, hexchangedB, hephemeralB⟩ :=
      hB.absorbResponderPq_eq hA huses hpinsB hnowB hopens
    obtain ⟨stateA, hstateA⟩ := hafterA.verifyAndDerive_isOk hreliable hB true
      hexchangedA hpinsA hnowA (hephemeralA ▸ hsharedA)
    obtain ⟨stateB, hstateB⟩ := hafterB.verifyAndDerive_isOk hreliable hA false
      hexchangedB hpinsB hnowB (hephemeralB ▸ hsharedB)
    refine ⟨some ciphertext.val, stateA, stateB, ?_, ?_, huses.symm⟩
    · rw [initiatorHandshake, hA.honest.profile_eq, if_pos huses, hfinalize]
      exact bind_eq_ok_iff.mpr ⟨stateA, hstateA, rfl⟩
    · rw [responderHandshake, hB.honest.profile_eq, if_pos huses]
      refine bind_eq_ok_iff.mpr ⟨ciphertext.val, rfl, ?_⟩
      rw [habsorb]
      exact hstateB
  · have hclassical := Bool.eq_false_of_not_eq_true huses
    obtain ⟨stateA, hstateA⟩ := hA.honest.verifyAndDerive_isOk hreliable hB
      true (hA.exchanged_none hclassical) hpinsA hnowA hsharedA
    obtain ⟨stateB, hstateB⟩ := hB.honest.verifyAndDerive_isOk hreliable hA
      false (hB.exchanged_none hclassical) hpinsB hnowB hsharedB
    refine ⟨none, stateA, stateB, ?_, ?_, hclassical.symm⟩
    · exact initiatorHandshake_of_classical nowA coins
        (hA.honest.profile_eq ▸ hclassical) hstateA
    · exact responderHandshake_of_classical none nowB
        (hB.honest.profile_eq ▸ hclassical) hstateB

end Completion

end

namespace HandshakeWitness

/-- A key from its 32 bytes, written as one number. -/
def key (number : Nat) : Key := .ofNat 32 number

def seed (byte : UInt8) : Key := replicate 32 byte

def ephemeralA : Key := key
  0x50a61409b1ddd0325e9b16b700e719e9772c07000b1bd7786e907c653d20495d

def ephemeralB : Key := key
  0xf5b2d6e60f9477e310c2982daaa6c9136c108a1777c5947e448fa37d68174557

def x25519Public (secret : Key) : Key :=
  if secret = seed 5 then ephemeralA
  else if secret = seed 6 then ephemeralB
  else if secret = seed 1 then key
    0xa4e09292b651c278b9772c569f5fa9bb13d906b46ab68c9df9dc2b4409f8a209
  else if secret = seed 3 then key
    0x5dfedd3b6bd47f6fa28ee15d969d5bb0ea53774d488bdaf9df1c6e0124b3ef22
  else key 0

def ed25519Public (secret : Key) : Key :=
  if secret = seed 2 then key
    0x8139770ea87d175f56a35466c34c7ecccb8d8a91b4ee37a25df60f5b8fc9b394
  else if secret = seed 4 then key
    0xca93ac1705187071d67b83c7ff0efe8108e8ec4530575d7726879333dbdabe7c
  else if secret = seed 7 then key
    0xea4a6c63e29c520abef5507b132ec5f9954776aebebe7b92421eea691446d22c
  else key
    0x1398f62c6d1a457c51ba6a4b5f3dbd2f69fca93216218dc8997e416bd17d93ca

def keysA : PeerKeys :=
  ⟨x25519Public (seed 1), ed25519Public (seed 2), none, ephemeralA, seed 9,
    1700000000⟩

def keysB : PeerKeys :=
  ⟨x25519Public (seed 3), ed25519Public (seed 4), none, ephemeralB, seed 10,
    1700000001⟩

def signatureA : Bytes := bigEndian 32
    0xa7e9684e8bbfd8e39d76b523d0b0635162bafced7b7e5e988496e45c645c13e3 ++
  bigEndian 32
    0x0b4dc729edabe80d0ee1282e91590440497c88dd064c6f015bf4c3864cce2603

def signatureB : Bytes := bigEndian 32
    0xeb6ac00af4db638455d5cbd676d63cd6ee35272a0a685ec1d5ce32c06329d21d ++
  bigEndian 32
    0x30c6c5914b594297618b2e3fe9c046da029f175e5229bd85d920b91208a6110a

def diffieHellman (secret peer : Key) : Key :=
  if secret = seed 5 ∧ peer = ephemeralB ∨
      secret = seed 6 ∧ peer = ephemeralA then key
    0xedfa360a9633ca9b6fe655be8849389323ae3a3444866567f463c8e2c80bbb5a
  else key 0

def transcriptHash : FixedBytes 32 := key
  0x4504b86264bfd7c5dd3ceaea512299fdcba3b122a3ac05954e48b15a81757f70

def sha256 (input : Bytes) : FixedBytes 32 :=
  if input = textBytes "shph-fingerprint-v1" ++ keysA.identity.val then key
    0xe41c70b68a303306e2ba7ec872545a29442cb65d455ae03071cc219166e6be5d
  else if input = textBytes "shph-fingerprint-v1" ++ keysB.identity.val then key
    0xfc90cae6601c833f1c16e57f0d9b441793316a86f22462cd5cccae3c7f0ecb48
  else transcriptHash

def hkdfExpand (salt _inputKey : Bytes) (width : Nat) :
    Option (FixedBytes width) :=
  ofBytes? width
    (if salt = textBytes "shph-session-v2shph/5/classical-lab" ++
        transcriptHash.val ++ textBytes "initiator" then bigEndian 32
      0x61325d737ce787f57b3ef96496a763c839ae63ecc485bf7ee8fda5ff23493da3
    else bigEndian 32
      0xe783b00992929d425c0ad87e97c533f089a6b56eaaf968bf03ea062cd3a5570a)

theorem x25519Public_eq_ephemeralA_iff (secret : Key) :
    x25519Public secret = ephemeralA ↔ secret = seed 5 := by
  constructor
  · intro heq
    by_contra hne
    rw [x25519Public, if_neg hne] at heq
    split at heq
    · exact absurd heq (by decide)
    split at heq
    · exact absurd heq (by decide)
    split at heq
    · exact absurd heq (by decide)
    · exact absurd heq (by decide)
  · rintro rfl
    rfl

theorem x25519Public_eq_ephemeralB_iff (secret : Key) :
    x25519Public secret = ephemeralB ↔ secret = seed 6 := by
  constructor
  · intro heq
    by_contra hne
    simp only [x25519Public, if_neg hne] at heq
    split at heq
    · exact absurd heq (by decide)
    split at heq
    · exact absurd heq (by decide)
    split at heq
    · exact absurd heq (by decide)
    · exact absurd heq (by decide)
  · rintro rfl
    decide

/-- The primitives, with the values they take in one run of the classical
profile between two parties. -/
def primitives : Primitives where
  x25519Public := x25519Public
  diffieHellman := diffieHellman
  diffieHellman_comm := by
    intro left right
    simp only [diffieHellman, x25519Public_eq_ephemeralA_iff,
      x25519Public_eq_ephemeralB_iff]
    congr 1
    exact propext ⟨by tauto, by tauto⟩
  ed25519Public := ed25519Public
  ed25519Sign secret _ := if secret = seed 2 then signatureA else signatureB
  ed25519Verify signing payload signature :=
    (signing == keysA.signing && payload == payloadBytes .classicalLab keysA &&
        signature == signatureA) ||
      (signing == keysB.signing &&
        payload == payloadBytes .classicalLab keysB && signature == signatureB)
  sha256 := sha256
  hkdfExpand := hkdfExpand
  DecapsulationKey := Unit
  decapsulationKey _ := ()
  encapsulationKey _ := replicate _ 0
  encapsulate _ _ := none
  decapsulate _ _ := key 0
  decapsulate_encapsulate := by simp

def identityA : IdentityKeyPair := .fromSeeds primitives (seed 1) (seed 2)

def identityB : IdentityKeyPair := .fromSeeds primitives (seed 3) (seed 4)

def now : Option UInt64 := some 1700000002

def drawsA : HelloDraws :=
  ⟨some (seed 5), some (seed 7), some (seed 9), some 1700000000, none⟩

def drawsB : HelloDraws :=
  ⟨some (seed 6), some (seed 8), some (seed 10), some 1700000001, none⟩

theorem builtA_isOk : (buildHelloWithProfile primitives identityA .classicalLab
    drawsA).isOk = true := by
  decide +kernel

theorem builtB_isOk : (buildHelloWithProfile primitives identityB .classicalLab
    drawsB).isOk = true := by
  decide +kernel

def materialA : HandshakeMaterial primitives := valueOf _ builtA_isOk

def materialB : HandshakeMaterial primitives := valueOf _ builtB_isOk

def policyA : PeerPolicy :=
  .single ⟨identityB.publicKey, identityB.signingPublic⟩

def policyB : PeerPolicy :=
  .single ⟨identityA.publicKey, identityA.signingPublic⟩

theorem freshA : Fresh identityA .classicalLab materialA keysA ∧
    materialA.localEphemeral = .fromSeeds primitives (seed 5) (seed 7) := by
  obtain ⟨_, hpqc, hephemeral, hfresh⟩ :=
    buildHelloWithProfile_drawn (eq_ok_valueOf builtA_isOk)
  rw [← Except.ok.inj hpqc] at hfresh
  exact ⟨hfresh (by decide), hephemeral⟩

theorem freshB : Fresh identityB .classicalLab materialB keysB ∧
    materialB.localEphemeral = .fromSeeds primitives (seed 6) (seed 8) := by
  obtain ⟨_, hpqc, hephemeral, hfresh⟩ :=
    buildHelloWithProfile_drawn (eq_ok_valueOf builtB_isOk)
  rw [← Except.ok.inj hpqc] at hfresh
  exact ⟨hfresh (by decide), hephemeral⟩

def sharedKey : Key := key
  0xedfa360a9633ca9b6fe655be8849389323ae3a3444866567f463c8e2c80bbb5a

theorem deriveSharedA : materialA.localEphemeral.deriveShared primitives
    keysB.ephemeral = sharedKey := by
  rw [freshA.2]
  rfl

theorem deriveSharedB : materialB.localEphemeral.deriveShared primitives
    keysA.ephemeral = sharedKey := by
  rw [freshB.2]
  decide

def inputsA : SessionInputs :=
  ⟨.classicalLab, true, keysA, keysB, none, sharedKey.val⟩

def inputsB : SessionInputs :=
  ⟨.classicalLab, false, keysB, keysA, none, sharedKey.val⟩

theorem sessionInputsA : sessionInputs identityA materialA materialB.localHello
    true policyA now now = .ok inputsA := by
  have hwindow : WithinWindow now keysB.timestamp := ⟨_, rfl, by decide⟩
  have hpinned : (⟨keysB.identity, keysB.signing⟩ : PeerPin) ∈
      policyA.pins := List.mem_singleton.mpr rfl
  have hinputs := freshA.1.honest.sessionInputs_eq freshB.1 true
    (freshA.1.exchanged_none rfl) hpinned hwindow hwindow
    (by rw [deriveSharedA]; decide)
  rw [hinputs, HonestParty.view, freshA.1.honest.profile_eq, deriveSharedA]
  rfl

theorem sessionInputsB : sessionInputs identityB materialB materialA.localHello
    false policyB now now = .ok inputsB := by
  have hwindow : WithinWindow now keysA.timestamp := ⟨_, rfl, by decide⟩
  have hpinned : (⟨keysA.identity, keysA.signing⟩ : PeerPin) ∈
      policyB.pins := List.mem_singleton.mpr rfl
  have hinputs := freshB.1.honest.sessionInputs_eq freshA.1 false
    (freshB.1.exchanged_none rfl) hpinned hwindow hwindow
    (by rw [deriveSharedB]; decide)
  rw [hinputs, HonestParty.view, freshB.1.honest.profile_eq, deriveSharedB]
  rfl

theorem mirrored : Mirrored inputsA inputsB where
  profile_eq := rfl
  roles := ⟨rfl, rfl⟩
  sent := rfl
  received := rfl
  distinct := by decide
  ciphertext_eq := rfl
  shared_eq := rfl

theorem derivedA_isOk : (verifyAndDeriveWithProfile identityA materialA
    materialB.localHello true policyA now now).isOk = true := by
  rw [verifyAndDeriveWithProfile, sessionInputsA]
  decide

theorem derivedB_isOk : (verifyAndDeriveWithProfile identityB materialB
    materialA.localHello false policyB now now).isOk = true := by
  rw [verifyAndDeriveWithProfile, sessionInputsB]
  decide

/-- The primitives of the classical run, with signatures and encapsulations
for every other use. -/
def totalPrims : Primitives :=
  { primitives with
    ed25519Verify := fun signing _ signature =>
      signature == signatureB ||
        (signing == keysA.signing && signature == signatureA)
    encapsulate := fun _ _ => some (replicate _ 0, key 0)
    decapsulate := fun _ _ => key 0
    decapsulate_encapsulate := by
      intro _ _ ciphertext shared hsealed
      rw [Option.some.injEq, Prod.mk.injEq] at hsealed
      exact hsealed.2 }

theorem reliable : totalPrims.Reliable where
  verify_sign := by
    intro secret message
    by_cases hsecret : secret = seed 2
    · have hverify : (signatureA == signatureB ||
          (ed25519Public (seed 2) == keysA.signing &&
            signatureA == signatureA)) = true := by decide
      subst hsecret
      exact hverify
    · have hsign : totalPrims.ed25519Sign secret message = signatureB :=
        if_neg hsecret
      rw [hsign]
      simp [totalPrims]
  sign_length := by
    intro secret message
    by_cases hsecret : secret = seed 2
    · have hsign : totalPrims.ed25519Sign secret message = signatureA :=
        if_pos hsecret
      rw [hsign, signatureA, List.length_append, bigEndian_length,
        bigEndian_length]
    · have hsign : totalPrims.ed25519Sign secret message = signatureB :=
        if_neg hsecret
      rw [hsign, signatureB, List.length_append, bigEndian_length,
        bigEndian_length]
  encapsulate := fun _ _ => rfl
  expand := by
    intro salt inputKey
    change (hkdfExpand salt inputKey 32).isSome = true
    unfold hkdfExpand
    split <;> simp [ofBytes?]

def secureDrawsA : HelloDraws :=
  { drawsA with pqcSeed := some (replicate 64 11) }

def secureDrawsB : HelloDraws :=
  { drawsB with pqcSeed := some (replicate 64 12) }

theorem secureA_isOk : (buildHelloWithProfile totalPrims identityA
    .secureDefault secureDrawsA).isOk = true := by
  decide +kernel

theorem secureB_isOk : (buildHelloWithProfile totalPrims identityB
    .secureDefault secureDrawsB).isOk = true := by
  decide +kernel

def secureA : HandshakeMaterial totalPrims := valueOf _ secureA_isOk

def secureB : HandshakeMaterial totalPrims := valueOf _ secureB_isOk

theorem secure_completes : ∃ ciphertext stateA stateB,
    initiatorHandshake identityA secureA secureB.localHello policyA now now now
      (seed 0) = .ok (some ciphertext, stateA) ∧
    responderHandshake identityB secureB secureA.localHello (some ciphertext)
      policyB now now now = .ok stateB := by
  obtain ⟨pqcA, -, hephemeralA, hfreshA⟩ :=
    buildHelloWithProfile_drawn (eq_ok_valueOf secureA_isOk)
  obtain ⟨pqcB, -, hephemeralB, hfreshB⟩ :=
    buildHelloWithProfile_drawn (eq_ok_valueOf secureB_isOk)
  have hsharedA : secureA.localEphemeral.deriveShared totalPrims ephemeralB ≠
      replicate 32 0 := by
    rw [secureA, hephemeralA]
    decide
  have hsharedB : secureB.localEphemeral.deriveShared totalPrims ephemeralA ≠
      replicate 32 0 := by
    rw [secureB, hephemeralB]
    decide
  have hpinsA : (⟨identityB.publicKey, identityB.signingPublic⟩ : PeerPin) ∈
      policyA.pins := List.mem_singleton.mpr rfl
  have hpinsB : (⟨identityA.publicKey, identityA.signingPublic⟩ : PeerPin) ∈
      policyB.pins := List.mem_singleton.mpr rfl
  have hwindowA : WithinWindow now 1700000001 := ⟨_, rfl, by decide⟩
  have hwindowB : WithinWindow now 1700000000 := ⟨_, rfl, by decide⟩
  obtain ⟨sent, stateA, stateB, hinitiator, hresponder, hsent⟩ :=
    (hfreshA (reliable.verify_sign _ _)).handshake_completes reliable
      (hfreshB (reliable.verify_sign _ _)) hpinsA hpinsB hwindowA hwindowB
      hsharedA hsharedB (seed 0)
  obtain ⟨ciphertext, rfl⟩ := Option.isSome_iff_exists.mp hsent
  exact ⟨ciphertext, stateA, stateB, hinitiator, hresponder⟩

end HandshakeWitness

open HandshakeWitness in
/-- A run of either profile in which the identity key of the initiator is the
larger one. -/
theorem handshake_agreement_both :
    lexLe identityA.publicKey.val identityB.publicKey.val = false ∧
      (∃ stateA stateB,
        initiatorHandshake identityA materialA materialB.localHello policyA none
          now now (seed 0) = .ok (none, stateA) ∧
        responderHandshake identityB materialB materialA.localHello none policyB
          none now now = .ok stateB ∧
        stateA.sessionKeys.sendKey = stateB.sessionKeys.recvKey ∧
        stateA.sessionKeys.recvKey = stateB.sessionKeys.sendKey ∧
        stateA.transcriptHashHex = stateB.transcriptHashHex) ∧
      ∃ ciphertext stateA stateB,
        initiatorHandshake identityA secureA secureB.localHello policyA now now
          now (seed 0) = .ok (some ciphertext, stateA) ∧
        responderHandshake identityB secureB secureA.localHello
          (some ciphertext) policyB now now now = .ok stateB ∧
        stateA.sessionKeys.sendKey = stateB.sessionKeys.recvKey ∧
        stateA.sessionKeys.recvKey = stateB.sessionKeys.sendKey ∧
        stateA.transcriptHashHex = stateB.transcriptHashHex := by
  have hinitiator := initiatorHandshake_of_classical none (seed 0)
    (by rw [freshA.1.honest.profile_eq]; rfl) (eq_ok_valueOf derivedA_isOk)
  have hresponder := responderHandshake_of_classical none none
    (by rw [freshB.1.honest.profile_eq]; rfl) (eq_ok_valueOf derivedB_isOk)
  obtain ⟨ciphertext, stateA, stateB, hsends, hreceives⟩ := secure_completes
  exact ⟨by decide, ⟨_, _, hinitiator, hresponder,
    handshake_agreement primitives identityA identityB .classicalLab drawsA
      drawsB materialA materialB policyA policyB (seed 0) none now now none now
      now none _ _ (by decide) (eq_ok_valueOf builtA_isOk)
      (eq_ok_valueOf builtB_isOk) hinitiator hresponder⟩,
    ciphertext, stateA, stateB, hsends, hreceives,
    handshake_agreement totalPrims identityA identityB .secureDefault
      secureDrawsA secureDrawsB secureA secureB policyA policyB (seed 0) now
      now now now now now _ _ _ (by decide) (eq_ok_valueOf secureA_isOk)
      (eq_ok_valueOf secureB_isOk) hsends hreceives⟩

end Shph
