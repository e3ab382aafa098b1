/-
The handshake between two honest ends of a TCP connection.  However their
bytes are cut up and whoever goes first, both complete with matching keys, and
what either of them sends after its part is still there for the other.
-/
import Shph.TcpHandshakeLines

namespace Shph

open ByteCodec Dialogue Program TcpHandshakeWorker
open BufferedLines (newline)

variable {prims : Primitives}

section Coherence

theorem reads_finishTcpHandshake (localIdentity : IdentityKeyPair)
    (material : HandshakeMaterial prims) (peerHello : Hello) (initiator : Bool)
    (policy : PeerPolicy) (derivedAt : Option UInt64 × Option UInt64) :
    Reads (finishTcpHandshake localIdentity material peerHello initiator policy
      derivedAt) 0 fun state input =>
        verifyAndDeriveWithProfile localIdentity material peerHello initiator
          policy derivedAt.1 derivedAt.2 = .ok state ∧ input = [] := by
  apply Conducts.mono (Conducts.ofExcept_bind ⟨Nat.le_refl 0, rfl⟩
    fun state _ => Conducts.sync (Conducts.sync (Reads.pure state)))
    fun _ _ h => h
  intro state input output
  simp [and_assoc]

theorem coherent_completeTcpClient (localIdentity : IdentityKeyPair)
    (material : HandshakeMaterial prims) (policy : PeerPolicy)
    (profile : HandshakeProfile) (env : TcpClientEnv) (peerHello : Hello) :
    (completeTcpClient localIdentity material policy profile env
      peerHello).Coherent := by
  refine (coherent_ofExcept _).bind fun _ => ?_
  by_cases huses : profile.usesPqc = true
  · rw [if_pos huses]
    generalize finalizeInitiatorPq localIdentity peerHello policy
      env.exchangedAt env.coins material = outcome
    obtain ⟨ct | ct, after⟩ := outcome
    · exact coherent_fail _
    · exact (conducts_writeTcpPqCt _).coherent.bind fun _ =>
        (reads_finishTcpHandshake _ _ _ _ _ _).coherent
  · rw [if_neg huses]
    exact (reads_finishTcpHandshake _ _ _ _ _ _).coherent

theorem coherent_tcpHandshakeOnConnectedStream (reader : HelloReader)
    (localIdentity : IdentityKeyPair) (policy : PeerPolicy)
    (profile : HandshakeProfile) (env : TcpClientEnv) :
    (tcpHandshakeOnConnectedStream prims reader localIdentity policy profile
      env).Coherent :=
  coherent_call.bind fun _ =>
    (coherent_ofExcept _).bind fun _ =>
      (conducts_writeTcpHello _ _).coherent.bind fun _ =>
        (coherent_readTcpServerHello reader).bind fun _ =>
          coherent_completeTcpClient _ _ _ _ _ _

namespace TcpHandshakeWorker

theorem coherent_passCookie (requiresCookie : Bool) (env : TcpWorkerEnv) :
    (passCookie requiresCookie env).Coherent := by
  unfold passCookie
  split
  · exact (coherent_ofExcept _).bind fun _ =>
      (writes_writeTcpCookieLine _ _).coherent.bind fun _ =>
        (reads_acceptCookie env).coherent
  · exact coherent_pure _

theorem coherent_complete (worker : TcpHandshakeWorker) (env : TcpWorkerEnv)
    (material : HandshakeMaterial prims) (peerHello : Hello) :
    (worker.complete env material peerHello).Coherent := by
  unfold complete
  split
  · refine reads_readTcpPqCt.coherent.bind fun ct => ?_
    generalize absorbResponderPq worker.localIdentity peerHello ct
      worker.policy env.absorbedAt material = outcome
    obtain ⟨done | done, after⟩ := outcome
    · exact coherent_fail _
    · exact (reads_finishTcpHandshake _ _ _ _ _ _).coherent
  · exact (reads_finishTcpHandshake _ _ _ _ _ _).coherent

theorem coherent_answer (worker : TcpHandshakeWorker) (env : TcpWorkerEnv)
    (peerHello : Hello) : (worker.answer prims env peerHello).Coherent :=
  (coherent_ofExcept _).bind fun _ =>
    (coherent_ofExcept _).bind fun _ =>
      (conducts_writeTcpHello _ _).coherent.bind fun _ =>
        coherent_complete worker env _ peerHello

theorem coherent_run (reader : HelloReader) (worker : TcpHandshakeWorker)
    (env : TcpWorkerEnv) : (worker.run prims reader env).Coherent :=
  (coherent_ofExcept _).bind fun _ =>
    coherent_call.bind fun _ =>
      (reads_readTcpHello reader).coherent.bind fun _ =>
        (coherent_ofExcept _).bind fun _ =>
          (coherent_passCookie _ _).bind fun _ =>
            (coherent_ofExcept _).bind fun _ =>
              coherent_answer worker env _

end TcpHandshakeWorker

end Coherence

/-- Two ends that mean each other: each pins the other's keys, their clocks
agree, nothing that they draw fails, and a cookie that is asked for is taken
back. -/
structure HonestEnds (prims : Primitives) (clientIdentity : IdentityKeyPair)
    (clientPolicy : PeerPolicy) (client : TcpClientEnv)
    (worker : TcpHandshakeWorker) (server : TcpWorkerEnv)
    (clientMaterial serverMaterial : HandshakeMaterial prims)
    (clientFrame serverFrame : Bytes) : Prop where
  reliable : prims.Reliable
  clientSigning : clientIdentity.signingPublic =
    prims.ed25519Public clientIdentity.signSeed
  serverSigning : worker.localIdentity.signingPublic =
    prims.ed25519Public worker.localIdentity.signSeed
  distinct : clientIdentity.publicKey ≠ worker.localIdentity.publicKey
  clientPins : (⟨worker.localIdentity.publicKey,
    worker.localIdentity.signingPublic⟩ : PeerPin) ∈ clientPolicy.pins
  serverPins : (⟨clientIdentity.publicKey, clientIdentity.signingPublic⟩ :
    PeerPin) ∈ worker.policy.pins
  clientBuilds : buildHelloWithProfile prims clientIdentity worker.profile
    client.hello = .ok clientMaterial
  serverBuilds : buildHelloWithProfile prims worker.localIdentity
    worker.profile server.hello = .ok serverMaterial
  clientFrames : serializeHelloFrame clientMaterial.localHello client.frame =
    .ok clientFrame
  serverFrames : serializeHelloFrame serverMaterial.localHello server.frame =
    .ok serverFrame
  clientClock : ∀ now ∈ [client.verifiedAt, client.exchangedAt,
      client.derivedAt.1, client.derivedAt.2],
    WithinWindow now serverMaterial.localHello.timestampSecs
  serverClock : ∀ now ∈ [server.verifiedAt, server.absorbedAt,
      server.derivedAt.1, server.derivedAt.2],
    WithinWindow now clientMaterial.localHello.timestampSecs
  contributes : prims.diffieHellman clientMaterial.localEphemeral.privateKey
    serverMaterial.localEphemeral.publicKey ≠ FixedBytes.replicate 32 0
  running : server.cancelled = (false, false, false)
  cookie : worker.requiresCookie = true → ∃ cookie,
    server.issued = .ok cookie ∧ server.verified cookie.val = .ok true

/-- What the two ends of one session have in common. -/
structure Matching (client server : HandshakeState) : Prop where
  outbound : client.sessionKeys.sendKey = server.sessionKeys.recvKey
  inbound : client.sessionKeys.recvKey = server.sessionKeys.sendKey
  transcript : client.transcriptHashHex = server.transcriptHashHex

namespace HonestEnds

variable {clientIdentity : IdentityKeyPair} {clientPolicy : PeerPolicy}
  {client : TcpClientEnv} {worker : TcpHandshakeWorker}
  {server : TcpWorkerEnv}
  {clientMaterial serverMaterial : HandshakeMaterial prims}
  {clientFrame serverFrame : Bytes}

/-- The keys the two hellos carry, and what either end makes of them. -/
structure Known (hends : HonestEnds prims clientIdentity clientPolicy client
      worker server clientMaterial serverMaterial clientFrame serverFrame)
    (clientKeys serverKeys : PeerKeys) : Prop where
  client : Fresh clientIdentity worker.profile clientMaterial clientKeys
  server : Fresh worker.localIdentity worker.profile serverMaterial serverKeys
  clientPins : (⟨serverKeys.identity, serverKeys.signing⟩ : PeerPin) ∈
    clientPolicy.pins
  serverPins : (⟨clientKeys.identity, clientKeys.signing⟩ : PeerPin) ∈
    worker.policy.pins
  clientShared : clientMaterial.localEphemeral.deriveShared prims
    serverKeys.ephemeral ≠ FixedBytes.replicate 32 0
  serverShared : serverMaterial.localEphemeral.deriveShared prims
    clientKeys.ephemeral ≠ FixedBytes.replicate 32 0

variable {hends : HonestEnds prims clientIdentity clientPolicy client worker
  server clientMaterial serverMaterial clientFrame serverFrame}
  {clientKeys serverKeys : PeerKeys}

theorem Known.clientClock (hknown : Known hends clientKeys serverKeys)
    {now : Option UInt64} (hnow : now ∈ [client.verifiedAt, client.exchangedAt,
      client.derivedAt.1, client.derivedAt.2]) :
    WithinWindow now serverKeys.timestamp :=
  hknown.server.honest.carries.timestamp ▸ hends.clientClock now hnow

theorem Known.serverClock (hknown : Known hends clientKeys serverKeys)
    {now : Option UInt64} (hnow : now ∈ [server.verifiedAt, server.absorbedAt,
      server.derivedAt.1, server.derivedAt.2]) :
    WithinWindow now clientKeys.timestamp :=
  hknown.client.honest.carries.timestamp ▸ hends.serverClock now hnow

/-- What remains is the same for both profiles, once the secret is
exchanged. -/
theorem Known.finish (hknown : Known hends clientKeys serverKeys)
    {clientAfter serverAfter : HandshakeMaterial prims}
    {exchange : Option (Bytes × Key)}
    (hclient : HonestParty clientIdentity worker.profile clientAfter clientKeys)
    (hserver : HonestParty worker.localIdentity worker.profile serverAfter
      serverKeys)
    (hclientExchanged :
      HonestParty.Exchanged worker.profile clientAfter exchange)
    (hserverExchanged :
      HonestParty.Exchanged worker.profile serverAfter exchange)
    (hclientEphemeral : clientAfter.localEphemeral =
      clientMaterial.localEphemeral)
    (hserverEphemeral : serverAfter.localEphemeral =
      serverMaterial.localEphemeral) :
    ∃ clientState serverState,
      Talks (finishTcpHandshake clientIdentity clientAfter
        serverMaterial.localHello true clientPolicy client.derivedAt) [] []
        (pure clientState) ∧
      Talks (finishTcpHandshake worker.localIdentity serverAfter
        clientMaterial.localHello false worker.policy server.derivedAt) [] []
        (pure serverState) ∧
      Matching clientState serverState := by
  have hclientInputs := hclient.sessionInputs_eq hknown.server true
    hclientExchanged hknown.clientPins
    (hknown.clientClock (by simp : client.derivedAt.1 ∈ _))
    (hknown.clientClock (by simp : client.derivedAt.2 ∈ _))
    (by rw [hclientEphemeral]; exact hknown.clientShared)
  have hserverInputs := hserver.sessionInputs_eq hknown.client false
    hserverExchanged hknown.serverPins
    (hknown.serverClock (by simp : server.derivedAt.1 ∈ _))
    (hknown.serverClock (by simp : server.derivedAt.2 ∈ _))
    (by rw [hserverEphemeral]; exact hknown.serverShared)
  obtain ⟨clientState, hclientState⟩ := deriveSession_isOk hends.reliable
    (HonestParty.view clientAfter true clientKeys serverKeys exchange)
  obtain ⟨serverState, hserverState⟩ := deriveSession_isOk hends.reliable
    (HonestParty.view serverAfter false serverKeys clientKeys exchange)
  have hmirrored : Mirrored
      (HonestParty.view clientAfter true clientKeys serverKeys exchange)
      (HonestParty.view serverAfter false serverKeys clientKeys exchange) :=
    hclient.view_mirrored hserver hends.distinct
      (by rw [hclientEphemeral]; exact hknown.client.ephemeral)
      (by rw [hserverEphemeral]; exact hknown.server.ephemeral)
  obtain ⟨hsend, hrecv, htranscript⟩ :=
    hmirrored.deriveSession_complementary hclientState hserverState
  exact ⟨clientState, serverState,
    (reads_finishTcpHandshake _ _ _ _ _ _).run clientState
      ⟨bind_eq_ok_iff.mpr ⟨_, hclientInputs, hclientState⟩, rfl⟩,
    (reads_finishTcpHandshake _ _ _ _ _ _).run serverState
      ⟨bind_eq_ok_iff.mpr ⟨_, hserverInputs, hserverState⟩, rfl⟩,
    hsend, hrecv, htranscript⟩

theorem talks_checkCancelled {cancelled : Bool} (hrunning : cancelled = false) :
    Talks (checkCancelled cancelled) [] [] (pure ()) :=
  talks_ensure (by simp [hrunning]) _

variable (hends)
include hends

theorem exists_known :
    ∃ clientKeys serverKeys, Known hends clientKeys serverKeys := by
  obtain ⟨clientKeys, hclient⟩ := buildHelloWithProfile_fresh hends.reliable
    hends.clientSigning hends.clientBuilds
  obtain ⟨serverKeys, hserver⟩ := buildHelloWithProfile_fresh hends.reliable
    hends.serverSigning hends.serverBuilds
  have hshared : clientMaterial.localEphemeral.deriveShared prims
      serverKeys.ephemeral ≠ FixedBytes.replicate 32 0 := by
    rw [hserver.honest.ephemeral]
    exact hends.contributes
  refine ⟨clientKeys, serverKeys, hclient, hserver, ?_, ?_, hshared, ?_⟩
  · rw [hserver.honest.identity, hserver.honest.signing]
    exact hends.clientPins
  · rw [hclient.honest.identity, hclient.honest.signing]
    exact hends.serverPins
  · unfold IdentityKeyPair.deriveShared at hshared ⊢
    rw [hserver.honest.ephemeral, hserver.ephemeral,
      prims.diffieHellman_comm] at hshared
    rwa [hclient.honest.ephemeral, hclient.ephemeral]

/-- After the hellos the client sends what the server waits for, and both
derive their keys. -/
theorem exchange :
    ∃ exchanged clientState serverState,
      Talks (completeTcpClient clientIdentity clientMaterial clientPolicy
        worker.profile client serverMaterial.localHello) [] exchanged
        (pure clientState) ∧
      Talks (worker.complete server serverMaterial clientMaterial.localHello)
        exchanged [] (pure serverState) ∧
      Matching clientState serverState := by
  obtain ⟨clientKeys, serverKeys, hknown⟩ := hends.exists_known
  have hverify := hknown.client.honest.verifyHelloSignature_eq hknown.server
    hknown.clientPins (hknown.clientClock (by simp : client.verifiedAt ∈ _))
  by_cases huses : worker.profile.usesPqc = true
  · obtain ⟨ct, shared, clientAfter, hfinalize, hclientAfter,
      hclientExchanged, hclientEphemeral, hopens⟩ :=
      hknown.client.finalizeInitiatorPq_eq hends.reliable hknown.server huses
        hknown.clientPins
        (hknown.clientClock (by simp : client.exchangedAt ∈ _)) client.coins
    obtain ⟨serverAfter, habsorb, hserverAfter, hserverExchanged,
      hserverEphemeral⟩ :=
      hknown.server.absorbResponderPq_eq hknown.client huses hknown.serverPins
        (hknown.serverClock (by simp : server.absorbedAt ∈ _)) hopens
    obtain ⟨clientState, serverState, hclientTalks, hserverTalks, hmatching⟩ :=
      hknown.finish hclientAfter hserverAfter hclientExchanged
        hserverExchanged hclientEphemeral hserverEphemeral
    refine ⟨bigEndian 4 ct.val.length ++ ct.val, clientState,
      serverState, ?_, ?_, hmatching⟩
    · refine Talks.cast (Talks.andThen (Talks.ofExcept hverify) ?_) rfl rfl
      rw [if_pos huses, hfinalize]
      exact Talks.cast (Talks.andThen ((conducts_writeTcpPqCt ct.val).talks
        () _ _ ⟨ct.length_eq, rfl, rfl⟩) hclientTalks) rfl
        (List.append_nil _)
    · rw [complete, if_pos huses]
      refine Talks.cast (Talks.andThen (reads_readTcpPqCt.run ct.val
        ⟨ct.length_eq, rfl⟩) ?_) (List.append_nil _) rfl
      rw [habsorb]
      exact hserverTalks
  · have hclassical := Bool.eq_false_of_not_eq_true huses
    obtain ⟨clientState, serverState, hclientTalks, hserverTalks, hmatching⟩ :=
      hknown.finish hknown.client.honest hknown.server.honest
        (hknown.client.exchanged_none hclassical)
        (hknown.server.exchanged_none hclassical) rfl rfl
    refine ⟨[], clientState, serverState, ?_, ?_, hmatching⟩
    · refine Talks.cast (Talks.andThen (Talks.ofExcept hverify) ?_) rfl rfl
      rw [if_neg huses]
      exact hclientTalks
    · rw [complete, if_neg huses]
      exact hserverTalks

theorem clientFrame_fits :
    (∃ tail, FrameOf clientMaterial.localHello clientFrame tail) ∧
      clientFrame.length ≤ maxHelloBytes := by
  obtain ⟨tail, hframe⟩ := serializeHelloFrame_ok hends.clientFrames
  exact ⟨⟨tail, hframe⟩, hframe.length_le hends.reliable hends.clientBuilds⟩

theorem serverFrame_fits :
    (∃ tail, FrameOf serverMaterial.localHello serverFrame tail) ∧
      serverFrame.length ≤ maxHelloBytes := by
  obtain ⟨tail, hframe⟩ := serializeHelloFrame_ok hends.serverFrames
  exact ⟨⟨tail, hframe⟩, hframe.length_le hends.reliable hends.serverBuilds⟩

/-- The client sends its hello and waits for the server. -/
theorem client_opens (reader : HelloReader) :
    Talks (tcpHandshakeOnConnectedStream prims reader clientIdentity
        clientPolicy worker.profile client) [] (clientFrame ++ [newline])
      (readTcpServerHello reader >>= completeTcpClient clientIdentity
        clientMaterial clientPolicy worker.profile client) :=
  Talks.cast (Talks.andThen Talks.call (Talks.andThen
    (Talks.ofExcept hends.clientBuilds) (Talks.andThen
      (talks_writeTcpHello hends.clientFrames hends.clientFrame_fits.2)
      (Talks.refl _)))) rfl (by simp)

/-- The worker reads the hello of the client before anything else. -/
theorem server_reads (reader : HelloReader) :
    Talks (worker.run prims reader server) (clientFrame ++ [newline]) []
      (passCookie worker.requiresCookie server >>= fun _ =>
        checkCancelled server.cancelled.2.2 >>= fun _ =>
          worker.answer prims server clientMaterial.localHello) := by
  obtain ⟨⟨tail, hframe⟩, hlength⟩ := hends.clientFrame_fits
  exact Talks.cast (Talks.andThen
    (talks_checkCancelled (by rw [hends.running]))
    (Talks.andThen Talks.call (Talks.andThen
      (talks_readTcpHello hframe hlength)
      (Talks.andThen (talks_checkCancelled (by rw [hends.running]))
        (Talks.refl _))))) (by simp) rfl

/-- Past the cookie it sends its own hello. -/
theorem server_answers :
    Talks (checkCancelled server.cancelled.2.2 >>= fun _ =>
        worker.answer prims server clientMaterial.localHello) []
      (serverFrame ++ [newline])
      (worker.complete server serverMaterial clientMaterial.localHello) := by
  obtain ⟨clientKeys, serverKeys, hknown⟩ := hends.exists_known
  have hverify := hknown.server.honest.verifyHelloSignature_eq hknown.client
    hknown.serverPins (hknown.serverClock (by simp : server.verifiedAt ∈ _))
  exact Talks.cast (Talks.andThen
    (talks_checkCancelled (by rw [hends.running]))
    (Talks.andThen (Talks.ofExcept hends.serverBuilds)
      (Talks.andThen (Talks.ofExcept hverify) (Talks.andThen
        (talks_writeTcpHello hends.serverFrames hends.serverFrame_fits.2)
        (Talks.refl _))))) rfl (by simp)

/-- With a challenge or without one, the worker comes past the cookie while
the client still waits for its hello. -/
theorem cookie_passes (reader : HelloReader) :
    ∃ waiting : Program ShphError Hello,
      Talks waiting (serverFrame ++ [newline]) []
        (pure serverMaterial.localHello) ∧
      ∀ (clientRest : Hello → Program ShphError HandshakeState)
        (serverRest : Unit → Program ShphError HandshakeState),
        Link.Reaches ⟨readTcpServerHello reader >>= clientRest,
            passCookie worker.requiresCookie server >>=
              serverRest, [], []⟩
          ⟨waiting >>= clientRest, serverRest (), [], []⟩ := by
  obtain ⟨⟨tail, hframe⟩, hlength⟩ := hends.serverFrame_fits
  by_cases hrequires : worker.requiresCookie = true
  · obtain ⟨cookie, hissued, hverified⟩ := hends.cookie hrequires
    refine ⟨readTcpHello reader, talks_readTcpHello hframe hlength, ?_⟩
    intro clientRest serverRest
    have hchallenge : Talks (passCookie
        worker.requiresCookie server) []
        (cookieLine cookieChallengePrefix cookie.val)
        (acceptCookie server) := by
      rw [passCookie, if_pos hrequires]
      exact Talks.cast (Talks.andThen (Talks.ofExcept hissued) (Talks.andThen
        (writes_writeTcpCookieLine _ _).run (Talks.refl _))) rfl (by simp)
    have haccept : Talks (acceptCookie server)
        (cookieLine cookieResponsePrefix cookie.val) [] (pure ()) :=
      (reads_acceptCookie server).run ()
        ⟨cookie.val, bringsCookie_cookieLine cookie, hverified⟩
    have hrespond : Talks (readTcpServerHello reader)
        (cookieLine cookieChallengePrefix cookie.val)
        (cookieLine cookieResponsePrefix cookie.val) (readTcpHello reader) :=
      talks_readTcpServerHello_challenge cookie
    exact ((hchallenge.bind serverRest).rightTurn.trans
      (hrespond.bind clientRest).leftTurn).trans
        (haccept.bind serverRest).rightTurn
  · refine ⟨readTcpServerHello reader, talks_readTcpServerHello hframe hlength,
      ?_⟩
    intro clientRest serverRest
    rw [passCookie, if_neg hrequires]
    exact Relation.ReflTransGen.refl

/-- One way for both ends to complete. -/
theorem reaches (reader : HelloReader) :
    ∃ clientState serverState, Matching clientState serverState ∧
      Link.Reaches ⟨tcpHandshakeOnConnectedStream prims reader clientIdentity
            clientPolicy worker.profile client,
          worker.run prims reader server, [], []⟩
        ⟨pure clientState, pure serverState, [], []⟩ := by
  obtain ⟨exchanged, clientState, serverState, hclient, hserver, hmatching⟩ :=
    hends.exchange
  obtain ⟨waiting, hwaiting, hcookie⟩ := hends.cookie_passes reader
  refine ⟨clientState, serverState, hmatching, ?_⟩
  have hfinishes : Talks (waiting >>= completeTcpClient clientIdentity
      clientMaterial clientPolicy worker.profile client)
      (serverFrame ++ [newline]) exchanged (pure clientState) :=
    Talks.cast (Talks.andThen hwaiting hclient) (List.append_nil _) rfl
  -- the two hellos, with the cookie in between, and then the exchange
  exact (((((hends.client_opens reader).leftTurn.trans
    (hends.server_reads reader).rightTurn).trans (hcookie _ _)).trans
      hends.server_answers.rightTurn).trans hfinishes.leftTurn).trans
        hserver.rightTurn

end HonestEnds

/-- Go on sending when the handshake is done. -/
def thenSends (handshake : Program ShphError HandshakeState) (bytes : Bytes) :
    Program ShphError HandshakeState := do
  let state ← handshake
  Program.send bytes
  return state

theorem coherent_thenSends {handshake : Program ShphError HandshakeState}
    (hhandshake : handshake.Coherent) (bytes : Bytes) :
    (thenSends handshake bytes).Coherent :=
  hhandshake.bind fun _ => (coherent_send bytes).bind fun _ =>
    coherent_pure _

theorem talks_thenSends {handshake : Program ShphError HandshakeState}
    {input output : Bytes} {state : HandshakeState}
    (htalks : Talks handshake input output (pure state)) (bytes : Bytes) :
    Talks (thenSends handshake bytes) input (output ++ bytes) (pure state) :=
  Talks.cast (Talks.andThen htalks (Talks.andThen (Talks.send bytes)
    (Talks.refl _))) (by simp) (by simp)

/-- However the bytes of the two ends are cut up and interleaved, with a
challenge or without one, the handshake can only end in one way: both ends are
done, with matching keys, and what either sent after its part waits for the
other, not a byte of it missing. -/
theorem tcp_handshake_completes (reader : HelloReader)
    (clientIdentity : IdentityKeyPair) (clientPolicy : PeerPolicy)
    (client : TcpClientEnv) (worker : TcpHandshakeWorker)
    (server : TcpWorkerEnv)
    (clientMaterial serverMaterial : HandshakeMaterial prims)
    (clientFrame serverFrame : Bytes)
    (hends : HonestEnds prims clientIdentity clientPolicy client worker server
      clientMaterial serverMaterial clientFrame serverFrame)
    (early late : Bytes) :
    ∃ clientState serverState, Matching clientState serverState ∧
      ∀ state, Link.Reaches ⟨thenSends (tcpHandshakeOnConnectedStream prims
            reader clientIdentity clientPolicy worker.profile client) early,
          thenSends (worker.run prims reader server) late, [], []⟩ state →
        Link.Reaches state ⟨pure clientState, pure serverState, early, late⟩ ∧
          (state.Settled →
            state = ⟨pure clientState, pure serverState, early, late⟩) := by
  obtain ⟨clientState, serverState, hmatching, hreaches⟩ :=
    hends.reaches reader
  refine ⟨clientState, serverState, hmatching, ?_⟩
  -- both ends go on after the handshake, the client first
  have hclient : Talks (thenSends (pure clientState) early) [] early
      (pure clientState) := (talks_thenSends (Talks.refl _) early)
  have hserver : Talks (thenSends (pure serverState) late) [] late
      (pure serverState) := (talks_thenSends (Talks.refl _) late)
  have hboth := ((hreaches.bindLeft fun state => do
    Program.send early
    return state).swap.bindLeft fun state => do
      Program.send late
      return state).swap
  have hrun : Link.Reaches ⟨thenSends (tcpHandshakeOnConnectedStream prims
        reader clientIdentity clientPolicy worker.profile client) early,
      thenSends (worker.run prims reader server) late, [], []⟩
      ⟨pure clientState, pure serverState, early, late⟩ :=
    (hboth.trans hclient.leftTurn).trans hserver.right
  have hcoherent : Link.Coherent ⟨thenSends (tcpHandshakeOnConnectedStream
      prims reader clientIdentity clientPolicy worker.profile client) early,
      thenSends (worker.run prims reader server) late, [], []⟩ :=
    ⟨coherent_thenSends (coherent_tcpHandshakeOnConnectedStream _ _ _ _ _)
        early,
      coherent_thenSends (coherent_run _ _ _) late⟩
  intro state hstate
  exact Link.Reaches.settles hcoherent hrun (Link.settled_of_done _ _ _ _) hstate

namespace TcpHandshakeWitness

open HandshakeWitness

section Reader

open FlatJson JsonLayout

inductive Kind where
  | text
  | option
  | number
deriving Repr, DecidableEq

/-- The values the fields of a hello can have. -/
inductive Field where
  | text (value : String)
  | option (value : Option String)
  | number (value : UInt64)
deriving Repr, DecidableEq

namespace Field

def kind : Field → Kind
  | text _ => .text
  | option _ => .option
  | number _ => .number

def write : Field → List Char
  | text value => textJson value
  | option value => optionJson value
  | number value => Nat.toDigits 10 value.toNat

end Field

def takeText : List Char → Option (String × List Char)
  | '"' :: rest =>
      (takeString rest).map fun result => (String.ofList result.1, result.2)
  | _ => none

def takeOption (chars : List Char) : Option (Option String × List Char) :=
  match takeText chars with
  | some (text, rest) => some (some text, rest)
  | none =>
      (['n', 'u', 'l', 'l'].isPrefixOf? chars).map fun rest => (none, rest)

def Kind.take : Kind → List Char → Option (Field × List Char)
  | text, chars =>
      (takeText chars).map fun result => (.text result.1, result.2)
  | option, chars =>
      (takeOption chars).map fun result => (.option result.1, result.2)
  | number, chars =>
      some (.number (UInt64.ofNat
        (Nat.ofDigitChars 10 (chars.takeWhile Char.isDigit) 0)),
        chars.dropWhile Char.isDigit)

def takeFields (lead : Char) : List (String × Kind) → List Char →
    Option (List Field × List Char)
  | [], chars => some ([], chars)
  | member :: members, chars => do
      let chars ←
        (lead :: (quote member.1.toList ++ [':'])).isPrefixOf? chars
      let (field, chars) ← member.2.take chars
      let (fields, chars) ← takeFields ',' members chars
      return (field :: fields, chars)

def fieldsOf (hello : Hello) : List (String × Field) :=
  [("proto", .text hello.proto),
    ("profile", .text hello.profile.asStr),
    ("identity_pub_b64", .text hello.identityPubB64),
    ("sign_pub_b64", .text hello.signPubB64),
    ("pqc_pub_b64", .option hello.pqcPubB64),
    ("pqc_ct_b64", .option hello.pqcCtB64),
    ("ephemeral_pub_b64", .text hello.ephemeralPubB64),
    ("nonce_b64", .text hello.nonceB64),
    ("timestamp_secs", .number hello.timestampSecs),
    ("sig", .text hello.sig)]

def helloKinds : List (String × Kind) :=
  [("proto", .text), ("profile", .text), ("identity_pub_b64", .text),
    ("sign_pub_b64", .text), ("pqc_pub_b64", .option), ("pqc_ct_b64", .option),
    ("ephemeral_pub_b64", .text), ("nonce_b64", .text),
    ("timestamp_secs", .number), ("sig", .text)]

def helloOf : List Field → Option Hello
  | [.text proto, .text profile, .text identityPubB64, .text signPubB64,
      .option pqcPubB64, .option pqcCtB64, .text ephemeralPubB64,
      .text nonceB64, .number timestampSecs, .text sig] =>
      some { proto
             profile := if profile = "secure-default" then .secureDefault
               else .classicalLab
             identityPubB64, signPubB64, pqcPubB64, pqcCtB64, ephemeralPubB64
             nonceB64, timestampSecs, sig }
  | _ => none

theorem takeText_eq (text : String) (rest : List Char) :
    takeText (textJson text ++ rest) = some (text, rest) := by
  simp [textJson, quote, takeText, takeString_escape]

theorem takeOption_eq (text : Option String) (rest : List Char) :
    takeOption (optionJson text ++ rest) = some (text, rest) := by
  cases text with
  | none => rfl
  | some text => rw [optionJson, takeOption, takeText_eq]

theorem Kind.take_write (field : Field) {rest : List Char}
    (hrest : ∀ char ∈ rest.head?, char.isDigit = false) :
    field.kind.take (field.write ++ rest) = some (field, rest) := by
  cases field with
  | text value =>
      rw [Field.write, Field.kind, take, takeText_eq, Option.map_some]
  | option value =>
      rw [Field.write, Field.kind, take, takeOption_eq, Option.map_some]
  | number value =>
      have hdigits : ∀ char ∈ Nat.toDigits 10 value.toNat,
          char.isDigit = true := fun char hmem =>
        Nat.isDigit_of_mem_toDigits (by decide) (by decide) hmem
      have hstop : rest.takeWhile Char.isDigit = [] ∧
          rest.dropWhile Char.isDigit = rest := by
        cases rest with
        | nil => simp
        | cons char rest => simp [hrest char (by simp)]
      rw [Field.write, Field.kind, take,
        List.takeWhile_append_of_pos hdigits, hstop.1,
        List.dropWhile_append_of_pos hdigits, hstop.2, List.append_nil,
        Nat.ofDigitChars_ten_toDigits, UInt64.ofNat_toNat]

/-- By induction on the fields: each is read behind its name, and the next
name begins where it ends. -/
theorem takeFields_writeMembers (members : List (String × Field))
    (lead : Char) {rest : List Char}
    (hrest : ∀ char ∈ rest.head?, char.isDigit = false) :
    takeFields lead (members.map (Prod.map id Field.kind))
        (writeMembers .compact 0 lead (members.map (Prod.map id Field.write)) ++
          rest) =
      some (members.map Prod.snd, rest) := by
  induction members generalizing lead with
  | nil => rfl
  | cons member members ih =>
      have hnext : ∀ char ∈ (writeMembers .compact 0 ','
          (members.map (Prod.map id Field.write)) ++ rest).head?,
          char.isDigit = false := by
        cases members with
        | nil => exact hrest
        | cons other members =>
            intro char hchar
            rw [List.map_cons, writeMembers, List.cons_append, List.head?_cons,
              Option.mem_some_iff] at hchar
            subst hchar
            rfl
      have hname : (lead :: (quote member.1.toList ++ [':'])).isPrefixOf?
          (writeMembers .compact 0 lead ((member.1, member.2.write) ::
            members.map (Prod.map id Field.write)) ++ rest) =
          some (member.2.write ++ (writeMembers .compact 0 ','
            (members.map (Prod.map id Field.write)) ++ rest)) := by
        rw [List.isPrefixOf?_eq_some_iff_append_eq]
        simp [writeMembers, Layout.newline, Layout.colon]
      simp only [List.map_cons, takeFields, Prod.map, id, hname,
        Kind.take_write member.2 hnext, ih, Option.bind_eq_bind,
        Option.bind_some]
      rfl

theorem helloOf_fieldsOf (hello : Hello) :
    helloOf ((fieldsOf hello).map Prod.snd) = some hello := by
  obtain ⟨proto, profile, _, _, _, _, _, _, _, _⟩ := hello
  cases profile <;> rfl

theorem takeFields_helloJson (hello : Hello) (tail : List Char) :
    takeFields '{' helloKinds (helloJson hello ++ tail) =
      some ((fieldsOf hello).map Prod.snd, '}' :: tail) := by
  have hjson : helloJson hello ++ tail =
      writeMembers .compact 0 '{'
        ((fieldsOf hello).map (Prod.map id Field.write)) ++ ('}' :: tail) := by
    rw [helloJson, object, if_neg (List.cons_ne_nil _ _), List.append_assoc]
    rfl
  rw [hjson]
  exact takeFields_writeMembers (fieldsOf hello) '{' (by simp)

def reader : HelloReader where
  fromStr text :=
    match takeFields '{' helloKinds text.toList with
    | some (fields, '}' :: tail) =>
        if tail.all fun char => char == ' ' || char == '\t' then
          match helloOf fields with
          | some hello => .ok hello
          | none => .error "missing field"
        else .error "trailing characters"
    | _ => .error "expected value"
  fromStr_helloJson := by
    intro hello tail htail
    have hblank : (tail.all fun char => char == ' ' || char == '\t') =
        true := by
      rw [List.all_eq_true]
      intro char hchar
      rcases htail char hchar with rfl | rfl <;> rfl
    simp only [String.toList_ofList, takeFields_helloJson, hblank, if_true,
      helloOf_fieldsOf]

end Reader

theorem builtClient_isOk : (buildHelloWithProfile totalPrims identityA
    .classicalLab drawsA).isOk = true := by
  decide +kernel

theorem builtServer_isOk : (buildHelloWithProfile totalPrims identityB
    .classicalLab drawsB).isOk = true := by
  decide +kernel

def clientMaterial : HandshakeMaterial totalPrims := valueOf _ builtClient_isOk

def serverMaterial : HandshakeMaterial totalPrims := valueOf _ builtServer_isOk

theorem clientFresh : Fresh identityA .classicalLab clientMaterial keysA ∧
    clientMaterial.localEphemeral = .fromSeeds totalPrims (seed 5) (seed 7) := by
  obtain ⟨_, hpqc, hephemeral, hfresh⟩ :=
    buildHelloWithProfile_drawn (eq_ok_valueOf builtClient_isOk)
  rw [← Except.ok.inj hpqc] at hfresh
  exact ⟨hfresh (reliable.verify_sign _ _), hephemeral⟩

theorem serverFresh : Fresh identityB .classicalLab serverMaterial keysB ∧
    serverMaterial.localEphemeral = .fromSeeds totalPrims (seed 6) (seed 8) := by
  obtain ⟨_, hpqc, hephemeral, hfresh⟩ :=
    buildHelloWithProfile_drawn (eq_ok_valueOf builtServer_isOk)
  rw [← Except.ok.inj hpqc] at hfresh
  exact ⟨hfresh (reliable.verify_sign _ _), hephemeral⟩

/-- A frame with a tail of three blanks. -/
def frameDraws : FrameDraws := ⟨some 3, some (FixedBytes.replicate _ 1)⟩

theorem frame_isOk (hello : Hello) :
    (serializeHelloFrame hello frameDraws).isOk = true := rfl

def cookie : FixedBytes 32 := FixedBytes.replicate 32 11

def client : TcpClientEnv :=
  ⟨drawsA, frameDraws, now, now, seed 0, (now, now)⟩

def server : TcpWorkerEnv where
  cancelled := (false, false, false)
  issued := .ok cookie
  verified response := .ok (response == cookie.val)
  hello := drawsB
  frame := frameDraws
  verifiedAt := now
  absorbedAt := now
  derivedAt := (now, now)

def worker : TcpHandshakeWorker := ⟨identityB, policyB, .classicalLab, true⟩

theorem ends : HonestEnds totalPrims identityA policyA client worker server
    clientMaterial serverMaterial
    (valueOf _ (frame_isOk clientMaterial.localHello))
    (valueOf _ (frame_isOk serverMaterial.localHello)) where
  reliable := reliable
  clientSigning := rfl
  serverSigning := rfl
  distinct := by decide
  clientPins := List.mem_singleton.mpr rfl
  serverPins := List.mem_singleton.mpr rfl
  clientBuilds := eq_ok_valueOf builtClient_isOk
  serverBuilds := eq_ok_valueOf builtServer_isOk
  clientFrames := eq_ok_valueOf _
  serverFrames := eq_ok_valueOf _
  clientClock := by
    rw [serverFresh.1.honest.carries.timestamp]
    intro moment hmoment
    have hnow : moment = now := by simpa [client] using hmoment
    exact ⟨_, hnow, by decide⟩
  serverClock := by
    rw [clientFresh.1.honest.carries.timestamp]
    intro moment hmoment
    have hnow : moment = now := by simpa [server] using hmoment
    exact ⟨_, hnow, by decide⟩
  contributes := by
    rw [clientFresh.2, serverFresh.2]
    decide
  running := rfl
  cookie := fun _ => ⟨cookie, rfl, by simp [server]⟩

end TcpHandshakeWitness

open TcpHandshakeWitness HandshakeWitness in
/-- A server that asks for a cookie, and a client that sends its first record
along with its last message. -/
theorem tcp_handshake_completes_challenged :
    ∃ clientState serverState, Matching clientState serverState ∧
      ∀ state, Link.Reaches
        ⟨thenSends (tcpHandshakeOnConnectedStream totalPrims reader identityA
            policyA .classicalLab client) [1, 2, 3],
          thenSends (worker.run totalPrims reader server) [4], [], []⟩ state →
        Link.Reaches state
            ⟨pure clientState, pure serverState, [1, 2, 3], [4]⟩ ∧
          (state.Settled →
            state = ⟨pure clientState, pure serverState, [1, 2, 3], [4]⟩) :=
  tcp_handshake_completes reader identityA policyA client worker server
    clientMaterial serverMaterial _ _ ends [1, 2, 3] [4]

end Shph
