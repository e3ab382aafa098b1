/-
The TCP handshake against an end that may send anything, over a connection
that may break anywhere.  What either end computes is the handshake of the
messages it has read, so it has a session only with a peer it has pinned, whose
hello it has read and found authentic.
-/
import Shph.TcpCookieGate

namespace Shph

open ByteCodec Dialogue

variable {prims : Primitives} {reader : HelloReader}

section Parts

/-- The hello of a server is its first line, or the line after a challenge. -/
theorem keeps_readTcpServerHello (reader : HelloReader) :
    Keeps (readTcpServerHello reader) (fun _ _ => True)
      fun hello input _ => ∃ before raw, input = before ++ raw ∧
        HelloRead reader hello raw := by
  rw [readTcpServerHello]
  apply Keeps.bind (reads_readTcpLine maxHelloBytes).keeps
  · exact fun _ _ _ => trivial
  · rintro line raw _ ⟨hline, rfl⟩
    by_cases hchallenge : cookieChallengePrefix <+: line
    · rw [takeServerLine, if_pos hchallenge]
      apply Keeps.ofExcept_bind trivial
      intro cookie _
      rw [writeTcpCookieResponse, Program.bind_assoc]
      apply Keeps.ofExcept_bind trivial
      intro _ _
      apply Keeps.bind (writes_writeTcpCookieLine _ _).keeps
        (fun _ _ _ => trivial)
      rintro _ _ _ ⟨rfl, _⟩
      apply (reads_readTcpHello reader).keeps.mono (fun _ _ _ => trivial)
      rintro hello input _ ⟨hread, _⟩
      exact ⟨raw, input, rfl, hread⟩
    · rw [takeServerLine, if_neg hchallenge]
      apply Keeps.ofExcept trivial
      intro hello hparse
      exact ⟨[], raw, List.append_nil _, line, hline, hparse⟩

end Parts

section Ends

/-- The ciphertext that the worker has read, if its profile asks for one. -/
def ReceivedRead (profile : HandshakeProfile) (received : Option Bytes)
    (input : Bytes) : Prop :=
  if profile.usesPqc then ∃ ct, received = some ct ∧ CiphertextRead ct input
  else received = none ∧ input = []

namespace TcpHandshakeWorker

variable {worker : TcpHandshakeWorker} {env : TcpWorkerEnv}

theorem keeps_complete {material : HandshakeMaterial prims}
    (hprofile : material.profile = worker.profile) (peerHello : Hello) :
    Keeps (worker.complete env material peerHello) (fun _ _ => True)
      fun state input _ => ∃ received,
        ReceivedRead worker.profile received input ∧
          responderHandshake worker.localIdentity material peerHello received
            worker.policy env.absorbedAt env.derivedAt.1 env.derivedAt.2 =
              .ok state := by
  by_cases huses : worker.profile.usesPqc = true
  · rw [complete, if_pos huses]
    apply Keeps.bind reads_readTcpPqCt.keeps
    · exact fun _ _ _ => trivial
    · rintro ct before _ ⟨hread, _⟩
      cases habsorb : absorbResponderPq worker.localIdentity peerHello ct
          worker.policy env.absorbedAt material with
      | mk result after =>
          cases result with
          | error error => exact Keeps.fail trivial
          | ok done =>
              apply (reads_finishTcpHandshake _ _ _ _ _ _).keeps.mono
                (fun _ _ _ => trivial)
              rintro state input _ ⟨⟨hstate, rfl⟩, _⟩
              refine ⟨some ct, ?_, ?_⟩
              · rw [ReceivedRead, if_pos huses, List.append_nil]
                exact ⟨ct, rfl, hread⟩
              · rw [responderHandshake, hprofile, if_pos huses, okOr]
                simp only [habsorb, bind, Except.bind]
                exact hstate
  · rw [complete, if_neg huses]
    apply (reads_finishTcpHandshake _ _ _ _ _ _).keeps.mono (fun _ _ _ => trivial)
    rintro state input _ ⟨⟨hstate, rfl⟩, _⟩
    refine ⟨none, ?_, ?_⟩
    · rw [ReceivedRead, if_neg huses]
      exact ⟨rfl, rfl⟩
    · rw [responderHandshake, hprofile, if_neg huses]
      exact hstate

/-- A session of a worker is the one that `responderHandshake` derives from
the hello and the ciphertext it has read. -/
def Responded (prims : Primitives) (reader : HelloReader)
    (worker : TcpHandshakeWorker) (env : TcpWorkerEnv)
    (state : HandshakeState) (input : Bytes) : Prop :=
  ∃ (peerHello : Hello) (material : HandshakeMaterial prims)
    (received : Option Bytes) (hello between sealed : Bytes),
    input = hello ++ (between ++ sealed) ∧ HelloRead reader peerHello hello ∧
      ReceivedRead worker.profile received sealed ∧
      buildHelloWithProfile prims worker.localIdentity worker.profile env.hello =
        .ok material ∧
      verifyHelloSignature worker.localIdentity material peerHello
        worker.policy env.verifiedAt = .ok () ∧
      responderHandshake worker.localIdentity material peerHello received
        worker.policy env.absorbedAt env.derivedAt.1 env.derivedAt.2 = .ok state

theorem keeps_run_responded (worker : TcpHandshakeWorker)
    (env : TcpWorkerEnv) :
    Keeps (worker.run prims reader env) (fun _ _ => True)
      fun state input _ => Responded prims reader worker env state input := by
  rw [run]
  apply Keeps.ofExcept_bind trivial
  intro _ _
  rw [Program.call_bind]
  apply Keeps.sync
  apply Keeps.bind (reads_readTcpHello reader).keeps
  · exact fun _ _ _ => trivial
  rintro peerHello hello _ ⟨hhello, _⟩
  apply Keeps.ofExcept_bind trivial
  intro _ _
  have hpass : Keeps (passCookie worker.requiresCookie env) (fun _ _ => True)
      fun _ _ _ => True := fun _ _ _ _ => ⟨trivial, fun _ _ => trivial⟩
  apply Keeps.bind hpass
  · exact fun _ _ _ => trivial
  rintro _ between _ _
  apply Keeps.ofExcept_bind trivial
  intro _ _
  rw [answer]
  apply Keeps.ofExcept_bind trivial
  intro material hbuild
  obtain ⟨_, hbuilt⟩ := buildHelloWithProfile_ok hbuild
  apply Keeps.ofExcept_bind trivial
  intro _ hverify
  apply Keeps.bind (conducts_writeTcpHello _ _).keeps (fun _ _ _ => trivial)
  rintro _ _ _ ⟨_, _, _, rfl, _⟩
  apply (keeps_complete hbuilt.profile_eq peerHello).mono
    (fun _ _ _ => trivial)
  rintro state sealed _ ⟨received, hreceived, hstate⟩
  exact ⟨peerHello, material, received, hello, between, sealed, rfl, hhello,
    hreceived, hbuild, hverify, hstate⟩

end TcpHandshakeWorker

/-- A session of a client is the one that `initiatorHandshake` derives from
the hello it has read. -/
def Initiated (prims : Primitives) (reader : HelloReader)
    (localIdentity : IdentityKeyPair) (policy : PeerPolicy)
    (profile : HandshakeProfile) (env : TcpClientEnv) (state : HandshakeState)
    (input : Bytes) : Prop :=
  ∃ (peerHello : Hello) (material : HandshakeMaterial prims)
    (sent : Option Bytes) (before hello : Bytes),
    input = before ++ hello ∧ HelloRead reader peerHello hello ∧
      buildHelloWithProfile prims localIdentity profile env.hello =
        .ok material ∧
      verifyHelloSignature localIdentity material peerHello policy
        env.verifiedAt = .ok () ∧
      initiatorHandshake localIdentity material peerHello policy
        env.exchangedAt env.derivedAt.1 env.derivedAt.2 env.coins =
          .ok (sent, state)

theorem keeps_completeTcpClient {localIdentity : IdentityKeyPair}
    {material : HandshakeMaterial prims} {policy : PeerPolicy}
    {profile : HandshakeProfile} {env : TcpClientEnv}
    (hprofile : material.profile = profile) (peerHello : Hello) :
    Keeps (completeTcpClient localIdentity material policy profile env
        peerHello) (fun _ _ => True)
      fun state input _ => input = [] ∧
        verifyHelloSignature localIdentity material peerHello policy
          env.verifiedAt = .ok () ∧
        ∃ sent, initiatorHandshake localIdentity material peerHello policy
          env.exchangedAt env.derivedAt.1 env.derivedAt.2 env.coins =
            .ok (sent, state) := by
  rw [completeTcpClient]
  apply Keeps.ofExcept_bind trivial
  intro _ hverify
  by_cases huses : profile.usesPqc = true
  · rw [if_pos huses]
    cases hfinalize : finalizeInitiatorPq localIdentity peerHello policy
        env.exchangedAt env.coins material with
    | mk result after =>
        cases result with
        | error error => exact Keeps.fail trivial
        | ok ct =>
            apply Keeps.bind (conducts_writeTcpPqCt ct).keeps
              (fun _ _ _ => trivial)
            rintro _ _ _ ⟨_, rfl, _⟩
            apply (reads_finishTcpHandshake _ _ _ _ _ _).keeps.mono
              (fun _ _ _ => trivial)
            rintro state input _ ⟨⟨hstate, rfl⟩, _⟩
            refine ⟨rfl, hverify, some ct, ?_⟩
            rw [initiatorHandshake, hprofile, if_pos huses, hfinalize]
            simp only [hstate]
            rfl
  · rw [if_neg huses]
    apply (reads_finishTcpHandshake _ _ _ _ _ _).keeps.mono (fun _ _ _ => trivial)
    rintro state input _ ⟨⟨hstate, rfl⟩, _⟩
    refine ⟨rfl, hverify, none, ?_⟩
    rw [initiatorHandshake, hprofile, if_neg huses, hstate]
    rfl

theorem keeps_tcpHandshakeOnConnectedStream (localIdentity : IdentityKeyPair)
    (policy : PeerPolicy) (profile : HandshakeProfile) (env : TcpClientEnv) :
    Keeps (tcpHandshakeOnConnectedStream prims reader localIdentity policy
        profile env) (fun _ _ => True)
      fun state input _ => Initiated prims reader localIdentity policy profile
        env state input := by
  rw [tcpHandshakeOnConnectedStream, Program.call_bind]
  apply Keeps.sync
  apply Keeps.ofExcept_bind trivial
  intro material hbuild
  obtain ⟨_, hbuilt⟩ := buildHelloWithProfile_ok hbuild
  apply Keeps.bind (conducts_writeTcpHello _ _).keeps (fun _ _ _ => trivial)
  rintro _ _ _ ⟨_, _, _, rfl, _⟩
  apply Keeps.bind (keeps_readTcpServerHello reader)
  · exact fun _ _ _ => trivial
  rintro peerHello _ _ ⟨before, hello, rfl, hread⟩
  apply (keeps_completeTcpClient hbuilt.profile_eq peerHello).mono
    (fun _ _ _ => trivial)
  rintro state _ _ ⟨rfl, hverify, sent, hstate⟩
  refine ⟨peerHello, material, sent, before, hello, ?_, hread, hbuild, hverify,
    hstate⟩
  rw [List.append_nil, List.nil_append]

/-- A session names the peer of the hello it was derived from. -/
theorem deriveSession_peer {inputs : SessionInputs} {state : HandshakeState}
    (hok : deriveSession prims inputs = .ok state) :
    state.peerIdentityPubkeyB64 = Base64.encode inputs.peerKeys.identity.val ∧
      state.peerSigningPubkeyB64 = Base64.encode inputs.peerKeys.signing.val ∧
      state.peerFingerprintHex =
        computeFingerprintHex prims inputs.peerKeys.identity.val := by
  simp only [deriveSession, bind_eq_ok_iff, pure_eq_ok_iff] at hok
  obtain ⟨_, _, _, _, rfl⟩ := hok
  exact ⟨rfl, rfl, rfl⟩

/-- A session with a peer whose hello was read from the stream and is
authentic: of the profile, timely at a reading of the clock, signed and
pinned. -/
def Authenticated (prims : Primitives) (reader : HelloReader)
    (policy : PeerPolicy) (profile : HandshakeProfile) (now : Option UInt64)
    (state : HandshakeState) (input : Bytes) : Prop :=
  ∃ peerHello keys before hello rest,
    input = before ++ (hello ++ rest) ∧ HelloRead reader peerHello hello ∧
      Authentic prims profile policy now peerHello keys ∧
      state.peerIdentityPubkeyB64 = Base64.encode keys.identity.val ∧
      state.peerSigningPubkeyB64 = Base64.encode keys.signing.val ∧
      state.peerFingerprintHex = computeFingerprintHex prims keys.identity.val

theorem TcpHandshakeWorker.Responded.authenticated
    {worker : TcpHandshakeWorker} {env : TcpWorkerEnv}
    {state : HandshakeState} {input : Bytes}
    (hresponded : Responded prims reader worker env state input) :
    Authenticated prims reader worker.policy worker.profile env.derivedAt.1
      state input := by
  obtain ⟨peerHello, material, received, hello, between, sealed, rfl, hread,
    _, hbuild, _, hstate⟩ := hresponded
  obtain ⟨_, hbuilt⟩ := buildHelloWithProfile_ok hbuild
  obtain ⟨after, hderive, hprofile, _⟩ := responderHandshake_ok hstate
  obtain ⟨inputs, hestablished, hsession⟩ := verifyAndDeriveWithProfile_ok
    hderive
  have hauthentic := hestablished.authentic
  rw [hprofile, hbuilt.profile_eq] at hauthentic
  exact ⟨peerHello, _, [], hello, _, rfl, hread, hauthentic,
    deriveSession_peer hsession⟩

theorem Initiated.authenticated {localIdentity : IdentityKeyPair}
    {policy : PeerPolicy} {profile : HandshakeProfile} {env : TcpClientEnv}
    {state : HandshakeState} {input : Bytes}
    (hinitiated : Initiated prims reader localIdentity policy profile env state
      input) :
    Authenticated prims reader policy profile env.derivedAt.1 state
      input := by
  obtain ⟨peerHello, material, sent, before, hello, rfl, hread, hbuild, _,
    hstate⟩ := hinitiated
  obtain ⟨_, hbuilt⟩ := buildHelloWithProfile_ok hbuild
  obtain ⟨after, hderive, hprofile, _⟩ := initiatorHandshake_ok hstate
  obtain ⟨inputs, hestablished, hsession⟩ := verifyAndDeriveWithProfile_ok
    hderive
  have hauthentic := hestablished.authentic
  rw [hprofile, hbuilt.profile_eq] at hauthentic
  refine ⟨peerHello, _, before, hello, [], ?_, hread, hauthentic,
    deriveSession_peer hsession⟩
  rw [List.append_nil]

/-- Against an end that sends anything, in any pieces, over a connection that
fails anywhere, neither the client nor the worker comes to a session but with a
peer that it has pinned and whose hello, of its own profile, it has read and
found signed, and timely when it derived its session; and the session is what the handshake derives from the
messages that were read. -/
theorem tcp_handshake_authenticates (reader : HelloReader)
    (localIdentity : IdentityKeyPair) (policy : PeerPolicy)
    (profile : HandshakeProfile) (client : TcpClientEnv)
    (requiresCookie : Bool) (server : TcpWorkerEnv) (input output : Bytes)
    (state : HandshakeState) :
    (Faces (tcpHandshakeOnConnectedStream prims reader localIdentity policy
          profile client) input output (pure state) →
        Authenticated prims reader policy profile client.derivedAt.1 state
            input ∧
          Initiated prims reader localIdentity policy profile client state
            input) ∧
      (Faces (TcpHandshakeWorker.run prims reader
          ⟨localIdentity, policy, profile, requiresCookie⟩ server) input output
          (pure state) →
        Authenticated prims reader policy profile server.derivedAt.1 state
            input ∧
          TcpHandshakeWorker.Responded prims reader
            ⟨localIdentity, policy, profile, requiresCookie⟩ server state
              input) := by
  constructor
  · intro hclient
    have hinitiated := (keeps_tcpHandshakeOnConnectedStream localIdentity policy
      profile client _ _ _ hclient).2 state rfl
    exact ⟨hinitiated.authenticated, hinitiated⟩
  · intro hworker
    have hresponded := (TcpHandshakeWorker.keeps_run_responded
      ⟨localIdentity, policy, profile, requiresCookie⟩ server _ _ _
        hworker).2 state rfl
    exact ⟨hresponded.authenticated, hresponded⟩

end Ends

open TcpHandshakeWitness HandshakeWitness in
/-- A client and a worker that come to their sessions with each other. -/
theorem tcp_handshake_authenticates_both :
    (∃ state input, Authenticated totalPrims reader policyA .classicalLab
        client.derivedAt.1 state input) ∧
      ∃ state input, Authenticated totalPrims reader policyB .classicalLab
        server.derivedAt.1 state input := by
  obtain ⟨clientState, serverState, _, hreaches⟩ := ends.reaches reader
  obtain ⟨clientRead, _, serverRead, _, hclient, hserver, _, _⟩ :=
    hreaches.faces
  exact ⟨⟨clientState, clientRead, ((tcp_handshake_authenticates reader
      identityA policyA .classicalLab client true server _ _ _).1 hclient).1⟩,
    ⟨serverState, serverRead, ((tcp_handshake_authenticates reader identityB
      policyB .classicalLab client true server _ _ _).2 hserver).1⟩⟩

end Shph
