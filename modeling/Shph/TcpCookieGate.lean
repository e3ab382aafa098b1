/-
The cookie in front of the TCP handshake.  A worker that asks for a cookie
does nothing for its peer before the cookie came back, whatever the peer sends
and whenever the connection breaks: all it writes until then is the challenge,
and a peer that gets further has sent a tag of the authority for its address.
-/
import Shph.TcpHandshakeRun

namespace Shph

open ByteCodec Dialogue StatefulRun TcpHandshakeWorker
section Gate

/-- All that a worker writes before the cookie came back. -/
def challengeOf (issued : Except ShphError (FixedBytes 32)) : Bytes :=
  match issued with
  | .ok cookie => cookieLine cookieChallengePrefix cookie.val
  | .error _ => []

/-- The peer has sent a hello line at the most, and a line that does not bring
back a cookie that holds.  It has got nothing before its first line was
complete, and after that no more than the challenge. -/
def Unanswered (env : TcpWorkerEnv) (input output : Bytes) : Prop :=
  input.length ≤ (maxHelloBytes + 2) + (maxCookieLineBytes + 2) ∧
    output <+: challengeOf env.issued ∧
      (output ≠ [] → ∃ hello rest line, input = hello ++ rest ∧
        LineRead maxHelloBytes line hello)

/-- The peer has sent a hello line and brought a cookie back that holds. -/
def Answered (env : TcpWorkerEnv) (response input : Bytes) : Prop :=
  ∃ hello back rest line, input = hello ++ (back ++ rest) ∧
    LineRead maxHelloBytes line hello ∧ BringsCookie response back ∧
      env.verified response = .ok true

theorem keeps_passCookie (env : TcpWorkerEnv) :
    Keeps (passCookie true env)
      (fun input output => input.length ≤ maxCookieLineBytes + 2 ∧
        output <+: challengeOf env.issued)
      fun _ input _ => ∃ response, BringsCookie response input ∧
        env.verified response = .ok true := by
  have hstart : ([] : Bytes).length ≤ maxCookieLineBytes + 2 ∧
      ([] : Bytes) <+: challengeOf env.issued :=
    ⟨Nat.zero_le _, List.nil_prefix⟩
  rw [passCookie, if_pos rfl]
  cases hissued : env.issued with
  | error error => exact Keeps.fail (by rwa [hissued] at hstart)
  | ok cookie =>
      rw [Program.ofExcept_ok_bind]
      apply (writes_writeTcpCookieLine _ _).andThen
      · intro sent hsent
        exact ⟨Nat.zero_le _, hsent⟩
      · apply (reads_acceptCookie env).keeps.mono
        · rintro input output ⟨hinput, rfl⟩
          exact ⟨hinput, by rw [List.append_nil]; rfl⟩
        · rintro _ input output ⟨hresponse, _⟩
          exact hresponse

/-- Whatever the peer does, a worker that asks for a cookie goes past the
challenge only after the cookie came back. -/
theorem keeps_run {prims : Primitives} (reader : HelloReader)
    (worker : TcpHandshakeWorker) (env : TcpWorkerEnv)
    (hcookie : worker.requiresCookie = true) :
    Keeps (worker.run prims reader env)
      (fun input output => Unanswered env input output ∨
        ∃ response, Answered env response input)
      fun _ input _ => ∃ response, Answered env response input := by
  have hsilent {input : Bytes} (hinput : input.length ≤ maxHelloBytes + 2) :
      Unanswered env input [] :=
    ⟨hinput.trans (Nat.le_add_right _ _), List.nil_prefix,
      fun hne => absurd rfl hne⟩
  rw [TcpHandshakeWorker.run]
  apply Keeps.ofExcept_bind (Or.inl (hsilent (Nat.zero_le _)))
  intro _ _
  rw [Program.call_bind]
  apply Keeps.sync
  rw [readTcpHello, Program.bind_assoc]
  apply Keeps.bind (reads_readTcpLine _).keeps
  · rintro input output ⟨hinput, rfl⟩
    exact Or.inl (hsilent hinput)
  rintro line hello _ ⟨hline, rfl⟩
  have hlength := hline.length_le
  have hread : Unanswered env (hello ++ []) ([] ++ []) := by
    rw [List.append_nil]
    exact hsilent hlength
  apply Keeps.ofExcept_bind (Or.inl hread)
  intro peerHello _
  apply Keeps.ofExcept_bind (Or.inl hread)
  intro _ _
  rw [hcookie]
  apply Keeps.bind (keeps_passCookie env)
  · rintro input output ⟨hinput, hfront⟩
    refine Or.inl ⟨?_, hfront, fun _ => ⟨hello, input, line, rfl, hline⟩⟩
    rw [List.length_append]
    omega
  · rintro _ back _ ⟨response, hback, hverified⟩
    have hanswered (rest : Bytes) :
        Answered env response (hello ++ (back ++ rest)) :=
      ⟨hello, back, rest, line, rfl, hline, hback, hverified⟩
    intro input output next _
    exact ⟨Or.inr ⟨response, hanswered input⟩,
      fun _ _ => ⟨response, hanswered input⟩⟩

end Gate

section Authority

open StatelessCookieAuthority

/-- What the authority lets pass is one of its tags for the address. -/
theorem verify_eq_true {hmac : Key → Bytes → FixedBytes 32}
    {authority : StatelessCookieAuthority} {peer : SocketAddr}
    {cookie : Bytes} {clock : CookieEnv}
    (hverify : (authority.verify hmac peer cookie clock).1 = .ok true) :
    ∃ epoch, currentEpoch clock.now = .ok epoch ∧
      ∃ tag ∈ (authority.rotateTo epoch clock.entropy).2.expectedTags hmac peer
        epoch, cookie = tag.val := by
  unfold verify at hverify
  split at hverify
  · simp at hverify
  · cases hepoch : currentEpoch clock.now with
    | error error => simp [hepoch] at hverify
    | ok epoch =>
        refine ⟨epoch, rfl, ?_⟩
        simp only [hepoch] at hverify
        cases hrotate : authority.rotateTo epoch clock.entropy with
        | mk result next =>
            rw [hrotate] at hverify
            cases result with
            | error error => simp at hverify
            | ok done =>
                apply (countMatches_ne_zero_iff _ _).mp
                simpa using hverify

/-- The cookies a peer can bring back after these calls on the authority. -/
def IsTag (hmac : Key → Bytes → FixedBytes 32)
    (start : StatelessCookieAuthority) (calls : List CookieCall)
    (peer : SocketAddr) (clock : CookieEnv) (cookie : Bytes) : Prop :=
  ∃ epoch, currentEpoch clock.now = .ok epoch ∧
    ∃ secret ∈ start.runSecrets
        (calls ++ [⟨.verify peer cookie, clock⟩]),
      ∃ candidate ∈ [epoch, epoch - 1],
        cookie = (mac hmac secret peer candidate).val

theorem verify_run_eq_true {hmac : Key → Bytes → FixedBytes 32}
    {start : StatelessCookieAuthority} {calls : List CookieCall}
    {peer : SocketAddr} {cookie : Bytes} {clock : CookieEnv}
    (hverify : ((final (serve hmac) start calls).verify hmac peer cookie
      clock).1 = .ok true) :
    IsTag hmac start calls peer clock cookie := by
  obtain ⟨epoch, hepoch, tag, htag, rfl⟩ := verify_eq_true hverify
  obtain ⟨secret, hsecret, candidate, hcandidate, rfl⟩ :=
    (mem_expectedTags_iff hmac).mp htag
  refine ⟨epoch, hepoch, secret, ?_, candidate, hcandidate, rfl⟩
  have hmem := serve_run_mem hmac start calls
  have hold {key : Key} (hkey : key ∈ start.runSecrets calls) :
      key ∈ start.runSecrets (calls ++
        [⟨.verify peer (mac hmac secret peer candidate).val, clock⟩]) := by
    simp only [runSecrets, List.mem_cons, List.filterMap_append,
      List.mem_append] at hkey ⊢
    tauto
  rcases rotateTo_cases (final (serve hmac) start calls) epoch clock.entropy
    with hkeep | ⟨_, fresh, hfresh, hnext⟩
  · rw [hkeep] at hsecret
    simp only [List.mem_cons, List.not_mem_nil, or_false] at hsecret
    rcases hsecret with rfl | rfl
    · exact hold hmem.2.1
    · exact hold hmem.2.2
  · rw [hnext] at hsecret
    simp only [rotated, List.mem_cons, List.not_mem_nil, or_false] at hsecret
    rcases hsecret with rfl | rfl
    · simp [runSecrets, hfresh]
    · exact hold hmem.2.1

/-- The gate.  Against every peer and every fault of the connection, and after
any calls that other workers have made on the authority, a worker that asks for
a cookie has no session and has written no more than the challenge, until its
peer has sent back a tag of the authority for its own address, of the present
epoch or the one before. -/
theorem tcp_cookie_gate {prims : Primitives} (reader : HelloReader)
    (worker : TcpHandshakeWorker) (env : TcpWorkerEnv)
    (hmac : Key → Bytes → FixedBytes 32) (start : StatelessCookieAuthority)
    (calls : List CookieCall) (peer : SocketAddr) (clock : CookieEnv)
    (hcookie : worker.requiresCookie = true)
    (hverified : ∀ response, env.verified response =
      ((final (serve hmac) start calls).verify hmac peer response clock).1)
    {input output : Bytes} {next : Program ShphError HandshakeState}
    (hfaces : Faces (worker.run prims reader env) input output next) :
    (Unanswered env input output ∧ ∀ state, next ≠ pure state) ∨
      ∃ response, Answered env response input ∧
        IsTag hmac start calls peer clock response := by
  have hkeeps := keeps_run reader worker env hcookie _ _ _ hfaces
  have hpassed : (∃ response, Answered env response input) →
      ∃ response, Answered env response input ∧
        IsTag hmac start calls peer clock response := by
    rintro ⟨response, hanswered⟩
    obtain ⟨_, _, _, _, _, _, _, hverify⟩ := id hanswered
    rw [hverified] at hverify
    exact ⟨response, hanswered, verify_run_eq_true hverify⟩
  rcases hkeeps.1 with hunanswered | hanswered
  · by_cases hreturned : ∃ state, next = pure state
    · obtain ⟨state, hstate⟩ := hreturned
      exact Or.inr (hpassed (hkeeps.2 state hstate))
    · exact Or.inl ⟨hunanswered, fun state hstate => hreturned ⟨state, hstate⟩⟩
  · exact Or.inr (hpassed hanswered)

end Authority

namespace TcpCookieGateWitness

open StatelessCookieAuthority TcpHandshakeWitness

/-- One epoch after the cookie was issued. -/
def clock : CookieEnv := (CookieWitness.verifying CookieWitness.peer).env

def env : TcpWorkerEnv :=
  { TcpHandshakeWitness.server with
    issued := .ok CookieWitness.cookie
    verified := fun response =>
      ((final (serve CookieWitness.hmac) CookieWitness.start
        [CookieWitness.issuing]).verify CookieWitness.hmac CookieWitness.peer
          response clock).1 }

/-- The hello of a client and its answer to the challenge. -/
def sent : Bytes :=
  valueOf _ (frame_isOk clientMaterial.localHello) ++
    [BufferedLines.newline] ++
      cookieLine cookieResponsePrefix CookieWitness.cookie.val

theorem answers : ∃ next,
    Faces (worker.run HandshakeWitness.totalPrims reader env) sent
      (cookieLine cookieChallengePrefix CookieWitness.cookie.val) next := by
  obtain ⟨⟨tail, hframe⟩, hlength⟩ := ends.clientFrame_fits
  have hcancelled : Talks (checkCancelled false) [] []
      (pure ()) := HonestEnds.talks_checkCancelled rfl
  have hverified : env.verified CookieWitness.cookie.val = .ok true := by decide
  have haccept : Talks (acceptCookie env)
      (cookieLine cookieResponsePrefix CookieWitness.cookie.val) [] (pure ()) :=
    (reads_acceptCookie env).run ()
      ⟨_, bringsCookie_cookieLine CookieWitness.cookie, hverified⟩
  have hpass : Talks (passCookie true env)
      (cookieLine cookieResponsePrefix CookieWitness.cookie.val)
      (cookieLine cookieChallengePrefix CookieWitness.cookie.val)
      (pure ()) :=
    Talks.cast (Talks.andThen
      (Talks.ofExcept (rfl : env.issued = .ok CookieWitness.cookie))
      (Talks.andThen (writes_writeTcpCookieLine _ _).run haccept)) (by simp)
      (by simp)
  exact ⟨_, Talks.faces (Talks.cast (Talks.andThen hcancelled
    (Talks.andThen Talks.call (Talks.andThen
      (talks_readTcpHello hframe hlength) (Talks.andThen hcancelled
        (Talks.andThen hpass (Talks.refl _)))))) (by simp [sent]) (by simp))⟩

end TcpCookieGateWitness

open TcpCookieGateWitness TcpHandshakeWitness in
/-- A client that answers the challenge with the cookie it was sent. -/
theorem tcp_cookie_gate_answered : ∃ output next,
    Faces (worker.run HandshakeWitness.totalPrims reader env) sent output
        next ∧
      ((Unanswered env sent output ∧ ∀ state, next ≠ pure state) ∨
        ∃ response, Answered env response sent ∧
          IsTag CookieWitness.hmac CookieWitness.start [CookieWitness.issuing]
            CookieWitness.peer clock response) := by
  obtain ⟨next, hfaces⟩ := answers
  exact ⟨_, next, hfaces, tcp_cookie_gate reader worker env CookieWitness.hmac
    CookieWitness.start [CookieWitness.issuing] CookieWitness.peer clock rfl
    (fun _ => rfl) hfaces⟩

end Shph
