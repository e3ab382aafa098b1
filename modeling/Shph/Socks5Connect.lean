/-
The client of the SOCKS5 proxies.  It offers one method of authentication and
no other, shows its credentials to a proxy that has chosen it, names the peer
to a proxy that has taken them, and takes one reply.
-/
import Shph.TcpCookieGate
import Shph.TcpUnderlay

namespace Shph

open ByteCodec Dialogue Identity

section Client

def socks5Version : UInt8 := 5

def socks5NoAuth : UInt8 := 0

def socks5PasswordAuth : UInt8 := 2

/-- A name and a password. -/
abbrev Socks5Authentication := Option (Bytes × Bytes)

def socks5Method (authentication : Socks5Authentication) : UInt8 :=
  if authentication.isSome then socks5PasswordAuth else socks5NoAuth

/-- Both values are there and fit behind one byte for their length. -/
def credentialsFit : Socks5Authentication → Bool
  | none => true
  | some (user, password) =>
      user ≠ [] ∧ password ≠ [] ∧ user.length ≤ 255 ∧ password.length ≤ 255

def socks5Credentials : Socks5Authentication → Bytes
  | none => []
  | some (user, password) =>
      [1, UInt8.ofNat user.length] ++
        (user ++ (UInt8.ofNat password.length :: password))

/-- An address as it stands in a request, behind a byte for its kind. -/
def socks5Address (parseIp : String → Option IpAddr) (host : String) :
    Except ShphError Bytes :=
  match parseIp host with
  | some (.v4 octets) => .ok (1 :: octets.val)
  | some (.v6 octets) => .ok (4 :: octets.val)
  | none => do
      ensure (textBytes host ≠ [] ∧ (textBytes host).length ≤ 255)
        (.invalidArgument "SOCKS5 destination hostname must be 1-255 bytes")
      return 3 :: UInt8.ofNat (textBytes host).length :: textBytes host

def parsePeer (peer : String) : Except ShphError ControlPlane.Endpoint :=
  match ControlPlane.Endpoint.parse peer with
  | .ok endpoint => .ok endpoint
  | .error error => .error (.invalidArgument ("invalid SHPH peer: " ++ error))

def socks5Request (parseIp : String → Option IpAddr) (peer : String) :
    Except ShphError Bytes := do
  let endpoint ← parsePeer peer
  ensure (¬ endpoint.host.toList.any fun char =>
      isControl char || isWhitespace char)
    (.invalidArgument
      "SHPH peer host contains whitespace or control characters")
  let address ← socks5Address parseIp endpoint.host
  return [socks5Version, 1, 0] ++
    (address ++ bigEndian 2 endpoint.port.toNat)

/-- Without a flag to look at, this does nothing. -/
def checkSetupCancellation : Program ShphError Unit := Program.call

def writeSocks5Bytes (payload : Bytes) : Program ShphError Unit := do
  writeTcpAllOrClosedWithDeadline payload
  checkSetupCancellation

def readSocks5Bytes (count : Nat) : Program ShphError Bytes := do
  let bytes ← readExactOrClosedWithDeadline count
  checkSetupCancellation
  return bytes

def socks5Authenticate : Socks5Authentication → Program ShphError Unit
  | none => return ()
  | some authentication => do
      writeSocks5Bytes (socks5Credentials (some authentication))
      let response ← readSocks5Bytes 2
      Program.ofExcept (ensure (response = [1, 0])
        (.auth "SOCKS authentication failed"))

def checkSocks5Reply (header : Bytes) : Except ShphError Unit := do
  ensure (header.getD 0 0 = socks5Version)
    (.protocol "SOCKS5 proxy returned an invalid version")
  ensure (header.getD 2 0 = 0)
    (.protocol "SOCKS5 proxy returned an invalid reserved field")
  ensure (header.getD 1 0 = 0) (.transport
    s!"SOCKS5 CONNECT failed with reply code {header.getD 1 0}")

def skipSocks5Bytes (count : Nat) : Program ShphError Unit := do
  let _ ← readSocks5Bytes count
  return ()

/-- The address the proxy says it is bound to. -/
def readSocks5Address : UInt8 → Program ShphError Unit
  | 1 => skipSocks5Bytes 4
  | 3 => do
      let length ← readSocks5Bytes 1
      skipSocks5Bytes (length.getD 0 0).toNat
  | 4 => skipSocks5Bytes 16
  | value => Program.fail (.protocol
      s!"SOCKS5 proxy returned an invalid address type {value}")

def readSocks5Reply : Program ShphError Unit := do
  let header ← readSocks5Bytes 4
  Program.ofExcept (checkSocks5Reply header)
  readSocks5Address (header.getD 3 0)
  skipSocks5Bytes 2

/-- The client once the proxy has chosen a method. -/
def proceedSocks5 (parseIp : String → Option IpAddr) (peer : String)
    (authentication : Socks5Authentication) (response : Bytes) :
    Program ShphError Unit := do
  Program.ofExcept (ensure
    (response = [socks5Version, socks5Method authentication])
    (.transport "SOCKS5 proxy rejected the required authentication method"))
  socks5Authenticate authentication
  let request ← Program.ofExcept (socks5Request parseIp peer)
  writeSocks5Bytes request
  readSocks5Reply
  checkSetupCancellation

def socks5ConnectAuthenticatedWithCancel
    (parseIp : String → Option IpAddr) (peer : String)
    (authentication : Socks5Authentication) : Program ShphError Unit := do
  Program.ofExcept (ensure (credentialsFit authentication)
    (.config "SOCKS authentication values must be 1..255 bytes"))
  writeSocks5Bytes [socks5Version, 1, socks5Method authentication]
  let response ← readSocks5Bytes 2
  proceedSocks5 parseIp peer authentication response

end Client

section Parts

theorem writes_writeSocks5Bytes (payload : Bytes) :
    Writes (writeSocks5Bytes payload) payload := by
  have hwrites : Writes (writeSocks5Bytes payload) (payload ++ []) :=
    Writes.bind (Conducts.sync (Writes.send payload)) Writes.call
  rwa [List.append_nil] at hwrites

theorem reads_readSocks5Bytes (count : Nat) :
    Reads (readSocks5Bytes count) count fun value input =>
      value = input ∧ input.length = count :=
  Reads.checked (Conducts.sync (Reads.readExact _ count))

theorem reads_skipSocks5Bytes (count : Nat) :
    Reads (skipSocks5Bytes count) count fun _ input =>
      input.length = count := by
  have hreads := (reads_readSocks5Bytes count).bind
    (fun _ => Reads.pure ()) 0 fun _ _ _ => Nat.le_refl 0
  apply hreads.mono (Nat.le_refl count)
  intro value input
  constructor
  · intro hlength
    exact ⟨input, input, [], ⟨rfl, hlength⟩, ⟨rfl, rfl⟩, by simp⟩
  · rintro ⟨_, before, _, ⟨rfl, hlength⟩, ⟨_, rfl⟩, rfl⟩
    rwa [List.append_nil]

end Parts

section Reply

/-- An address behind a byte for its kind. -/
def IsSocks5Address (bytes : Bytes) : Prop :=
  (∃ octets : Bytes, bytes = 1 :: octets ∧ octets.length = 4) ∨
    (∃ name : Bytes, bytes = 3 :: UInt8.ofNat name.length :: name ∧
      name.length ≤ 255) ∨
    ∃ octets : Bytes, bytes = 4 :: octets ∧ octets.length = 16

theorem IsSocks5Address.exists_cons {bytes : Bytes}
    (haddress : IsSocks5Address bytes) : ∃ kind rest, bytes = kind :: rest := by
  rcases haddress with ⟨octets, rfl, _⟩ | ⟨name, rfl, _⟩ | ⟨octets, rfl, _⟩
  · exact ⟨_, _, rfl⟩
  · exact ⟨_, _, rfl⟩
  · exact ⟨_, _, rfl⟩

/-- The longest reply there is. -/
def maxSocks5Reply : Nat := 4 + (256 + 2)

/-- A reply that opens the connection. -/
def Socks5Accepts (reply : Bytes) : Prop :=
  ∃ address port, reply = [socks5Version, 0, 0] ++ (address ++ port) ∧
    IsSocks5Address address ∧ port.length = 2

theorem checkSocks5Reply_eq_ok_iff {header : Bytes}
    (hlength : header.length = 4) :
    checkSocks5Reply header = .ok () ↔
      header = [socks5Version, 0, 0, header.getD 3 0] := by
  obtain ⟨version, code, reserved, kind, rfl⟩ :=
    List.length_eq_four.mp hlength
  simp only [checkSocks5Reply, bind_eq_ok_iff, ensure_eq_ok_iff]
  simp [and_comm]

theorem reads_readSocks5Address (kind : UInt8) :
    Reads (readSocks5Address kind) 256 fun _ input =>
      IsSocks5Address (kind :: input) := by
  unfold readSocks5Address
  split
  · apply (reads_skipSocks5Bytes 4).mono (by decide)
    simp [IsSocks5Address]
  · have hreads := (reads_readSocks5Bytes 1).bind
      (fun length => reads_skipSocks5Bytes (length.getD 0 0).toNat) 255
      fun length _ _ => Nat.le_of_lt_succ (length.getD 0 0).toNat_lt
    apply hreads.mono (by decide)
    intro _ input
    constructor
    · rintro (⟨_, h, _⟩ | ⟨name, h, hlength⟩ | ⟨_, h, _⟩)
      · simp at h
      · obtain rfl := (List.cons.inj h).2
        refine ⟨_, [UInt8.ofNat name.length], name, ⟨rfl, rfl⟩, ?_, rfl⟩
        rw [List.getD_cons_zero, UInt8.toNat_ofNat']
        omega
      · simp at h
    · rintro ⟨_, length, name, ⟨rfl, hone⟩, hname, rfl⟩
      obtain ⟨byte, rfl⟩ := List.length_eq_one_iff.mp hone
      rw [List.getD_cons_zero] at hname
      have hbyte := byte.toNat_lt
      refine Or.inr (Or.inl ⟨name, ?_, by omega⟩)
      rw [hname, UInt8.ofNat_toNat]
      rfl
  · apply (reads_skipSocks5Bytes 16).mono (by decide)
    simp [IsSocks5Address]
  · rename_i hone hthree hfour
    apply (Reads.fail _).mono (Nat.zero_le _)
    intro _ input
    simp only [iff_false]
    rintro (⟨_, h, _⟩ | ⟨_, h, _⟩ | ⟨_, h, _⟩)
    · exact hone (List.cons.inj h).1
    · exact hthree (List.cons.inj h).1
    · exact hfour (List.cons.inj h).1

theorem reads_readSocks5Reply :
    Reads readSocks5Reply maxSocks5Reply fun _ input =>
      Socks5Accepts input := by
  have hreads := (reads_readSocks5Bytes 4).bind
    (fun header => (Reads.ofExcept (checkSocks5Reply header)).bind
      (fun _ => (reads_readSocks5Address (header.getD 3 0)).bind
        (fun _ => reads_skipSocks5Bytes 2) 2 fun _ _ _ => Nat.le_refl 2)
      258 fun _ _ _ => Nat.le_refl 258)
    258 fun _ _ _ => Nat.le_refl 258
  apply hreads.mono (Nat.le_refl _)
  intro _ reply
  constructor
  · rintro ⟨address, port, rfl, haddress, hport⟩
    obtain ⟨kind, rest, rfl⟩ := haddress.exists_cons
    exact ⟨[socks5Version, 0, 0, kind], _, rest ++ port, ⟨rfl, rfl⟩,
      ⟨(), [], _, ⟨(checkSocks5Reply_eq_ok_iff rfl).mpr rfl, rfl⟩,
        ⟨(), rest, port, haddress, hport, rfl⟩, rfl⟩, rfl⟩
  · rintro ⟨header, _, _, ⟨rfl, hheader⟩, ⟨_, _, _, ⟨hchecked, rfl⟩,
      ⟨_, rest, port, haddress, hport, rfl⟩, rfl⟩, rfl⟩
    refine ⟨_, port, ?_, haddress, hport⟩
    nth_rewrite 1 [(checkSocks5Reply_eq_ok_iff hheader).mp hchecked]
    rfl

end Reply

section Connect

variable (parseIp : String → Option IpAddr) (peer : String)
  (authentication : Socks5Authentication)

def socks5Greeting : Bytes := [socks5Version, 1, socks5Method authentication]

/-- The proxy has chosen the method that was offered. -/
def socks5Selection : Bytes := [socks5Version, socks5Method authentication]

/-- The proxy has taken the credentials. -/
def socks5Confirmation : Bytes := if authentication.isSome then [1, 0] else []

/-- What goes to the proxy to name the peer, if it can be named. -/
def socks5Requested : Bytes := (socks5Request parseIp peer).toOption.getD []

/-- What has been read and written before the client is done: nothing but its
three messages in their order, the credentials only for a proxy that has chosen
them, the name of the peer only for a proxy that has taken the credentials. -/
structure Socks5Guarded (input output : Bytes) : Prop where
  front : output <+: socks5Greeting authentication ++
    (socks5Credentials authentication ++ socks5Requested parseIp peer)
  selected : 3 < output.length → socks5Selection authentication <+: input
  confirmed : 3 + (socks5Credentials authentication).length < output.length →
    socks5Selection authentication ++ socks5Confirmation authentication <+:
      input
  input_le : input.length ≤ 2 + (2 + maxSocks5Reply)

theorem conducts_socks5Authenticate :
    Conducts (socks5Authenticate authentication)
      (fun input output => input.length ≤ 2 ∧
        output <+: socks5Credentials authentication)
      fun _ input output => input = socks5Confirmation authentication ∧
        output = socks5Credentials authentication := by
  cases authentication with
  | none =>
      refine Conducts.mono (Conducts.ofExcept (.ok ()) ?_) (fun _ _ h => h) ?_
      · exact ⟨Nat.zero_le 2, List.nil_prefix⟩
      · intro _ input output
        simp [socks5Confirmation, socks5Credentials]
  | some credentials =>
      have hresponse := (reads_readSocks5Bytes 2).bind
        (fun response => Reads.ofExcept (ensure (response = [1, 0])
          (.auth "SOCKS authentication failed"))) 0 fun _ _ _ => Nat.le_refl 0
      apply Conducts.bind (writes_writeSocks5Bytes _) fun _ => hresponse
      · rintro input output ⟨rfl, houtput⟩
        exact ⟨Nat.zero_le 2, houtput⟩
      · rintro _ _ _ input _ ⟨rfl, rfl⟩ ⟨hinput, rfl⟩
        rw [List.append_nil]
        exact ⟨hinput, List.prefix_refl _⟩
      · intro _ input output
        constructor
        · rintro ⟨rfl, rfl⟩
          exact ⟨(), [], _, _, [], ⟨rfl, rfl⟩, ⟨⟨[1, 0], [1, 0], [],
            ⟨rfl, rfl⟩, ⟨rfl, rfl⟩, rfl⟩, rfl⟩, rfl, by simp⟩
        · rintro ⟨_, _, _, _, _, ⟨rfl, rfl⟩, ⟨⟨_, response, _, ⟨rfl, _⟩,
            ⟨hconfirmed, rfl⟩, rfl⟩, rfl⟩, rfl, rfl⟩
          rw [ensure_eq_ok_iff] at hconfirmed
          subst hconfirmed
          exact ⟨rfl, List.append_nil _⟩

variable {parseIp peer authentication}

/-- Until the greeting is out, nothing has been promised. -/
theorem Socks5Guarded.greeting {sent : Bytes}
    (hsent : sent <+: socks5Greeting authentication) :
    Socks5Guarded parseIp peer authentication [] sent := by
  have hlength : sent.length ≤ 3 := hsent.length_le
  exact ⟨hsent.trans (List.prefix_append _ _), fun h => by omega,
    fun h => by omega, Nat.zero_le _⟩

/-- Before the method is chosen, and while it is read. -/
theorem Socks5Guarded.selecting {input : Bytes} (hinput : input.length ≤ 2) :
    Socks5Guarded parseIp peer authentication input
      (socks5Greeting authentication) := by
  have hlength : (socks5Greeting authentication).length = 3 := rfl
  exact ⟨List.prefix_append _ _, fun h => by omega, fun h => by omega,
    hinput.trans (Nat.le_add_right _ _)⟩

/-- While the credentials are shown and looked at. -/
theorem Socks5Guarded.authenticating {input output : Bytes}
    (hinput : input.length ≤ 2)
    (houtput : output <+: socks5Credentials authentication) :
    Socks5Guarded parseIp peer authentication
      (socks5Selection authentication ++ input)
      (socks5Greeting authentication ++ output) := by
  have hlength := houtput.length_le
  have hgreeting : (socks5Greeting authentication).length = 3 := rfl
  have hselection : (socks5Selection authentication).length = 2 := rfl
  refine ⟨(List.prefix_append_right_inj _).mpr
    (houtput.trans (List.prefix_append _ _)),
    fun _ => List.prefix_append _ _, fun h => ?_, ?_⟩
  · rw [List.length_append] at h
    omega
  · rw [List.length_append]
    omega

/-- While the peer is named and the reply is read. -/
theorem Socks5Guarded.requesting {input output : Bytes}
    (hinput : input.length ≤ maxSocks5Reply)
    (houtput : output <+: socks5Requested parseIp peer) :
    Socks5Guarded parseIp peer authentication
      (socks5Selection authentication ++
        (socks5Confirmation authentication ++ input))
      (socks5Greeting authentication ++
        (socks5Credentials authentication ++ output)) := by
  have hconfirmation : (socks5Confirmation authentication).length ≤ 2 := by
    unfold socks5Confirmation
    split
    · exact Nat.le_refl _
    · exact Nat.zero_le _
  have hselection : (socks5Selection authentication).length = 2 := rfl
  refine ⟨?_, fun _ => List.prefix_append _ _, fun _ => ?_, ?_⟩
  · exact (List.prefix_append_right_inj _).mpr
      ((List.prefix_append_right_inj _).mpr houtput)
  · exact (List.prefix_append_right_inj _).mpr (List.prefix_append _ _)
  · simp only [List.length_append]
    omega

/-- What the proxy has sent when it has opened the connection. -/
def Socks5Opens (authentication : Socks5Authentication) (input : Bytes) :
    Prop :=
  ∃ reply, Socks5Accepts reply ∧
    input = socks5Selection authentication ++
      (socks5Confirmation authentication ++ reply)

theorem keeps_socks5Connect :
    Keeps (socks5ConnectAuthenticatedWithCancel parseIp peer authentication)
      (Socks5Guarded parseIp peer authentication)
      fun _ input output => credentialsFit authentication = true ∧
        (∃ request, socks5Request parseIp peer = .ok request) ∧
          Socks5Opens authentication input ∧
            output = socks5Greeting authentication ++
              (socks5Credentials authentication ++
                socks5Requested parseIp peer) := by
  apply Keeps.ofExcept_bind (.greeting List.nil_prefix)
  intro _ hfit
  rw [ensure_eq_ok_iff] at hfit
  apply (writes_writeSocks5Bytes _).andThen
  · intro sent hsent
    exact .greeting hsent
  apply Keeps.bind (reads_readSocks5Bytes 2).keeps
  · rintro input output ⟨hinput, rfl⟩
    rw [List.append_nil]
    exact .selecting hinput
  rintro response selection _ ⟨⟨rfl, hlength⟩, rfl⟩
  apply Keeps.ofExcept_bind
  · rw [List.append_nil, List.append_nil]
    exact .selecting hlength.le
  intro _ hselected
  rw [ensure_eq_ok_iff] at hselected
  obtain rfl : response = socks5Selection authentication := hselected
  apply Keeps.bind (conducts_socks5Authenticate authentication).keeps
  · rintro input output ⟨hinput, houtput⟩
    exact .authenticating hinput houtput
  rintro _ _ _ ⟨rfl, rfl⟩
  apply Keeps.ofExcept_bind
  · exact .requesting (Nat.zero_le _) List.nil_prefix
  intro request hrequest
  have hrequested : socks5Requested parseIp peer = request := by
    rw [socks5Requested, hrequest]
    rfl
  apply (writes_writeSocks5Bytes _).andThen
  · intro sent hsent
    exact .requesting (Nat.zero_le _) (hrequested ▸ hsent)
  apply Keeps.bind reads_readSocks5Reply.keeps
  · rintro input output ⟨hinput, rfl⟩
    rw [List.append_nil, ← hrequested]
    exact .requesting hinput (List.prefix_refl _)
  rintro _ reply _ ⟨hreply, rfl⟩
  have hguarded : Socks5Guarded parseIp peer authentication
      (socks5Selection authentication ++
        (socks5Confirmation authentication ++ reply))
      (socks5Greeting authentication ++
        (socks5Credentials authentication ++ request)) :=
    .requesting (reads_readSocks5Reply.length_le () hreply)
      (hrequested ▸ List.prefix_refl _)
  apply Writes.call.keeps.mono
  · rintro input output ⟨rfl, hsent⟩
    obtain rfl := List.prefix_nil.mp hsent
    simp only [List.append_nil]
    exact hguarded
  · rintro _ input output ⟨rfl, rfl⟩
    simp only [List.append_nil]
    exact ⟨hfit, ⟨request, hrequest⟩, ⟨reply, hreply, rfl⟩,
      by rw [hrequested]; rfl⟩

theorem talks_socks5Connect {request reply : Bytes}
    (hfit : credentialsFit authentication = true)
    (hrequest : socks5Request parseIp peer = .ok request)
    (hreply : Socks5Accepts reply) :
    Talks (socks5ConnectAuthenticatedWithCancel parseIp peer authentication)
      (socks5Selection authentication ++
        (socks5Confirmation authentication ++ reply))
      (socks5Greeting authentication ++
        (socks5Credentials authentication ++ request)) (pure ()) := by
  have hselection : Talks (readSocks5Bytes 2) (socks5Selection authentication)
      [] (pure (socks5Selection authentication)) :=
    (reads_readSocks5Bytes 2).run _ ⟨rfl, rfl⟩
  have hauthenticated := (conducts_socks5Authenticate authentication).talks ()
    _ _ ⟨rfl, rfl⟩
  exact Talks.cast ((talks_ensure hfit _).andThen
    ((writes_writeSocks5Bytes _).run.andThen
      (hselection.andThen ((talks_ensure rfl _).andThen
        (hauthenticated.andThen
          ((Talks.ofExcept hrequest).andThen
            ((writes_writeSocks5Bytes request).run.andThen
              ((reads_readSocks5Reply.run () hreply).andThen Talks.call))))))))
    (by simp) (by simp [socks5Greeting])

theorem coherent_socks5Connect :
    (socks5ConnectAuthenticatedWithCancel parseIp peer
      authentication).Coherent := by
  have hproceed (response : Bytes) :
      (proceedSocks5 parseIp peer authentication response).Coherent :=
    (Program.coherent_ofExcept _).bind fun _ =>
      (conducts_socks5Authenticate authentication).coherent.bind fun _ =>
        (Program.coherent_ofExcept _).bind fun _ =>
          (writes_writeSocks5Bytes _).coherent.bind fun _ =>
            reads_readSocks5Reply.coherent.bind fun _ => Program.coherent_call
  exact (Program.coherent_ofExcept _).bind fun _ =>
    (writes_writeSocks5Bytes _).coherent.bind fun _ =>
      (reads_readSocks5Bytes 2).coherent.bind hproceed

variable (parseIp peer authentication)

/-- Whatever the proxy sends and wherever the connection breaks, the client
keeps to its order; and it is done if and only if it could name the peer and
the proxy has sent its choice, its consent and a reply that opens the
connection, not a byte more of which is taken. -/
theorem socks5_connect_iff :
    (∀ input output next, Faces (socks5ConnectAuthenticatedWithCancel parseIp
        peer authentication) input output next →
      Socks5Guarded parseIp peer authentication input output) ∧
    ∀ input output, Faces (socks5ConnectAuthenticatedWithCancel parseIp peer
        authentication) input output (pure ()) ↔
      credentialsFit authentication = true ∧
        (∃ request, socks5Request parseIp peer = .ok request) ∧
          Socks5Opens authentication input ∧
            output = socks5Greeting authentication ++
              (socks5Credentials authentication ++
                socks5Requested parseIp peer) := by
  refine ⟨fun input output next hfaces =>
    (keeps_socks5Connect input output next hfaces).1, fun input output => ?_⟩
  constructor
  · intro hfaces
    exact (keeps_socks5Connect input output _ hfaces).2 () rfl
  · rintro ⟨hfit, ⟨request, hrequest⟩, ⟨reply, hreply, rfl⟩, rfl⟩
    rw [socks5Requested, hrequest]
    exact (talks_socks5Connect hfit hrequest hreply).faces

end Connect

end Shph
