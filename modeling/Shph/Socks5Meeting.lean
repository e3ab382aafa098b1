/-
The SOCKS5 client at the SOCKS5 server of the edge.  Every request that the
client makes is one that the edge takes, so what the two come to depends only
on the peer, on the credentials and on what the edge is answered.
-/
import Shph.EdgeSocks5

namespace Shph.Edge

open ByteCodec Dialogue Identity Relation

section Request

/-- A character that may stand in a host has no byte that the edge refuses. -/
theorem isControlOrWhitespace_utf8EncodeChar {char : Char} {byte : UInt8}
    (hcontrol : isControl char = false) (hspace : isWhitespace char = false)
    (hbyte : byte ∈ String.utf8EncodeChar char) :
    isControlOrWhitespace byte = false := by
  have hcode : 0x20 < char.val.toNat ∧ char.val.toNat ≠ 0x7f := by
    change 0x20 < char.toNat ∧ char.toNat ≠ 0x7f
    simp only [isControl, Bool.or_eq_false_iff, Bool.and_eq_false_iff,
      decide_eq_false_iff_not] at hcontrol
    simp only [isWhitespace, Bool.or_eq_false_iff, beq_eq_false_iff_ne]
      at hspace
    omega
  have hplain (number : Nat)
      (hnumber : 0x20 < number % 256 ∧ number % 256 ≠ 0x7f) :
      isControlOrWhitespace (UInt8.ofNat number) = false := by
    have htoNat : (UInt8.ofNat number).toNat = number % 256 :=
      UInt8.toNat_ofNat'
    simp only [isControlOrWhitespace, Bool.or_eq_false_iff,
      decide_eq_false_iff_not, beq_eq_false_iff_ne, UInt8.le_iff_toNat_le,
      htoNat]
    refine ⟨Nat.not_le.mpr hnumber.1, fun heq => hnumber.2 ?_⟩
    rw [← htoNat, heq]
    rfl
  unfold String.utf8EncodeChar at hbyte
  dsimp only at hbyte
  split_ifs at hbyte <;>
    simp only [List.mem_cons, List.not_mem_nil, or_false] at hbyte
  · rw [hbyte]
    exact hplain _ (by omega)
  · rcases hbyte with rfl | rfl
    · exact hplain _ (by omega)
    · exact hplain _ (by omega)
  · rcases hbyte with rfl | rfl | rfl
    · exact hplain _ (by omega)
    · exact hplain _ (by omega)
    · exact hplain _ (by omega)
  · rcases hbyte with rfl | rfl | rfl | rfl
    · exact hplain _ (by omega)
    · exact hplain _ (by omega)
    · exact hplain _ (by omega)
    · exact hplain _ (by omega)

theorem plain_textBytes {host : String}
    (hhost : ¬ host.toList.any fun char =>
      isControl char || isWhitespace char) :
    (textBytes host).any isControlOrWhitespace = false := by
  rw [Bool.not_eq_true, List.any_eq_false] at hhost
  rw [textBytes_eq_flatMap, List.any_eq_false]
  intro byte hbyte
  obtain ⟨char, hchar, hmem⟩ := List.mem_flatMap.mp hbyte
  have hplain := hhost char hchar
  rw [Bool.not_eq_true, Bool.or_eq_false_iff] at hplain
  rw [isControlOrWhitespace_utf8EncodeChar hplain.1 hplain.2 hmem]
  exact Bool.false_ne_true

theorem isSocks5Target_of_address {parseIp : String → Option IpAddr}
    {host : String} {address : Bytes}
    (hhost : ¬ host.toList.any fun char => isControl char || isWhitespace char)
    (haddress : socks5Address parseIp host = .ok address) :
    IsSocks5Target address := by
  unfold socks5Address at haddress
  split at haddress
  · rename_i octets _
    obtain rfl := Except.ok.inj haddress
    exact Or.inl ⟨_, rfl, octets.length_eq⟩
  · rename_i octets _
    obtain rfl := Except.ok.inj haddress
    exact Or.inr (Or.inr ⟨_, rfl, octets.length_eq⟩)
  · rw [bind_eq_ok_iff] at haddress
    obtain ⟨_, hname, haddress⟩ := haddress
    rw [ensure_eq_ok_iff] at hname
    obtain rfl := Except.ok.inj haddress
    exact Or.inr (Or.inl ⟨_, rfl, hname, plain_textBytes hhost⟩)

/-- What the client asks for is well formed. -/
theorem isSocks5Request_of_request {parseIp : String → Option IpAddr}
    {peer : String} {request : Bytes}
    (hrequest : socks5Request parseIp peer = .ok request) :
    IsSocks5Request request := by
  simp only [socks5Request, bind_eq_ok_iff, ensure_eq_ok_iff] at hrequest
  obtain ⟨endpoint, _, _, hhost, address, haddress, hreturn⟩ := hrequest
  obtain rfl := Except.ok.inj hreturn
  exact ⟨address, bigEndian 2 endpoint.port.toNat, rfl,
    isSocks5Target_of_address hhost haddress, bigEndian_length _ _⟩

end Request

section Client

variable {parseIp : String → Option IpAddr} {peer : String}
  {authentication : Socks5Authentication}

def rejectedMethod : ShphError :=
  .transport "SOCKS5 proxy rejected the required authentication method"

theorem talks_greets (hfit : credentialsFit authentication = true) :
    Talks (socks5ConnectAuthenticatedWithCancel parseIp peer authentication)
      [] (socks5Greeting authentication)
      (readSocks5Bytes 2 >>= proceedSocks5 parseIp peer authentication) :=
  Talks.cast ((talks_ensure hfit _).andThen
    ((writes_writeSocks5Bytes _).run.andThen (Talks.refl _))) rfl
    (List.append_nil _)

theorem talks_declines {choice : Bytes} (hlength : choice.length = 2)
    (hchoice : choice ≠ [socks5Version, socks5Method authentication]) :
    Talks (readSocks5Bytes 2 >>= proceedSocks5 parseIp peer authentication)
      choice [] (Program.fail rejectedMethod) := by
  have hproceed : proceedSocks5 parseIp peer authentication choice =
      Program.fail rejectedMethod := by
    rw [proceedSocks5, ensure, if_neg hchoice]
    rfl
  exact Talks.cast (((reads_readSocks5Bytes 2).run choice ⟨rfl, hlength⟩).andThen
    (hproceed ▸ Talks.refl _)) (List.append_nil _) rfl

theorem talks_choice :
    Talks (readSocks5Bytes 2) [socks5Version, socks5NoAuth] []
      (pure [socks5Version, socks5NoAuth]) :=
  (reads_readSocks5Bytes 2).run _ ⟨rfl, rfl⟩

theorem talks_requests {request : Bytes}
    (hrequest : socks5Request parseIp peer = .ok request) :
    Talks (readSocks5Bytes 2 >>= proceedSocks5 parseIp peer none)
      [socks5Version, socks5NoAuth] request
      (readSocks5Reply >>= fun _ => checkSetupCancellation) :=
  Talks.cast (talks_choice.andThen
    ((talks_ensure rfl _).andThen ((Talks.refl (pure ())).andThen
      ((Talks.ofExcept hrequest).andThen
        ((writes_writeSocks5Bytes request).run.andThen (Talks.refl _))))))
    rfl (by simp)

theorem talks_gives_up {error : ShphError}
    (hrequest : socks5Request parseIp peer = .error error) :
    Talks (readSocks5Bytes 2 >>= proceedSocks5 parseIp peer none)
      [socks5Version, socks5NoAuth] [] (Program.fail error) := by
  have hproceed : proceedSocks5 parseIp peer none
      [socks5Version, socks5NoAuth] = Program.fail error := by
    rw [proceedSocks5, hrequest]
    rfl
  have htalks := Talks.refl (proceedSocks5 parseIp peer none
    [socks5Version, socks5NoAuth])
  rw [hproceed] at htalks
  exact talks_choice.andThen (hproceed ▸ htalks)

/-- The client once it has its reply. -/
theorem talks_connected :
    Talks (readSocks5Reply >>= fun _ => checkSetupCancellation)
      (socks5Reply 0) [] (pure ()) := by
  have haccepts : Socks5Accepts (socks5Reply 0) :=
    ⟨[1, 0, 0, 0, 0], [0, 0], rfl, Or.inl ⟨_, rfl, rfl⟩, rfl⟩
  exact Talks.cast ((reads_readSocks5Reply.run () haccepts).andThen Talks.call)
    (List.append_nil _) rfl

theorem talks_turned_away {code : UInt8} (hcode : code ≠ 0) :
    Talks (readSocks5Reply >>= fun _ => checkSetupCancellation)
      ((socks5Reply code).take 4) [] (Program.fail (.transport
        s!"SOCKS5 CONNECT failed with reply code {code}")) := by
  have hheader : Talks (readSocks5Bytes 4) ((socks5Reply code).take 4) []
      (pure ((socks5Reply code).take 4)) :=
    (reads_readSocks5Bytes 4).run _ ⟨rfl, rfl⟩
  have hchecked : checkSocks5Reply ((socks5Reply code).take 4) =
      .error (.transport
        s!"SOCKS5 CONNECT failed with reply code {code}") := by
    have hopen : ensure (code = 0) (.transport
        s!"SOCKS5 CONNECT failed with reply code {code}") = .error _ :=
      if_neg hcode
    exact hopen
  have hrest := hheader.bind fun header => do
    Program.ofExcept (checkSocks5Reply header)
    readSocks5Address (header.getD 3 0)
    skipSocks5Bytes 2
  rw [Program.pure_bind, hchecked] at hrest
  exact hrest.bind fun _ => checkSetupCancellation

end Client

section Server

variable {upstream : Except CarrierError Upstream}

theorem handleSocks5_eq : ∃ rest, handleSocks5 upstream =
    Program.readExact .io 2 >>= rest := by
  rw [handleSocks5, socks5Handshake, readSocks5Methods]
  simp only [Program.bind_assoc]
  exact ⟨_, rfl⟩

/-- The edge once it has chosen. -/
def serveSocks5 (upstream : Except CarrierError Upstream) :
    Program CarrierError Unit := do
  readSocks5Request
  let answer ← Program.ofExcept upstream
  writeSocks5Reply answer.replyCode
  Program.ofExcept answer.result

theorem serveSocks5_eq : ∃ rest, serveSocks5 upstream =
    Program.readExact .io 4 >>= rest := by
  rw [serveSocks5, readSocks5Request]
  simp only [Program.bind_assoc]
  exact ⟨_, rfl⟩

theorem talks_chooses :
    Talks (handleSocks5 upstream) (socks5Greeting none)
      [socks5Version, socks5NoAuth] (serveSocks5 upstream) :=
  @talks_handleSocks5 upstream [socks5NoAuth] _ ⟨rfl, by decide⟩

theorem talks_refuses {credentials : Bytes × Bytes} :
    Talks (handleSocks5 upstream) (socks5Greeting (some credentials))
      [socks5Version, 0xff] (Program.fail .socks) :=
  @talks_handleSocks5 upstream [socks5PasswordAuth] _ ⟨rfl, by decide⟩

end Server

/-- What the two come to. -/
def socks5Meeting (request : Except ShphError Bytes)
    (authentication : Socks5Authentication)
    (upstream : Except CarrierError Upstream) :
    Link ShphError Unit CarrierError Unit :=
  if ¬ credentialsFit authentication then
    ⟨.fail (.config "SOCKS authentication values must be 1..255 bytes"),
      .fail .io, [], []⟩
  else if authentication.isSome then
    ⟨.fail rejectedMethod, .fail .socks, [], []⟩
  else
    match request, upstream with
    | .error error, _ => ⟨.fail error, .fail .io, [], []⟩
    | .ok _, .error error => ⟨.fail .connectionClosed, .fail error, [], []⟩
    | .ok _, .ok .accepted => ⟨pure (), pure (), [], []⟩
    | .ok _, .ok answer =>
        ⟨.fail (.transport
            s!"SOCKS5 CONNECT failed with reply code {answer.replyCode}"),
          .done answer.result, [], (socks5Reply answer.replyCode).drop 4⟩

theorem settled_socks5Meeting (request : Except ShphError Bytes)
    (authentication : Socks5Authentication)
    (upstream : Except CarrierError Upstream) :
    (socks5Meeting request authentication upstream).Settled := by
  unfold socks5Meeting
  split
  · exact Link.settled_of_done _ _ _ _
  · split
    · exact Link.settled_of_done _ _ _ _
    · split
      · exact Link.settled_of_done _ _ _ _
      · exact Link.settled_of_done _ _ _ _
      · exact Link.settled_of_done _ _ _ _
      · exact Link.settled_of_done _ _ _ _

section Meeting

variable (parseIp : String → Option IpAddr) (peer : String)
  (authentication : Socks5Authentication)
  (upstream : Except CarrierError Upstream)

/-- The client at the edge, before a byte is sent. -/
def socks5Start : Link ShphError Unit CarrierError Unit :=
  ⟨socks5ConnectAuthenticatedWithCancel parseIp peer authentication,
    handleSocks5 upstream, [], []⟩

variable {parseIp peer upstream}

/-- With the request on its way, the answer decides. -/
theorem reaches_answered {request : Bytes}
    (hrequest : IsSocks5Request request) :
    Link.Reaches
      ⟨readSocks5Reply >>= fun _ => checkSetupCancellation,
        serveSocks5 upstream, request, []⟩
      (socks5Meeting (.ok request) none upstream) := by
  cases upstream with
  | error error =>
      have hserves : Talks (serveSocks5 (.error error)) request []
          (Program.fail error) :=
        Talks.cast ((reads_readSocks5Request.run () hrequest).andThen (Talks.refl _))
          (List.append_nil _) rfl
      obtain ⟨rest, hrest⟩ : ∃ rest : Bytes → Program ShphError Unit,
          (readSocks5Reply >>= fun _ => checkSetupCancellation) =
            .sync (Program.readExact .connectionClosed 4 >>= rest) := by
        rw [readSocks5Reply, readSocks5Bytes]
        simp only [Program.bind_assoc]
        exact ⟨_, rfl⟩
      have hclosed : Link.Reaches
          ⟨(.fail error : Program CarrierError Unit),
            Program.readExact .connectionClosed 4 >>= rest, [], []⟩
          ⟨.fail error, .fail .connectionClosed, [], []⟩ :=
        Link.reaches_closed (by decide) error rest []
      rw [hrest]
      exact hserves.rightTurn.trans ((Talks.sync _).leftTurn.trans
        hclosed.swap)
  | ok answer =>
      have haway (hcode : answer.replyCode ≠ 0) : Link.Reaches
          ⟨readSocks5Reply >>= fun _ => checkSetupCancellation,
            .done answer.result, [], socks5Reply answer.replyCode⟩
          ⟨.fail (.transport
              s!"SOCKS5 CONNECT failed with reply code {answer.replyCode}"),
            .done answer.result, [],
            (socks5Reply answer.replyCode).drop 4⟩ := by
        have hleft := talks_turned_away hcode CarrierError Unit
          (.done answer.result) [] ((socks5Reply answer.replyCode).drop 4)
        rwa [List.take_append_drop, List.append_nil] at hleft
      have hone : (1 : UInt8) ≠ 0 := by decide
      have hfive : (5 : UInt8) ≠ 0 := by decide
      have hserves : Talks (serveSocks5 (.ok answer)) request
          (socks5Reply answer.replyCode) (.done answer.result) :=
        talks_serve answer hrequest
      cases answer with
      | accepted => exact hserves.rightTurn.trans talks_connected.leftTurn
      | rejected _ => exact hserves.rightTurn.trans (haway hfive)
      | failed _ => exact hserves.rightTurn.trans (haway hone)
      | timedOut => exact hserves.rightTurn.trans (haway hone)

variable (parseIp peer upstream)

theorem reaches_socks5Meeting :
    Link.Reaches (socks5Start parseIp peer authentication upstream)
      (socks5Meeting (socks5Request parseIp peer) authentication
        upstream) := by
  unfold socks5Start socks5Meeting
  by_cases hfit : credentialsFit authentication = true
  · have hgreets : Talks (socks5ConnectAuthenticatedWithCancel parseIp peer
        authentication) [] (socks5Greeting authentication) _ :=
      talks_greets hfit
    rw [if_neg (not_not.mpr hfit)]
    cases authentication with
    | some credentials =>
        have hother : ([socks5Version, 0xff] : Bytes) ≠
            [socks5Version, socks5PasswordAuth] := by decide
        have hdeclines : Talks (readSocks5Bytes 2 >>=
            proceedSocks5 parseIp peer (some credentials))
            [socks5Version, 0xff] [] (Program.fail rejectedMethod) :=
          talks_declines rfl hother
        exact (hgreets.leftTurn.trans talks_refuses.rightTurn).trans
          hdeclines.leftTurn
    | none =>
        have hchooses : Talks (handleSocks5 upstream) (socks5Greeting none)
            [socks5Version, socks5NoAuth] (serveSocks5 upstream) :=
          talks_chooses
        have hchosen := hgreets.leftTurn.trans hchooses.rightTurn
        cases hrequest : socks5Request parseIp peer with
        | error error =>
            have hgone := hchosen.trans (talks_gives_up hrequest).leftTurn
            obtain ⟨rest, hrest⟩ : ∃ rest, serveSocks5 upstream =
                Program.readExact .io 4 >>= rest := serveSocks5_eq
            rw [hrest] at hgone
            exact hgone.trans (Link.reaches_closed (by decide) error rest [])
        | ok request =>
            exact (hchosen.trans (talks_requests hrequest).leftTurn).trans
              (reaches_answered (isSocks5Request_of_request hrequest))
  · have hgone : socks5ConnectAuthenticatedWithCancel parseIp peer
        authentication = .fail (.config
          "SOCKS authentication values must be 1..255 bytes") := by
      rw [socks5ConnectAuthenticatedWithCancel, ensure, if_neg hfit]
      rfl
    obtain ⟨rest, hrest⟩ : ∃ rest, handleSocks5 upstream =
        Program.readExact .io 2 >>= rest := handleSocks5_eq
    rw [if_pos hfit, hgone, hrest]
    exact Link.reaches_closed (by decide) _ rest []

/-- However the bytes of the two are cut up and interleaved, a client that
authenticates is always refused, and any other one comes to what the edge is
answered for it, with nothing taken from the stream behind the set-up. -/
theorem socks5_meeting
    {state : Link ShphError Unit CarrierError Unit}
    (hreaches : Link.Reaches
      (socks5Start parseIp peer authentication upstream) state) :
    Link.Reaches state
        (socks5Meeting (socks5Request parseIp peer) authentication upstream) ∧
      (state.Settled → state = socks5Meeting (socks5Request parseIp peer)
        authentication upstream) := by
  have hcoherent : (socks5Start parseIp peer authentication
      upstream).Coherent :=
    ⟨coherent_socks5Connect, coherent_handleSocks5 upstream⟩
  exact Link.Reaches.settles hcoherent
    (reaches_socks5Meeting parseIp peer authentication upstream)
    (settled_socks5Meeting _ _ _) hreaches

end Meeting

/-- A client that asks for a name, at an edge that is accepted. -/
theorem socks5_meeting_name :
    Link.Reaches
      (socks5Start (fun _ => none) "edge.invalid:443" none (.ok .accepted))
      ⟨pure (), pure (), [], []⟩ := by
  have hrequest : ∃ request,
      socks5Request (fun _ => none) "edge.invalid:443" = .ok request := by
    exact ⟨_, rfl⟩
  obtain ⟨request, hrequest⟩ := hrequest
  have hmeeting := (socks5_meeting (fun _ => none) "edge.invalid:443" none
    (.ok .accepted) ReflTransGen.refl).1
  rw [hrequest] at hmeeting
  exact hmeeting

end Shph.Edge
