/-
The SOCKS5 server of the edge.  It takes clients that need no authentication
and asks for nothing but a well-formed request: the target is read and left
aside, since every connection is relayed to the same place.
-/
import Shph.EdgeConfig
import Shph.EdgeRelay
import Shph.Socks5Connect

namespace Shph.Edge

open ByteCodec Checked Dialogue Relation

inductive CarrierError where
  | unsupported (what : String)
  | tls (message : String)
  | io
  | http (message : String)
  | timeout (what : String)
  | relay (error : RelayError)
  | invalidUri
  | invalidScheme
  | socks
deriving Repr, DecidableEq

section Server

def maxSocks5Methods : Nat := 16

/-- The end of the stream is an error of the stream. -/
abbrev readExact (count : Nat) : Program CarrierError Bytes :=
  Program.readExact .io count

def readSocks5Methods : Program CarrierError Bytes := do
  let header ← readExact 2
  Program.ofExcept (require (header.getD 0 0 = socks5Version ∧
    (header.getD 1 0).toNat ≤ maxSocks5Methods) .socks)
  readExact (header.getD 1 0).toNat

def selectSocks5Method (methods : Bytes) : Program CarrierError Unit :=
  if socks5NoAuth ∈ methods then
    Program.send [socks5Version, socks5NoAuth]
  else do
    Program.send [socks5Version, 0xff]
    Program.fail .socks

def socks5TargetLen : UInt8 → Program CarrierError Nat
  | 1 => return 4
  | 3 => do
      let len ← readExact 1
      Program.ofExcept (require (len.getD 0 0 ≠ 0) .socks)
      return (len.getD 0 0).toNat
  | 4 => return 16
  | _ => Program.fail .socks

def readSocks5Request : Program CarrierError Unit := do
  let request ← readExact 4
  Program.ofExcept (require (request.getD 0 0 = socks5Version ∧
    request.getD 1 0 = 1 ∧ request.getD 2 0 = 0 ∧
    request.getD 3 0 ∈ ([1, 3, 4] : Bytes)) .socks)
  let targetLen ← socks5TargetLen (request.getD 3 0)
  let target ← readExact (targetLen + 2)
  Program.ofExcept (require (¬ (request.getD 3 0 = 3 ∧
    (target.take targetLen).any isControlOrWhitespace)) .socks)

def socks5Handshake : Program CarrierError Unit := do
  let methods ← readSocks5Methods
  selectSocks5Method methods
  readSocks5Request

def socks5Reply (reply : UInt8) : Bytes := [5, reply, 0, 1, 0, 0, 0, 0, 0, 0]

def writeSocks5Reply (reply : UInt8) : Program CarrierError Unit := do
  Program.send (socks5Reply reply)
  Program.call

/-- How the request to the edge ends. -/
inductive Upstream where
  | accepted
  | rejected (status : String)
  | failed (message : String)
  | timedOut
deriving Repr, DecidableEq

namespace Upstream

def replyCode : Upstream → UInt8
  | accepted => 0x00
  | rejected _ => 0x05
  | failed _ | timedOut => 0x01

/-- What the connection ends with, unless it is accepted. -/
def result : Upstream → Except CarrierError Unit
  | accepted => .ok ()
  | rejected status =>
      .error (.http ("edge rejected stream with " ++ status))
  | failed message => .error (.http message)
  | timedOut => .error (.timeout "HTTP/2 request")

end Upstream

/-- The set-up of one connection.  `upstream` is an error if no connection to
the edge is to be had, and then there is no reply.  The task that reads on from
the program once the handshake is done, and feeds the stream, runs beside this
and is left out.  The source drops an error of writing the reply to a failure;
either way the connection ends in an error. -/
def handleSocks5 (upstream : Except CarrierError Upstream) :
    Program CarrierError Unit := do
  socks5Handshake
  let answer ← Program.ofExcept upstream
  writeSocks5Reply answer.replyCode
  Program.ofExcept answer.result

end Server

section Format

/-- The methods behind their number. -/
def IsSocks5Hello (methods bytes : Bytes) : Prop :=
  bytes = socks5Version :: UInt8.ofNat methods.length :: methods ∧
    methods.length ≤ maxSocks5Methods

/-- A literal address, or a name without control characters and spaces. -/
def IsSocks5Target (bytes : Bytes) : Prop :=
  (∃ octets : Bytes, bytes = 1 :: octets ∧ octets.length = 4) ∨
    (∃ name : Bytes, bytes = 3 :: UInt8.ofNat name.length :: name ∧
      (name ≠ [] ∧ name.length ≤ 255) ∧
        name.any isControlOrWhitespace = false) ∨
    ∃ octets : Bytes, bytes = 4 :: octets ∧ octets.length = 16

def IsSocks5Request (bytes : Bytes) : Prop :=
  ∃ target port, bytes = [socks5Version, 1, 0] ++ (target ++ port) ∧
    IsSocks5Target target ∧ port.length = 2

end Format

section Parts

theorem reads_readSocks5Methods :
    Reads readSocks5Methods (2 + maxSocks5Methods) IsSocks5Hello := by
  have hreads := (Reads.readExact CarrierError.io 2).bind (fun header =>
    (Reads.ofExcept (require (header.getD 0 0 = socks5Version ∧
      (header.getD 1 0).toNat ≤ maxSocks5Methods) CarrierError.socks)).bind
        (fun _ => Reads.readExact CarrierError.io (header.getD 1 0).toNat)
        maxSocks5Methods fun _ _ hchecked =>
          (require_eq_ok_iff.mp hchecked.1).2)
    (0 + maxSocks5Methods) fun _ _ _ => Nat.le_refl _
  apply hreads.mono (by rw [Nat.zero_add])
  intro methods input
  simp only [require_eq_ok_iff]
  constructor
  · rintro ⟨rfl, hlength⟩
    have hcount : (UInt8.ofNat methods.length).toNat = methods.length := by
      unfold maxSocks5Methods at hlength
      rw [UInt8.toNat_ofNat']
      omega
    have hfits : (UInt8.ofNat methods.length).toNat ≤ maxSocks5Methods := by
      rwa [hcount]
    exact ⟨[socks5Version, UInt8.ofNat methods.length], _, methods, ⟨rfl, rfl⟩,
      ⟨(), [], methods, ⟨⟨rfl, hfits⟩, rfl⟩, ⟨rfl, hcount.symm⟩, rfl⟩, rfl⟩
  · rintro ⟨_, header, _, ⟨rfl, hheader⟩, ⟨_, _, _, ⟨⟨hversion, hcount⟩, rfl⟩,
      ⟨rfl, hlength⟩, rfl⟩, rfl⟩
    obtain ⟨version, count, rfl⟩ := List.length_eq_two.mp hheader
    obtain rfl : version = socks5Version := hversion
    refine ⟨?_, hlength ▸ hcount⟩
    rw [hlength, UInt8.ofNat_toNat]
    rfl

/-- The method the edge chooses; 0xff stands for none. -/
def socks5Choice (methods : Bytes) : Bytes :=
  [socks5Version, if socks5NoAuth ∈ methods then socks5NoAuth else 0xff]

theorem keeps_selectSocks5Method (methods : Bytes) :
    Keeps (selectSocks5Method methods)
      (fun input output => input = [] ∧ output <+: socks5Choice methods)
      fun _ input output => input = [] ∧ socks5NoAuth ∈ methods ∧
        output = socks5Choice methods := by
  unfold selectSocks5Method socks5Choice
  by_cases hmethod : socks5NoAuth ∈ methods
  · rw [if_pos hmethod, if_pos hmethod]
    apply (Writes.send _).keeps.mono
    · rintro input output ⟨rfl, houtput⟩
      exact ⟨rfl, houtput⟩
    · rintro _ input output ⟨rfl, rfl⟩
      exact ⟨rfl, hmethod, rfl⟩
  · rw [if_neg hmethod, if_neg hmethod]
    apply (Writes.send _).andThen
    · intro sent hsent
      exact ⟨rfl, hsent⟩
    · exact Keeps.fail ⟨rfl, by rw [List.append_nil]⟩

/-- What stands between the kind of a target and the target. -/
def TargetLen (kind : UInt8) (targetLen : Nat) (input : Bytes) : Prop :=
  kind = 1 ∧ input = [] ∧ targetLen = 4 ∨
    kind = 3 ∧ input = [UInt8.ofNat targetLen] ∧
      (targetLen ≠ 0 ∧ targetLen ≤ 255) ∨
    kind = 4 ∧ input = [] ∧ targetLen = 16

theorem reads_socks5TargetLen (kind : UInt8) :
    Reads (socks5TargetLen kind) 1 (TargetLen kind) := by
  unfold socks5TargetLen TargetLen
  split
  · apply (Reads.pure 4).mono (Nat.zero_le 1)
    intro targetLen input
    simp [and_comm]
  · have hreads := (Reads.readExact CarrierError.io 1).bind (fun len =>
      (Reads.ofExcept (require (len.getD 0 0 ≠ 0) CarrierError.socks)).bind
        (fun _ => Reads.pure (len.getD 0 0).toNat) 0 fun _ _ _ =>
          Nat.le_refl 0) 0 fun _ _ _ => Nat.le_refl 0
    apply hreads.mono (Nat.le_refl 1)
    intro targetLen input
    simp only [require_eq_ok_iff]
    constructor
    · rintro (⟨h, _⟩ | ⟨_, rfl, hzero, hlen⟩ | ⟨h, _⟩)
      · exact absurd h (by decide)
      · have htoNat : (UInt8.ofNat targetLen).toNat = targetLen := by
          rw [UInt8.toNat_ofNat']
          omega
        refine ⟨_, [UInt8.ofNat targetLen], [], ⟨rfl, rfl⟩, ⟨(), [], [],
          ⟨?_, rfl⟩, ⟨htoNat.symm, rfl⟩, rfl⟩, rfl⟩
        intro heq
        rw [List.getD_cons_zero] at heq
        rw [heq] at htoNat
        exact hzero htoNat.symm
      · exact absurd h (by decide)
    · rintro ⟨_, len, _, ⟨rfl, hlength⟩, ⟨_, _, _, ⟨hzero, rfl⟩, ⟨rfl, rfl⟩,
        rfl⟩, rfl⟩
      obtain ⟨byte, rfl⟩ := List.length_eq_one_iff.mp hlength
      rw [List.getD_cons_zero] at hzero ⊢
      refine Or.inr (Or.inl ⟨trivial, ?_,
        fun heq => hzero (UInt8.toNat_inj.mp heq),
        Nat.le_of_lt_succ byte.toNat_lt⟩)
      rw [UInt8.ofNat_toNat]
      rfl
  · apply (Reads.pure 16).mono (Nat.zero_le 1)
    intro targetLen input
    simp [and_comm]
  · rename_i hone hthree hfour
    apply (Reads.fail _).mono (Nat.zero_le 1)
    intro targetLen input
    simp only [iff_false]
    rintro (⟨h, _⟩ | ⟨h, _⟩ | ⟨h, _⟩)
    · exact hone h
    · exact hthree h
    · exact hfour h

/-- The longest request there is. -/
def maxSocks5Request : Nat := 4 + (1 + 257)

/-- A request as it is read: the kind of its target, what stands before the
target, and the target with the port. -/
theorem isSocks5Request_iff {request : Bytes} :
    IsSocks5Request request ↔ ∃ kind targetLen before target,
      TargetLen kind targetLen before ∧ target.length = targetLen + 2 ∧
        ¬ (kind = 3 ∧
          (target.take targetLen).any isControlOrWhitespace = true) ∧
        request = [socks5Version, 1, 0, kind] ++ (before ++ target) := by
  constructor
  · rintro ⟨_, port, rfl, htarget, hport⟩
    rcases htarget with ⟨octets, rfl, hlength⟩ |
      ⟨name, rfl, ⟨hname, hlength⟩, hplain⟩ | ⟨octets, rfl, hlength⟩
    · exact ⟨1, 4, [], octets ++ port, Or.inl ⟨rfl, rfl, rfl⟩,
        by simp [hlength, hport], by simp, rfl⟩
    · refine ⟨3, name.length, [UInt8.ofNat name.length], name ++ port,
        Or.inr (Or.inl ⟨rfl, rfl, by simpa using hname, hlength⟩),
        by simp [hport], ?_, rfl⟩
      rw [List.take_left]
      simp [hplain]
    · exact ⟨4, 16, [], octets ++ port, Or.inr (Or.inr ⟨rfl, rfl, rfl⟩),
        by simp [hlength, hport], by simp, rfl⟩
  · rintro ⟨kind, targetLen, before, target, hparts, htarget, hplain, rfl⟩
    have htake : (target.take targetLen).length = targetLen := by
      rw [List.length_take]
      omega
    refine ⟨kind :: (before ++ target.take targetLen), target.drop targetLen,
      by simp, ?_, by rw [List.length_drop]; omega⟩
    rcases hparts with ⟨rfl, rfl, hlen⟩ | ⟨rfl, rfl, hzero, hlen⟩ |
      ⟨rfl, rfl, hlen⟩
    · exact Or.inl ⟨target.take targetLen, rfl, htake.trans hlen⟩
    · refine Or.inr (Or.inl ⟨target.take targetLen, ?_, ⟨?_, ?_⟩, ?_⟩)
      · rw [htake]
        rfl
      · intro hempty
        rw [hempty] at htake
        exact hzero htake.symm
      · rw [htake]
        exact hlen
      · simpa using hplain
    · exact Or.inr (Or.inr ⟨target.take targetLen, rfl, htake.trans hlen⟩)

theorem reads_readSocks5Request :
    Reads readSocks5Request maxSocks5Request fun _ input =>
      IsSocks5Request input := by
  have htargetLen (kind : UInt8) (targetLen : Nat) (before : Bytes)
      (hlen : TargetLen kind targetLen before) : targetLen + 2 + 0 ≤ 257 := by
    rcases hlen with ⟨_, _, rfl⟩ | ⟨_, _, _, hlen⟩ | ⟨_, _, rfl⟩ <;> omega
  have hreads := (Reads.readExact CarrierError.io 4).bind (fun request =>
    (Reads.ofExcept (require (request.getD 0 0 = socks5Version ∧
      request.getD 1 0 = 1 ∧ request.getD 2 0 = 0 ∧
      request.getD 3 0 ∈ ([1, 3, 4] : Bytes)) CarrierError.socks)).bind
        (fun _ => (reads_socks5TargetLen (request.getD 3 0)).bind
          (fun targetLen =>
            (Reads.readExact CarrierError.io (targetLen + 2)).bind
              (fun target => Reads.ofExcept (require
                (¬ (request.getD 3 0 = 3 ∧
                  (target.take targetLen).any isControlOrWhitespace))
                CarrierError.socks)) 0 fun _ _ _ => Nat.le_refl 0)
          257 (htargetLen _)) 258 fun _ _ _ => Nat.le_refl _)
    258 fun _ _ _ => by decide
  apply hreads.mono (Nat.le_refl _)
  intro _ input
  simp only [require_eq_ok_iff]
  rw [isSocks5Request_iff]
  constructor
  · rintro ⟨kind, targetLen, before, target, hlen, htarget, hplain, rfl⟩
    have hkind : kind ∈ ([1, 3, 4] : Bytes) := by
      rcases hlen with ⟨rfl, _⟩ | ⟨rfl, _⟩ | ⟨rfl, _⟩ <;> decide
    exact ⟨[socks5Version, 1, 0, kind], _, _, ⟨rfl, rfl⟩, ⟨(), [], _,
      ⟨⟨rfl, rfl, rfl, hkind⟩, rfl⟩, ⟨targetLen, before, target, hlen,
        ⟨target, target, [], ⟨rfl, htarget⟩, ⟨hplain, rfl⟩, by simp⟩, rfl⟩,
      rfl⟩, rfl⟩
  · rintro ⟨_, request, _, ⟨rfl, hheader⟩, ⟨_, _, _, ⟨⟨hversion, hcommand,
      hreserved, _⟩, rfl⟩, ⟨targetLen, before, _, hlen, ⟨_, target, _,
        ⟨rfl, htarget⟩, ⟨hplain, rfl⟩, rfl⟩, rfl⟩, rfl⟩, rfl⟩
    obtain ⟨version, command, reserved, kind, rfl⟩ :=
      List.length_eq_four.mp hheader
    obtain rfl : version = socks5Version := hversion
    obtain rfl : command = 1 := hcommand
    obtain rfl : reserved = 0 := hreserved
    exact ⟨kind, targetLen, before, _, hlen, htarget, hplain, by simp⟩

end Parts

section Serve

/-- The reply, if there is one. -/
def upstreamReply : Except CarrierError Upstream → Bytes
  | .ok answer => socks5Reply answer.replyCode
  | .error _ => []

/-- All that a client has to send, and no more. -/
def Socks5Admits (input : Bytes) : Prop :=
  ∃ methods hello request, IsSocks5Hello methods hello ∧
    socks5NoAuth ∈ methods ∧ IsSocks5Request request ∧
      input = hello ++ request

/-- What has been read and written before the edge is done: it chooses after
the methods are there, and replies after the request is. -/
structure Socks5Served (upstream : Except CarrierError Upstream)
    (input output : Bytes) : Prop where
  chosen : output ≠ [] → ∃ methods hello rest, IsSocks5Hello methods hello ∧
    input = hello ++ rest ∧
      output <+: socks5Choice methods ++ upstreamReply upstream
  replied : 2 < output.length → Socks5Admits input
  input_le : input.length ≤ 2 + (maxSocks5Methods + maxSocks5Request)

namespace Socks5Served

variable {upstream : Except CarrierError Upstream}

theorem silent {input : Bytes}
    (hinput : input.length ≤ 2 + maxSocks5Methods) :
    Socks5Served upstream input [] :=
  ⟨fun hne => absurd rfl hne, fun hlength => absurd hlength (by decide),
    by omega⟩

theorem choosing {methods hello rest sent : Bytes}
    (hhello : IsSocks5Hello methods hello)
    (hrest : rest.length ≤ maxSocks5Request)
    (hsent : sent <+: socks5Choice methods) :
    Socks5Served upstream (hello ++ rest) sent := by
  have hlength : sent.length ≤ 2 := hsent.length_le
  refine ⟨fun _ => ⟨methods, hello, rest, hhello, rfl,
    hsent.trans (List.prefix_append _ _)⟩, fun h => by omega, ?_⟩
  obtain ⟨rfl, hmethods⟩ := hhello
  simp only [List.length_append, List.length_cons]
  omega

theorem replying {methods hello request sent : Bytes}
    (hhello : IsSocks5Hello methods hello) (hmethod : socks5NoAuth ∈ methods)
    (hrequest : IsSocks5Request request)
    (hlength : request.length ≤ maxSocks5Request)
    (hsent : sent <+: upstreamReply upstream) :
    Socks5Served upstream (hello ++ request)
      (socks5Choice methods ++ sent) := by
  have hchoosing : Socks5Served upstream (hello ++ request)
      (socks5Choice methods) :=
    choosing hhello hlength (List.prefix_refl _)
  exact ⟨fun _ => ⟨methods, hello, request, hhello, rfl,
    (List.prefix_append_right_inj _).mpr hsent⟩,
    fun _ => ⟨methods, hello, request, hhello, hmethod, hrequest, rfl⟩,
    hchoosing.input_le⟩

end Socks5Served

theorem writes_writeSocks5Reply (reply : UInt8) :
    Writes (writeSocks5Reply reply) (socks5Reply reply) := by
  have hwrites : Writes (writeSocks5Reply reply) (socks5Reply reply ++ []) :=
    Writes.bind (Writes.send _) Writes.call
  rwa [List.append_nil] at hwrites

theorem keeps_handleSocks5 (upstream : Except CarrierError Upstream) :
    Keeps (handleSocks5 upstream) (Socks5Served upstream)
      fun _ input output => upstream = .ok .accepted ∧ Socks5Admits input ∧
        output = [socks5Version, socks5NoAuth] ++ socks5Reply 0 := by
  rw [handleSocks5, socks5Handshake, Program.bind_assoc]
  apply Keeps.bind reads_readSocks5Methods.keeps
  · rintro input output ⟨hinput, rfl⟩
    exact .silent hinput
  rintro methods hello _ ⟨hhello, rfl⟩
  rw [Program.bind_assoc]
  apply Keeps.bind (keeps_selectSocks5Method methods)
  · rintro input output ⟨rfl, houtput⟩
    exact .choosing hhello (Nat.zero_le _) houtput
  rintro _ _ _ ⟨rfl, hmethod, rfl⟩
  apply Keeps.bind reads_readSocks5Request.keeps
  · rintro input output ⟨hinput, rfl⟩
    exact .choosing hhello hinput (by simp)
  rintro _ request _ ⟨hrequest, rfl⟩
  have hlength := reads_readSocks5Request.length_le () hrequest
  apply Keeps.ofExcept_bind
  · simp only [List.append_nil, List.nil_append]
    exact .choosing hhello hlength (List.prefix_refl _)
  rintro answer rfl
  apply (writes_writeSocks5Reply _).andThen
  · intro sent hsent
    simp only [List.append_nil, List.nil_append]
    exact .replying hhello hmethod hrequest hlength hsent
  apply Keeps.ofExcept
  · simp only [List.append_nil, List.nil_append]
    exact .replying hhello hmethod hrequest hlength (List.prefix_refl _)
  intro _ hresult
  have haccepted : answer = .accepted := by
    cases answer with
    | accepted => rfl
    | rejected _ => cases hresult
    | failed _ => cases hresult
    | timedOut => cases hresult
  subst haccepted
  simp only [List.append_nil, List.nil_append]
  refine ⟨trivial, ⟨methods, hello, request, hhello, hmethod, hrequest, rfl⟩,
    ?_⟩
  rw [socks5Choice, if_pos hmethod]
  rfl

/-- The edge once it has the methods. -/
theorem talks_handleSocks5 {upstream : Except CarrierError Upstream}
    {methods hello : Bytes} (hhello : IsSocks5Hello methods hello) :
    Talks (handleSocks5 upstream) hello (socks5Choice methods)
      (if socks5NoAuth ∈ methods then do
        readSocks5Request
        let answer ← Program.ofExcept upstream
        writeSocks5Reply answer.replyCode
        Program.ofExcept answer.result
      else Program.fail .socks) := by
  have hmethods := (reads_readSocks5Methods.run methods hhello).bind fun methods => do
    selectSocks5Method methods
    readSocks5Request
    let answer ← Program.ofExcept upstream
    writeSocks5Reply answer.replyCode
    Program.ofExcept answer.result
  rw [handleSocks5, socks5Handshake, Program.bind_assoc]
  simp only [Program.bind_assoc]
  refine Talks.cast (hmethods.trans ?_) (List.append_nil _) rfl
  rw [Program.pure_bind]
  unfold selectSocks5Method
  by_cases hmethod : socks5NoAuth ∈ methods
  · simp only [if_pos hmethod]
    exact Talks.write _ _
  · simp only [if_neg hmethod]
    exact Talks.write _ _

theorem talks_serve (answer : Upstream) {request : Bytes}
    (hrequest : IsSocks5Request request) :
    Talks (do
        readSocks5Request
        let answer ← Program.ofExcept (.ok answer)
        writeSocks5Reply answer.replyCode
        Program.ofExcept answer.result)
      request (socks5Reply answer.replyCode) (.done answer.result) := by
  have hresult : Talks (Program.ofExcept answer.result) [] []
      (.done answer.result) := Talks.refl _
  exact Talks.cast ((reads_readSocks5Request.run () hrequest).andThen
    ((Talks.ofExcept rfl).andThen
      ((writes_writeSocks5Reply _).run.andThen hresult))) (by simp) (by simp)

theorem coherent_handleSocks5 (upstream : Except CarrierError Upstream) :
    (handleSocks5 upstream).Coherent := by
  have hselect (methods : Bytes) : (selectSocks5Method methods).Coherent := by
    unfold selectSocks5Method
    split
    · exact Program.coherent_send _
    · exact (Program.coherent_send _).bind fun _ => Program.coherent_fail _
  have hhandshake : socks5Handshake.Coherent :=
    reads_readSocks5Methods.coherent.bind fun methods =>
      (hselect methods).bind fun _ => reads_readSocks5Request.coherent
  exact hhandshake.bind fun _ => (Program.coherent_ofExcept _).bind fun _ =>
    (writes_writeSocks5Reply _).coherent.bind fun _ =>
      Program.coherent_ofExcept _

/-- Whatever the client sends and wherever the connection breaks, the edge
keeps to its order; and a connection is set up if and only if the edge behind
it has accepted it and the client has sent its methods, with the one that needs
no authentication among them, and a well-formed request, not a byte more of
which is taken. -/
theorem edge_socks5_iff (upstream : Except CarrierError Upstream) :
    (∀ input output next, Faces (handleSocks5 upstream) input output next →
      Socks5Served upstream input output) ∧
    ∀ input output, Faces (handleSocks5 upstream) input output (pure ()) ↔
      upstream = .ok .accepted ∧ Socks5Admits input ∧
        output = [socks5Version, socks5NoAuth] ++ socks5Reply 0 := by
  refine ⟨fun input output next hfaces =>
    (keeps_handleSocks5 upstream input output next hfaces).1,
    fun input output => ?_⟩
  constructor
  · intro hfaces
    exact (keeps_handleSocks5 upstream input output _ hfaces).2 () rfl
  · rintro ⟨rfl, ⟨methods, hello, request, hhello, hmethod, hrequest, rfl⟩, rfl⟩
    have hmethods : Talks (handleSocks5 (.ok .accepted)) _ _ _ :=
      talks_handleSocks5 hhello
    rw [if_pos hmethod, socks5Choice, if_pos hmethod] at hmethods
    exact (hmethods.trans (talks_serve .accepted hrequest)).faces

end Serve

end Shph.Edge
