/-
The messages of the TCP handshake, one at a time.  Each is read back as what
was written, it takes exactly its own bytes from the stream, and nothing
depends on how the stream is cut up.
-/
import Shph.HandshakeHonest
import Shph.Library.Decimal
import Shph.Library.DialogueContracts
import Shph.TcpHandshake

namespace Shph

open ByteCodec Dialogue FlatJson JsonLayout
open BufferedLines (newline)

section Frames

theorem newline_notMem_object {members : List (String × List Char)}
    (hmembers : ∀ member ∈ members, '\n' ∉ member.2) :
    '\n' ∉ object .compact 0 members := by
  have hwrite : ∀ lead : Char, lead ≠ '\n' →
      '\n' ∉ writeMembers .compact 0 lead members := by
    induction members with
    | nil => simp [writeMembers]
    | cons member members ih =>
        intro lead hlead
        have hname := quote_ne_newline member.1.toList
        have hvalue := hmembers member (by simp)
        have hrest := ih (fun other hother =>
          hmembers other (by simp [hother])) ',' (by decide)
        simp [writeMembers, Layout.newline, Layout.colon, hlead.symm, hname,
          hvalue, hrest]
  by_cases hempty : members = []
  · simp [object, hempty]
  · simp [object, hempty, Layout.newline, hwrite '{' (by decide)]

theorem newline_notMem_helloJson (hello : Hello) : '\n' ∉ helloJson hello := by
  have htext (text : String) : '\n' ∉ textJson text :=
    quote_ne_newline text.toList
  have hoption (text : Option String) : '\n' ∉ optionJson text := by
    cases text with
    | none => decide
    | some text => exact htext text
  have hnumber := writeValue_ne_newline (.number hello.timestampSecs.toNat)
  apply newline_notMem_object
  intro member hmember
  simp only [List.mem_cons, List.not_mem_nil, or_false] at hmember
  rcases hmember with rfl | rfl | rfl | rfl | rfl | rfl | rfl | rfl | rfl | rfl
  all_goals first | exact htext _ | exact hoption _ | exact hnumber

/-- A frame is the hello and a tail of blanks. -/
structure FrameOf (hello : Hello) (frame : Bytes) (tail : List Char) :
    Prop where
  blank : ∀ char ∈ tail, char = ' ' ∨ char = '\t'
  short : tail.length ≤ maxHandshakeFrameTailBytes
  frame_eq : frame = textBytes (String.ofList (helloJson hello ++ tail))

theorem serializeHelloFrame_ok {hello : Hello} {draws : FrameDraws}
    {frame : Bytes} (hok : serializeHelloFrame hello draws = .ok frame) :
    ∃ tail, FrameOf hello frame tail := by
  simp only [serializeHelloFrame, serializeHelloFrameWithPaddingLen,
    bind_eq_ok_iff, okOr_eq_ok_iff, ensure_eq_ok_iff, exists_const] at hok
  obtain ⟨random, _, hle, hframe⟩ := hok
  split at hframe
  · simp only [pure_eq_ok_iff] at hframe
    exact ⟨[], by simp, by simp, by rw [List.append_nil, hframe]⟩
  · simp only [bind_eq_ok_iff, okOr_eq_ok_iff, pure_eq_ok_iff] at hframe
    obtain ⟨randomTail, _, rfl⟩ := hframe
    refine ⟨_, ?_, ?_, rfl⟩
    · intro char hchar
      rw [List.mem_map] at hchar
      obtain ⟨byte, _, rfl⟩ := hchar
      unfold tailChar
      split <;> simp
    · rw [List.length_map, List.length_take]
      omega

namespace FrameOf

variable {hello : Hello} {frame : Bytes} {tail : List Char}

theorem newline_notMem (hframe : FrameOf hello frame tail) :
    newline ∉ frame := by
  rw [hframe.frame_eq]
  apply BufferedLines.newline_notMem_toUTF8
  rw [String.toList_ofList, List.mem_append, not_or]
  refine ⟨newline_notMem_helloJson hello, ?_⟩
  intro hmem
  rcases hframe.blank _ hmem with h | h <;> exact absurd h (by decide)

/-- A frame has no line end of its own. -/
theorem rdropWhile_eq (hframe : FrameOf hello frame tail) :
    frame.rdropWhile isLineEnd = frame := by
  have hlast : ∃ front char, helloJson hello ++ tail = front ++ [char] ∧
      (char = '}' ∨ char = ' ' ∨ char = '\t') := by
    rcases List.eq_nil_or_concat tail with htail | ⟨front, char, htail⟩
    · subst htail
      rw [List.append_nil, helloJson, object, if_neg (by simp)]
      exact ⟨_, '}', rfl, Or.inl rfl⟩
    · subst htail
      rw [List.concat_eq_append]
      exact ⟨_, char, (List.append_assoc _ _ _).symm,
        Or.inr (hframe.blank char (by simp))⟩
  obtain ⟨front, char, heq, hchar⟩ := hlast
  rw [hframe.frame_eq, heq, String.ofList_append, textBytes_append]
  rcases hchar with rfl | rfl | rfl
  · exact List.rdropWhile_concat_neg _ _ (125 : UInt8) (by decide)
  · exact List.rdropWhile_concat_neg _ _ (32 : UInt8) (by decide)
  · exact List.rdropWhile_concat_neg _ _ (9 : UInt8) (by decide)

theorem parseHello_eq (hframe : FrameOf hello frame tail)
    (reader : HelloReader) : parseHello reader frame = .ok hello := by
  rw [parseHello, hframe.frame_eq, fromUTF8?_textBytes]
  simp only [okOr, bind, Except.bind,
    reader.fromStr_helloJson hello tail hframe.blank]

/-- A hello is never taken for a challenge. -/
theorem not_challenge (hframe : FrameOf hello frame tail) :
    ¬ cookieChallengePrefix <+: frame := by
  rintro ⟨rest, hrest⟩
  have hhead : frame.head? = some 123 := by
    have hopen : helloJson hello ++ tail =
        '{' :: (helloJson hello ++ tail).tail := rfl
    rw [hframe.frame_eq, hopen, ← List.singleton_append, String.ofList_append,
      textBytes_append]
    rfl
  have hfront : (cookieChallengePrefix ++ rest).head? = some 83 := rfl
  rw [hrest, hhead] at hfront
  exact absurd hfront (by decide)

end FrameOf

/-- An honest hello fits in its line, with the longest tail there is. -/
theorem FrameOf.length_le {prims : Primitives} (hreliable : prims.Reliable)
    {localIdentity : IdentityKeyPair} {profile : HandshakeProfile}
    {draws : HelloDraws} {material : HandshakeMaterial prims} {frame : Bytes}
    {tail : List Char}
    (hbuild : buildHelloWithProfile prims localIdentity profile draws =
      .ok material)
    (hframe : FrameOf material.localHello frame tail) :
    frame.length ≤ maxHelloBytes := by
  have hbytes : frame.length =
      String.utf8Len (helloJson material.localHello) +
        String.utf8Len tail := by
    have hsize (text : String) : (textBytes text).length =
        text.utf8ByteSize := rfl
    rw [hframe.frame_eq, ← String.utf8Len_append, ← String.utf8ByteSize_ofList,
      hsize]
  have hblanks : ∀ chars : List Char,
      (∀ char ∈ chars, char = ' ' ∨ char = '\t') →
        String.utf8Len chars = chars.length := by
    intro chars hchars
    induction chars with
    | nil => rfl
    | cons char chars ih =>
        have hsize : char.utf8Size = 1 := by
          rcases hchars char (by simp) with rfl | rfl <;> decide
        rw [String.utf8Len_cons, hsize, List.length_cons,
          ih fun other hother => hchars other (by simp [hother])]
  have htail := hblanks tail hframe.blank
  have hshort := hframe.short
  have hdigits (value : UInt64) :
      String.utf8Len (Nat.toDigits 10 value.toNat) ≤ 20 := by
    rw [Decimal.utf8Len_toDigits]
    apply Decimal.toDigits_length_le
    have hvalue := value.toNat_lt
    omega
  have htext (bytes : Bytes) {length : Nat} (hlength : bytes.length = length) :
      String.utf8Len (textJson (Base64.encode bytes)) =
        (length + 2) / 3 * 4 + 2 := by
    subst hlength
    exact size_base64 bytes
  have hprofile : String.utf8Len (textJson profile.protocolTag) ≤ 32 ∧
      String.utf8Len (textJson profile.asStr) ≤ 32 := by
    cases profile <;> decide
  have hnames : quoteBytes "proto" = 7 ∧ quoteBytes "profile" = 9 ∧
      quoteBytes "identity_pub_b64" = 18 ∧ quoteBytes "sign_pub_b64" = 14 ∧
      quoteBytes "pqc_pub_b64" = 13 ∧ quoteBytes "pqc_ct_b64" = 12 ∧
      quoteBytes "ephemeral_pub_b64" = 19 ∧ quoteBytes "nonce_b64" = 11 ∧
      quoteBytes "timestamp_secs" = 16 ∧ quoteBytes "sig" = 5 := by decide
  have hnull : String.utf8Len (optionJson none) = 4 := by decide
  simp only [buildHelloWithProfile, bind_eq_ok_iff, okOr_eq_ok_iff,
    pure_eq_ok_iff] at hbuild
  obtain ⟨localEphemeral, _, nonce, _, now, _, pqc, _, payload, _, rfl⟩ :=
    hbuild
  have hpqc : String.utf8Len
      (optionJson ((pqc.map PqcKeypair.encapPublicBytes).map Base64.encode)) ≤
        1582 := by
    cases pqc with
    | none => exact Nat.le_trans (Nat.le_of_eq hnull) (by decide)
    | some pair =>
        have hsize := htext pair.encapPublicBytes pair.encapKey.length_eq
        exact Nat.le_of_eq hsize
  have hsig := htext _ (hreliable.sign_length localIdentity.signSeed payload)
  have hkey (key : Key) := htext key.val key.length_eq
  have hnow := hdigits now
  rw [hbytes, htail, helloJson, utf8Len_object, objectBytes, if_neg (by simp),
    show maxHelloBytes = 16384 from rfl]
  rw [show maxHandshakeFrameTailBytes = 64 from rfl] at hshort
  simp only [List.map_cons, List.map_nil, List.sum_cons, List.sum_nil,
    memberBytes, Prod.map, id, Layout.newlineBytes, Layout.colonBytes, hnames,
    hkey, hnull, IdentityKeyPair.signHandshake, hsig]
  omega

end Frames

section Lines

/-- The bytes of a line and its line end, and the line as it is returned. -/
def LineRead (maxBytes : Nat) (line input : Bytes) : Prop :=
  ∃ raw, input = raw ++ [newline] ∧ newline ∉ raw ∧ raw.length ≤ maxBytes ∧
    line = raw.rdropWhile isLineEnd

theorem LineRead.length_le {maxBytes : Nat} {line input : Bytes}
    (hline : LineRead maxBytes line input) : input.length ≤ maxBytes + 2 := by
  obtain ⟨raw, rfl, _, hraw, _⟩ := hline
  rw [List.length_append, List.length_singleton]
  omega

theorem stripLine_eq {maxBytes : Nat} {raw : Bytes}
    (hlength : raw.length ≤ maxBytes) :
    stripLine maxBytes (raw ++ [newline]) = .ok (raw.rdropWhile isLineEnd) := by
  have hdrop : (raw ++ [newline]).rdropWhile isLineEnd =
      raw.rdropWhile isLineEnd := List.rdropWhile_concat_pos _ _ _ (by decide)
  have hshort : (raw.rdropWhile isLineEnd).length ≤ maxBytes :=
    (List.rdropWhile_prefix _ _).length_le.trans hlength
  simp only [stripLine, bind_eq_ok_iff, ensure_eq_ok_iff, exists_const, hdrop,
    pure, Except.pure, and_true]
  exact hshort

/-- A line ends with its first line end. -/
theorem lineRead_iff {maxBytes : Nat} {line front rest : Bytes}
    (hfront : newline ∉ front) (hlength : front.length ≤ maxBytes) :
    LineRead maxBytes line (front ++ newline :: rest) ↔
      line = front.rdropWhile isLineEnd ∧ rest = [] := by
  constructor
  · rintro ⟨raw, hraw, hnewline, _, hline⟩
    rcases List.eq_nil_or_concat rest with rfl | ⟨more, last, rfl⟩
    · rw [List.append_cancel_right hraw]
      exact ⟨hline, rfl⟩
    · rw [List.concat_eq_append, ← List.cons_append, ← List.append_assoc] at hraw
      rw [← (List.append_inj' hraw rfl).1] at hnewline
      simp at hnewline
  · rintro ⟨rfl, rfl⟩
    exact ⟨front, rfl, hfront, hlength, rfl⟩

/-- By induction on the room that is left: the loop takes one byte after the
other until it has the line end, and leaves what comes after it. -/
theorem reads_readTcpLineLoop {maxBytes room : Nat} {buffer : Bytes}
    (hbuffer : newline ∉ buffer)
    (hroom : buffer.length + room = maxBytes + 1) :
    Reads (readTcpLineLoop maxBytes room buffer) (room + 1)
      fun line input => LineRead maxBytes line (buffer ++ input) := by
  have hempty {buffer : Bytes} (hbuffer : newline ∉ buffer) (line : Bytes) :
      ¬ LineRead maxBytes line (buffer ++ []) := by
    rintro ⟨raw, hraw, _⟩
    rw [List.append_nil] at hraw
    simp [hraw] at hbuffer
  induction room generalizing buffer with
  | zero =>
      rw [readTcpLineLoop]
      refine Conducts.sync (Reads.readOne rfl (hempty hbuffer) fun byte _ => ?_)
      apply (Reads.fail _).mono (Nat.le_refl 0)
      intro line rest
      refine ⟨fun ⟨raw, hraw, _, hlength, _⟩ => ?_, False.elim⟩
      have hsize := congrArg List.length hraw
      simp only [List.length_append, List.length_cons, List.length_nil] at hsize
      omega
  | succ room ih =>
      rw [readTcpLineLoop]
      refine Conducts.sync (Reads.readOne rfl (hempty hbuffer) fun byte _ => ?_)
      by_cases hbyte : byte = newline
      · subst hbyte
        have hlength : buffer.length ≤ maxBytes := by omega
        simp only [if_true, stripLine_eq hlength, lineRead_iff hbuffer hlength]
        apply (Reads.ofExcept _).mono (Nat.zero_le _)
        intro line rest
        rw [Except.ok.injEq, eq_comm]
      · simp only [if_neg hbyte]
        have hnext : newline ∉ buffer ++ [byte] := by
          simpa [hbuffer] using Ne.symm hbyte
        have hrest := ih hnext (by simp; omega)
        simp only [List.append_assoc, List.singleton_append] at hrest
        exact hrest

theorem reads_readTcpLine (maxBytes : Nat) :
    Reads (readTcpLine maxBytes) (maxBytes + 2) (LineRead maxBytes) :=
  reads_readTcpLineLoop List.not_mem_nil (by simp)

theorem talks_ensure {condition : Prop} [Decidable condition]
    (hcondition : condition) (error : ShphError) :
    Talks (Program.ofExcept (ensure condition error)) [] [] (pure ()) :=
  Talks.ofExcept (ensure_eq_ok_iff.mpr hcondition)

theorem conducts_ensure {condition : Prop} [Decidable condition]
    {error : ShphError} {A : Type} {rest : Program ShphError A}
    {always : Bytes → Bytes → Prop} {returns : A → Bytes → Bytes → Prop}
    (hstart : always [] [])
    (hrest : condition → Conducts rest always returns) :
    Conducts (Program.ofExcept (ensure condition error) >>= fun _ => rest)
      always fun value input output =>
        condition ∧ returns value input output := by
  apply Conducts.mono (Conducts.ofExcept_bind hstart fun _ hensure =>
    hrest (ensure_eq_ok_iff.mp hensure)) (fun _ _ h => h)
  intro value input output
  simp only [ensure_eq_ok_iff, exists_const]

theorem writes_writeTcpAllOrClosedWithDeadline (payload : Bytes) :
    Writes (writeTcpAllOrClosedWithDeadline payload) payload :=
  Conducts.sync (Writes.send payload)

theorem writes_refreshAndFlush : Writes refreshAndFlush [] :=
  Writes.call.bind Writes.call

theorem reads_readExactOrClosedWithDeadline (count : Nat) :
    Reads (readExactOrClosedWithDeadline count) count fun value input =>
      value = input ∧ input.length = count :=
  Conducts.sync (Reads.readExact _ count)

end Lines

section Messages

variable {reader : HelloReader} {hello : Hello} {frame : Bytes}
  {tail : List Char}

theorem conducts_writeTcpHello (hello : Hello) (draws : FrameDraws) :
    Conducts (writeTcpHello hello draws) (fun input _ => input = [])
      fun _ input output => ∃ frame, serializeHelloFrame hello draws =
        .ok frame ∧ frame.length ≤ maxHelloBytes ∧ input = [] ∧
          output = frame ++ [newline] :=
  Conducts.ofExcept_bind rfl fun frame _ => conducts_ensure rfl fun _ =>
    Conducts.mono ((writes_writeTcpAllOrClosedWithDeadline frame).bind
      ((writes_writeTcpAllOrClosedWithDeadline [newline]).bind
        writes_refreshAndFlush)) (fun _ _ h => h.1) fun _ _ _ => Iff.rfl

theorem talks_writeTcpHello {draws : FrameDraws}
    (hframe : serializeHelloFrame hello draws = .ok frame)
    (hlength : frame.length ≤ maxHelloBytes) :
    Talks (writeTcpHello hello draws) [] (frame ++ [newline]) (pure ()) :=
  (conducts_writeTcpHello hello draws).talks _ _ _
    ⟨frame, hframe, hlength, rfl, rfl⟩

/-- The bytes of a hello, and the hello. -/
def HelloRead (reader : HelloReader) (hello : Hello) (input : Bytes) : Prop :=
  ∃ line, LineRead maxHelloBytes line input ∧
    parseHello reader line = .ok hello

theorem reads_readTcpHello (reader : HelloReader) :
    Reads (readTcpHello reader) (maxHelloBytes + 2) (HelloRead reader) :=
  (reads_readTcpLine maxHelloBytes).parse

theorem FrameOf.lineRead (hframe : FrameOf hello frame tail)
    (hlength : frame.length ≤ maxHelloBytes) :
    LineRead maxHelloBytes frame (frame ++ [newline]) :=
  ⟨frame, rfl, hframe.newline_notMem, hlength, hframe.rdropWhile_eq.symm⟩

theorem talks_readTcpHello (hframe : FrameOf hello frame tail)
    (hlength : frame.length ≤ maxHelloBytes) :
    Talks (readTcpHello reader) (frame ++ [newline]) [] (pure hello) :=
  (reads_readTcpHello reader).run hello
    ⟨frame, hframe.lineRead hlength, hframe.parseHello_eq reader⟩

/-- The Base64 text of a cookie has no line end and reads back. -/
theorem encode_plain (bytes : Bytes) :
    (∀ byte ∈ textBytes (Base64.encode bytes), isLineEnd byte = false) ∧
      decodeBytes (textBytes (Base64.encode bytes)) = some bytes := by
  have hplain : ∀ char ∈ Base64.encodeDigits bytes,
      char.utf8Size = 1 ∧ isLineEnd char.val.toUInt8 = false := by
    apply Base64.forall_mem_encodeDigits
    · intro value hvalue
      have hall : ∀ value : Fin 64,
          isLineEnd (Base64.digit value).val.toUInt8 = false := by decide
      exact ⟨Base64.digit_utf8Size hvalue, hall ⟨value, hvalue⟩⟩
    · decide
  refine ⟨?_, ?_⟩
  · intro byte hbyte
    rw [textBytes_eq_flatMap, Base64.encode, String.toList_ofList,
      List.mem_flatMap] at hbyte
    obtain ⟨char, hchar, hmem⟩ := hbyte
    obtain ⟨hsize, hend⟩ := hplain char hchar
    rw [String.utf8EncodeChar_eq_singleton hsize, List.mem_singleton] at hmem
    rw [hmem, hend]
  · rw [decodeBytes, fromUTF8?_textBytes, Option.bind_some,
      Base64.decode_encode]

/-- A line with a cookie, read as one line. -/
theorem lineRead_cookieLine {start : Bytes} {maxBytes : Nat}
    (hstart : newline ∉ start) (cookie : FixedBytes 32)
    (hlength : start.length + 44 ≤ maxBytes) :
    LineRead maxBytes (start ++ textBytes (Base64.encode cookie.val))
      (cookieLine start cookie.val) := by
  have hplain := (encode_plain cookie.val).1
  have hencoded : (textBytes (Base64.encode cookie.val)).length = 44 := by
    change (Base64.encode cookie.val).utf8ByteSize = 44
    rw [Base64.encode_utf8ByteSize, cookie.length_eq]
  refine ⟨start ++ textBytes (Base64.encode cookie.val), ?_, ?_, ?_, ?_⟩
  · rw [cookieLine, List.append_assoc]
  · rw [List.mem_append, not_or]
    refine ⟨hstart, fun hmem => ?_⟩
    exact absurd (hplain _ hmem) (by decide)
  · rw [List.length_append, hencoded]
    exact hlength
  · rw [eq_comm, List.rdropWhile_eq_self_iff]
    intro hnonempty
    have hencodedNonempty : textBytes (Base64.encode cookie.val) ≠ [] := by
      intro hempty
      rw [hempty] at hencoded
      exact absurd hencoded (by decide)
    rw [List.getLast_append_of_ne_nil _ hencodedNonempty,
      hplain _ (List.getLast_mem _)]
    decide

theorem writes_writeTcpCookieLine (start cookie : Bytes) :
    Writes (writeTcpCookieLine start cookie) (cookieLine start cookie) :=
  (writes_writeTcpAllOrClosedWithDeadline start).bind
    ((writes_writeTcpAllOrClosedWithDeadline _).bind
      ((writes_writeTcpAllOrClosedWithDeadline [newline]).bind
        writes_refreshAndFlush))

/-- The line that brings a cookie back. -/
def BringsCookie (response input : Bytes) : Prop :=
  ∃ line, LineRead maxCookieLineBytes line input ∧
    parseCookieResponse line = .ok response

theorem bringsCookie_cookieLine (cookie : FixedBytes 32) :
    BringsCookie cookie.val (cookieLine cookieResponsePrefix cookie.val) := by
  refine ⟨_, lineRead_cookieLine (by decide) cookie (by decide), ?_⟩
  simp only [parseCookieResponse, bind_eq_ok_iff, ensure_eq_ok_iff,
    exists_const, okOr_eq_ok_iff, pure_eq_ok_iff]
  refine ⟨List.prefix_append _ _, cookie.val, ?_, cookie.length_eq, rfl⟩
  rw [List.drop_left, (encode_plain cookie.val).2]

/-- A cookie that came back and does not hold ends the worker. -/
theorem reads_acceptCookie (env : TcpWorkerEnv) :
    Reads (TcpHandshakeWorker.acceptCookie env) (maxCookieLineBytes + 2)
      fun _ input => ∃ response, BringsCookie response input ∧
        env.verified response = .ok true := by
  have hread : Reads readTcpCookieResponse (maxCookieLineBytes + 2)
      BringsCookie := (reads_readTcpLine maxCookieLineBytes).parse
  have hcheck (response : Bytes) : Reads (do
      let valid ← Program.ofExcept (env.verified response)
      Program.ofExcept (ensure valid
        (.auth "invalid or expired pre-authentication cookie"))) 0
      fun _ input => env.verified response = .ok true ∧ input = [] := by
    apply Conducts.mono (Conducts.ofExcept_bind ⟨Nat.le_refl 0, rfl⟩
      fun (valid : Bool) _ => Reads.ofExcept (ensure valid _)) fun _ _ h => h
    intro value input output
    simp [ensure_eq_ok_iff, and_assoc]
  apply (hread.bind hcheck 0 fun _ _ _ => Nat.le_refl 0).mono (Nat.le_refl _)
  intro value input
  simp

/-- The first line of a server, taken as it stands or as a challenge. -/
theorem coherent_readTcpServerHello (reader : HelloReader) :
    (readTcpServerHello reader).Coherent := by
  refine (reads_readTcpLine _).coherent.bind fun line => ?_
  unfold takeServerLine
  split
  · exact (Program.coherent_ofExcept _).bind fun _ =>
      ((Program.coherent_ofExcept _).bind fun _ =>
        (writes_writeTcpCookieLine _ _).coherent).bind fun _ =>
          (reads_readTcpHello reader).coherent
  · exact Program.coherent_ofExcept _

theorem talks_readTcpServerHello (hframe : FrameOf hello frame tail)
    (hlength : frame.length ≤ maxHelloBytes) :
    Talks (readTcpServerHello reader) (frame ++ [newline]) [] (pure hello) := by
  have hread := (reads_readTcpLine maxHelloBytes).run frame
    (hframe.lineRead hlength)
  have htake : Talks (takeServerLine reader frame) [] [] (pure hello) := by
    rw [takeServerLine, if_neg hframe.not_challenge]
    exact Talks.ofExcept (hframe.parseHello_eq reader)
  exact Talks.cast (Talks.andThen hread htake) (by simp) rfl

/-- The client answers a challenge and goes on to wait for the hello. -/
theorem talks_readTcpServerHello_challenge (cookie : FixedBytes 32) :
    Talks (readTcpServerHello reader)
      (cookieLine cookieChallengePrefix cookie.val)
      (cookieLine cookieResponsePrefix cookie.val) (readTcpHello reader) := by
  have hparse : parseCookieChallenge
      (cookieChallengePrefix ++ textBytes (Base64.encode cookie.val)) =
        .ok cookie.val := by
    simp only [parseCookieChallenge, bind_eq_ok_iff, ensure_eq_ok_iff,
      exists_const, okOr_eq_ok_iff, pure_eq_ok_iff]
    refine ⟨cookie.val, ?_, cookie.length_eq, rfl⟩
    rw [List.drop_left, (encode_plain cookie.val).2]
  have hread := (reads_readTcpLine maxHelloBytes).run _ (lineRead_cookieLine
    (by decide : newline ∉ cookieChallengePrefix) cookie (by decide))
  have hrespond : Talks (writeTcpCookieResponse cookie.val) []
      (cookieLine cookieResponsePrefix cookie.val) (pure ()) :=
    (talks_ensure cookie.length_eq _).andThen (writes_writeTcpCookieLine _ _).run
  have htake : Talks (takeServerLine reader (cookieChallengePrefix ++
      textBytes (Base64.encode cookie.val))) []
      (cookieLine cookieResponsePrefix cookie.val) (readTcpHello reader) := by
    rw [takeServerLine, if_pos (List.prefix_append _ _)]
    exact Talks.cast (Talks.andThen (Talks.ofExcept hparse) (Talks.andThen
      hrespond (Talks.refl _))) rfl (by simp)
  exact Talks.cast (Talks.andThen hread htake) (by simp) rfl

theorem conducts_writeTcpPqCt (ct : Bytes) :
    Conducts (writeTcpPqCt ct) (fun input _ => input = [])
      fun _ input output => ct.length = mlKem768CiphertextBytes ∧
        input = [] ∧ output = bigEndian 4 ct.length ++ ct := by
  refine conducts_ensure rfl fun _ => Conducts.mono
    ((writes_writeTcpAllOrClosedWithDeadline _).bind
      ((writes_writeTcpAllOrClosedWithDeadline ct).bind writes_refreshAndFlush))
    (fun _ _ h => h.1) fun _ input output => ?_
  rw [List.append_nil]

/-- The bytes of a ciphertext behind its length. -/
def CiphertextRead (ct input : Bytes) : Prop :=
  ct.length = mlKem768CiphertextBytes ∧ input = bigEndian 4 ct.length ++ ct

theorem reads_readTcpPqCt :
    Reads readTcpPqCt (4 + mlKem768CiphertextBytes) CiphertextRead := by
  have hbody (lenBuf : Bytes) : Reads (readCiphertext (ofBigEndian lenBuf))
      mlKem768CiphertextBytes fun ct input =>
        ofBigEndian lenBuf = mlKem768CiphertextBytes ∧ ct = input ∧
          input.length = mlKem768CiphertextBytes := by
    apply Conducts.mono (conducts_ensure ⟨Nat.zero_le _, rfl⟩ fun hlen =>
      (reads_readExactOrClosedWithDeadline _).mono (Nat.le_of_eq hlen)
        fun _ _ => Iff.rfl) (fun _ _ h => h)
    intro ct input output
    simp only [and_assoc, and_congr_right_iff]
    intro hlen _
    rw [hlen]
  apply ((reads_readExactOrClosedWithDeadline 4).bind hbody _
    fun _ _ _ => Nat.le_refl _).mono (Nat.le_refl _)
  intro ct input
  constructor
  · rintro ⟨hct, rfl⟩
    have hlen : ofBigEndian (bigEndian 4 ct.length) = ct.length :=
      ofBigEndian_bigEndian (by rw [hct]; decide)
    exact ⟨_, _, ct, ⟨rfl, bigEndian_length 4 _⟩, ⟨hlen.trans hct, rfl, hct⟩,
      rfl⟩
  · rintro ⟨_, lenBuf, _, ⟨rfl, hfour⟩, ⟨hlen, rfl, hct⟩, rfl⟩
    refine ⟨hct, ?_⟩
    rw [hct, ← hlen, ← hfour, bigEndian_ofBigEndian]

end Messages

end Shph
