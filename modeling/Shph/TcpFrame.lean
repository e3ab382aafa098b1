/-
The TCP data plane: a sender that wraps a payload in at most one padding
envelope, encrypts it and writes it behind a length, and a reader that keeps
the bytes of an incomplete frame across calls.
-/
import Shph.PhantomOne
import Shph.SessionCipher

namespace Shph

open ByteCodec

def maxFrameBytes : Nat := 64 * 1024

def shroudAeadOverhead : Nat := 12 + 16

def maxTcpPayloadBytes : Nat := maxFrameBytes - shroudAeadOverhead

def phantomOneTcpPathMtu : Nat := maxTcpPayloadBytes

/-- The buffer a single `read` is given. -/
def readChunkBytes : Nat := 8192

def mapIoError : IoErrorKind → ShphError
  | .timedOut | .wouldBlock => .timeout
  | .unexpectedEof | .brokenPipe | .connectionAborted | .connectionReset
  | .notConnected => .connectionClosed
  | kind => .io kind

/-- What one `write_all` on the socket comes to. -/
inductive WriteEvent where
  | complete
  | failed (accepted : Nat) (kind : IoErrorKind)
deriving Repr, DecidableEq

/-- What one `read` on the socket comes to.  A ready socket hands over at most
`extra + 1` of the bytes that have arrived. -/
inductive ReadEvent where
  | ready (extra : Nat)
  | closed
  | failed (kind : IoErrorKind)
deriving Repr, DecidableEq

/-- One end of a connection: the bytes written to it, the bytes on their way
to it, and what its next operations will meet. -/
structure TcpStream where
  outgoing : Bytes
  incoming : Bytes
  writes : List WriteEvent
  reads : List ReadEvent
deriving Repr, DecidableEq

namespace TcpStream

def writeAll (stream : TcpStream) (payload : Bytes) :
    Except IoErrorKind Unit × TcpStream :=
  match stream.writes with
  | [] => (.ok (), { stream with outgoing := stream.outgoing ++ payload })
  | .complete :: writes =>
      (.ok (), { stream with outgoing := stream.outgoing ++ payload, writes })
  | .failed accepted kind :: writes =>
      (.error kind, { stream with
        outgoing := stream.outgoing ++ payload.take accepted, writes })

end TcpStream

/-- The bytes one event yields when `count` are asked for, and the bytes left
in the socket.  Without anything to read the socket's timeout strikes. -/
def ReadEvent.read (event : ReadEvent) (incoming : Bytes) (count : Nat) :
    Except IoErrorKind (Bytes × Bytes) :=
  match event with
  | .closed => .ok ([], incoming)
  | .failed kind => .error kind
  | .ready extra =>
      if count = 0 then .ok ([], incoming)
      else if incoming = [] then .error .timedOut
      else .ok (incoming.splitAt (min count (extra + 1)))

def writeTcpAllOrClosed (stream : TcpStream) (payload : Bytes) :
    Except ShphError Unit × TcpStream :=
  match stream.writeAll payload with
  | (.ok (), stream) => (.ok (), stream)
  | (.error kind, stream) => (.error (mapIoError kind), stream)

structure ProfilePadder (rng : Rng) where
  profile : ProfileTier
  rngState : rng.State

def ProfilePadder.applyInto {rng : Rng} (padder : ProfilePadder rng)
    (payload : Bytes) : Except ShphError Bytes × ProfilePadder rng :=
  match applyProfileIntoWithRng rng padder.profile payload padder.rngState with
  | (result, rngState) => (result, { padder with rngState })

def validateTcpPayload (payload : Bytes) : Except ShphError Unit :=
  ensure (payload.length ≤ maxTcpPayloadBytes)
    (.protocol
      s!"TCP payload exceeds the {maxTcpPayloadBytes}-byte frame capacity")

structure TcpFrameReader where
  wire : Bytes
  expectedWireLen : Option Nat
deriving Repr, DecidableEq

def TcpFrameReader.default : TcpFrameReader :=
  { wire := [], expectedWireLen := none }

/-- A session on an open connection.  `osRng` stands for the generator of the
operating system. -/
structure SecureTcpSession (rng : Rng) where
  stream : TcpStream
  sendCipher : SendCipher
  recvCipher : ReceiveCipher
  paddingProfile : Option ProfileTier
  paddingPadder : Option (ProfilePadder rng)
  phantomOneEncoder : Option (PhantomOneEncoder rng)
  phantomOneDecoder : Option PhantomOneDecoder
  frameReader : TcpFrameReader
  osRng : rng.State

namespace SecureTcpSession

variable {rng : Rng}

def new (stream : TcpStream) (sendKey recvKey : Key) (osRng : rng.State) :
    SecureTcpSession rng :=
  { stream, sendCipher := SendCipher.new sendKey
    recvCipher := ReceiveCipher.new recvKey, paddingProfile := none
    paddingPadder := none, phantomOneEncoder := none
    phantomOneDecoder := none, frameReader := .default, osRng }

def withTcpProfile (session : SecureTcpSession rng) (profile : ProfileTier)
    (seeded : rng.State) : SecureTcpSession rng :=
  { session with
    paddingProfile := some profile
    paddingPadder := some { profile, rngState := seeded } }

def withPhantomOneGenerationAndProfile (session : SecureTcpSession rng)
    (generation : UInt32) (profile : ProfileTier) (seeded : rng.State) :
    Except ShphError (SecureTcpSession rng) := do
  let decoder ← PhantomOneDecoder.withConfigAndWindow generation
    (.forProfile profile) phantomOneDefaultReplayWindow
  return { session with
    paddingProfile := none
    paddingPadder := none
    phantomOneEncoder := some
      (.fromValidatedConfig generation 0 (.forProfile profile) seeded)
    phantomOneDecoder := some decoder }

/-- The plaintext of the frame: the payload in the envelope of the session. -/
def framed (session : SecureTcpSession rng) (payload : Bytes) :
    Except ShphError Bytes × SecureTcpSession rng :=
  match session.paddingProfile, session.paddingPadder with
  | some _, some padder =>
      match padder.applyInto payload with
      | (result, padder) => (result, { session with paddingPadder := padder })
  | some profile, none =>
      match applyProfileIntoWithRng rng profile payload session.osRng with
      | (result, osRng) => (result, { session with osRng })
  | none, _ =>
      match session.phantomOneEncoder with
      | some encoder =>
          match encoder.encode .data payload phantomOneTcpPathMtu with
          | (result, encoder) =>
              (result, { session with phantomOneEncoder := encoder })
      | none => (.ok payload, session)

/-- The checks that precede every other step of a send. -/
def checkSend (session : SecureTcpSession rng) (payload : Bytes) :
    Except ShphError Unit := do
  validateTcpPayload payload
  ensure (¬ (session.phantomOneEncoder.isSome ∧
      (session.paddingProfile.isSome ∨ session.paddingPadder.isSome)))
    (.protocol
      "Phantom One cannot be combined with the legacy TCP padding profile")

/-- The two writes of a frame; flushing a TCP stream does nothing. -/
def writeFrame (session : SecureTcpSession rng) (encrypted : Bytes) :
    Except ShphError Unit × SecureTcpSession rng :=
  if encrypted.length < 2 ^ 32 then
    match writeTcpAllOrClosed session.stream
        (bigEndian 4 encrypted.length) with
    | (.error error, stream) => (.error error, { session with stream })
    | (.ok (), stream) =>
        match writeTcpAllOrClosed stream encrypted with
        | (result, stream) => (result, { session with stream })
  else
    (.error (.protocol "encrypted frame length overflows u32"), session)

/-- `write_encrypted_tcp_frame` on the parts of the session. -/
def sendFrame (aead : Aead) (session : SecureTcpSession rng)
    (payload : Bytes) : Except ShphError Unit × SecureTcpSession rng :=
  match session.checkSend payload with
  | .error error => (.error error, session)
  | .ok () =>
      match session.framed payload with
      | (.error error, session) => (.error error, session)
      | (.ok plaintext, session) =>
          match session.sendCipher.encrypt aead plaintext with
          | (.error error, sendCipher) =>
              (.error error, { session with sendCipher })
          | (.ok encrypted, sendCipher) =>
              writeFrame { session with sendCipher } encrypted

end SecureTcpSession

namespace TcpFrameReader

/-- Fix the length of the frame once its four length bytes are there. -/
def parseLength (reader : TcpFrameReader) : Except ShphError TcpFrameReader :=
  if reader.expectedWireLen = none ∧ 4 ≤ reader.wire.length then
    let len := ofBigEndian (reader.wire.take 4)
    if len = 0 ∨ maxFrameBytes < len then
      .error (.protocol "encrypted frame length invalid")
    else .ok { reader with expectedWireLen := some (4 + len) }
  else .ok reader

def removePadding (paddingProfile : Option ProfileTier) (plaintext : Bytes) :
    Except ShphError Bytes :=
  match paddingProfile with
  | some profile => removeProfileInPlace profile plaintext
  | none => .ok plaintext

/-- Decrypt the body of a complete frame and remove the padding envelope. -/
def openFrame (aead : Aead) (cipher : ReceiveCipher)
    (paddingProfile : Option ProfileTier) (body : Bytes) :
    Except ShphError Bytes × ReceiveCipher :=
  match cipher.decrypt aead body with
  | (.error error, cipher) => (.error error, cipher)
  | (.ok plaintext, cipher) => (removePadding paddingProfile plaintext, cipher)

/-- How many bytes the present frame still lacks. -/
def needed (reader : TcpFrameReader) : Nat :=
  match reader.expectedWireLen with
  | some expected => expected - reader.wire.length
  | none => 4 - reader.wire.length

/-- The loop of a call.  Every turn ends the call or takes one read event;
when no event is left the socket times out. -/
def recvFrame (aead : Aead) (paddingProfile : Option ProfileTier) :
    List ReadEvent → TcpFrameReader → Bytes → ReceiveCipher →
      Except ShphError Bytes × TcpFrameReader × Bytes × List ReadEvent ×
        ReceiveCipher
  | reads, reader, incoming, cipher =>
      match reader.parseLength with
      | .error error => (.error error, .default, incoming, reads, cipher)
      | .ok reader =>
          match reader.expectedWireLen.filter (· ≤ reader.wire.length) with
          | some expected =>
              match openFrame aead cipher paddingProfile
                  (slice reader.wire 4 (expected - 4)) with
              | (result, cipher) => (result, .default, incoming, reads, cipher)
          | none =>
              match reads with
              | [] => (.error .timeout, reader, incoming, [], cipher)
              | event :: reads =>
                  match event.read incoming
                      (min reader.needed readChunkBytes) with
                  | .error .interrupted =>
                      recvFrame aead paddingProfile reads reader incoming cipher
                  | .error kind =>
                      (.error (mapIoError kind), reader, incoming, reads,
                        cipher)
                  | .ok ([], incoming) =>
                      (.error .connectionClosed, reader, incoming, reads,
                        cipher)
                  | .ok (chunk, incoming) =>
                      recvFrame aead paddingProfile reads
                        { reader with wire := reader.wire ++ chunk }
                        incoming cipher

end TcpFrameReader

/-- Take the inner envelope off, if the session has one. -/
def decodePhantomOne (decoder : Option PhantomOneDecoder) (framed : Bytes) :
    Except ShphError Bytes × Option PhantomOneDecoder :=
  match decoder with
  | none => (.ok framed, none)
  | some decoder =>
      match decoder.decodeInPlace framed phantomOneTcpPathMtu with
      | (result, decoder) => (result, some decoder)

/-- `read_encrypted_tcp_frame` on the parts of the session. -/
def SecureTcpSession.recvFrame {rng : Rng} (aead : Aead)
    (session : SecureTcpSession rng) :
    Except ShphError Bytes × SecureTcpSession rng :=
  if session.phantomOneDecoder.isSome ∧ session.paddingProfile.isSome then
    (.error (.protocol
      "Phantom One cannot be combined with the legacy TCP padding profile"),
      session)
  else
    match TcpFrameReader.recvFrame aead session.paddingProfile
        session.stream.reads session.frameReader session.stream.incoming
        session.recvCipher with
    | (result, frameReader, incoming, reads, recvCipher) =>
        let session := { session with
          stream := { session.stream with incoming, reads }
          frameReader, recvCipher }
        match result with
        | .error error => (.error error, session)
        | .ok framed =>
            match decodePhantomOne session.phantomOneDecoder framed with
            | (result, phantomOneDecoder) =>
                (result, { session with phantomOneDecoder })

end Shph
