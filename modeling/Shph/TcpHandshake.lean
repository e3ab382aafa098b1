/-
The handshake over a TCP connection: the two hellos as lines, the challenge
with which a server under load puts a cookie between them, and the ciphertext
behind its length.  Every read and every write may fail, and whatever fails
ends the handshake.
-/
import Shph.Cookie
import Shph.Library.BufferedLines
import Shph.Library.Dialogue
import Shph.Library.JsonLayout

namespace Shph

open ByteCodec Dialogue FlatJson JsonLayout Program
def maxHelloBytes : Nat := 16 * 1024

def maxCookieLineBytes : Nat := 128

def maxHandshakeFrameTailBytes : Nat := 64

def cookieChallengePrefix : Bytes := textBytes "SHPH-COOKIE-CHALLENGE "

def cookieResponsePrefix : Bytes := textBytes "SHPH-COOKIE-RESPONSE "

section Frames

def textJson (text : String) : List Char := quote text.toList

def optionJson : Option String → List Char
  | some text => textJson text
  | none => ['n', 'u', 'l', 'l']

/-- A hello as the serializer writes it, in the order of its fields. -/
def helloJson (hello : Hello) : List Char :=
  object .compact 0
    [("proto", textJson hello.proto),
      ("profile", textJson hello.profile.asStr),
      ("identity_pub_b64", textJson hello.identityPubB64),
      ("sign_pub_b64", textJson hello.signPubB64),
      ("pqc_pub_b64", optionJson hello.pqcPubB64),
      ("pqc_ct_b64", optionJson hello.pqcCtB64),
      ("ephemeral_pub_b64", textJson hello.ephemeralPubB64),
      ("nonce_b64", textJson hello.nonceB64),
      ("timestamp_secs", Nat.toDigits 10 hello.timestampSecs.toNat),
      ("sig", textJson hello.sig)]

/-- The random bytes of one frame; `none` is a draw that failed. -/
structure FrameDraws where
  random : Option UInt8
  randomTail : Option (FixedBytes maxHandshakeFrameTailBytes)
deriving Repr, DecidableEq

def tailChar (random : UInt8) : Char := if random &&& 1 = 0 then ' ' else '\t'

def serializeHelloFrameWithPaddingLen (hello : Hello) (paddingLen : Nat)
    (randomTail : Option (FixedBytes maxHandshakeFrameTailBytes)) :
    Except ShphError Bytes := do
  ensure (paddingLen ≤ maxHandshakeFrameTailBytes)
    (.protocol "handshake frame tail exceeds size limit")
  if paddingLen = 0 then return textBytes (String.ofList (helloJson hello))
  else
    let randomTail ← okOr randomTail ringError
    return textBytes (String.ofList (helloJson hello ++
      (randomTail.val.take paddingLen).map tailChar))

def serializeHelloFrame (hello : Hello) (draws : FrameDraws) :
    Except ShphError Bytes := do
  let random ← okOr draws.random ringError
  serializeHelloFrameWithPaddingLen hello
    (random.toNat % (maxHandshakeFrameTailBytes + 1)) draws.randomTail

/-- What reads a hello from a text; white space after the object is no
error. -/
structure HelloReader where
  fromStr : String → Except String Hello
  fromStr_helloJson : ∀ (hello : Hello) (tail : List Char),
    (∀ char ∈ tail, char = ' ' ∨ char = '\t') →
      fromStr (String.ofList (helloJson hello ++ tail)) = .ok hello

end Frames

section Lines

def isLineEnd (byte : UInt8) : Bool := byte = 10 || byte = 13

/-- The line without its line end, which may not be longer than `maxBytes`. -/
def stripLine (maxBytes : Nat) (buffer : Bytes) : Except ShphError Bytes := do
  let line := buffer.rdropWhile isLineEnd
  ensure (line.length ≤ maxBytes) (.protocol "hello exceeds size limit")
  return line

/-- The loop over the bytes of a line; `room` is what the buffer still holds.
Bytes after the line stay in the stream, since it asks for one at a time. -/
def readTcpLineLoop (maxBytes : Nat) : Nat → Bytes → Program ShphError Bytes
  | 0, buffer =>
      .sync (.read 1 fun chunk =>
        match chunk with
        | [] =>
            fail (if buffer = [] then .connectionClosed
              else .protocol "truncated hello")
        | _ :: _ => fail (.protocol "hello exceeds size limit"))
  | room + 1, buffer =>
      .sync (.read 1 fun chunk =>
        match chunk with
        | [] =>
            fail (if buffer = [] then .connectionClosed
              else .protocol "truncated hello")
        | byte :: _ =>
            if byte = BufferedLines.newline then
              ofExcept (stripLine maxBytes (buffer ++ [byte]))
            else readTcpLineLoop maxBytes room (buffer ++ [byte]))

def readTcpLine (maxBytes : Nat) : Program ShphError Bytes :=
  readTcpLineLoop maxBytes (maxBytes + 1) []

/-- The deadline is looked at before the bytes are handed over. -/
def writeTcpAllOrClosedWithDeadline (payload : Bytes) :
    Program ShphError Unit :=
  .sync (Program.send payload)

/-- Look at the deadline and flush. -/
def refreshAndFlush : Program ShphError Unit := do
  call
  call

def readExactOrClosedWithDeadline (count : Nat) : Program ShphError Bytes :=
  .sync (readExact .connectionClosed count)

end Lines

section Messages

def writeTcpHello (hello : Hello) (draws : FrameDraws) :
    Program ShphError Unit := do
  let payload ← ofExcept (serializeHelloFrame hello draws)
  ofExcept (ensure (payload.length ≤ maxHelloBytes)
    (.protocol "hello exceeds size limit"))
  writeTcpAllOrClosedWithDeadline payload
  writeTcpAllOrClosedWithDeadline [BufferedLines.newline]
  refreshAndFlush

def parseHello (reader : HelloReader) (line : Bytes) :
    Except ShphError Hello := do
  let text ← okOr (String.fromUTF8? ⟨line.toArray⟩) (.protocol "hello not utf8")
  match reader.fromStr text with
  | .ok hello => .ok hello
  | .error message => .error (.protocol message)

def readTcpHello (reader : HelloReader) : Program ShphError Hello := do
  let line ← readTcpLine maxHelloBytes
  ofExcept (parseHello reader line)

/-- The text after a prefix, read as Base64. -/
def decodeBytes (encoded : Bytes) : Option Bytes :=
  (String.fromUTF8? ⟨encoded.toArray⟩).bind Base64.decode

/-- A line with the cookie in Base64 behind the prefix. -/
def cookieLine (start cookie : Bytes) : Bytes :=
  start ++ (textBytes (Base64.encode cookie) ++ [BufferedLines.newline])

def writeTcpCookieLine (start cookie : Bytes) : Program ShphError Unit := do
  writeTcpAllOrClosedWithDeadline start
  writeTcpAllOrClosedWithDeadline (textBytes (Base64.encode cookie))
  writeTcpAllOrClosedWithDeadline [BufferedLines.newline]
  refreshAndFlush

def writeTcpCookieChallenge (cookie : FixedBytes 32) : Program ShphError Unit :=
  writeTcpCookieLine cookieChallengePrefix cookie.val

def writeTcpCookieResponse (cookie : Bytes) : Program ShphError Unit := do
  ofExcept (ensure (cookie.length = 32)
    (.protocol "cookie response has invalid length"))
  writeTcpCookieLine cookieResponsePrefix cookie

def parseCookieResponse (line : Bytes) : Except ShphError Bytes := do
  ensure (cookieResponsePrefix <+: line)
    (.protocol "expected pre-authentication cookie response")
  let cookie ← okOr (decodeBytes (line.drop cookieResponsePrefix.length))
    (.protocol "invalid cookie response encoding")
  ensure (cookie.length = 32) (.protocol "cookie response has invalid length")
  return cookie

def readTcpCookieResponse : Program ShphError Bytes := do
  let line ← readTcpLine maxCookieLineBytes
  ofExcept (parseCookieResponse line)

def parseCookieChallenge (line : Bytes) : Except ShphError Bytes := do
  let cookie ← okOr (decodeBytes (line.drop cookieChallengePrefix.length))
    (.protocol "invalid cookie challenge encoding")
  ensure (cookie.length = 32) (.protocol "cookie challenge has invalid length")
  return cookie

/-- The first line of the server is a challenge or its hello. -/
def takeServerLine (reader : HelloReader) (line : Bytes) :
    Program ShphError Hello :=
  if cookieChallengePrefix <+: line then do
    let cookie ← ofExcept (parseCookieChallenge line)
    writeTcpCookieResponse cookie
    readTcpHello reader
  else ofExcept (parseHello reader line)

def readTcpServerHello (reader : HelloReader) : Program ShphError Hello := do
  let line ← readTcpLine maxHelloBytes
  takeServerLine reader line

def writeTcpPqCt (ct : Bytes) : Program ShphError Unit := do
  ofExcept (ensure (ct.length = mlKem768CiphertextBytes)
    (.protocol s!"pq ciphertext size mismatch: expected 1088, got {ct.length}"))
  writeTcpAllOrClosedWithDeadline (bigEndian 4 ct.length)
  writeTcpAllOrClosedWithDeadline ct
  refreshAndFlush

/-- The ciphertext behind its length. -/
def readCiphertext (len : Nat) : Program ShphError Bytes := do
  ofExcept (ensure (len = mlKem768CiphertextBytes)
    (.protocol s!"pq ciphertext length mismatch: expected 1088, got {len}"))
  readExactOrClosedWithDeadline len

def readTcpPqCt : Program ShphError Bytes := do
  let lenBuf ← readExactOrClosedWithDeadline 4
  readCiphertext (ofBigEndian lenBuf)

end Messages

section Ends

variable {prims : Primitives}

/-- What a client draws and reads from the clock, in this order. -/
structure TcpClientEnv where
  hello : HelloDraws
  frame : FrameDraws
  verifiedAt : Option UInt64
  exchangedAt : Option UInt64
  coins : Key
  derivedAt : Option UInt64 × Option UInt64

/-- The two timeouts of the stream are set back. -/
def clearDeadlineTimeout : Program ShphError Unit := do
  call
  call

/-- The end of a handshake: the keys, and the stream as it was. -/
def finishTcpHandshake (localIdentity : IdentityKeyPair)
    (material : HandshakeMaterial prims) (peerHello : Hello) (initiator : Bool)
    (policy : PeerPolicy) (derivedAt : Option UInt64 × Option UInt64) :
    Program ShphError HandshakeState := do
  let state ← ofExcept (verifyAndDeriveWithProfile localIdentity
    material peerHello initiator policy derivedAt.1 derivedAt.2)
  clearDeadlineTimeout
  return state

/-- The client once it has the hello of the server. -/
def completeTcpClient (localIdentity : IdentityKeyPair)
    (material : HandshakeMaterial prims) (policy : PeerPolicy)
    (profile : HandshakeProfile) (env : TcpClientEnv) (peerHello : Hello) :
    Program ShphError HandshakeState := do
  ofExcept (verifyHelloSignature localIdentity material peerHello
    policy env.verifiedAt)
  if profile.usesPqc then
    match finalizeInitiatorPq localIdentity peerHello policy env.exchangedAt
        env.coins material with
    | (.error error, _) => fail error
    | (.ok ct, material) => do
        writeTcpPqCt ct
        finishTcpHandshake localIdentity material peerHello true policy
          env.derivedAt
  else
    finishTcpHandshake localIdentity material peerHello true policy
      env.derivedAt

def tcpHandshakeOnConnectedStream (prims : Primitives) (reader : HelloReader)
    (localIdentity : IdentityKeyPair) (policy : PeerPolicy)
    (profile : HandshakeProfile) (env : TcpClientEnv) :
    Program ShphError HandshakeState := do
  call
  let material ← ofExcept
    (buildHelloWithProfile prims localIdentity profile env.hello)
  writeTcpHello material.localHello env.frame
  let peerHello ← readTcpServerHello reader
  completeTcpClient localIdentity material policy profile env peerHello

/-- What a worker draws and reads from the clock, what it finds in the flag
that calls it off, and what the cookie authority answers it. -/
structure TcpWorkerEnv where
  cancelled : Bool × Bool × Bool
  issued : Except ShphError (FixedBytes 32)
  verified : Bytes → Except ShphError Bool
  hello : HelloDraws
  frame : FrameDraws
  verifiedAt : Option UInt64
  absorbedAt : Option UInt64
  derivedAt : Option UInt64 × Option UInt64

structure TcpHandshakeWorker where
  localIdentity : IdentityKeyPair
  policy : PeerPolicy
  profile : HandshakeProfile
  requiresCookie : Bool

namespace TcpHandshakeWorker

def checkCancelled (cancelled : Bool) : Program ShphError Unit :=
  ofExcept (ensure (¬ cancelled) .timeout)

/-- The answer to a challenge. -/
def acceptCookie (env : TcpWorkerEnv) : Program ShphError Unit := do
  let response ← readTcpCookieResponse
  let valid ← ofExcept (env.verified response)
  ofExcept (ensure valid
    (.auth "invalid or expired pre-authentication cookie"))

/-- Nothing of the handshake is done before the cookie came back. -/
def passCookie (requiresCookie : Bool) (env : TcpWorkerEnv) :
    Program ShphError Unit :=
  if requiresCookie then do
    let cookie ← ofExcept env.issued
    writeTcpCookieChallenge cookie
    acceptCookie env
  else return ()

/-- The worker once it has sent its own hello. -/
def complete (worker : TcpHandshakeWorker) (env : TcpWorkerEnv)
    (material : HandshakeMaterial prims) (peerHello : Hello) :
    Program ShphError HandshakeState :=
  if worker.profile.usesPqc then do
    let ct ← readTcpPqCt
    match absorbResponderPq worker.localIdentity peerHello ct worker.policy
        env.absorbedAt material with
    | (.error error, _) => fail error
    | (.ok (), material) =>
        finishTcpHandshake worker.localIdentity material peerHello false
          worker.policy env.derivedAt
  else
    finishTcpHandshake worker.localIdentity material peerHello false
      worker.policy env.derivedAt

/-- The handshake proper, once the peer may have it. -/
def answer (prims : Primitives) (worker : TcpHandshakeWorker)
    (env : TcpWorkerEnv) (peerHello : Hello) :
    Program ShphError HandshakeState := do
  let material ← ofExcept
    (buildHelloWithProfile prims worker.localIdentity worker.profile env.hello)
  ofExcept (verifyHelloSignature worker.localIdentity material
    peerHello worker.policy env.verifiedAt)
  writeTcpHello material.localHello env.frame
  worker.complete env material peerHello

def run (prims : Primitives) (reader : HelloReader)
    (worker : TcpHandshakeWorker) (env : TcpWorkerEnv) :
    Program ShphError HandshakeState := do
  checkCancelled env.cancelled.1
  call
  let peerHello ← readTcpHello reader
  checkCancelled env.cancelled.2.1
  passCookie worker.requiresCookie env
  checkCancelled env.cancelled.2.2
  worker.answer prims env peerHello

end TcpHandshakeWorker

end Ends

end Shph
