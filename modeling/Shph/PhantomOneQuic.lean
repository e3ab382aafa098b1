/-
The Phantom One data plane of a standards QUIC connection.  Each direction has
a cipher, an encoder and a decoder, and with them its counters and its replay
windows; a bridge for datagrams is made of the two.
-/
import Shph.StandardsTun

namespace Shph

open ByteCodec StandardsTun

/-- The sending half of a stream: what was written to it, and the error after
which every write fails. -/
structure SendStream where
  written : Bytes
  failed : Option String
deriving Repr, DecidableEq

/-- What a read meets when the bytes of a stream have run out. -/
inductive StreamEnd where
  | finished
  | failed (reason : String)
deriving Repr, DecidableEq

structure RecvStream where
  unread : Bytes
  ending : StreamEnd
deriving Repr, DecidableEq

variable {rng : Rng}

/-- Encode and encrypt: how every envelope of the data plane is made. -/
def StandardsTun.PhantomOneDatagramSender.seal (aead : Aead)
    (sender : PhantomOneDatagramSender rng) (frameType : PhantomOneFrameType)
    (payload : Bytes) (limit : Nat) :
    Except ShphError Bytes × PhantomOneDatagramSender rng :=
  match sender.encoder.encode frameType payload limit with
  | (.error error, encoder) => (.error error, { sender with encoder })
  | (.ok envelope, encoder) =>
      match sender.sendCipher.encrypt aead envelope with
      | (result, sendCipher) => (result, ⟨sendCipher, encoder⟩)

/-- Decrypt and decode: how every envelope of the data plane is read. -/
def StandardsTun.PhantomOneDatagramReceiver.unseal (aead : Aead)
    (receiver : PhantomOneDatagramReceiver) (ciphertext : Bytes)
    (limit : Nat) :
    Except ShphError PhantomOneFrame × PhantomOneDatagramReceiver :=
  match receiver.recvCipher.decrypt aead ciphertext with
  | (.error error, recvCipher) => (.error error, { receiver with recvCipher })
  | (.ok envelope, recvCipher) =>
      match receiver.decoder.decode envelope limit with
      | (result, decoder) => (result, ⟨recvCipher, decoder⟩)

/-- One end of a connection on which Phantom One is enabled.  What the
datagrams and the stream share are the two halves. -/
structure PhantomOneState (rng : Rng) where
  profile : ProfileTier
  sender : PhantomOneDatagramSender rng
  receiver : PhantomOneDatagramReceiver
  applicationSend : Option SendStream
  applicationRecv : Option RecvStream

/-- The keys and the generation come from the handshake. -/
def enablePhantomOne (state : Option (PhantomOneState rng))
    (sendKey recvKey : Key) (generation : Except ShphError UInt32)
    (profile : ProfileTier) (seeded : rng.State) :
    Except ShphError (PhantomOneState rng) :=
  match state with
  | some state => do
      ensure (state.profile = profile)
        (.protocol "Phantom One profile cannot change after enablement")
      return state
  | none => do
      let generation ← generation
      let config := PhantomOneConfig.forProfile profile
      let decoder ← PhantomOneDecoder.withConfigAndWindow generation config 64
      return {
        profile
        sender := ⟨.new sendKey,
          .fromValidatedConfig generation 0 config seeded⟩
        receiver := ⟨.newWithReplayWindow recvKey 128, decoder⟩
        applicationSend := none
        applicationRecv := none }

namespace PhantomOneState

def intoPhantomOneDatagramBridge (state : PhantomOneState rng) :
    Except ShphError
      (PhantomOneDatagramSender rng × PhantomOneDatagramReceiver) := do
  ensure (state.applicationSend.isNone ∧ state.applicationRecv.isNone)
    (.protocol ("Phantom One application stream cannot coexist with the " ++
      "native-TUN datagram bridge"))
  return (state.sender, state.receiver)

end PhantomOneState

end Shph
