/-
The setup message of an onion route.  The packet is built from the inside out:
every hop of the route gets a layer, sealed with its key, that names the next
hop and holds the packet for it.
-/
import Shph.Cookie

namespace Shph.SnapAdapter

open ByteCodec FixedBytes
abbrev onionNonceBytes : Nat := 12

def maxOnionMessageBytes : Nat := 1024 * 1024

structure OnionHop where
  ip : IpAddr
  port : UInt16
  key : Bytes
deriving Repr, DecidableEq

structure OnionLayer where
  v : UInt8
  nextIp : String
  nextPort : UInt16
  nextIsRelay : Bool
  dataB64 : String
deriving Repr, DecidableEq

/-- The writer of the layers, and a reader that reads what was written. -/
structure LayerJson where
  write : OnionLayer → Except String Bytes
  read : Bytes → Option OnionLayer
  read_write : ∀ {layer bytes}, write layer = .ok bytes →
    read bytes = some layer

section Packet

variable (aead : Aead) (json : LayerJson) (showIp : IpAddr → String)

/-- The cipher is the one with the additional data of the onion layers. -/
def encryptOnionLayer (nonce : Option AeadNonce) (keyBytes plaintext : Bytes) :
    Except ShphError Bytes := do
  let key ← okOr (ofBytes? 32 keyBytes)
    (.config "SNAP onion relay key must be 32 bytes")
  let nonce ← okOr nonce (.crypto "SNAP onion nonce generation failed")
  let ciphertext ← okOr (aead.encrypt key nonce plaintext)
    (.crypto "SNAP onion layer encryption failed")
  return nonce.val ++ ciphertext

/-- `serde_json::to_vec` of a layer. -/
def layerBytes (layer : OnionLayer) : Except ShphError Bytes :=
  match json.write layer with
  | .ok bytes => .ok bytes
  | .error message => .error (.serialization message)

/-- What the layer of a hop says about the next one. -/
def nextOf (hops : List OnionHop) (finalIp : String) (finalPort : UInt16)
    (index : Nat) : String × UInt16 × Bool :=
  match hops[index + 1]? with
  | some next => (showIp next.ip, next.port, true)
  | none => (finalIp, finalPort, false)

/-- One turn of the loop over the hops, from the last to the first. -/
def addLayer (nonces : Nat → Option AeadNonce) (hops : List OnionHop)
    (finalIp : String) (finalPort : UInt16) (blob : Bytes)
    (hop : OnionHop × Nat) : Except ShphError Bytes := do
  let (hop, index) := hop
  let (nextIp, nextPort, nextIsRelay) :=
    nextOf showIp hops finalIp finalPort index
  let plaintext ← layerBytes json
    { v := 1, nextIp, nextPort, nextIsRelay, dataB64 := Base64.encode blob }
  let blob ← encryptOnionLayer aead (nonces index) hop.key plaintext
  ensure (blob.length ≤ maxOnionMessageBytes)
    (.protocol "SNAP onion route produces an oversized setup message")
  return blob

/-- The nonces are the ones that are drawn for the hops. -/
def buildOnionPacket (nonces : Nat → Option AeadNonce) (hops : List OnionHop)
    (finalIp : String) (finalPort : UInt16) : Except ShphError Bytes :=
  hops.zipIdx.reverse.foldlM
    (addLayer aead json showIp nonces hops finalIp finalPort) []

/-- What a relay does with a packet: it opens the layer under its key and
finds the packet for the next relay in it. -/
def peel (keyBytes blob : Bytes) : Option (OnionLayer × Bytes) := do
  let key ← ofBytes? 32 keyBytes
  let nonce ← ofBytes? onionNonceBytes (blob.take onionNonceBytes)
  let plaintext ← aead.decrypt key nonce (blob.drop onionNonceBytes)
  let layer ← json.read plaintext
  let inner ← Base64.decode layer.dataB64
  return (layer, inner)

/-- Peeling with one key after the other: the layers, and what is left. -/
def peelPath : List Bytes → Bytes → Option (List OnionLayer × Bytes)
  | [], blob => some ([], blob)
  | key :: keys, blob => do
      let (layer, inner) ← peel aead json key blob
      let (layers, last) ← peelPath keys inner
      return (layer :: layers, last)

/-- The layers that can be opened with a set of keys, in any order of
trying. -/
inductive Opened (keys : Bytes → Prop) : Bytes → OnionLayer → Prop
  | outer {key blob inner layer} : keys key →
      peel aead json key blob = some (layer, inner) → Opened keys blob layer
  | inner {key blob inner outer layer} : keys key →
      peel aead json key blob = some (outer, inner) →
        Opened keys inner layer → Opened keys blob layer

/-- An ideal cipher: what opens under a key was sealed under it, and a
ciphertext is sealed under one key only. -/
structure IdealAead : Prop where
  sealed : ∀ {key nonce ciphertext plaintext},
    aead.decrypt key nonce ciphertext = some plaintext →
      aead.encrypt key nonce plaintext = some ciphertext
  binding : ∀ {key other nonce plaintext otherPlaintext ciphertext},
    aead.encrypt key nonce plaintext = some ciphertext →
      aead.encrypt other nonce otherPlaintext = some ciphertext → key = other

/-- The layers of a packet, from the outside in, with their keys. -/
inductive Layered : List Bytes → Bytes → List OnionLayer → Prop
  | core : Layered [] [] []
  | layer {key : Key} {nonce : AeadNonce} {plaintext ciphertext inner : Bytes}
      {layer : OnionLayer} {keys layers} :
      json.write layer = .ok plaintext →
      aead.encrypt key nonce plaintext = some ciphertext →
      layer.dataB64 = Base64.encode inner →
      Layered keys inner layers →
      Layered (key.val :: keys) (nonce.val ++ ciphertext) (layer :: layers)

end Packet

section Spec

variable {aead : Aead} {json : LayerJson} {showIp : IpAddr → String}

/-- A sealed layer is peeled by its own key, and by no other. -/
theorem peel_eq_some_iff (hideal : IdealAead aead) {key : Key}
    {nonce : AeadNonce} {plaintext ciphertext inner : Bytes}
    {layer : OnionLayer} (hwrite : json.write layer = .ok plaintext)
    (hseal : aead.encrypt key nonce plaintext = some ciphertext)
    (hinner : layer.dataB64 = Base64.encode inner) {other : Bytes}
    {result : OnionLayer × Bytes} :
    peel aead json other (nonce.val ++ ciphertext) = some result ↔
      other = key.val ∧ result = (layer, inner) := by
  have hnonce : nonce.val.length = onionNonceBytes := nonce.length_eq
  have htake : ofBytes? onionNonceBytes
      ((nonce.val ++ ciphertext).take onionNonceBytes) = some nonce := by
    rw [List.take_left' hnonce]
    exact ofBytes?_val nonce
  have hopen := aead.decrypt_encrypt hseal
  have hread := json.read_write hwrite
  constructor
  · intro hpeel
    simp only [peel, Option.bind_eq_bind, Option.bind_eq_some_iff] at hpeel
    obtain ⟨otherKey, hkey, drawn, hdrawn, opened, hdecrypt, read, hreads,
      decoded, hdecode, hresult⟩ := hpeel
    rw [htake, Option.some.injEq] at hdrawn
    rw [← hdrawn, List.drop_left' hnonce] at hdecrypt
    obtain rfl := hideal.binding hseal (hideal.sealed hdecrypt)
    rw [hopen, Option.some.injEq] at hdecrypt
    subst hdecrypt
    rw [hread, Option.some.injEq] at hreads
    subst hreads
    rw [hinner, Base64.decode_encode, Option.some.injEq] at hdecode
    subst hdecode
    exact ⟨ofBytes?_eq_some_iff.mp hkey,
      (Option.some.inj hresult).symm⟩
  · rintro ⟨rfl, rfl⟩
    simp only [peel, ofBytes?_val, htake, List.drop_left' hnonce,
      Option.bind_eq_bind, Option.bind_some, hopen, hread, hinner,
      Base64.decode_encode, pure]

/-- One turn of the way through a packet. -/
theorem peelPath_sealed (hideal : IdealAead aead) {key : Key}
    {nonce : AeadNonce} {plaintext ciphertext inner : Bytes}
    {layer : OnionLayer} (hwrite : json.write layer = .ok plaintext)
    (hseal : aead.encrypt key nonce plaintext = some ciphertext)
    (hinner : layer.dataB64 = Base64.encode inner) (keys : List Bytes) :
    peelPath aead json (key.val :: keys) (nonce.val ++ ciphertext) =
      (peelPath aead json keys inner).map fun result =>
        (layer :: result.1, result.2) := by
  rw [peelPath, (peel_eq_some_iff hideal hwrite hseal hinner).mpr ⟨rfl, rfl⟩,
    Option.bind_eq_bind, Option.bind_some]
  dsimp only
  cases peelPath aead json keys inner <;> rfl

theorem peel_nil (key : Bytes) : peel aead json key [] = none := by
  unfold peel
  cases ofBytes? 32 key with
  | none => rfl
  | some key => rfl

namespace Layered

/-- Peeling in the order of the path goes through all layers. -/
theorem peelPath_eq (hideal : IdealAead aead) {keys : List Bytes}
    {blob : Bytes} {layers : List OnionLayer}
    (hlayered : Layered aead json keys blob layers) :
    peelPath aead json keys blob = some (layers, []) := by
  induction hlayered with
  | core => rfl
  | layer hwrite hseal hinner _ ih =>
      rw [peelPath_sealed hideal hwrite hseal hinner, ih]
      rfl

/-- At every depth only the key of the hop whose turn it is gets on. -/
theorem peel_other (hideal : IdealAead aead) {keys : List Bytes}
    {blob : Bytes} {layers : List OnionLayer}
    (hlayered : Layered aead json keys blob layers) {index : Nat}
    {key other inner : Bytes} {front : List OnionLayer}
    (hkey : keys[index]? = some key)
    (hfront : peelPath aead json (keys.take index) blob = some (front, inner))
    (hother : other ≠ key) : peel aead json other inner = none := by
  induction hlayered generalizing index front with
  | core => simp at hkey
  | @layer own nonce plaintext ciphertext next layer keys layers hwrite hseal
      hinner _ ih =>
      cases index with
      | zero =>
          rw [List.take_zero, peelPath, Option.some.injEq,
            Prod.mk.injEq] at hfront
          rw [List.getElem?_cons_zero, Option.some.injEq] at hkey
          rw [← hfront.2, Option.eq_none_iff_forall_ne_some]
          intro result hresult
          have hpeeled :=
            (peel_eq_some_iff hideal hwrite hseal hinner).mp hresult
          exact hother (hpeeled.1.trans hkey)
      | succ index =>
          rw [List.getElem?_cons_succ] at hkey
          rw [List.take_succ_cons, peelPath_sealed hideal hwrite hseal hinner,
            Option.map_eq_some_iff] at hfront
          obtain ⟨⟨rest, last⟩, hrest, hsame⟩ := hfront
          cases hsame
          exact ih hkey hrest

/-- A set of keys opens exactly the layers above which it has all keys. -/
theorem opened_iff (hideal : IdealAead aead) {keys : List Bytes}
    {blob : Bytes} {layers : List OnionLayer}
    (hlayered : Layered aead json keys blob layers) {known : Bytes → Prop}
    {layer : OnionLayer} :
    Opened aead json known blob layer ↔
      ∃ index, layers[index]? = some layer ∧
        ∀ key ∈ keys.take (index + 1), known key := by
  induction hlayered with
  | core =>
      constructor
      · rintro (⟨-, hpeel⟩ | ⟨-, hpeel, -⟩) <;> rw [peel_nil] at hpeel <;>
          cases hpeel
      · rintro ⟨index, hlayer, -⟩
        simp at hlayer
  | @layer own nonce plaintext ciphertext next outermost keys layers hwrite
      hseal hinner _ ih =>
      constructor
      · rintro (⟨hknown, hpeel⟩ | ⟨hknown, hpeel, hopened⟩)
        · obtain ⟨rfl, hsame⟩ :=
            (peel_eq_some_iff hideal hwrite hseal hinner).mp hpeel
          cases hsame
          exact ⟨0, rfl, by simpa using hknown⟩
        · obtain ⟨rfl, hsame⟩ :=
            (peel_eq_some_iff hideal hwrite hseal hinner).mp hpeel
          cases hsame
          obtain ⟨index, hlayer, hkeys⟩ := ih.mp hopened
          refine ⟨index + 1, hlayer, ?_⟩
          rw [List.take_succ_cons, List.forall_mem_cons]
          exact ⟨hknown, hkeys⟩
      · rintro ⟨index, hlayer, hkeys⟩
        rw [List.take_succ_cons, List.forall_mem_cons] at hkeys
        have hpeel := (peel_eq_some_iff hideal hwrite hseal hinner).mpr
          ⟨rfl, rfl⟩
        cases index with
        | zero =>
            rw [List.getElem?_cons_zero, Option.some.injEq] at hlayer
            subst hlayer
            exact .outer hkeys.1 hpeel
        | succ index =>
            exact .inner hkeys.1 hpeel (ih.mpr ⟨index, hlayer, hkeys.2⟩)

end Layered

/-- The part of a layer that names the next hop. -/
def OnionLayer.next (layer : OnionLayer) : String × UInt16 × Bool :=
  (layer.nextIp, layer.nextPort, layer.nextIsRelay)

/-- One turn puts a layer around the packet. -/
theorem addLayer_eq_ok {nonces : Nat → Option AeadNonce}
    {hops : List OnionHop} {finalIp : String} {finalPort : UInt16}
    {inner blob : Bytes} {hop : OnionHop} {index : Nat}
    {keys : List Bytes} {layers : List OnionLayer}
    (hadd : addLayer aead json showIp nonces hops finalIp finalPort inner
      (hop, index) = .ok blob)
    (hlayered : Layered aead json keys inner layers) :
    ∃ layer : OnionLayer,
      layer.next = nextOf showIp hops finalIp finalPort index ∧
        Layered aead json (hop.key :: keys) blob (layer :: layers) := by
  simp only [addLayer, encryptOnionLayer, bind_eq_ok_iff, okOr_eq_ok_iff,
    ofBytes?_eq_some_iff, pure_eq_ok_iff] at hadd
  obtain ⟨plaintext, hbytes, sealed, ⟨key, hkey, nonce, -, ciphertext, hseal,
    rfl⟩, -, -, rfl⟩ := hadd
  rw [layerBytes] at hbytes
  split at hbytes
  · rename_i bytes hwrite
    cases hbytes
    rw [hkey]
    exact ⟨_, rfl, .layer hwrite hseal rfl hlayered⟩
  · cases hbytes

/-- The loop makes a layered packet of the hops it has been through. -/
theorem layered_of_foldrM {nonces : Nat → Option AeadNonce}
    {hops : List OnionHop} {finalIp : String} {finalPort : UInt16}
    {route : List OnionHop} {start : Nat} {blob : Bytes}
    (hbuild : (route.zipIdx start).foldrM (fun hop inner =>
      addLayer aead json showIp nonces hops finalIp finalPort inner hop) [] =
        .ok blob) :
    ∃ layers, Layered aead json (route.map OnionHop.key) blob layers ∧
      layers.map OnionLayer.next = (List.range' start route.length).map
        (nextOf showIp hops finalIp finalPort) := by
  induction route generalizing start blob with
  | nil =>
      cases hbuild
      exact ⟨[], .core, rfl⟩
  | cons hop route ih =>
      rw [List.zipIdx_cons, List.foldrM_cons, bind_eq_ok_iff] at hbuild
      obtain ⟨inner, hinner, hadd⟩ := hbuild
      obtain ⟨layers, hlayered, hnext⟩ := ih hinner
      obtain ⟨layer, hlayer, hpacket⟩ := addLayer_eq_ok hadd hlayered
      refine ⟨layer :: layers, hpacket, ?_⟩
      rw [List.map_cons, hnext, hlayer, List.length_cons, List.range'_succ,
        List.map_cons]

/-- Peeled in path order a packet shows every hop the next one, and the last
hop the destination; at no depth another key gets on, and a set of keys opens
only the layers for which it has the keys of all hops up to there. -/
theorem onion_packet_layers (hideal : IdealAead aead)
    {nonces : Nat → Option AeadNonce} {hops : List OnionHop}
    {finalIp : String} {finalPort : UInt16} {packet : Bytes}
    (hbuild : buildOnionPacket aead json showIp nonces hops finalIp
      finalPort = .ok packet) :
    ∃ layers,
      peelPath aead json (hops.map OnionHop.key) packet = some (layers, []) ∧
      layers.length = hops.length ∧
      (∀ index layer, layers[index]? = some layer →
        (∀ next, hops[index + 1]? = some next →
          layer.nextIp = showIp next.ip ∧ layer.nextPort = next.port ∧
            layer.nextIsRelay = true) ∧
        (index + 1 = hops.length →
          layer.nextIp = finalIp ∧ layer.nextPort = finalPort ∧
            layer.nextIsRelay = false)) ∧
      (∀ index hop front inner, hops[index]? = some hop →
        peelPath aead json ((hops.map OnionHop.key).take index) packet =
          some (front, inner) →
        ∀ other, other ≠ hop.key → peel aead json other inner = none) ∧
      ∀ known layer, Opened aead json known packet layer ↔
        ∃ index, layers[index]? = some layer ∧
          ∀ hop ∈ hops.take (index + 1), known hop.key := by
  rw [buildOnionPacket, List.foldlM_reverse] at hbuild
  obtain ⟨layers, hlayered, hnext⟩ := layered_of_foldrM hbuild
  have hlength : layers.length = hops.length := by
    simpa using congrArg List.length hnext
  refine ⟨layers, hlayered.peelPath_eq hideal, hlength, ?_, ?_, ?_⟩
  · intro index layer hlayer
    have hindex : index < hops.length :=
      hlength ▸ (List.getElem?_eq_some_iff.mp hlayer).1
    have hsays : layer.next =
        nextOf showIp hops finalIp finalPort index := by
      have hsame := congrArg (fun list => list[index]?) hnext
      simpa [hlayer, List.getElem?_range', hindex] using hsame
    constructor
    · intro next hhop
      simp only [nextOf, hhop, OnionLayer.next, Prod.mk.injEq] at hsays
      exact hsays
    · intro hlast
      simp only [nextOf, hlast, List.getElem?_eq_none (Nat.le_refl _),
        OnionLayer.next, Prod.mk.injEq] at hsays
      exact hsays
  · intro index hop front inner hhop hfront other hother
    exact hlayered.peel_other hideal
      (by rw [List.getElem?_map, hhop, Option.map_some]) hfront hother
  · intro known layer
    rw [hlayered.opened_iff hideal]
    simp only [← List.map_take, List.forall_mem_map]

end Spec

namespace OnionPacketWitness

/-- Two relays in front of a destination. -/
def route : List OnionHop :=
  [⟨.ofOctets 127 0 0 1, 9001, List.replicate 32 1⟩,
    ⟨.ofOctets 127 0 0 2, 9002, List.replicate 32 2⟩]

def showIp (ip : IpAddr) : String :=
  if ip = .ofOctets 127 0 0 2 then "127.0.0.2" else ""

def nonces (index : Nat) : Option AeadNonce :=
  some (replicate 12 (if index = 0 then 0x11 else 0x22))

/-- The layer of the last relay under its key. -/
def innerSealed : Bytes := [
    2, 202, 228, 213, 22, 176, 241, 53, 1, 142, 149, 48, 154, 75, 12, 202, 244,
    211, 47, 162, 89, 149, 55, 203, 172, 45, 222, 54, 77, 14, 131, 86, 82, 99,
    236, 69, 68, 105, 208, 136, 129, 153, 196, 208, 67, 222, 74, 84, 181, 151,
    10, 234, 235, 131, 113, 243, 198, 57, 0, 45, 183, 43, 241, 101, 240, 206,
    224, 229, 64, 207, 48, 182, 25, 57, 120, 19, 18, 91, 194, 177, 97, 13, 50,
    91, 214, 229, 12, 53, 127, 120, 158, 157, 150, 38, 187, 10, 95, 213, 12,
    141, 155]

/-- The layer of the first relay under its key. -/
def outerSealed : Bytes := [
    246, 19, 166, 147, 68, 254, 100, 133, 181, 92, 9, 233, 125, 162, 242, 8,
    111, 20, 139, 234, 218, 138, 11, 98, 86, 68, 111, 93, 56, 253, 181, 103,
    99, 20, 88, 151, 6, 240, 11, 30, 194, 126, 251, 192, 225, 242, 100, 127, 1,
    229, 126, 248, 118, 10, 1, 111, 112, 154, 52, 162, 243, 85, 94, 1, 1, 190,
    227, 221, 203, 73, 91, 93, 63, 51, 232, 164, 237, 150, 181, 7, 129, 97,
    208, 244, 14, 224, 178, 232, 1, 194, 99, 142, 158, 122, 16, 190, 127, 19,
    70, 167, 159, 4, 150, 115, 44, 169, 75, 64, 225, 224, 20, 182, 173, 34,
    112, 187, 200, 104, 22, 212, 124, 114, 148, 122, 140, 163, 90, 232, 56,
    115, 87, 17, 157, 54, 100, 21, 212, 143, 168, 178, 245, 76, 225, 146, 67,
    46, 143, 154, 138, 27, 247, 175, 240, 145, 145, 213, 131, 151, 52, 213,
    232, 176, 67, 155, 28, 109, 103, 189, 4, 42, 124, 183, 120, 85, 236, 140,
    211, 212, 76, 70, 41, 52, 163, 184, 121, 136, 34, 110, 121, 177, 220, 154,
    7, 76, 196, 97, 220, 6, 156, 98, 105, 2, 137, 37, 146, 179, 47, 233, 25,
    208, 7, 109, 237, 104, 166, 163, 76, 71, 240, 41, 152, 243, 171, 74, 220,
    162, 41, 169, 182, 232, 49, 103, 245, 113, 186, 234, 209, 225, 112, 11,
    127, 192, 211, 198, 212, 119, 117, 43, 83]

def innerLayer : OnionLayer := ⟨1, "198.51.100.9", 7443, false, ""⟩

def outerLayer : OnionLayer :=
  ⟨1, "127.0.0.2", 9002, true,
    Base64.encode (List.replicate 12 0x22 ++ innerSealed)⟩

def layerText (layer : OnionLayer) : Bytes :=
  textBytes ("\x7b\"v\":" ++ toString layer.v.toNat ++ ",\"next_ip\":\"" ++
    layer.nextIp ++ "\",\"next_port\":" ++ toString layer.nextPort.toNat ++
    ",\"next_is_relay\":" ++ toString layer.nextIsRelay ++
    ",\"data_b64\":\"" ++ layer.dataB64 ++ "\"\x7d")

theorem layerText_ne : layerText innerLayer ≠ layerText outerLayer := by
  decide +kernel

/-- A writer of these two layers. -/
def json : LayerJson where
  write layer :=
    if layer = innerLayer ∨ layer = outerLayer then .ok (layerText layer)
    else .error "unknown layer"
  read bytes :=
    if bytes = layerText innerLayer then some innerLayer
    else if bytes = layerText outerLayer then some outerLayer else none
  read_write := by
    intro layer bytes hwrite
    split at hwrite
    · rename_i hlayer
      rw [← Except.ok.inj hwrite]
      rcases hlayer with rfl | rfl
      · rw [if_pos rfl]
      · rw [if_neg layerText_ne.symm, if_pos rfl]
    · cases hwrite

def innerKey : Key := replicate 32 2

def outerKey : Key := replicate 32 1

theorem keys_ne : innerKey ≠ outerKey := by decide

/-- The cipher as it is known at two points. -/
def aead : Aead where
  encrypt key nonce plaintext :=
    if key = innerKey ∧ nonce = replicate 12 0x22 ∧
        plaintext = layerText innerLayer then some innerSealed
    else if key = outerKey ∧ nonce = replicate 12 0x11 ∧
        plaintext = layerText outerLayer then some outerSealed
    else none
  decrypt key nonce ciphertext :=
    if key = innerKey ∧ nonce = replicate 12 0x22 ∧
        ciphertext = innerSealed then some (layerText innerLayer)
    else if key = outerKey ∧ nonce = replicate 12 0x11 ∧
        ciphertext = outerSealed then some (layerText outerLayer)
    else none
  decrypt_encrypt := by
    intro key nonce plaintext ciphertext hencrypt
    split at hencrypt
    · rename_i hinner
      rw [if_pos ⟨hinner.1, hinner.2.1, (Option.some.inj hencrypt).symm⟩,
        hinner.2.2]
    · split at hencrypt
      · rename_i houter
        rw [if_neg fun hinner => keys_ne (hinner.1.symm.trans houter.1),
          if_pos ⟨houter.1, houter.2.1, (Option.some.inj hencrypt).symm⟩,
          houter.2.2]
      · cases hencrypt
  encrypt_length := by
    intro key nonce plaintext ciphertext hencrypt
    split at hencrypt
    · rename_i hinner
      rw [← Option.some.inj hencrypt, hinner.2.2]
      decide +kernel
    · split at hencrypt
      · rename_i houter
        rw [← Option.some.inj hencrypt, houter.2.2]
        decide +kernel
      · cases hencrypt

theorem ideal : IdealAead aead where
  sealed := by
    intro key nonce ciphertext plaintext hdecrypt
    simp only [aead] at hdecrypt ⊢
    split at hdecrypt
    · rename_i hinner
      rw [if_pos ⟨hinner.1, hinner.2.1, (Option.some.inj hdecrypt).symm⟩,
        hinner.2.2]
    · split at hdecrypt
      · rename_i houter
        rw [if_neg fun hinner => keys_ne (hinner.1.symm.trans houter.1),
          if_pos ⟨houter.1, houter.2.1, (Option.some.inj hdecrypt).symm⟩,
          houter.2.2]
      · cases hdecrypt
  binding := by
    intro key other nonce plaintext otherPlaintext ciphertext hfirst hsecond
    have hsealed : ∀ {key : Key} {plaintext : Bytes},
        aead.encrypt key nonce plaintext = some ciphertext →
          key = innerKey ∧ ciphertext = innerSealed ∨
            key = outerKey ∧ ciphertext = outerSealed := by
      intro key plaintext hencrypt
      simp only [aead] at hencrypt
      split at hencrypt
      · rename_i hinner
        exact Or.inl ⟨hinner.1, (Option.some.inj hencrypt).symm⟩
      · split at hencrypt
        · rename_i houter
          exact Or.inr ⟨houter.1, (Option.some.inj hencrypt).symm⟩
        · cases hencrypt
    have hdistinct : innerSealed ≠ outerSealed := by decide
    rcases hsealed hfirst with ⟨rfl, hone⟩ | ⟨rfl, hone⟩ <;>
      rcases hsealed hsecond with ⟨rfl, htwo⟩ | ⟨rfl, htwo⟩
    · rfl
    · exact absurd (hone.symm.trans htwo) hdistinct
    · exact absurd (htwo.symm.trans hone) hdistinct
    · rfl

theorem route_builds :
    buildOnionPacket aead json showIp nonces route "198.51.100.9" 7443 =
      .ok (List.replicate 12 0x11 ++ outerSealed) := by
  decide +kernel

end OnionPacketWitness

open OnionPacketWitness in
theorem onion_packet_layers_two :
    ∃ first last, peelPath aead json (route.map OnionHop.key)
        (List.replicate 12 0x11 ++ outerSealed) = some ([first, last], []) ∧
      (first.nextIp = "127.0.0.2" ∧ first.nextPort = 9002 ∧
        first.nextIsRelay = true) ∧
      (last.nextIp = "198.51.100.9" ∧ last.nextPort = 7443 ∧
        last.nextIsRelay = false) := by
  obtain ⟨layers, hpath, hlength, hnext, -⟩ :=
    onion_packet_layers ideal route_builds
  match layers, hlength with
  | [first, last], _ =>
      exact ⟨first, last, hpath, (hnext 0 first rfl).1 _ rfl,
        (hnext 1 last rfl).2 rfl⟩

end Shph.SnapAdapter
