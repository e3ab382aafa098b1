/-
The request that asks an onion relay to open its next hop.  The request has a
fixed layout of 59 bytes, which the client fills and the relay reads by
offsets; the relay connects only to targets that its configuration lists, as
whole socket addresses.
-/
import Shph.ControlPlanePlan
import Shph.Library.Layout

namespace Shph.Onion

open ByteCodec
open ControlPlane (isUnspecified)

def openMagic : Bytes := textBytes "SHONION1"

def openRequestBytes : Nat := 8 + 32 + 1 + 16 + 2

def maxTargets : Nat := 64

def maxCircuits : Nat := 512

/-- A socket address with all that its equality compares: an address of the
sixth version also has a flow label and a scope. -/
inductive SocketAddr where
  | v4 (ip : FixedBytes 4) (port : UInt16)
  | v6 (ip : FixedBytes 16) (port : UInt16) (flowinfo scopeId : UInt32)
deriving Repr, DecidableEq

namespace SocketAddr

/-- `SocketAddr::new`. -/
def new (ip : IpAddr) (port : UInt16) : SocketAddr :=
  match ip with
  | .v4 octets => .v4 octets port
  | .v6 octets => .v6 octets port 0 0

def ip : SocketAddr → IpAddr
  | .v4 octets _ => .v4 octets
  | .v6 octets _ _ _ => .v6 octets

def port : SocketAddr → UInt16
  | .v4 _ port => port
  | .v6 _ port _ _ => port

/-- No flow label and no scope. -/
def Plain : SocketAddr → Prop
  | .v4 _ _ => True
  | .v6 _ _ flowinfo scopeId => flowinfo = 0 ∧ scopeId = 0

instance : DecidablePred Plain
  | .v4 _ _ => inferInstanceAs (Decidable True)
  | .v6 _ _ flowinfo scopeId =>
      inferInstanceAs (Decidable (flowinfo = 0 ∧ scopeId = 0))

/-- What every target must be: a port, and an address of one host. -/
def Specific (target : SocketAddr) : Prop :=
  ¬ (target.port = 0 ∨ isUnspecified target.ip)

instance : DecidablePred Specific := fun target =>
  inferInstanceAs (Decidable ¬ (target.port = 0 ∨ isUnspecified target.ip))

theorem new_ip_port_iff {target : SocketAddr} :
    new target.ip target.port = target ↔ target.Plain := by
  cases target with
  | v4 octets port => simp [new, ip, SocketAddr.port, Plain]
  | v6 octets port flowinfo scopeId =>
      simp [new, ip, SocketAddr.port, Plain, eq_comm]

@[simp] theorem new_ip (address : IpAddr) (port : UInt16) :
    (new address port).ip = address := by
  cases address <;> rfl

@[simp] theorem new_port (address : IpAddr) (port : UInt16) :
    (new address port).port = port := by
  cases address <;> rfl

theorem new_plain (address : IpAddr) (port : UInt16) :
    (new address port).Plain := by
  cases address <;> simp [new, Plain]

end SocketAddr

/-- Durations are in milliseconds. -/
structure RelayLimits where
  maxCircuits : Nat
  setupTimeout : Nat
  maxLifetime : Nat
  maxBytesPerCircuit : Nat
deriving Repr, DecidableEq

namespace RelayLimits

def default : RelayLimits where
  maxCircuits := 32
  setupTimeout := 10000
  maxLifetime := 300000
  maxBytesPerCircuit := 64 * 1024 * 1024

def validate (limits : RelayLimits) : Except ShphError RelayLimits := do
  ensure (¬ (limits.maxCircuits = 0 ∨ limits.maxCircuits > Onion.maxCircuits ∨
      limits.setupTimeout < 100 ∨ limits.setupTimeout > 30000 ∨
      limits.maxLifetime < 1000 ∨ limits.maxLifetime > 3600000 ∨
      limits.maxBytesPerCircuit = 0 ∨
      limits.maxBytesPerCircuit > 1024 * 1024 * 1024))
    (.config "onion relay limits exceed supported bounds")
  return limits

end RelayLimits

/-- The targets are a set: a list that is only compared by membership and
counted without repetition. -/
structure RelayServerConfig where
  allowedTargets : List SocketAddr
  token : Key
  limits : RelayLimits

namespace RelayServerConfig

/-- One turn of the loop that fills the set. -/
def addTarget (targetSet : List SocketAddr) (target : SocketAddr) :
    Except ShphError (List SocketAddr) := do
  ensure target.Specific
    (.config "onion relay targets must use specific numeric addresses")
  ensure (¬ (target ∉ targetSet ∧ targetSet.length ≥ maxTargets))
    (.resourceExhausted "onion relay target allowlist exceeds 64 entries")
  return if target ∈ targetSet then targetSet else targetSet ++ [target]

def new (token : Key) (allowedTargets : List SocketAddr)
    (limits : RelayLimits) : Except ShphError RelayServerConfig := do
  let targetSet ← allowedTargets.foldlM addTarget []
  ensure (targetSet ≠ [])
    (.config "onion relay requires at least one allowed target")
  let limits ← limits.validate
  return { allowedTargets := targetSet, token, limits }

end RelayServerConfig

/-- `buffer[start..start + source.len()].copy_from_slice(source)`. -/
def copyAt (buffer : Bytes) (start : Nat) (source : Bytes) : Bytes :=
  buffer.take start ++ (source ++ buffer.drop (start + source.length))

/-- The bytes that `send_open_request` writes. -/
def openRequest (target : SocketAddr) (token : Key) : Bytes :=
  let request := List.replicate openRequestBytes 0
  let request := copyAt request 0 openMagic
  let request := copyAt request 8 token.val
  let request :=
    match target.ip with
    | .v4 octets => copyAt (copyAt request 40 [4]) 41 octets.val
    | .v6 octets => copyAt (copyAt request 40 [6]) 41 octets.val
  copyAt request 57 (bigEndian 2 target.port.toNat)

/-- The address field of a request of a family, where it is well formed. -/
def parseAddress (family : Bytes) (address : Bytes) : Option IpAddr :=
  if family = [4] ∧ address.drop 4 = List.replicate 12 0 then
    (FixedBytes.ofBytes? 4 (address.take 4)).map .v4
  else if family = [6] then (FixedBytes.ofBytes? 16 address).map .v6
  else none

def parseOpenRequest (request : FixedBytes openRequestBytes)
    (expectedToken : Key) : Option SocketAddr :=
  if slice request.val 0 8 ≠ openMagic ∨
      ¬ constantTimeEq (slice request.val 8 32) expectedToken.val then none
  else
    let port := UInt16.ofNat (ofBigEndian (slice request.val 57 2))
    if port = 0 then none
    else
      match parseAddress (slice request.val 40 1) (slice request.val 41 16) with
      | none => none
      | some ip => if isUnspecified ip then none else some (.new ip port)

/-- What a relay makes of a request: it ends the link without a word, refuses,
or connects. -/
inductive RelayAnswer where
  | closed
  | denied
  | connect (target : SocketAddr)
deriving Repr, DecidableEq

/-- The decision of `handle_relay_stream`. -/
def RelayServerConfig.answer (config : RelayServerConfig)
    (request : FixedBytes openRequestBytes) : RelayAnswer :=
  match parseOpenRequest request config.token with
  | none => .closed
  | some target =>
      if target ∈ config.allowedTargets then .connect target else .denied

/-- The family byte and the address field of an address. -/
def familyBytes : IpAddr → Bytes
  | .v4 _ => [4]
  | .v6 _ => [6]

def addressBytes : IpAddr → Bytes
  | .v4 octets => octets.val ++ List.replicate 12 0
  | .v6 octets => octets.val

theorem familyBytes_length (ip : IpAddr) : (familyBytes ip).length = 1 := by
  cases ip <;> rfl

theorem addressBytes_length (ip : IpAddr) : (addressBytes ip).length = 16 := by
  cases ip with
  | v4 octets => simp [addressBytes, octets.length_eq]
  | v6 octets => exact octets.length_eq

/-- Writing over the zeros that are left. -/
theorem copyAt_zeros {done source : Bytes} {start zeros : Nat}
    (hstart : done.length = start) :
    copyAt (done ++ List.replicate zeros 0) start source =
      done ++ source ++ List.replicate (zeros - source.length) 0 := by
  rw [copyAt, ← hstart, List.take_left, ← List.drop_drop, List.drop_left,
    List.drop_replicate, List.append_assoc]

/-- The fields of a request lie side by side. -/
theorem openRequest_eq (target : SocketAddr) (token : Key) :
    openRequest target token =
      [openMagic, token.val, familyBytes target.ip, addressBytes target.ip,
        bigEndian 2 target.port.toNat].flatten := by
  have hmagic : openMagic.length = 8 := by decide
  have hport := bigEndian_length 2 target.port.toNat
  have htoken := token.length_eq
  have hstart : copyAt (List.replicate openRequestBytes 0) 0 openMagic =
      openMagic ++ List.replicate 51 0 := by decide
  have hhead : copyAt (copyAt (List.replicate openRequestBytes 0) 0 openMagic)
      8 token.val = (openMagic ++ token.val) ++ List.replicate 19 0 := by
    rw [hstart, copyAt_zeros hmagic, htoken]
  unfold openRequest
  simp only [hhead]
  cases target.ip with
  | v4 octets =>
      have hoctets := octets.length_eq
      have hsplit : List.replicate 14 (0 : UInt8) =
          List.replicate 12 0 ++ List.replicate 2 0 := rfl
      simp only
      rw [copyAt_zeros (by simp [hmagic, htoken]),
        copyAt_zeros (by simp [hmagic, htoken]), hoctets,
        show 19 - [(4 : UInt8)].length - 4 = 14 from rfl, hsplit,
        ← List.append_assoc,
        copyAt_zeros (by simp [hmagic, htoken, hoctets]), hport]
      simp [familyBytes, addressBytes]
  | v6 octets =>
      have hoctets := octets.length_eq
      simp only
      rw [copyAt_zeros (by simp [hmagic, htoken]),
        copyAt_zeros (by simp [hmagic, htoken]), hoctets,
        show 19 - [(6 : UInt8)].length - 16 = 2 from rfl,
        copyAt_zeros (by simp [hmagic, htoken, hoctets]), hport]
      simp [familyBytes, addressBytes]

theorem openRequest_length (target : SocketAddr) (token : Key) :
    (openRequest target token).length = openRequestBytes := by
  have hmagic : openMagic.length = 8 := by decide
  simp [openRequest_eq, hmagic, token.length_eq, familyBytes_length,
    addressBytes_length, openRequestBytes]

/-- A request is cut into its fields without loss. -/
theorem request_fields (request : FixedBytes openRequestBytes) :
    [slice request.val 0 8, slice request.val 8 32, slice request.val 40 1,
      slice request.val 41 16, slice request.val 57 2].flatten =
        request.val :=
  @flatten_slices [8, 32, 1, 16, 2] request.val request.length_eq.symm

/-- The fields that were written are the ones that are read. -/
theorem openRequest_fields (target : SocketAddr) (token : Key) :
    slices 0 [8, 32, 1, 16, 2] (openRequest target token) =
      [openMagic, token.val, familyBytes target.ip, addressBytes target.ip,
        bigEndian 2 target.port.toNat] := by
  have hmagic : openMagic.length = 8 := by decide
  rw [openRequest_eq]
  exact slices_flatten (by
    simp [hmagic, token.length_eq, familyBytes_length, addressBytes_length])

/-- What the relay makes of an address is the address that was written. -/
theorem parseAddress_written (ip : IpAddr) :
    parseAddress (familyBytes ip) (addressBytes ip) = some ip := by
  cases ip with
  | v4 octets =>
      have hoctets := octets.length_eq
      have htake : (octets.val ++ List.replicate 12 0).take 4 = octets.val :=
        List.take_left' hoctets
      have hdrop : (octets.val ++ List.replicate 12 0).drop 4 =
          List.replicate 12 0 := List.drop_left' hoctets
      rw [parseAddress, familyBytes, addressBytes, if_pos ⟨rfl, hdrop⟩, htake,
        FixedBytes.ofBytes?_val, Option.map_some]
  | v6 octets => simp [parseAddress, familyBytes, addressBytes]

theorem written_of_parseAddress {family address : Bytes} {ip : IpAddr}
    (hparse : parseAddress family address = some ip) :
    family = familyBytes ip ∧ address = addressBytes ip := by
  unfold parseAddress at hparse
  split at hparse
  · rename_i hfour
    obtain ⟨octets, hoctets, rfl⟩ := Option.map_eq_some_iff.mp hparse
    refine ⟨hfour.1, ?_⟩
    rw [addressBytes, ← FixedBytes.ofBytes?_eq_some_iff.mp hoctets, ← hfour.2,
      List.take_append_drop]
  · split at hparse
    · rename_i hsix
      obtain ⟨octets, hoctets, rfl⟩ := Option.map_eq_some_iff.mp hparse
      exact ⟨hsix, FixedBytes.ofBytes?_eq_some_iff.mp hoctets⟩
    · cases hparse

/-- A relay reads a target out of exactly the requests that are written for
it, and every target it reads has neither flow label nor scope. -/
theorem parseOpenRequest_eq_some_iff
    {request : FixedBytes openRequestBytes} {token : Key}
    {target : SocketAddr} :
    parseOpenRequest request token = some target ↔
      target.Plain ∧ target.Specific ∧
        request.val = openRequest target token := by
  constructor
  · intro hparse
    simp only [parseOpenRequest, constantTimeEq_iff] at hparse
    split at hparse
    · cases hparse
    rename_i hhead
    rw [not_or, not_not, not_not] at hhead
    split at hparse
    · cases hparse
    rename_i hport
    split at hparse
    · cases hparse
    rename_i ip haddress
    split at hparse
    · cases hparse
    rename_i hspecified
    cases hparse
    obtain ⟨hfamily, haddress⟩ := written_of_parseAddress haddress
    have hbytes : slice request.val 57 2 =
        bigEndian 2 (UInt16.ofNat (ofBigEndian
          (slice request.val 57 2))).toNat :=
      (ofBigEndian_eq_toNat16_iff
        (slice_length (by simp [request.length_eq, openRequestBytes]))).mp rfl
    refine ⟨SocketAddr.new_plain _ _, ?_, ?_⟩
    · simp [SocketAddr.Specific, hport, hspecified]
    · rw [openRequest_eq, SocketAddr.new_ip, SocketAddr.new_port, ← hbytes,
        ← hhead.1, ← hhead.2, ← hfamily, ← haddress, request_fields]
  · rintro ⟨hplain, hspecific, hrequest⟩
    have hfields := openRequest_fields target token
    rw [← hrequest] at hfields
    simp only [slices, List.cons.injEq, and_true, Nat.zero_add,
      Nat.reduceAdd] at hfields
    obtain ⟨hmagic, htoken, hfamily, haddress, hport⟩ := hfields
    have hnumber : UInt16.ofNat (ofBigEndian (slice request.val 57 2)) =
        target.port :=
      (ofBigEndian_eq_toNat16_iff
        (slice_length (by simp [request.length_eq, openRequestBytes]))).mpr
        hport
    rw [SocketAddr.Specific, not_or] at hspecific
    simp only [parseOpenRequest, hmagic, htoken, hfamily, haddress, hnumber,
      constantTimeEq_iff, ne_eq, not_true_eq_false, or_self, if_false,
      hspecific.1, parseAddress_written, hspecific.2,
      SocketAddr.new_ip_port_iff.mpr hplain, Bool.false_eq_true]

/-- The request of a target. -/
def requestOf (target : SocketAddr) (token : Key) :
    FixedBytes openRequestBytes :=
  ⟨openRequest target token, openRequest_length target token⟩

namespace RelayServerConfig

theorem addTarget_eq_ok {targetSet next : List SocketAddr}
    {target : SocketAddr} (hadd : addTarget targetSet target = .ok next) :
    target.Specific ∧ ∀ other, other ∈ next ↔
      other ∈ targetSet ∨ other = target := by
  simp only [addTarget, bind_eq_ok_iff, ensure_eq_ok_iff, exists_const,
    pure_eq_ok_iff] at hadd
  obtain ⟨hspecific, -, rfl⟩ := hadd
  refine ⟨hspecific, fun other => ?_⟩
  split
  · rename_i hmem
    exact ⟨Or.inl, fun hother => hother.elim id fun heq => heq ▸ hmem⟩
  · simp

theorem foldlM_addTarget_eq_ok {targets targetSet result : List SocketAddr}
    (hfold : targets.foldlM addTarget targetSet = .ok result) :
    (∀ target ∈ targets, target.Specific) ∧
      ∀ target, target ∈ result ↔ target ∈ targetSet ∨ target ∈ targets := by
  induction targets generalizing targetSet with
  | nil =>
      cases hfold
      simp
  | cons target targets ih =>
      rw [List.foldlM_cons, bind_eq_ok_iff] at hfold
      obtain ⟨next, hadd, hrest⟩ := hfold
      obtain ⟨hspecific, hnext⟩ := addTarget_eq_ok hadd
      obtain ⟨hspecifics, hresult⟩ := ih hrest
      refine ⟨List.forall_mem_cons.mpr ⟨hspecific, hspecifics⟩, ?_⟩
      intro other
      rw [hresult, hnext, List.mem_cons, or_assoc]

/-- The targets of an accepted configuration are the ones it was given, and
each is specific. -/
theorem new_eq_ok {token : Key} {targets : List SocketAddr}
    {limits : RelayLimits} {config : RelayServerConfig}
    (hnew : new token targets limits = .ok config) :
    config.token = token ∧
      (∀ target, target ∈ config.allowedTargets ↔ target ∈ targets) ∧
        ∀ target ∈ targets, target.Specific := by
  simp only [new, bind_eq_ok_iff, pure_eq_ok_iff] at hnew
  obtain ⟨targetSet, hfold, -, -, limits, -, rfl⟩ := hnew
  obtain ⟨hspecific, hmem⟩ := foldlM_addTarget_eq_ok hfold
  exact ⟨rfl, by simpa using hmem, hspecific⟩

end RelayServerConfig

/-- A relay reads its allowed target back, and connects to it, exactly when
the target has neither flow label nor scope; and every request that it reads
is the one written for what it reads. -/
theorem open_request_canonical_iff {token : Key} {targets : List SocketAddr}
    {limits : RelayLimits} {config : RelayServerConfig}
    (hnew : RelayServerConfig.new token targets limits = .ok config)
    {target : SocketAddr} (htarget : target ∈ targets) :
    (parseOpenRequest (requestOf target token) token = some target ∧
        config.answer (requestOf target token) = .connect target ↔
      target.Plain) ∧
    ∀ request expectedToken read,
      parseOpenRequest request expectedToken = some read →
        request = requestOf read expectedToken := by
  obtain ⟨htoken, hmem, hspecific⟩ := RelayServerConfig.new_eq_ok hnew
  have hparse : parseOpenRequest (requestOf target token) token =
      some target ↔ target.Plain := by
    rw [parseOpenRequest_eq_some_iff]
    exact ⟨And.left, fun hplain => ⟨hplain, hspecific target htarget, rfl⟩⟩
  refine ⟨⟨fun hread => hparse.mp hread.1, fun hplain => ?_⟩, ?_⟩
  · refine ⟨hparse.mpr hplain, ?_⟩
    rw [RelayServerConfig.answer, htoken, hparse.mpr hplain]
    simp [(hmem target).mpr htarget]
  · intro request expectedToken read hread
    exact FixedBytes.ext (parseOpenRequest_eq_some_iff.mp hread).2.2

namespace OnionOpenWitness

def token : Key := FixedBytes.replicate 32 41

/-- `fe80::1` on an interface. -/
def linkLocal (scopeId : UInt32) : SocketAddr :=
  .v6 ⟨[0xfe, 0x80, 0, 0, 0, 0, 0, 0, 0, 0, 0, 0, 0, 0, 0, 1], rfl⟩ 443 0
    scopeId

end OnionOpenWitness

open OnionOpenWitness in
theorem open_request_canonical_plain :
    parseOpenRequest (requestOf (linkLocal 0) token) token =
      some (linkLocal 0) := by
  have hnew : ∃ config, RelayServerConfig.new token [linkLocal 0] .default =
      .ok config := ⟨_, rfl⟩
  obtain ⟨config, hnew⟩ := hnew
  exact ((open_request_canonical_iff hnew (List.mem_singleton.mpr rfl)).1.mpr
    ⟨rfl, rfl⟩).1

open OnionOpenWitness in
/-- A target with a scope is allowed, and refused all the same. -/
theorem scoped_target_is_denied :
    ∃ config, RelayServerConfig.new token [linkLocal 2] .default = .ok config ∧
      parseOpenRequest (requestOf (linkLocal 2) token) token ≠
        some (linkLocal 2) ∧
      config.answer (requestOf (linkLocal 2) token) = .denied := by
  refine ⟨⟨[linkLocal 2], token, .default⟩, rfl, ?_, ?_⟩
  · decide
  · decide

end Shph.Onion
