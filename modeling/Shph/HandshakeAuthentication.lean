/-
Authentication fails closed: a derivation succeeds only for a pinned peer that
signed everything its hello says, and no exchange with any other hello touches
the secrets the material holds.
-/
import Shph.HandshakeTranscript

namespace Shph

open ByteCodec

/-- The lengths that the checks on a hello fix. -/
structure PeerKeys.Checked (keys : PeerKeys) (profile : HandshakeProfile) :
    Prop where
  pqc_isSome : profile.usesPqc = keys.pqc.isSome
  pqc_length : ∀ pqc ∈ keys.pqc, pqc.length = mlKem768PublicKeyBytes

theorem PeerKeys.Checked.pqc_getD_length {keys : PeerKeys}
    {profile : HandshakeProfile} (hchecked : keys.Checked profile) :
    (keys.pqc.getD []).length =
      if profile.usesPqc then mlKem768PublicKeyBytes else 0 := by
  rw [hchecked.pqc_isSome]
  cases hpqc : keys.pqc with
  | none => simp
  | some pqc => simpa using hchecked.pqc_length pqc (by rw [hpqc]; rfl)

/-- A checked payload fits the buffer. -/
theorem signedPayload_of_checked {keys : PeerKeys} {profile : HandshakeProfile}
    (hchecked : keys.Checked profile) :
    signedPayload profile keys = .ok (payloadBytes profile keys) := by
  rw [signedPayload_eq_ok_iff]
  refine ⟨?_, rfl⟩
  have hpqc := hchecked.pqc_getD_length
  simp only [payloadBytes, List.length_append, hpqc, FixedBytes.length_eq,
    bigEndian_length]
  cases profile <;> decide

/-- The tags of the two profiles differ in their eighth byte, so no payload of
one profile is a payload of the other, whatever follows the tags. -/
theorem profile_eq_of_payloadBytes_eq {left right : HandshakeProfile}
    {leftKeys rightKeys : PeerKeys}
    (heq : payloadBytes left leftKeys = payloadBytes right rightKeys) :
    left = right := by
  have hindex (profile : HandshakeProfile) (keys : PeerKeys) :
      (payloadBytes profile keys)[7]? = (textBytes profile.protocolTag)[7]? := by
    rw [payloadBytes, List.getElem?_append_left]
    cases profile <;> decide
  have hbyte := congrArg (fun payload => payload[7]?) heq
  simp only [hindex] at hbyte
  cases left <;> cases right <;> first | rfl | exact absurd hbyte (by decide)

/-- Over the hellos that pass the checks, the unseparated concatenation can be
taken apart in one way only. -/
theorem payloadBytes_inj {left right : HandshakeProfile}
    {leftKeys rightKeys : PeerKeys} (hleft : leftKeys.Checked left)
    (hright : rightKeys.Checked right)
    (heq : payloadBytes left leftKeys = payloadBytes right rightKeys) :
    left = right ∧ leftKeys = rightKeys := by
  have hprofile := profile_eq_of_payloadBytes_eq heq
  subst hprofile
  have hrest := List.append_cancel_left heq
  obtain ⟨hidentity, hrest⟩ := FixedBytes.append_inj hrest
  obtain ⟨hsigning, hrest⟩ := FixedBytes.append_inj hrest
  obtain ⟨hpqc, hrest⟩ := List.append_inj hrest
    (hleft.pqc_getD_length.trans hright.pqc_getD_length.symm)
  obtain ⟨hephemeral, hrest⟩ := FixedBytes.append_inj hrest
  obtain ⟨hnonce, hrest⟩ := FixedBytes.append_inj hrest
  have hword (word : UInt64) : word.toNat < 256 ^ 8 := by
    simpa using word.toNat_lt
  have htimestamp := UInt64.toNat_inj.mp
    (bigEndian_inj (hword _) (hword _) hrest)
  have hkey : leftKeys.pqc = rightKeys.pqc := by
    have hsome := hleft.pqc_isSome.symm.trans hright.pqc_isSome
    cases hl : leftKeys.pqc with
    | none =>
        rw [hl, Option.isSome_none] at hsome
        exact (Option.not_isSome_iff_eq_none.mp (by simp [← hsome])).symm
    | some pqc =>
        rw [hl, Option.isSome_some] at hsome
        obtain ⟨other, hr⟩ := Option.isSome_iff_exists.mp hsome.symm
        rw [hl, hr, Option.getD_some, Option.getD_some] at hpqc
        rw [hr, hpqc]
  exact ⟨rfl, PeerKeys.ext hidentity hsigning hkey hephemeral hnonce
    htimestamp⟩

section

variable {prims : Primitives}

theorem Authentic.checked {profile : HandshakeProfile} {policy : PeerPolicy}
    {now : Option UInt64} {hello : Hello} {keys : PeerKeys}
    (hauthentic : Authentic prims profile policy now hello keys) :
    keys.Checked profile :=
  ⟨hauthentic.pqc_isSome, hauthentic.pqc_length⟩

/-- One call of the post-quantum exchange, by either role, with its own
arguments and clock reading. -/
inductive PqCall where
  | finalizeInitiator (localIdentity : IdentityKeyPair) (peerHello : Hello)
      (policy : PeerPolicy) (now : Option UInt64) (coins : Key)
  | absorbResponder (localIdentity : IdentityKeyPair) (peerHello : Hello)
      (peerCt : Bytes) (policy : PeerPolicy) (now : Option UInt64)

namespace PqCall

/-- The material after the call, whether it succeeded or not. -/
def run (material : HandshakeMaterial prims) :
    PqCall → HandshakeMaterial prims
  | finalizeInitiator localIdentity peerHello policy now coins =>
      (finalizeInitiatorPq localIdentity peerHello policy now coins material).2
  | absorbResponder localIdentity peerHello peerCt policy now =>
      (absorbResponderPq localIdentity peerHello peerCt policy now material).2

/-- No reading of the hello makes it authentic for this call. -/
def Unauthorised (prims : Primitives) (profile : HandshakeProfile) :
    PqCall → Prop
  | finalizeInitiator _ peerHello policy now _ =>
      ∀ keys, ¬ Authentic prims profile policy now peerHello keys
  | absorbResponder _ peerHello _ policy now =>
      ∀ keys, ¬ Authentic prims profile policy now peerHello keys

theorem run_unauthorised {material : HandshakeMaterial prims} {call : PqCall}
    (hcall : call.Unauthorised prims material.profile) :
    call.run material = material := by
  cases call with
  | finalizeInitiator localIdentity peerHello policy now coins =>
      unfold run finalizeInitiatorPq
      dsimp only
      split
      · rfl
      · rename_i _ ciphertext shared hok
        simp only [bind_eq_ok_iff, ensure_eq_ok_iff, exists_const] at hok
        obtain ⟨_, _, hverify, _⟩ := hok
        obtain ⟨_, keys, hauthentic⟩ := verifyHelloSignature_ok hverify
        exact absurd hauthentic (hcall keys)
  | absorbResponder localIdentity peerHello peerCt policy now =>
      unfold run absorbResponderPq
      dsimp only
      split
      · rfl
      · rename_i _ shared hok
        simp only [bind_eq_ok_iff, ensure_eq_ok_iff, exists_const] at hok
        obtain ⟨_, hverify, _⟩ := hok
        obtain ⟨_, keys, hauthentic⟩ := verifyHelloSignature_ok hverify
        exact absurd hauthentic (hcall keys)

theorem foldl_run_unauthorised {material : HandshakeMaterial prims}
    {calls : List PqCall}
    (hcalls : ∀ call ∈ calls, call.Unauthorised prims material.profile) :
    calls.foldl run material = material := by
  induction calls with
  | nil => rfl
  | cons call calls ih =>
      rw [List.forall_mem_cons] at hcalls
      rw [List.foldl_cons, run_unauthorised hcalls.1, ih hcalls.2]

end PqCall

/-- A derivation that succeeds has seen an authentic peer, and exchanges with
hellos that are not authentic change nothing. -/
theorem verifyAndDerive_fails_closed (prims : Primitives)
    (call : DeriveCall prims) :
    (∀ state, call.run = .ok state →
      call.peerHello.profile = call.material.profile ∧
      call.peerHello.proto = call.material.profile.protocolTag ∧
      WithinWindow call.firstNow call.peerHello.timestampSecs ∧
      WithinWindow call.secondNow call.peerHello.timestampSecs ∧
      (∃ keys payload raw, call.peerHello.Carries keys ∧
        (⟨keys.identity, keys.signing⟩ : PeerPin) ∈ call.policy.pins ∧
        signedPayload call.material.profile keys = .ok payload ∧
        Base64.decode call.peerHello.sig = some raw ∧
        prims.ed25519Verify keys.signing payload raw = true ∧
        ∀ (identity : IdentityKeyPair) (material : HandshakeMaterial prims)
          (hello : Hello) (policy : PeerPolicy) (now : Option UInt64)
          (otherKeys : PeerKeys),
          verifyHelloSignature identity material hello policy now = .ok () →
          hello.Carries otherKeys →
          signedPayload material.profile otherKeys = .ok payload →
          material.profile = call.material.profile ∧ otherKeys = keys) ∧
      (call.material.profile = .secureDefault →
        ∃ shared ciphertext, call.material.pqShared = some shared ∧
          call.material.pqCiphertext = some ciphertext ∧
          ciphertext.length = 1088)) ∧
    ∀ calls : List PqCall,
      (∀ pqCall ∈ calls,
        pqCall.Unauthorised prims call.material.profile) →
      (calls.foldl PqCall.run call.material).pqShared =
          call.material.pqShared ∧
        (calls.foldl PqCall.run call.material).pqCiphertext =
          call.material.pqCiphertext := by
  constructor
  · intro state hok
    obtain ⟨inputs, hinputs, _⟩ := verifyAndDeriveWithProfile_ok hok
    have hauthentic := hinputs.authentic
    obtain ⟨raw, hraw, hverify⟩ := hauthentic.signature
    refine ⟨hauthentic.profile_eq, hauthentic.proto_eq, hauthentic.window,
      hinputs.window, ?_, ?_⟩
    · refine ⟨inputs.peerKeys, _, raw, hauthentic.carries, hauthentic.pinned,
        signedPayload_of_checked hauthentic.checked, hraw, hverify, ?_⟩
      intro identity material hello policy now otherKeys hother hcarries hpayload
      obtain ⟨_, keys, hotherAuthentic⟩ := verifyHelloSignature_ok hother
      have hkeys := hotherAuthentic.carries.unique hcarries
      subst hkeys
      have hequal := (signedPayload_eq_ok_iff.mp hpayload).2
      exact payloadBytes_inj hotherAuthentic.checked hauthentic.checked
        hequal.symm
    · intro hsecure
      exact hinputs.secure (by rw [hsecure]; rfl)
  · intro calls hcalls
    rw [PqCall.foldl_run_unauthorised hcalls]
    exact ⟨rfl, rfl⟩

end

namespace HandshakeWitness

/-- The peer's hello under a protocol tag that no profile has. -/
def strippedHello : Hello := { callA.peerHello with proto := "shph/4" }

def strippedCalls : List PqCall :=
  [.finalizeInitiator identityA strippedHello policyA now (seed 0),
    .absorbResponder identityA strippedHello [] policyA now]

theorem stripped_ne (profile : HandshakeProfile) :
    "shph/4" ≠ profile.protocolTag := by
  cases profile <;> decide

theorem strippedCalls_unauthorised (profile : HandshakeProfile) :
    ∀ pqCall ∈ strippedCalls, pqCall.Unauthorised primitives profile := by
  simp only [strippedCalls, List.forall_mem_cons, List.not_mem_nil,
    false_implies, implies_true, and_true]
  constructor
  · intro keys hauthentic
    exact stripped_ne profile hauthentic.proto_eq
  · intro keys hauthentic
    exact stripped_ne profile hauthentic.proto_eq

end HandshakeWitness

open HandshakeWitness in
/-- A run that succeeds, and two exchanges with a hello that is not
authentic. -/
theorem verifyAndDerive_fails_closed_classical :
    (∃ keys, callA.peerHello.Carries keys ∧
      (⟨keys.identity, keys.signing⟩ : PeerPin) ∈ callA.policy.pins) ∧
      (strippedCalls.foldl PqCall.run callA.material).pqShared =
        callA.material.pqShared := by
  obtain ⟨hderived, hexchanges⟩ := verifyAndDerive_fails_closed primitives callA
  obtain ⟨_, _, _, _, ⟨keys, _, _, hcarries, hpinned, _⟩, _⟩ :=
    hderived _ callA_run
  exact ⟨⟨keys, hcarries, hpinned⟩,
    (hexchanges strippedCalls (strippedCalls_unauthorised _)).1⟩

end Shph
