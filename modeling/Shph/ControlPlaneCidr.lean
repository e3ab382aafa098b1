/-
The masks of CIDR routes.  The masks are computed without a fault, two routes
have one key when they name the same addresses, and a route contains the
addresses that it names.
-/
import Shph.ControlPlaneUnderlay
import Shph.Library.PrefixBlock
import Shph.Library.WordFault

namespace Shph.ControlPlane

open ByteCodec Checked PrefixBlock WordFault

/-- The number that an address is. -/
def addressWord : IpAddr → Nat
  | .v4 octets => ofBigEndian octets.val
  | .v6 octets => ofBigEndian octets.val

/-- The addresses that a CIDR denotes: those of its family with its leading
bits. -/
def denoted (network : IpAddr) (bits : Nat) : Set IpAddr :=
  {ip | isIpv4 ip = isIpv4 network ∧
    addressWord ip ∈ block (maxBits network) bits (addressWord network)}

/-- `if prefix == 0 { 0 } else { MAX << (width - prefix) }`. -/
def maskWord (width bits : Nat) : Except Fault Nat :=
  if bits = 0 then return 0
  else do
    let amount ← subWord width bits
    shlWord width (2 ^ width - 1) amount

section Words

variable (text : AddressText)

/-- `canonical_cidr_key` with its operations on words. -/
def canonicalCidrKeyWords (cidr : String) :
    Except Fault (Except ShphError String) :=
  match parseCidr text cidr with
  | .error error => return .error error
  | .ok (.v4 octets, bits) => do
      let mask ← maskWord 32 bits
      let network :=
        IpAddr.v4 (FixedBytes.ofNat 4 (ofBigEndian octets.val &&& mask))
      return .ok (text.showIp network ++ "/" ++ toString bits)
  | .ok (.v6 octets, bits) => do
      let mask ← maskWord 128 bits
      let network :=
        IpAddr.v6 (FixedBytes.ofNat 16 (ofBigEndian octets.val &&& mask))
      return .ok (text.showIp network ++ "/" ++ toString bits)

/-- `cidr_contains_ip` with its operations on words. -/
def cidrContainsIpWords (cidr : String) (candidate : IpAddr) :
    Except Fault (Except ShphError Bool) :=
  match parseCidr text cidr, candidate with
  | .error error, _ => return .error error
  | .ok (.v4 network, bits), .v4 candidate => do
      let mask ← maskWord 32 bits
      return .ok (ofBigEndian network.val &&& mask ==
        ofBigEndian candidate.val &&& mask)
  | .ok (.v6 network, bits), .v6 candidate => do
      let mask ← maskWord 128 bits
      return .ok (ofBigEndian network.val &&& mask ==
        ofBigEndian candidate.val &&& mask)
  | .ok _, _ => return .ok false

end Words

theorem networkMask_eq_mask (width bits : Nat) :
    networkMask width bits = mask width bits := by
  unfold networkMask
  split
  · rename_i hzero
    rw [hzero, mask_zero]
  · rfl

/-- The shift is by less than the width. -/
theorem maskWord_eq {width bits : Nat} (hbits : bits ≤ width) :
    maskWord width bits = .ok (mask width bits) := by
  unfold maskWord
  split
  · rename_i hzero
    rw [hzero, mask_zero]
    rfl
  · refine bind_of_ok (subWord_eq hbits) ?_
    exact shlWord_eq (by omega)

theorem addressWord_lt (ip : IpAddr) : addressWord ip < 2 ^ maxBits ip := by
  cases ip with
  | v4 octets =>
      have hlt := ofBigEndian_lt octets.val
      rw [octets.length_eq] at hlt
      exact hlt
  | v6 octets =>
      have hlt := ofBigEndian_lt octets.val
      rw [octets.length_eq] at hlt
      exact hlt

/-- Every word of its width is an address of the family. -/
theorem exists_addressWord (ip : IpAddr) {word : Nat}
    (hword : word < 2 ^ maxBits ip) :
    ∃ other, isIpv4 other = isIpv4 ip ∧ addressWord other = word := by
  cases ip with
  | v4 octets =>
      exact ⟨.v4 (FixedBytes.ofNat 4 word), rfl,
        ofBigEndian_bigEndian hword⟩
  | v6 octets =>
      exact ⟨.v6 (FixedBytes.ofNat 16 word), rfl,
        ofBigEndian_bigEndian hword⟩

/-- Two CIDRs of a family denote the same addresses when their blocks are the
same. -/
theorem denoted_eq_iff {left right : IpAddr} {leftBits rightBits : Nat}
    (hfamily : isIpv4 left = isIpv4 right) :
    denoted left leftBits = denoted right rightBits ↔
      block (maxBits left) leftBits (addressWord left) =
        block (maxBits right) rightBits (addressWord right) := by
  constructor
  · intro hsame
    ext word
    constructor
    · intro hword
      obtain ⟨ip, hip, rfl⟩ := exists_addressWord left hword.1
      have hmem : ip ∈ denoted left leftBits := ⟨hip, hword⟩
      rw [hsame] at hmem
      exact hmem.2
    · intro hword
      obtain ⟨ip, hip, rfl⟩ := exists_addressWord right hword.1
      have hmem : ip ∈ denoted right rightBits := ⟨hip, hword⟩
      rw [← hsame] at hmem
      exact hmem.2
  · intro hsame
    unfold denoted
    rw [hfamily, hsame]

/-- Masked octets are equal when the masked words are. -/
theorem maskOctets_eq_iff {width bits : Nat} {left right : FixedBytes width} :
    maskOctets width bits left = maskOctets width bits right ↔
      ofBigEndian left.val &&& mask (8 * width) bits =
        ofBigEndian right.val &&& mask (8 * width) bits := by
  have hlt : ∀ octets : FixedBytes width,
      ofBigEndian octets.val &&& mask (8 * width) bits < 256 ^ width := by
    intro octets
    have hword := ofBigEndian_lt octets.val
    rw [octets.length_eq] at hword
    exact Nat.and_le_left.trans_lt hword
  unfold maskOctets
  rw [FixedBytes.mk.injEq, networkMask_eq_mask]
  exact ⟨bigEndian_inj (hlt left) (hlt right), fun hsame => by rw [hsame]⟩

/-- Addresses are in one network when their leading bits are the same. -/
theorem networkOf_eq_iff {left right : IpAddr} {bits : Nat}
    (hfamily : isIpv4 left = isIpv4 right) :
    networkOf bits left = networkOf bits right ↔
      addressWord left / 2 ^ (maxBits left - bits) =
        addressWord right / 2 ^ (maxBits left - bits) := by
  have hleft := addressWord_lt left
  have hright := addressWord_lt right
  cases left with
  | v4 octets =>
      cases right with
      | v4 others =>
          rw [networkOf, networkOf, IpAddr.v4.injEq, maskOctets_eq_iff]
          exact and_mask_eq_iff hleft hright
      | v6 others => cases hfamily
  | v6 octets =>
      cases right with
      | v4 others => cases hfamily
      | v6 others =>
          rw [networkOf, networkOf, IpAddr.v6.injEq, maskOctets_eq_iff]
          exact and_mask_eq_iff hleft hright

section Cidr

variable {text : AddressText} {cidr : String}

/-- The key is computed without a fault. -/
theorem canonicalCidrKeyWords_eq :
    canonicalCidrKeyWords text cidr = .ok (canonicalCidrKey text cidr) := by
  unfold canonicalCidrKeyWords canonicalCidrKey
  cases hparse : parseCidr text cidr with
  | error error => rfl
  | ok parsed =>
      obtain ⟨network, bits⟩ := parsed
      have hbits := parseCidr_bits hparse
      cases network with
      | v4 octets =>
          refine bind_of_ok (maskWord_eq hbits) ?_
          rw [← networkMask_eq_mask]
          rfl
      | v6 octets =>
          refine bind_of_ok (maskWord_eq hbits) ?_
          rw [← networkMask_eq_mask]
          rfl

theorem cidrContainsIpWords_eq (candidate : IpAddr) :
    cidrContainsIpWords text cidr candidate =
      .ok (cidrContainsIp text cidr candidate) := by
  unfold cidrContainsIpWords cidrContainsIp
  cases hparse : parseCidr text cidr with
  | error error => rfl
  | ok parsed =>
      obtain ⟨network, bits⟩ := parsed
      have hbits := parseCidr_bits hparse
      cases network with
      | v4 network =>
          cases candidate with
          | v4 candidate =>
              have hsame : (ofBigEndian network.val &&& mask 32 bits ==
                  ofBigEndian candidate.val &&& mask 32 bits) =
                    (networkOf bits (.v4 network) ==
                      networkOf bits (.v4 candidate)) := by
                rw [Bool.eq_iff_iff, beq_iff_eq, beq_iff_eq, networkOf,
                  networkOf, IpAddr.v4.injEq]
                exact maskOctets_eq_iff.symm
              refine bind_of_ok (maskWord_eq hbits) ?_
              rw [hsame]
              rfl
          | v6 candidate => rfl
      | v6 network =>
          cases candidate with
          | v4 candidate => rfl
          | v6 candidate =>
              have hsame : (ofBigEndian network.val &&& mask 128 bits ==
                  ofBigEndian candidate.val &&& mask 128 bits) =
                    (networkOf bits (.v6 network) ==
                      networkOf bits (.v6 candidate)) := by
                rw [Bool.eq_iff_iff, beq_iff_eq, beq_iff_eq, networkOf,
                  networkOf, IpAddr.v6.injEq]
                exact maskOctets_eq_iff.symm
              refine bind_of_ok (maskWord_eq hbits) ?_
              rw [hsame]
              rfl

/-- The keys of two CIDRs are the same when both bits and networks are. -/
theorem canonicalCidrKey_eq_iff (hlawful : text.Lawful) {left right : IpAddr}
    {leftBits rightBits : Nat} :
    text.showIp (networkOf leftBits left) ++ "/" ++ toString leftBits =
        text.showIp (networkOf rightBits right) ++ "/" ++
          toString rightBits ↔
      networkOf leftBits left = networkOf rightBits right ∧
        leftBits = rightBits := by
  constructor
  · intro heq
    have hnetwork := key_inj hlawful heq
    rw [hnetwork] at heq
    have hbits := congrArg (splitOnce '/') heq
    rw [splitOnce_append _ (hlawful.no_slash _),
      splitOnce_append _ (hlawful.no_slash _), Option.some.injEq,
      Prod.mk.injEq] at hbits
    exact ⟨hnetwork, Nat.repr_injective hbits.2⟩
  · rintro ⟨hnetwork, rfl⟩
    rw [hnetwork]

/-- Two CIDRs denote the same addresses when they have as many bits and one
network. -/
theorem denoted_eq_iff_networkOf {left right : IpAddr}
    {leftBits rightBits : Nat} (hleft : leftBits ≤ maxBits left)
    (hright : rightBits ≤ maxBits right) :
    isIpv4 left = isIpv4 right ∧
        denoted left leftBits = denoted right rightBits ↔
      networkOf leftBits left = networkOf rightBits right ∧
        leftBits = rightBits := by
  have hblocks (hfamily : isIpv4 left = isIpv4 right) :
      denoted left leftBits = denoted right rightBits ↔
        leftBits = rightBits ∧
          addressWord left / 2 ^ (maxBits left - leftBits) =
            addressWord right / 2 ^ (maxBits left - leftBits) := by
    have hwidth := maxBits_of_isIpv4 hfamily
    have hword := addressWord_lt right
    rw [← hwidth] at hword hright
    rw [denoted_eq_iff hfamily, ← hwidth]
    exact block_eq_iff (addressWord_lt left) hword hleft hright
  constructor
  · rintro ⟨hfamily, hsame⟩
    obtain ⟨rfl, hwords⟩ := (hblocks hfamily).mp hsame
    exact ⟨(networkOf_eq_iff hfamily).mpr hwords, rfl⟩
  · rintro ⟨hnetwork, rfl⟩
    have hfamily : isIpv4 left = isIpv4 right := by
      rw [← isIpv4_networkOf leftBits left, hnetwork, isIpv4_networkOf]
    exact ⟨hfamily, (hblocks hfamily).mpr
      ⟨rfl, (networkOf_eq_iff hfamily).mp hnetwork⟩⟩

end Cidr

/-- For CIDRs that are accepted, all masks are computed without a fault, and
thus shifted by less than their width.  The keys of two of them are equal when
they denote the same addresses of one family, and one contains an address when
it denotes it. -/
theorem cidr_keys_and_members {text : AddressText} (hlawful : text.Lawful)
    {left right : String} {leftIp rightIp : IpAddr} {leftBits rightBits : Nat}
    (hleft : parseCidr text left = .ok (leftIp, leftBits))
    (hright : parseCidr text right = .ok (rightIp, rightBits)) :
    (∃ leftKey rightKey,
      canonicalCidrKeyWords text left = .ok (.ok leftKey) ∧
        canonicalCidrKeyWords text right = .ok (.ok rightKey) ∧
        (leftKey = rightKey ↔ isIpv4 leftIp = isIpv4 rightIp ∧
          denoted leftIp leftBits = denoted rightIp rightBits)) ∧
      (∀ ip, ∃ contains,
        cidrContainsIpWords text left ip = .ok (.ok contains) ∧
          (contains = true ↔ isIpv4 ip = isIpv4 leftIp ∧
            ip ∈ denoted leftIp leftBits)) ∧
      maskWord (maxBits leftIp) leftBits =
        .ok (mask (maxBits leftIp) leftBits) := by
  have hleftBits := parseCidr_bits hleft
  refine ⟨⟨text.showIp (networkOf leftBits leftIp) ++ "/" ++ toString leftBits,
    text.showIp (networkOf rightBits rightIp) ++ "/" ++ toString rightBits,
    ?_, ?_, ?_⟩, ?_, maskWord_eq hleftBits⟩
  · rw [canonicalCidrKeyWords_eq, canonicalCidrKey, hleft]
    rfl
  · rw [canonicalCidrKeyWords_eq, canonicalCidrKey, hright]
    rfl
  · rw [denoted_eq_iff_networkOf hleftBits (parseCidr_bits hright)]
    exact canonicalCidrKey_eq_iff hlawful
  · intro ip
    refine ⟨isIpv4 leftIp == isIpv4 ip &&
      networkOf leftBits leftIp == networkOf leftBits ip, ?_, ?_⟩
    · rw [cidrContainsIpWords_eq, cidrContainsIp, hleft]
      rfl
    · rw [Bool.and_eq_true, beq_iff_eq, beq_iff_eq]
      constructor
      · rintro ⟨hfamily, hnetwork⟩
        have hwords := (networkOf_eq_iff hfamily).mp hnetwork
        have hword := addressWord_lt ip
        rw [← maxBits_of_isIpv4 hfamily] at hword
        exact ⟨hfamily.symm, hfamily.symm, hword, hwords.symm⟩
      · rintro ⟨hfamily, -, -, hwords⟩
        exact ⟨hfamily.symm, (networkOf_eq_iff hfamily.symm).mpr hwords.symm⟩

namespace UnderlayWitness

/-- A CIDR with host bits set has the key of its network. -/
theorem cidr_keys_and_members_of_proxy :
    (∃ leftKey rightKey,
      canonicalCidrKeyWords text "203.0.113.10/1" = .ok (.ok leftKey) ∧
        canonicalCidrKeyWords text "128.0.0.0/1" = .ok (.ok rightKey) ∧
        (leftKey = rightKey ↔ isIpv4 proxyIp = isIpv4 (.ofOctets 128 0 0 0) ∧
          denoted proxyIp 1 = denoted (.ofOctets 128 0 0 0) 1)) ∧
      ∃ contains,
        cidrContainsIpWords text "203.0.113.10/1" proxyIp =
            .ok (.ok contains) ∧
          (contains = true ↔ isIpv4 proxyIp = isIpv4 proxyIp ∧
            proxyIp ∈ denoted proxyIp 1) := by
  have hleft : parseCidr text "203.0.113.10/1" = .ok (proxyIp, 1) := by
    decide
  have hright : parseCidr text "128.0.0.0/1" =
      .ok (.ofOctets 128 0 0 0, 1) := by decide
  obtain ⟨hkeys, hmembers, -⟩ := cidr_keys_and_members lawful hleft hright
  exact ⟨hkeys, hmembers proxyIp⟩

end UnderlayWitness

end Shph.ControlPlane
