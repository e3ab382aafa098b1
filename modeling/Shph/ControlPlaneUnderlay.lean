/-
The underlay of a full tunnel: the address of a SOCKS5 or Tor proxy leaves
through its bypass route and not through the tunnel.
-/
import Shph.ControlPlanePlan

namespace Shph.ControlPlane

open ByteCodec Checked

/-- An address is printed in a form that is parsed back to it, and there is no
slash in it. -/
structure AddressText.Lawful (text : AddressText) : Prop where
  parseIp_showIp : ∀ ip, text.parseIp (text.showIp ip) = some ip
  no_slash : ∀ ip, '/' ∉ (text.showIp ip).toList

/-- Where a packet goes: into the tunnel or around it. -/
inductive Via where
  | tunnel
  | bypass
deriving Repr, DecidableEq

/-- The routes a plan installs. -/
def ControlPlanePlan.entries (plan : ControlPlanePlan) : List (Via × String) :=
  plan.routes.map (Via.tunnel, ·) ++
    plan.underlayBypassRoutes.map (Via.bypass, ·)

section Routing

variable (text : AddressText)

/-- The number of bits with which a route matches an address. -/
def matchedBits (ip : IpAddr) (cidr : String) : Option Nat :=
  match parseCidr text cidr with
  | .error _ => none
  | .ok (network, bits) =>
      if isIpv4 network == isIpv4 ip &&
          networkOf bits network == networkOf bits ip then some bits
      else none

/-- The entry matches the address, and no entry matches more bits of it. -/
def LongestMatch (plan : ControlPlanePlan) (ip : IpAddr)
    (entry : Via × String) : Prop :=
  entry ∈ plan.entries ∧ ∃ bits, matchedBits text ip entry.2 = some bits ∧
    ∀ other ∈ plan.entries, ∀ otherBits,
      matchedBits text ip other.2 = some otherBits → otherBits ≤ bits

/-- A tunnel route for every address of the family of `ip`. -/
def HasDefaultFor (plan : ControlPlanePlan) (ip : IpAddr) : Prop :=
  ∃ route ∈ plan.routes, ∃ network,
    parseCidr text route = .ok (network, 0) ∧ isIpv4 network = isIpv4 ip

end Routing

theorem mem_entries {plan : ControlPlanePlan} {entry : Via × String} :
    entry ∈ plan.entries ↔
      (entry.1 = .tunnel ∧ entry.2 ∈ plan.routes) ∨
        (entry.1 = .bypass ∧ entry.2 ∈ plan.underlayBypassRoutes) := by
  obtain ⟨via, cidr⟩ := entry
  cases via <;> simp [ControlPlanePlan.entries]

section Cidr

variable {text : AddressText}

theorem parseCidr_bits {cidr : String} {network : IpAddr} {bits : Nat}
    (hok : parseCidr text cidr = .ok (network, bits)) :
    bits ≤ maxBits network := by
  unfold parseCidr at hok
  obtain ⟨parts, -, hok⟩ := bind_eq_ok_iff.mp hok
  obtain ⟨ip, -, hok⟩ := bind_eq_ok_iff.mp hok
  obtain ⟨number, -, hok⟩ := bind_eq_ok_iff.mp hok
  obtain ⟨⟨⟩, hbits, hok⟩ := bind_eq_ok_iff.mp hok
  cases hok
  exact ensure_eq_ok_iff.mp hbits

theorem maxBits_of_isIpv4 {left right : IpAddr}
    (hfamily : isIpv4 left = isIpv4 right) : maxBits left = maxBits right := by
  cases left <;> cases right <;> first | rfl | cases hfamily

theorem isIpv4_networkOf (bits : Nat) (ip : IpAddr) :
    isIpv4 (networkOf bits ip) = isIpv4 ip := by
  cases ip <;> rfl

theorem matchedBits_eq_some_iff {ip : IpAddr} {cidr : String} {bits : Nat} :
    matchedBits text ip cidr = some bits ↔
      ∃ network, parseCidr text cidr = .ok (network, bits) ∧
        isIpv4 network = isIpv4 ip ∧
        networkOf bits network = networkOf bits ip := by
  unfold matchedBits
  cases hparse : parseCidr text cidr with
  | error error => simp
  | ok parsed =>
      obtain ⟨network, parsedBits⟩ := parsed
      simp only [Bool.and_eq_true, beq_iff_eq, Option.ite_none_right_eq_some,
        Option.some.injEq, Except.ok.injEq, Prod.mk.injEq]
      constructor
      · rintro ⟨hmatch, rfl⟩
        exact ⟨network, ⟨rfl, rfl⟩, hmatch⟩
      · rintro ⟨_, ⟨rfl, rfl⟩, hmatch⟩
        exact ⟨hmatch, rfl⟩

/-- No route matches more bits than the address has. -/
theorem matchedBits_le {ip : IpAddr} {cidr : String} {bits : Nat}
    (hmatch : matchedBits text ip cidr = some bits) : bits ≤ maxBits ip := by
  obtain ⟨network, hparse, hfamily, -⟩ := matchedBits_eq_some_iff.mp hmatch
  rw [← maxBits_of_isIpv4 hfamily]
  exact parseCidr_bits hparse

theorem cidrContainsIp_of_matchedBits {ip : IpAddr} {cidr : String}
    {bits : Nat} (hmatch : matchedBits text ip cidr = some bits) :
    cidrContainsIp text cidr ip = .ok true := by
  obtain ⟨network, hparse, hfamily, hnetwork⟩ :=
    matchedBits_eq_some_iff.mp hmatch
  rw [cidrContainsIp, hparse]
  simp [bind, Except.bind, pure, Except.pure, hfamily, hnetwork]

theorem splitOnce_append {address : String} (rest : String)
    (hslash : '/' ∉ address.toList) :
    splitOnce '/' (address ++ "/" ++ rest) = some (address, rest) := by
  have hkeep : ∀ char ∈ address.toList, decide (char ≠ '/') = true := by
    intro char hchar
    exact decide_eq_true fun heq => hslash (heq ▸ hchar)
  have hchars : (address ++ "/" ++ rest).toList =
      address.toList ++ '/' :: rest.toList := by
    simp [String.toList_append]
  unfold splitOnce
  rw [hchars, List.dropWhile_append_of_pos hkeep,
    List.takeWhile_append_of_pos hkeep]
  simp

/-- The key names the network and the number of bits. -/
theorem key_inj (hlawful : text.Lawful) {left right : IpAddr}
    {leftBits rightBits : Nat}
    (heq : text.showIp left ++ "/" ++ toString leftBits =
      text.showIp right ++ "/" ++ toString rightBits) : left = right := by
  have hsplit := congrArg (splitOnce '/') heq
  rw [splitOnce_append _ (hlawful.no_slash left),
    splitOnce_append _ (hlawful.no_slash right), Option.some.injEq,
    Prod.mk.injEq] at hsplit
  have hparse := congrArg text.parseIp hsplit.1
  rw [hlawful.parseIp_showIp, hlawful.parseIp_showIp] at hparse
  exact Option.some.inj hparse

theorem parseCidr_host (hlawful : text.Lawful) (ip : IpAddr) :
    parseCidr text (text.showIp ip ++ "/" ++ toString (maxBits ip)) =
      .ok (ip, maxBits ip) := by
  have hbits : parseU8 (toString (maxBits ip)) = some (maxBits ip) := by
    cases ip with
    | v4 octets => exact (by decide : parseU8 (toString 32) = some 32)
    | v6 octets => exact (by decide : parseU8 (toString 128) = some 128)
  simp only [parseCidr, splitOnce_append _ (hlawful.no_slash ip),
    bind_eq_ok_iff, okOr_eq_ok_iff, ensure_eq_ok_iff, exists_const]
  exact ⟨_, rfl, ip, hlawful.parseIp_showIp ip, maxBits ip, hbits,
    Nat.le_refl _, rfl⟩

/-- A bypass route with the key of the proxy's host route is the host route of
the proxy. -/
theorem matchedBits_of_key (hlawful : text.Lawful) {ip : IpAddr}
    {route : String}
    (hvalid : validateUnderlayBypassCidr text route = .ok ())
    (hkey : canonicalCidrKey text route = canonicalCidrKey text
      (text.showIp ip ++ "/" ++ toString (maxBits ip))) :
    matchedBits text ip route = some (maxBits ip) := by
  unfold validateUnderlayBypassCidr at hvalid
  obtain ⟨⟨network, bits⟩, hparse, hvalid⟩ := bind_eq_ok_iff.mp hvalid
  obtain ⟨⟨⟩, hbits, -⟩ := bind_eq_ok_iff.mp hvalid
  have hwhole : bits = maxBits network := ensure_eq_ok_iff.mp hbits
  rw [canonicalCidrKey, canonicalCidrKey, hparse,
    parseCidr_host hlawful] at hkey
  have hnetwork := key_inj hlawful (Except.ok.inj hkey)
  have hfamily : isIpv4 network = isIpv4 ip := by
    rw [← isIpv4_networkOf bits network, hnetwork, isIpv4_networkOf]
  have hsame : bits = maxBits ip := hwhole.trans (maxBits_of_isIpv4 hfamily)
  rw [matchedBits_eq_some_iff]
  exact ⟨network, hsame ▸ hparse, hfamily, hsame ▸ hnetwork⟩

end Cidr

section Validation

variable {text : AddressText} {plan : ControlPlanePlan} {ip : IpAddr}

theorem eq_singleton_of_mapM {key : String → Except ShphError String}
    {routes : List String} {expected : String}
    (hkeys : routes.mapM key = .ok [expected]) :
    ∃ route, routes = [route] ∧ key route = .ok expected := by
  cases routes with
  | nil => cases hkeys
  | cons route rest =>
      rw [List.mapM_cons] at hkeys
      obtain ⟨first, hfirst, hkeys⟩ := bind_eq_ok_iff.mp hkeys
      obtain ⟨others, hothers, hkeys⟩ := bind_eq_ok_iff.mp hkeys
      cases hkeys
      cases rest with
      | nil => exact ⟨route, rfl, hfirst⟩
      | cons next more =>
          rw [List.mapM_cons] at hothers
          obtain ⟨second, -, hothers⟩ := bind_eq_ok_iff.mp hothers
          obtain ⟨tail, -, hothers⟩ := bind_eq_ok_iff.mp hothers
          cases hothers

/-- What the check of the bypass has established. -/
theorem validateProxyBypass_ok (hok : validateProxyBypass text plan ip = .ok ()) :
    (∃ route, plan.underlayBypassRoutes = [route] ∧
      canonicalCidrKey text route = canonicalCidrKey text
        (text.showIp ip ++ "/" ++ toString (maxBits ip))) ∧
    ∀ route ∈ plan.routes, ∀ bits, matchedBits text ip route = some bits →
      bits < maxBits ip := by
  unfold validateProxyBypass at hok
  obtain ⟨expected, hexpected, hok⟩ := bind_eq_ok_iff.mp hok
  obtain ⟨keys, hkeys, hok⟩ := bind_eq_ok_iff.mp hok
  obtain ⟨⟨⟩, hsingle, hok⟩ := bind_eq_ok_iff.mp hok
  rw [ensure_eq_ok_iff] at hsingle
  obtain ⟨route, hroute, hkey⟩ := eq_singleton_of_mapM (hsingle ▸ hkeys)
  refine ⟨⟨route, hroute, hkey.trans hexpected.symm⟩, ?_⟩
  intro tunnel htunnel bits hmatch
  have hcheck := checkEach_eq_ok_iff.mp hok tunnel htunnel
  obtain ⟨network, hparse, -, -⟩ := matchedBits_eq_some_iff.mp hmatch
  rw [hparse, cidrContainsIp_of_matchedBits hmatch] at hcheck
  by_contra hlong
  simp [bind, Except.bind, Nat.le_of_not_lt hlong, ensure] at hcheck

/-- The loop over the routes finds a default route of the family. -/
theorem familyDefault_eq_true {routes : List String} {found result : Bool}
    (hfold : routes.foldlM (fun found route => do
      let (network, bits) ← parseCidr text route
      return found || (bits == 0 && isIpv4 network == isIpv4 ip)) found =
        Except.ok result)
    (hdefault : found = true ∨ ∃ route ∈ routes, ∃ network,
      parseCidr text route = .ok (network, 0) ∧
        isIpv4 network = isIpv4 ip) : result = true := by
  induction routes generalizing found with
  | nil =>
      cases hfold
      rcases hdefault with hfound | ⟨route, hroute, -⟩
      · exact hfound
      · exact absurd hroute List.not_mem_nil
  | cons route rest ih =>
      rw [List.foldlM_cons] at hfold
      obtain ⟨next, hnext, hfold⟩ := bind_eq_ok_iff.mp hfold
      obtain ⟨⟨network, bits⟩, hparse, hnext⟩ := bind_eq_ok_iff.mp hnext
      cases hnext
      apply ih hfold
      rcases hdefault with hfound | ⟨other, hother, otherNetwork, hzero, hfamily⟩
      · exact .inl (by simp [hfound])
      rcases List.mem_cons.mp hother with rfl | hrest
      · rw [hparse] at hzero
        cases hzero
        exact .inl (by simp [hfamily])
      · exact .inr ⟨other, hrest, otherNetwork, hzero, hfamily⟩

theorem any_isDefaultRoute (hdefault : HasDefaultFor text plan ip) :
    plan.routes.any (isDefaultRoute text) = true := by
  obtain ⟨route, hroute, network, hparse, -⟩ := hdefault
  rw [List.any_eq_true]
  exact ⟨route, hroute, by simp [isDefaultRoute, hparse]⟩

theorem validateProxy_ok {proxy : String} {endpoint : SocketAddr}
    (hproxy : text.parseSocket proxy = some endpoint)
    (hremote : isLoopback endpoint.ip = false)
    (hdefault : HasDefaultFor text plan endpoint.ip)
    (hok : validateProxy text plan proxy = .ok ()) :
    validateProxyBypass text plan endpoint.ip = .ok () := by
  unfold validateProxy at hok
  obtain ⟨parsed, hparsed, hok⟩ := bind_eq_ok_iff.mp hok
  rw [okOr_eq_ok_iff, hproxy, Option.some.injEq] at hparsed
  subst hparsed
  obtain ⟨found, hfold, hok⟩ := bind_eq_ok_iff.mp hok
  have hfound := familyDefault_eq_true hfold (.inr hdefault)
  simpa [hfound, hremote] using hok

end Validation

/-- With a default route of the family of a remote proxy, a plan that was
accepted sends the address of the proxy around the tunnel, whatever other
routes it has. -/
theorem proxy_bypasses_tunnel {text : AddressText} (hlawful : text.Lawful)
    {platform : Platform} {control : ControlPlaneConfig}
    {interfaceName : String} {plan : ControlPlanePlan}
    (hplan : buildControlPlanePlan text platform control interfaceName =
      .ok plan)
    {underlay : TcpUnderlay} {proxy : String} {endpoint : SocketAddr}
    (hunderlay : underlay = .socks5 proxy ∨ underlay = .tor proxy)
    (hproxy : text.parseSocket proxy = some endpoint)
    (hremote : isLoopback endpoint.ip = false)
    (haccepted : validateControlPlaneUnderlayFor text underlay plan = .ok ())
    (hdefault : HasDefaultFor text plan endpoint.ip) :
    (∃ entry, LongestMatch text plan endpoint.ip entry) ∧
      ∀ entry, LongestMatch text plan endpoint.ip entry →
        entry.1 = .bypass := by
  have hvalidated : validateProxy text plan proxy = .ok () := by
    unfold validateControlPlaneUnderlayFor at haccepted
    rw [if_pos (any_isDefaultRoute hdefault)] at haccepted
    rcases hunderlay with rfl | rfl <;> exact haccepted
  obtain ⟨⟨bypass, hbypass, hkey⟩, hshorter⟩ := validateProxyBypass_ok
    (validateProxy_ok hproxy hremote hdefault hvalidated)
  have hvalid : validateUnderlayBypassCidr text bypass = .ok () := by
    apply planRoutes_bypass (buildControlPlanePlan_parts hplan).2.1
    rw [hbypass]
    exact List.mem_singleton_self _
  have hmatch := matchedBits_of_key hlawful hvalid hkey
  have hentry : (Via.bypass, bypass) ∈ plan.entries := by
    rw [mem_entries, hbypass]
    exact .inr ⟨rfl, List.mem_singleton_self _⟩
  constructor
  · exact ⟨(.bypass, bypass), hentry, _, hmatch, fun other _ otherBits =>
      matchedBits_le⟩
  · rintro ⟨via, cidr⟩ ⟨hmem, bits, hbits, hlongest⟩
    rcases mem_entries.mp hmem with ⟨-, htunnel⟩ | ⟨hvia, -⟩
    · have hlt := hshorter cidr htunnel bits hbits
      have hle := hlongest _ hentry _ hmatch
      exact absurd hlt (Nat.not_lt.mpr hle)
    · exact hvia

namespace UnderlayWitness

def proxyIp : IpAddr := .v4 ⟨[203, 0, 113, 10], rfl⟩

def octetChar (octet : UInt8) : Char := Char.ofNat (256 + octet.toNat)

def charOctet (char : Char) : UInt8 := UInt8.ofNat (char.toNat - 256)

/-- The address of the proxy in dotted form, the others octet by octet. -/
def showIp (ip : IpAddr) : String :=
  if ip = proxyIp then "203.0.113.10"
  else
    match ip with
    | .v4 octets => String.ofList ('4' :: octets.val.map octetChar)
    | .v6 octets => String.ofList ('6' :: octets.val.map octetChar)

def parseIp (text : String) : Option IpAddr :=
  match text.toList with
  | '4' :: chars => (FixedBytes.ofBytes? 4 (chars.map charOctet)).map .v4
  | '6' :: chars => (FixedBytes.ofBytes? 16 (chars.map charOctet)).map .v6
  | _ =>
      if text = "203.0.113.10" then some proxyIp
      else if text = "0.0.0.0" then some (.v4 ⟨[0, 0, 0, 0], rfl⟩)
      else if text = "128.0.0.0" then some (.v4 ⟨[128, 0, 0, 0], rfl⟩)
      else none

def text : AddressText where
  parseIp := parseIp
  showIp := showIp
  parseSocket := fun proxy =>
    if proxy = "203.0.113.10:1080" then some ⟨proxyIp, 1080⟩ else none

theorem octetChar_toNat (octet : UInt8) :
    (octetChar octet).toNat = 256 + octet.toNat := by
  have hoctet := octet.toNat_lt
  have hvalid : (256 + octet.toNat).isValidChar := .inl (by omega)
  rw [octetChar, Char.ofNat, dif_pos hvalid]
  rfl

theorem charOctet_octetChar (octet : UInt8) :
    charOctet (octetChar octet) = octet := by
  rw [charOctet, octetChar_toNat, Nat.add_sub_cancel_left, UInt8.ofNat_toNat]

theorem map_charOctet (octets : Bytes) :
    (octets.map octetChar).map charOctet = octets := by
  rw [List.map_map]
  exact List.map_id'' charOctet_octetChar octets

theorem octetChar_ne_slash (octet : UInt8) : '/' ≠ octetChar octet := by
  intro heq
  have hnat := congrArg Char.toNat heq
  rw [octetChar_toNat] at hnat
  have hslash : '/'.toNat = 47 := rfl
  omega

theorem slash_not_mem (octets : Bytes) : '/' ∉ octets.map octetChar := by
  intro hmem
  obtain ⟨octet, -, heq⟩ := List.mem_map.mp hmem
  exact octetChar_ne_slash octet heq.symm

theorem lawful : text.Lawful where
  parseIp_showIp := by
    intro ip
    change parseIp (showIp ip) = some ip
    by_cases hproxy : ip = proxyIp
    · rw [hproxy]
      decide
    unfold showIp
    rw [if_neg hproxy]
    cases ip with
    | v4 octets =>
        simp only [parseIp, String.toList_ofList, map_charOctet,
          FixedBytes.ofBytes?_val, Option.map_some]
    | v6 octets =>
        simp only [parseIp, String.toList_ofList, map_charOctet,
          FixedBytes.ofBytes?_val, Option.map_some]
  no_slash := by
    intro ip
    change '/' ∉ (showIp ip).toList
    by_cases hproxy : ip = proxyIp
    · rw [hproxy]
      decide
    unfold showIp
    rw [if_neg hproxy]
    cases ip with
    | v4 octets =>
        rw [String.toList_ofList, List.mem_cons, not_or]
        exact ⟨by decide, slash_not_mem octets.val⟩
    | v6 octets =>
        rw [String.toList_ofList, List.mem_cons, not_or]
        exact ⟨by decide, slash_not_mem octets.val⟩

/-- Routes and bypass routes, and nothing else. -/
def routing (routes bypassRoutes : List String) : ControlPlaneConfig where
  applyInterfaceAddress := none
  interfaceCidr := none
  applyRoutes := some true
  routeCidrs := some routes
  underlayBypassCidrs := some bypassRoutes
  applyDns := none
  dnsServers := none
  dryRun := none

def planOf (routes bypassRoutes : List String) : ControlPlanePlan :=
  ⟨none, routes, bypassRoutes, false, []⟩

def underlay : TcpUnderlay := .socks5 "203.0.113.10:1080"

/-- A full tunnel, and a narrower tunnel route that holds the proxy too. -/
def fullTunnel : ControlPlanePlan :=
  planOf ["0.0.0.0/0", "128.0.0.0/1"] ["203.0.113.10/32"]

theorem proxy_bypasses_full_tunnel :
    buildControlPlanePlan text .linux
        (routing ["0.0.0.0/0", "128.0.0.0/1"] ["203.0.113.10/32"]) "shph0" =
      .ok fullTunnel ∧
    validateControlPlaneUnderlayFor text underlay fullTunnel = .ok () ∧
    (∃ entry, LongestMatch text fullTunnel proxyIp entry) ∧
      ∀ entry, LongestMatch text fullTunnel proxyIp entry →
        entry.1 = .bypass := by
  have hbuild : buildControlPlanePlan text .linux
      (routing ["0.0.0.0/0", "128.0.0.0/1"] ["203.0.113.10/32"]) "shph0" =
        .ok fullTunnel := by decide
  have haccepted :
      validateControlPlaneUnderlayFor text underlay fullTunnel = .ok () := by
    decide
  have hdefault : HasDefaultFor text fullTunnel proxyIp :=
    ⟨"0.0.0.0/0", by decide, .v4 ⟨[0, 0, 0, 0], rfl⟩, by decide, rfl⟩
  exact ⟨hbuild, haccepted, proxy_bypasses_tunnel lawful hbuild (.inl rfl) rfl
    rfl haccepted hdefault⟩

/-- A tunnel route for half of the addresses, and no bypass: accepted. -/
theorem half_tunnel_holds_proxy :
    buildControlPlanePlan text .linux (routing ["128.0.0.0/1"] []) "shph0" =
      .ok (planOf ["128.0.0.0/1"] []) ∧
    text.parseSocket "203.0.113.10:1080" = some ⟨proxyIp, 1080⟩ ∧
    isLoopback proxyIp = false ∧
    validateControlPlaneUnderlayFor text underlay
      (planOf ["128.0.0.0/1"] []) = .ok () ∧
    cidrContainsIp text "128.0.0.0/1" proxyIp = .ok true ∧
    LongestMatch text (planOf ["128.0.0.0/1"] []) proxyIp
      (.tunnel, "128.0.0.0/1") := by
  refine ⟨by decide, rfl, rfl, by decide, by decide, by decide, 1, by decide,
    ?_⟩
  intro other hother otherBits hbits
  have hsame : other = (.tunnel, "128.0.0.0/1") := List.mem_singleton.mp hother
  have hone : matchedBits text proxyIp "128.0.0.0/1" = some 1 := by decide
  rw [hsame, hone, Option.some.injEq] at hbits
  exact Nat.le_of_eq hbits.symm

end UnderlayWitness

end Shph.ControlPlane
