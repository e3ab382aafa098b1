/-
The plan of the control plane: which interface address, routes, underlay
bypass routes and DNS servers a configuration asks for.  A plan is built and
checked before the host is touched.
-/
import Shph.Cookie
import Shph.Library.Checked
import Shph.RatchetAudit

namespace Shph.ControlPlane

open ByteCodec Checked

inductive Platform where
  | linux
  | windows
  | other
deriving Repr, DecidableEq

/-- How the standard library reads and writes addresses. -/
structure AddressText where
  parseIp : String → Option IpAddr
  showIp : IpAddr → String
  parseSocket : String → Option SocketAddr

structure ControlPlaneConfig where
  applyInterfaceAddress : Option Bool
  interfaceCidr : Option String
  applyRoutes : Option Bool
  routeCidrs : Option (List String)
  underlayBypassCidrs : Option (List String)
  applyDns : Option Bool
  dnsServers : Option (List String)
  dryRun : Option Bool
deriving Repr, DecidableEq

inductive TcpUnderlay where
  | direct
  | socks5 (proxy : String)
  | tor (proxy : String)
deriving Repr, DecidableEq

/-- The parts of the configuration the control plane reads.  `underlay` is
what `session.underlay` is parsed to, `direct` where there is no session. -/
structure Config where
  interfaceName : String
  controlPlane : Option ControlPlaneConfig
  underlay : Except ShphError TcpUnderlay

structure ControlPlanePlan where
  interfaceCidr : Option String
  routes : List String
  underlayBypassRoutes : List String
  applyDns : Bool
  dnsServers : List String
deriving Repr, DecidableEq

/-- `str::trim`. -/
def trim (text : String) : String :=
  String.ofList ((text.toList.dropWhile isWhitespace).rdropWhile isWhitespace)

/-- No white space at either end. -/
def Trimmed (chars : List Char) : Prop :=
  (∀ char ∈ chars.head?, isWhitespace char = false) ∧
    ∀ char ∈ chars.getLast?, isWhitespace char = false

theorem trimmed_trim (text : String) : Trimmed (trim text).toList := by
  rw [trim, String.toList_ofList]
  constructor
  · intro char hchar
    obtain ⟨back, hback⟩ := List.rdropWhile_prefix isWhitespace
      (l := text.toList.dropWhile isWhitespace)
    have hhead : (text.toList.dropWhile isWhitespace).head? = some char := by
      rw [← hback, List.head?_append, Option.mem_def.mp hchar]
      rfl
    have hnot := List.head?_dropWhile_not isWhitespace text.toList
    rw [hhead] at hnot
    exact hnot
  · intro char hchar
    have hne : (text.toList.dropWhile isWhitespace).rdropWhile
        isWhitespace ≠ [] := by
      intro hempty
      rw [hempty] at hchar
      cases hchar
    rw [List.getLast?_eq_some_getLast hne] at hchar
    rw [← Option.some.inj hchar]
    exact Bool.eq_false_iff.mpr (List.rdropWhile_last_not _ _ hne)

theorem trim_of_trimmed {text : String} (htrimmed : Trimmed text.toList) :
    trim text = text := by
  have hfront : text.toList.dropWhile isWhitespace = text.toList := by
    cases hchars : text.toList with
    | nil => rfl
    | cons char rest =>
        rw [hchars] at htrimmed
        rw [List.dropWhile_cons, htrimmed.1 char rfl]
        rfl
  have hback : text.toList.rdropWhile isWhitespace = text.toList := by
    apply List.rdropWhile_eq_self_iff.mpr
    intro hne
    rw [htrimmed.2 _ (List.getLast?_eq_some_getLast hne)]
    exact Bool.false_ne_true
  rw [trim, hfront, hback, String.ofList_toList]

theorem trim_trim (text : String) : trim (trim text) = trim text :=
  trim_of_trimmed (trimmed_trim text)

theorem trim_eq_empty_iff {text : String} :
    trim text = "" ↔ isBlank text = true := by
  rw [trim, ← String.toList_inj, String.toList_ofList, isBlank,
    List.all_eq_true]
  constructor
  · intro hempty char hchar
    rw [← List.takeWhile_append_dropWhile (p := isWhitespace)
      (l := text.toList), List.mem_append] at hchar
    rcases hchar with hchar | hchar
    · exact List.mem_takeWhile_imp hchar
    · exact List.rdropWhile_eq_nil_iff.mp hempty char hchar
  · intro hblank
    rw [List.dropWhile_eq_nil_iff.mpr hblank]
    rfl

theorem trim_eq_self {text : String}
    (hplain : ∀ char ∈ text.toList, isWhitespace char = false) :
    trim text = text :=
  trim_of_trimmed
    ⟨fun char hchar => hplain char (List.mem_of_mem_head? hchar),
      fun char hchar => hplain char (List.mem_of_getLast? hchar)⟩

/-- `str::split_once` for one character. -/
def splitOnce (char : Char) (text : String) : Option (String × String) :=
  match text.toList.dropWhile (· ≠ char) with
  | [] => none
  | _ :: rest =>
      some (String.ofList (text.toList.takeWhile (· ≠ char)),
        String.ofList rest)

/-- `parse::<u8>`: decimal digits, after an optional plus sign. -/
def parseU8 (text : String) : Option Nat :=
  let digits :=
    match text.toList with
    | '+' :: digits => digits
    | digits => digits
  let value := Nat.ofDigitChars 10 digits 0
  if digits ≠ [] ∧ digits.all Char.isDigit ∧ value ≤ 255 then some value
  else none

def tunNameMaxBytes : Nat := 15

def validateTunName (name : String) : Except ShphError Unit := do
  ensure (name ≠ "") (.invalidArgument "TUN interface name cannot be empty")
  ensure (trim name = name) (.invalidArgument
    "TUN interface name cannot have leading or trailing whitespace")
  ensure (name.utf8ByteSize ≤ tunNameMaxBytes) (.invalidArgument
    ("TUN interface name too long: max " ++ toString tunNameMaxBytes ++
      " bytes, got " ++ toString name.utf8ByteSize))
  ensure (name.toList.all fun char => char.toNat < 128)
    (.invalidArgument "TUN interface name must be ASCII")
  ensure (Char.ofNat 0 ∉ name.toList)
    (.invalidArgument "TUN interface name cannot contain null bytes")
  ensure (name.toList.all fun char =>
      char.isAlphanum || char = '_' || char = '-' || char = '.' || char = ':')
    (.invalidArgument "TUN interface name contains unsupported characters")

def isIpv4 : IpAddr → Bool
  | .v4 _ => true
  | .v6 _ => false

def maxBits : IpAddr → Nat
  | .v4 _ => 32
  | .v6 _ => 128

def isUnspecified : IpAddr → Bool
  | .v4 octets => ofBigEndian octets.val == 0
  | .v6 octets => ofBigEndian octets.val == 0

def isLoopback : IpAddr → Bool
  | .v4 octets => octets.val.head? == some 127
  | .v6 octets => ofBigEndian octets.val == 1

def isMulticast : IpAddr → Bool
  | .v4 octets => octets.val.head?.any fun byte => 224 ≤ byte && byte ≤ 239
  | .v6 octets => octets.val.head? == some 255

/-- The address mask of a CIDR: `MAX << (width - bits)`, or zero. -/
def networkMask (width bits : Nat) : Nat :=
  if bits = 0 then 0 else (2 ^ width - 1) <<< (width - bits) % 2 ^ width

def maskOctets (width bits : Nat) (octets : FixedBytes width) :
    FixedBytes width :=
  ⟨bigEndian width
    (ofBigEndian octets.val &&& networkMask (8 * width) bits),
    bigEndian_length _ _⟩

def networkOf (bits : Nat) : IpAddr → IpAddr
  | .v4 octets => .v4 (maskOctets 4 bits octets)
  | .v6 octets => .v6 (maskOctets 16 bits octets)

section Text

variable (text : AddressText)

def parseCidr (cidr : String) : Except ShphError (IpAddr × Nat) := do
  let parts ← okOr (splitOnce '/' cidr) (.config ("invalid CIDR: " ++ cidr))
  let ipAddr ← okOr (text.parseIp parts.1)
    (.config ("invalid CIDR IP: " ++ cidr))
  let bits ← okOr (parseU8 parts.2)
    (.config ("invalid CIDR prefix: " ++ cidr))
  ensure (bits ≤ maxBits ipAddr)
    (.config ("CIDR prefix out of range: " ++ cidr))
  return (ipAddr, bits)

def validateCidr (cidr : String) : Except ShphError Unit := do
  let _ ← parseCidr text cidr

def canonicalCidrKey (cidr : String) : Except ShphError String := do
  let (ipAddr, bits) ← parseCidr text cidr
  return text.showIp (networkOf bits ipAddr) ++ "/" ++ toString bits

def cidrContainsIp (cidr : String) (candidate : IpAddr) :
    Except ShphError Bool := do
  let (network, bits) ← parseCidr text cidr
  return isIpv4 network == isIpv4 candidate &&
    networkOf bits network == networkOf bits candidate

def validateUnderlayBypassCidr (cidr : String) : Except ShphError Unit := do
  let (ipAddr, bits) ← parseCidr text cidr
  ensure (bits = maxBits ipAddr) (.config
    ("underlay bypass must be a single-host route (" ++ cidr ++ ")"))
  ensure (¬ (isUnspecified ipAddr ∨ isLoopback ipAddr ∨ isMulticast ipAddr))
    (.config ("underlay bypass must use a unicast, non-loopback address (" ++
      cidr ++ ")"))

def validateInterfaceCidr (platform : Platform) (cidr : String) :
    Except ShphError Unit := do
  let (ipAddr, bits) ← parseCidr text cidr
  ensure (bits ≠ 0)
    (.config ("interface CIDR must not use a /0 prefix: " ++ cidr))
  ensure (¬ (isUnspecified ipAddr ∨ isLoopback ipAddr ∨ isMulticast ipAddr))
    (.config ("interface CIDR must use a unicast, non-loopback address: " ++
      cidr))
  ensure (¬ (platform = .windows ∧ isIpv4 ipAddr = false)) (.unsupported
    "Windows interface address apply currently supports IPv4 CIDRs only")

/-- The loops of the plan: every entry gets a key, no key may come twice, and
the entries are pushed in order.  The keys seen so far go on to the next
loop. -/
def collectDistinct {K : Type} [DecidableEq K]
    (key : String → Except ShphError K) (duplicate : String) :
    List K → List String → Except ShphError (List K × List String)
  | seen, [] => .ok (seen, [])
  | seen, entry :: rest => do
      let entryKey ← key entry
      ensure (entryKey ∉ seen) (.config (duplicate ++ entry))
      let (allSeen, pushed) ←
        collectDistinct key duplicate (entryKey :: seen) rest
      return (allSeen, entry :: pushed)

def planAddress (platform : Platform) (control : ControlPlaneConfig) :
    Except ShphError (Option String) :=
  if control.applyInterfaceAddress.getD false then do
    let interfaceCidr ← okOr control.interfaceCidr (.config
      "apply_interface_address=true requires control_plane.interface_cidr")
    validateInterfaceCidr text platform interfaceCidr
    return some interfaceCidr
  else .ok none

def bypassKey (route : String) : Except ShphError String := do
  let key ← canonicalCidrKey text route
  validateUnderlayBypassCidr text route
  return key

/-- The routes and the underlay bypass routes. -/
def planRoutes (control : ControlPlaneConfig) :
    Except ShphError (List String × List String) :=
  if control.applyRoutes.getD false then do
    let (seenRoutes, routes) ← collectDistinct (canonicalCidrKey text)
      "duplicate control-plane route: " [] (control.routeCidrs.getD [])
    let (_, bypassRoutes) ← collectDistinct (bypassKey text)
      "duplicate control-plane route or underlay bypass: " seenRoutes
      (control.underlayBypassCidrs.getD [])
    return (routes, bypassRoutes)
  else .ok ([], [])

def planDns (control : ControlPlaneConfig) : Except ShphError (List String) :=
  if control.applyDns.getD false then do
    let (_, servers) ← collectDistinct
      (fun server => okOr (text.parseIp server)
        (.config ("invalid DNS server IP: " ++ server)))
      "duplicate DNS server: " [] (control.dnsServers.getD [])
    return servers
  else .ok []

def buildControlPlanePlan (platform : Platform) (control : ControlPlaneConfig)
    (interfaceName : String) : Except ShphError ControlPlanePlan := do
  validateTunName interfaceName
  let interfaceCidr ← planAddress text platform control
  let (routes, underlayBypassRoutes) ← planRoutes text control
  let dnsServers ← planDns text control
  return { interfaceCidr, routes, underlayBypassRoutes, dnsServers
           applyDns := !dnsServers.isEmpty }

/-- A full tunnel over a remote proxy needs exactly the bypass for the proxy,
and no route that shadows it. -/
def validateProxyBypass (plan : ControlPlanePlan) (proxyIp : IpAddr) :
    Except ShphError Unit := do
  let hostBits := maxBits proxyIp
  let expectedBypass := text.showIp proxyIp ++ "/" ++ toString hostBits
  let expectedKey ← canonicalCidrKey text expectedBypass
  let actualKeys ← plan.underlayBypassRoutes.mapM (canonicalCidrKey text)
  ensure (actualKeys = [expectedKey]) (.config
    ("full-tunnel SOCKS5 routing requires exactly " ++ expectedBypass ++
      " in control_plane.underlay_bypass_cidrs; unrelated or missing " ++
      "bypasses are unsafe"))
  checkEach (fun route => do
    let (_, bits) ← parseCidr text route
    if hostBits ≤ bits then
      let contains ← cidrContainsIp text route proxyIp
      ensure (contains = false) (.config
        ("control-plane route " ++ route ++
          " shadows the exact SOCKS5 underlay bypass " ++ expectedBypass))
    else .ok ()) plan.routes

def isDefaultRoute (route : String) : Bool :=
  match parseCidr text route with
  | .ok (_, bits) => bits == 0
  | .error _ => false

def validateProxy (plan : ControlPlanePlan) (proxy : String) :
    Except ShphError Unit := do
  let endpoint ← okOr (text.parseSocket proxy) (.config
    ("a full-tunnel SOCKS5 underlay requires a literal proxy IP; " ++
      "a DNS name cannot be safely pinned to a bypass route"))
  let proxyIp := endpoint.ip
  let proxyFamilyDefault ← plan.routes.foldlM (fun found route => do
    let (network, bits) ← parseCidr text route
    return found || (bits == 0 && isIpv4 network == isIpv4 proxyIp)) false
  if proxyFamilyDefault = false then .ok ()
  else if isLoopback proxyIp then
    ensure (plan.underlayBypassRoutes = []) (.config
      ("a loopback SOCKS5 proxy uses the host's local route; " ++
        "remove unrelated underlay bypass routes"))
  else validateProxyBypass text plan proxyIp

def validateControlPlaneUnderlayFor (underlay : TcpUnderlay)
    (plan : ControlPlanePlan) : Except ShphError Unit :=
  if plan.routes.any (isDefaultRoute text) then
    match underlay with
    | .direct => .ok ()
    | .socks5 proxy => validateProxy text plan proxy
    | .tor proxy => validateProxy text plan proxy
  else .ok ()

def validateControlPlaneUnderlay (config : Config) (plan : ControlPlanePlan) :
    Except ShphError Unit := do
  let underlay ← config.underlay
  validateControlPlaneUnderlayFor text underlay plan

end Text

theorem collectDistinct_pushed {K : Type} [DecidableEq K]
    {key : String → Except ShphError K} {duplicate : String}
    {seen allSeen : List K} {entries pushed : List String}
    (hok : collectDistinct key duplicate seen entries = .ok (allSeen, pushed)) :
    pushed = entries := by
  induction entries generalizing seen pushed with
  | nil =>
      cases hok
      rfl
  | cons entry rest ih =>
      rw [collectDistinct] at hok
      obtain ⟨entryKey, -, hok⟩ := bind_eq_ok_iff.mp hok
      obtain ⟨-, -, hok⟩ := bind_eq_ok_iff.mp hok
      obtain ⟨⟨restSeen, restPushed⟩, hrest, hok⟩ := bind_eq_ok_iff.mp hok
      cases hok
      rw [ih hrest]

theorem collectDistinct_keys {K : Type} [DecidableEq K]
    {key : String → Except ShphError K} {duplicate : String}
    {seen allSeen : List K} {entries pushed : List String}
    (hok : collectDistinct key duplicate seen entries = .ok (allSeen, pushed)) :
    ∀ entry ∈ entries, ∃ entryKey, key entry = .ok entryKey := by
  induction entries generalizing seen allSeen pushed with
  | nil => exact fun entry hentry => absurd hentry List.not_mem_nil
  | cons entry rest ih =>
      rw [collectDistinct] at hok
      obtain ⟨entryKey, hkey, hok⟩ := bind_eq_ok_iff.mp hok
      obtain ⟨-, -, hok⟩ := bind_eq_ok_iff.mp hok
      obtain ⟨⟨restSeen, restPushed⟩, hrest, -⟩ := bind_eq_ok_iff.mp hok
      rw [List.forall_mem_cons]
      exact ⟨⟨entryKey, hkey⟩, ih hrest⟩

section Fields

variable {text : AddressText} {platform : Platform}
  {control : ControlPlaneConfig}

theorem planAddress_isSome {interfaceCidr : Option String}
    (hok : planAddress text platform control = .ok interfaceCidr) :
    interfaceCidr.isSome = control.applyInterfaceAddress.getD false := by
  unfold planAddress at hok
  split at hok
  · rename_i happly
    obtain ⟨cidr, -, hok⟩ := bind_eq_ok_iff.mp hok
    obtain ⟨-, -, hok⟩ := bind_eq_ok_iff.mp hok
    cases hok
    exact happly.symm
  · rename_i happly
    cases hok
    simpa using happly

theorem planRoutes_eq {routes bypassRoutes : List String}
    (hok : planRoutes text control = .ok (routes, bypassRoutes)) :
    (control.applyRoutes.getD false = true ∧
      routes = control.routeCidrs.getD [] ∧
      bypassRoutes = control.underlayBypassCidrs.getD []) ∨
    (control.applyRoutes.getD false = false ∧ routes = [] ∧
      bypassRoutes = []) := by
  unfold planRoutes at hok
  split at hok
  · rename_i happly
    obtain ⟨⟨seenRoutes, pushed⟩, hroutes, hok⟩ := bind_eq_ok_iff.mp hok
    obtain ⟨⟨allSeen, pushedBypass⟩, hbypass, hok⟩ := bind_eq_ok_iff.mp hok
    cases hok
    exact .inl ⟨happly, collectDistinct_pushed hroutes,
      collectDistinct_pushed hbypass⟩
  · rename_i happly
    cases hok
    exact .inr ⟨by simpa using happly, rfl, rfl⟩

/-- Every bypass route of a plan has passed its check. -/
theorem planRoutes_bypass {routes bypassRoutes : List String}
    (hok : planRoutes text control = .ok (routes, bypassRoutes)) :
    ∀ route ∈ bypassRoutes,
      validateUnderlayBypassCidr text route = .ok () := by
  unfold planRoutes at hok
  split at hok
  · obtain ⟨⟨seenRoutes, pushed⟩, -, hok⟩ := bind_eq_ok_iff.mp hok
    obtain ⟨⟨allSeen, pushedBypass⟩, hbypass, hok⟩ := bind_eq_ok_iff.mp hok
    cases hok
    rw [collectDistinct_pushed hbypass]
    intro route hroute
    obtain ⟨key, hkey⟩ := collectDistinct_keys hbypass route hroute
    obtain ⟨canonical, -, hchecked⟩ := bind_eq_ok_iff.mp hkey
    obtain ⟨⟨⟩, hvalid, -⟩ := bind_eq_ok_iff.mp hchecked
    exact hvalid
  · cases hok
    exact fun route hroute => absurd hroute List.not_mem_nil

theorem planDns_eq {servers : List String}
    (hok : planDns text control = .ok servers) :
    servers =
      if control.applyDns.getD false then control.dnsServers.getD []
      else [] := by
  unfold planDns at hok
  split at hok
  · rename_i happly
    obtain ⟨⟨allSeen, pushed⟩, hservers, hok⟩ := bind_eq_ok_iff.mp hok
    cases hok
    rw [if_pos happly]
    exact collectDistinct_pushed hservers
  · rename_i happly
    cases hok
    rw [if_neg happly]

/-- A plan that was built: each of its parts is what its own builder made. -/
theorem buildControlPlanePlan_parts {interfaceName : String}
    {plan : ControlPlanePlan}
    (hok : buildControlPlanePlan text platform control interfaceName =
      .ok plan) :
    planAddress text platform control = .ok plan.interfaceCidr ∧
      planRoutes text control =
        .ok (plan.routes, plan.underlayBypassRoutes) ∧
      planDns text control = .ok plan.dnsServers ∧
      plan.applyDns = !plan.dnsServers.isEmpty := by
  unfold buildControlPlanePlan at hok
  obtain ⟨-, -, hok⟩ := bind_eq_ok_iff.mp hok
  obtain ⟨interfaceCidr, haddress, hok⟩ := bind_eq_ok_iff.mp hok
  obtain ⟨⟨routes, bypassRoutes⟩, hroutes, hok⟩ := bind_eq_ok_iff.mp hok
  obtain ⟨servers, hdns, hok⟩ := bind_eq_ok_iff.mp hok
  cases hok
  exact ⟨haddress, hroutes, hdns, rfl⟩

end Fields

end Shph.ControlPlane
