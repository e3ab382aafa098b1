/-
The two readers of the text for an underlay: the check a configuration has to
pass, and the parser a connection uses.  They agree on the schemes and on what
a proxy is, and differ in the texts for no underlay, in the white space behind
a scheme, in the longest text, and in how an address of a Tor proxy is written.
-/
import Shph.Configuration

namespace Shph.Configuration

open Checked ControlPlane Delimited
open Identity (isControl)
open TcpUnderlay (PlainChar plainProxy plainProxy_iff)

section Characters

def isAddressChar (char : Char) : Bool :=
  char.isDigit || char ∈ ['a', 'b', 'c', 'd', 'e', 'f'] ||
    char ∈ ['A', 'B', 'C', 'D', 'E', 'F'] || char ∈ [':', '.']

/-- An address is written with hexadecimal digits, colons and dots. -/
def ReadsAddresses (parseIp : String → Option IpAddr) : Prop :=
  ∀ text ip, parseIp text = some ip →
    text ≠ "" ∧ ∀ char ∈ text.toList, isAddressChar char = true

theorem plainChar_address {char : Char} (haddress : isAddressChar char) :
    PlainChar char ∧ char ≠ '%' ∧ char ≠ '+' := by
  have hcode : char.toNat = 46 ∨ (48 ≤ char.toNat ∧ char.toNat ≤ 58) ∨
      (65 ≤ char.toNat ∧ char.toNat ≤ 70) ∨
      (97 ≤ char.toNat ∧ char.toNat ≤ 102) := by
    simp only [isAddressChar, Bool.or_eq_true, decide_eq_true_eq,
      Char.isDigit, Bool.and_eq_true, List.mem_cons, List.not_mem_nil,
      or_false] at haddress
    rcases haddress with ((hdigit | hsmall) | hlarge) | hsign
    · exact .inr (.inl ⟨hdigit.1, Nat.le_trans hdigit.2 (by decide)⟩)
    · rcases hsmall with rfl | rfl | rfl | rfl | rfl | rfl <;> decide
    · rcases hlarge with rfl | rfl | rfl | rfl | rfl | rfl <;> decide
    · rcases hsign with rfl | rfl <;> decide
  refine ⟨⟨?_, ?_, ?_, ?_⟩, ?_, ?_⟩
  · rintro rfl
    exact absurd hcode (by decide)
  · rintro rfl
    exact absurd hcode (by decide)
  · simp only [isControl, Bool.or_eq_false_iff, Bool.and_eq_false_iff,
      decide_eq_false_iff_not]
    omega
  · simp only [isWhitespace, Bool.or_eq_false_iff, Bool.and_eq_false_iff,
      decide_eq_false_iff_not, beq_eq_false_iff_ne]
    omega
  · rintro rfl
    exact absurd hcode (by decide)
  · rintro rfl
    exact absurd hcode (by decide)

end Characters

section Proxy

variable {value proxy : String}

theorem stripFront_eq_some_iff {front text rest : String} :
    stripFront front text = some rest ↔
      text.toList = front.toList ++ rest.toList := by
  rw [stripFront, Option.map_eq_some_iff]
  constructor
  · rintro ⟨chars, hchars, rfl⟩
    rw [List.isPrefixOf?_eq_some_iff_append_eq] at hchars
    rw [String.toList_ofList, hchars]
  · intro htext
    refine ⟨rest.toList, ?_, String.ofList_toList⟩
    rw [List.isPrefixOf?_eq_some_iff_append_eq, htext]

theorem proxyText_eq_some (hproxy : proxyText value = some proxy) :
    ∃ scheme ∈ ["socks5://", "socks5h://", "tor://"],
      value.toList = scheme.toList ++ proxy.toList := by
  rw [proxyText, Option.or_eq_some_iff, Option.or_eq_some_iff] at hproxy
  rcases hproxy with (hfirst | ⟨-, hsecond⟩) | ⟨-, hthird⟩
  · exact ⟨_, by simp, stripFront_eq_some_iff.mp hfirst⟩
  · exact ⟨_, by simp, stripFront_eq_some_iff.mp hsecond⟩
  · exact ⟨_, by simp, stripFront_eq_some_iff.mp hthird⟩

/-- A text with a scheme is not one for the direct underlay. -/
theorem not_direct_of_proxy (hproxy : proxyText value = some proxy) :
    value ≠ "" ∧ eqIgnoreAsciiCase value "direct" = false := by
  obtain ⟨scheme, hscheme, hvalue⟩ := proxyText_eq_some hproxy
  have hhead : ∃ char ∈ ['s', 't'], value.toList.head? = some char := by
    rw [hvalue]
    simp only [List.mem_cons, List.not_mem_nil, or_false] at hscheme
    rcases hscheme with rfl | rfl | rfl
    · exact ⟨'s', by simp, rfl⟩
    · exact ⟨'s', by simp, rfl⟩
    · exact ⟨'t', by simp, rfl⟩
  obtain ⟨char, hchar, hhead⟩ := hhead
  obtain ⟨rest, hrest⟩ := List.head?_eq_some_iff.mp hhead
  constructor
  · rintro rfl
    cases hrest
  · rw [eqIgnoreAsciiCase, hrest, decide_eq_false_iff_not, List.map_cons]
    intro hsame
    have hfirst : char.toLower = 'd' := (List.cons.inj hsame).1
    simp only [List.mem_cons, List.not_mem_nil, or_false] at hchar
    rcases hchar with rfl | rfl
    · exact absurd hfirst (by decide)
    · exact absurd hfirst (by decide)

/-- In front of the trimmed text stands white space, and nothing behind it. -/
theorem proxy_eq_append (htrimmed : Trimmed value.toList)
    (hproxy : proxyText value = some proxy) :
    ∃ blanks, (∀ char ∈ blanks, isWhitespace char = true) ∧
      proxy.toList = blanks ++ (trim proxy).toList := by
  obtain ⟨scheme, -, hvalue⟩ := proxyText_eq_some hproxy
  refine ⟨proxy.toList.takeWhile isWhitespace,
    fun char hchar => List.mem_takeWhile_imp hchar, ?_⟩
  have hback : (proxy.toList.dropWhile isWhitespace).rdropWhile isWhitespace =
      proxy.toList.dropWhile isWhitespace := by
    apply List.rdropWhile_eq_self_iff.mpr
    intro hne
    have hlast := List.getLast?_eq_some_getLast hne
    generalize (proxy.toList.dropWhile isWhitespace).getLast hne = last
      at hlast ⊢
    have hproxyLast : proxy.toList.getLast? = some last := by
      rw [← List.takeWhile_append_dropWhile (p := isWhitespace)
        (l := proxy.toList), List.getLast?_append, hlast]
      rfl
    have hvalueLast : value.toList.getLast? = some last := by
      rw [hvalue, List.getLast?_append, hproxyLast]
      rfl
    rw [htrimmed.2 _ hvalueLast]
    exact Bool.false_ne_true
  rw [trim, String.toList_ofList, hback, List.takeWhile_append_dropWhile]

end Proxy

section Endpoints

variable {proxy : String} {endpoint : Endpoint}

/-- The text of an endpoint up to its last colon, and its port. -/
theorem parse_parts (hparse : Endpoint.parse proxy = .ok endpoint) :
    ∃ front portText, proxy.toList = front ++ ':' :: portText ∧
      parseU16 portText = .ok endpoint.port ∧
      ((∃ rest, front = '[' :: rest) ∨
        isBlank (String.ofList front) = false) ∧
      ∀ char ∈ front, char ∈ endpoint.host.toList ∨ char = '[' ∨
        char = ']' := by
  obtain ⟨portText, hsplit, hport, hblank, -⟩ :=
    Endpoint.parse_eq_ok_iff.mp hparse
  unfold Endpoint.split at hsplit
  split at hsplit
  · rename_i stripped hchars
    obtain ⟨hstripped, -⟩ := eq_of_cutFirst hsplit
    refine ⟨'[' :: (endpoint.host.toList ++ [']']), portText, ?_, hport,
      .inl ⟨_, rfl⟩, ?_⟩
    · rw [hchars, hstripped, List.cons_append, List.append_assoc]
      rfl
    · intro char hchar
      simp only [List.mem_cons, List.mem_append, List.not_mem_nil,
        or_false] at hchar
      tauto
  · obtain ⟨hchars, -⟩ := eq_of_cutLast hsplit
    refine ⟨endpoint.host.toList, portText, hchars, hport, .inr ?_,
      fun char hchar => .inl hchar⟩
    rw [String.ofList_toList]
    exact hblank

/-- White space in front makes no endpoint unreadable. -/
theorem parse_of_trimmed {blanks : List Char}
    (hblanks : ∀ char ∈ blanks, isWhitespace char = true)
    (hproxy : proxy.toList = blanks ++ (trim proxy).toList)
    (hparse : Endpoint.parse (trim proxy) = .ok endpoint) :
    ∃ found, Endpoint.parse proxy = .ok found := by
  cases hfront : blanks with
  | nil =>
      rw [hfront, List.nil_append] at hproxy
      rw [String.toList_inj.mp hproxy]
      exact ⟨endpoint, hparse⟩
  | cons first others =>
      obtain ⟨front, portText, hchars, hport, hshape, -⟩ :=
        parse_parts hparse
      have hcolon : ':' ∉ portText :=
        notMem_of_parseU16 hport (by decide) (by decide)
      have hzero : endpoint.port ≠ 0 :=
        (Endpoint.parse_eq_ok_iff.mp hparse).choose_spec.2.2.2
      have hfirst : isWhitespace first = true :=
        hblanks first (hfront ▸ List.mem_cons_self)
      have hhead : proxy.toList.head? ≠ some '[' := by
        rw [hproxy, hfront]
        intro hopen
        rw [Option.some.inj hopen] at hfirst
        exact absurd hfirst (by decide)
      have hsplit : Endpoint.split proxy.toList =
          some (blanks ++ front, portText) := by
        rw [split_of_head hhead, hproxy, hchars, ← List.append_assoc]
        exact cutLast_append hcolon
      refine ⟨⟨String.ofList (blanks ++ front), endpoint.port⟩,
        Endpoint.parse_eq_ok_iff.mpr ⟨portText, ?_, hport, ?_, hzero⟩⟩
      · rw [hsplit, String.toList_ofList]
      · rw [isBlank, String.toList_ofList, List.all_append]
        rcases hshape with ⟨rest, rfl⟩ | hblank
        · have hopen : isWhitespace '[' = false := by decide
          rw [List.all_cons, hopen, Bool.false_and, Bool.and_false]
        · rw [isBlank, String.toList_ofList] at hblank
          rw [hblank, Bool.and_false]

/-- The host is a part of the text. -/
theorem utf8ByteSize_host (hparse : Endpoint.parse proxy = .ok endpoint) :
    endpoint.host.utf8ByteSize ≤ proxy.utf8ByteSize := by
  have hsize : ∀ text : String,
      text.utf8ByteSize = String.utf8Len text.toList := by
    intro text
    rw [← String.utf8ByteSize_ofList, String.ofList_toList]
  obtain ⟨portText, hsplit, -⟩ := Endpoint.parse_eq_ok_iff.mp hparse
  rw [hsize, hsize]
  unfold Endpoint.split at hsplit
  split at hsplit
  · rename_i stripped hchars
    rw [hchars, (eq_of_cutFirst hsplit).1, String.utf8Len_cons,
      String.utf8Len_append]
    omega
  · rw [(eq_of_cutLast hsplit).1, String.utf8Len_append]
    omega

end Endpoints

section SocketAddresses

variable {parseIp : String → Option IpAddr} {proxy : String}
  {address : SocketAddr}

theorem parseU16_of_parsePort {digits : List Char} {port : UInt16}
    (hport : parsePort digits = some port) :
    parseU16 digits = .ok port := by
  unfold parsePort at hport
  split_ifs at hport with hempty
  have hread : readU16 0 digits = .ok port := by
    cases hdigits : readU16 0 digits with
    | error error =>
        rw [hdigits] at hport
        cases hport
    | ok found =>
        rw [hdigits] at hport
        exact congrArg _ (Option.some.inj hport)
  have hplus : '+' ∉ digits := by
    intro hplus
    exact absurd (isDigit_of_readU16 hread '+' hplus) (by decide)
  unfold parseU16
  split
  · exact absurd rfl hempty
  · exact absurd (List.mem_singleton_self _) hplus
  · exact absurd List.mem_cons_self hplus
  · exact hread

theorem isDigit_of_parsePort {digits : List Char} {port : UInt16}
    (hport : parsePort digits = some port) :
    ∀ char ∈ digits, char.isDigit = true := by
  unfold parsePort at hport
  split_ifs at hport
  cases hdigits : readU16 0 digits with
  | error error =>
      rw [hdigits] at hport
      cases hport
  | ok found => exact isDigit_of_readU16 hdigits

theorem cutFirst_percent {chars : List Char} (hscope : '%' ∉ chars) :
    cutFirst ['%'] chars = none := by
  induction chars with
  | nil => rfl
  | cons char rest ih =>
      rw [List.mem_cons, not_or] at hscope
      have hhere : ¬ ['%'] <+: char :: rest := by
        rw [List.cons_prefix_cons]
        exact fun hfirst => hscope.1 hfirst.1
      rw [cutFirst, if_neg hhere, ih hscope.2]
      rfl

/-- A standard address without a scope is an endpoint with the same host. -/
theorem parseSocketAddr_parts
    (haddress : parseSocketAddr parseIp proxy = some address)
    (hscope : '%' ∉ proxy.toList) :
    ∃ host portText, Endpoint.split proxy.toList = some (host, portText) ∧
      parseIp (String.ofList host) = some address.ip ∧
      parsePort portText = some address.port ∧
      (proxy.toList.head? = some '[' ↔ isIpv4 address.ip = false) ∧
      ∀ char ∈ proxy.toList,
        char ∈ host ∨ char ∈ portText ∨ char ∈ ['[', ']', ':'] := by
  unfold parseSocketAddr at haddress
  split at haddress
  · rename_i rest hchars
    obtain ⟨⟨host, portText⟩, hcut, haddress⟩ :=
      Option.bind_eq_some_iff.mp haddress
    obtain ⟨ip, hip, haddress⟩ := Option.bind_eq_some_iff.mp haddress
    obtain ⟨port, hport, haddress⟩ := Option.bind_eq_some_iff.mp haddress
    split_ifs at haddress with hfour
    cases haddress
    obtain ⟨hrest, -⟩ := eq_of_cutFirst hcut
    have hfree : '%' ∉ host := by
      intro hhost
      apply hscope
      rw [hchars, hrest]
      exact List.mem_cons_of_mem _ (List.mem_append_left _ hhost)
    rw [parseScoped, cutFirst_percent hfree] at hip
    refine ⟨host, portText, ?_, hip, hport, ?_, ?_⟩
    · rw [hchars]
      exact hcut
    · rw [hchars]
      exact ⟨fun _ => Bool.eq_false_iff.mpr hfour, fun _ => rfl⟩
    · intro char hchar
      rw [hchars, hrest] at hchar
      simp only [List.mem_cons, List.mem_append] at hchar ⊢
      tauto
  · rename_i hopen
    obtain ⟨⟨host, portText⟩, hcut, haddress⟩ :=
      Option.bind_eq_some_iff.mp haddress
    obtain ⟨ip, hip, haddress⟩ := Option.bind_eq_some_iff.mp haddress
    obtain ⟨port, hport, haddress⟩ := Option.bind_eq_some_iff.mp haddress
    split_ifs at haddress with hfour
    cases haddress
    have hhead : proxy.toList.head? ≠ some '[' := by
      intro hhead
      obtain ⟨rest, hrest⟩ := List.head?_eq_some_iff.mp hhead
      exact hopen rest hrest
    refine ⟨host, portText, ?_, hip, hport, ?_, ?_⟩
    · rw [split_of_head hhead]
      exact hcut
    · exact ⟨fun hopen => absurd hopen hhead, fun hsix => by
        rw [hfour] at hsix
        cases hsix⟩
    · intro char hchar
      rw [(eq_of_cutLast hcut).1] at hchar
      simp only [List.mem_cons, List.mem_append] at hchar ⊢
      tauto

/-- A standard address without a scope is written without white space and
signs, and with brackets around an IPv6 address only. -/
theorem parse_of_torProxy (hip : ReadsAddresses parseIp)
    (htor : torProxy parseIp proxy = true) (hscope : '%' ∉ proxy.toList) :
    trim proxy = proxy ∧ plainProxy proxy = true ∧ '+' ∉ proxy.toList ∧
      ∃ endpoint ip, Endpoint.parse proxy = .ok endpoint ∧
        parseIp endpoint.host = some ip ∧ isLoopback ip = true ∧
        (proxy.toList.head? = some '[' ↔ isIpv4 ip = false) := by
  rw [torProxy, Option.any_eq_true] at htor
  obtain ⟨address, haddress, hloopback⟩ := htor
  rw [Bool.and_eq_true, decide_eq_true_eq] at hloopback
  obtain ⟨host, portText, hsplit, hread, hport, hbrackets, hchars⟩ :=
    parseSocketAddr_parts haddress hscope
  obtain ⟨hempty, hhost⟩ := hip _ _ hread
  rw [String.toList_ofList] at hhost
  have hplain : ∀ char ∈ proxy.toList, PlainChar char ∧ char ≠ '+' := by
    intro char hchar
    rcases hchars char hchar with hinside | hdigit | hsign
    · exact ⟨(plainChar_address (hhost char hinside)).1,
        (plainChar_address (hhost char hinside)).2.2⟩
    · have hisDigit := isDigit_of_parsePort hport char hdigit
      refine ⟨TcpUnderlay.plainChar_of_isDigit hisDigit, ?_⟩
      rintro rfl
      exact absurd hisDigit (by decide)
    · simp only [List.mem_cons, List.not_mem_nil, or_false] at hsign
      rcases hsign with rfl | rfl | rfl
      · refine ⟨⟨?_, ?_, ?_, ?_⟩, ?_⟩ <;> decide
      · refine ⟨⟨?_, ?_, ?_, ?_⟩, ?_⟩ <;> decide
      · refine ⟨⟨?_, ?_, ?_, ?_⟩, ?_⟩ <;> decide
  have hne : proxy ≠ "" := by
    rintro rfl
    cases hsplit
  have hblank : isBlank (String.ofList host) = false := by
    obtain ⟨char, rest, hcons⟩ := List.exists_cons_of_ne_nil
      (show host ≠ [] from fun hnil => hempty (by rw [hnil]))
    have hfirst := plainChar_address (hhost char (hcons ▸ List.mem_cons_self))
    rw [isBlank, String.toList_ofList, hcons, List.all_cons,
      hfirst.1.2.2.2, Bool.false_and]
  refine ⟨trim_eq_self fun char hchar => (hplain char hchar).1.2.2.2,
    plainProxy_iff.mpr ⟨hne, fun char hchar => (hplain char hchar).1⟩,
    fun hsign => (hplain _ hsign).2 rfl,
    ⟨String.ofList host, address.port⟩, address.ip, ?_, hread, hloopback.1,
    hbrackets⟩
  refine Endpoint.parse_eq_ok_iff.mpr ⟨portText, ?_,
    parseU16_of_parsePort hport, hblank, hloopback.2⟩
  rw [hsplit, String.toList_ofList]

/-- A scope is no part of an address by itself. -/
theorem no_scope_of_parse {endpoint : Endpoint} {blanks : List Char}
    (hip : ReadsAddresses parseIp)
    (hblanks : ∀ char ∈ blanks, isWhitespace char = true)
    (hproxy : proxy.toList = blanks ++ (trim proxy).toList)
    (hparse : Endpoint.parse (trim proxy) = .ok endpoint)
    (hloopback : (parseIp endpoint.host).any isLoopback = true) :
    '%' ∉ proxy.toList := by
  obtain ⟨front, portText, hchars, hport, -, hfront⟩ := parse_parts hparse
  rw [Option.any_eq_true] at hloopback
  obtain ⟨ip, hread, -⟩ := hloopback
  obtain ⟨-, hhost⟩ := hip _ _ hread
  intro hscope
  rw [hproxy, List.mem_append] at hscope
  rcases hscope with hblank | hscope
  · exact absurd (hblanks _ hblank) (by decide)
  · rw [hchars, List.mem_append, List.mem_cons] at hscope
    rcases hscope with hinside | hcolon | hdigit
    · rcases hfront _ hinside with hinside | hopen | hclose
      · exact (plainChar_address (hhost _ hinside)).2.1 rfl
      · exact absurd hopen (by decide)
      · exact absurd hclose (by decide)
    · exact absurd hcolon (by decide)
    · exact notMem_of_parseU16 hport (by decide) (by decide) hdigit

end SocketAddresses

section Tor

variable {parseIp : String → Option IpAddr} {proxy : String}
  {endpoint : Endpoint} {ip : IpAddr}

/-- How the check wants the proxy of a Tor underlay written. -/
def StandardForm (proxy : String) (ip : IpAddr) : Prop :=
  trim proxy = proxy ∧ '+' ∉ proxy.toList ∧
    (proxy.toList.head? = some '[' ↔ isIpv4 ip = false)

theorem parsePort_of_parseU16 {digits : List Char} {port : UInt16}
    (hport : parseU16 digits = .ok port) (hsign : '+' ∉ digits) :
    parsePort digits = some port := by
  unfold parseU16 at hport
  split at hport
  · cases hport
  · cases hport
  · exact absurd List.mem_cons_self hsign
  · rename_i hempty _ _
    rw [parsePort, if_neg hempty, hport]
    rfl

theorem mem_of_split_port {addr host portText : List Char}
    (hsplit : Endpoint.split addr = some (host, portText)) {char : Char}
    (hchar : char ∈ portText) : char ∈ addr := by
  unfold Endpoint.split at hsplit
  split at hsplit
  · rw [(eq_of_cutFirst hsplit).1]
    simp [hchar]
  · rw [(eq_of_cutLast hsplit).1]
    simp [hchar]

theorem torProxy_of_standardForm (hip : ReadsAddresses parseIp)
    (hparse : Endpoint.parse proxy = .ok endpoint)
    (hread : parseIp endpoint.host = some ip)
    (hloopback : isLoopback ip = true) (hform : StandardForm proxy ip) :
    torProxy parseIp proxy = true := by
  obtain ⟨portText, hsplit, hport, -, hzero⟩ :=
    Endpoint.parse_eq_ok_iff.mp hparse
  obtain ⟨-, hsign, hbrackets⟩ := hform
  have hdigits : parsePort portText = some endpoint.port :=
    parsePort_of_parseU16 hport
      fun hplus => hsign (mem_of_split_port hsplit hplus)
  have hscope : '%' ∉ endpoint.host.toList := fun hhost =>
    (plainChar_address ((hip _ _ hread).2 _ hhost)).2.1 rfl
  have haddress : parseSocketAddr parseIp proxy =
      some ⟨ip, endpoint.port⟩ := by
    unfold parseSocketAddr
    split
    · rename_i rest hchars
      have hsix : isIpv4 ip = false := hbrackets.mp (by rw [hchars]; rfl)
      rw [hchars] at hsplit
      change cutFirst [']', ':'] rest = _ at hsplit
      rw [hsplit]
      simp only [Option.bind_eq_bind, Option.bind_some, parseScoped,
        cutFirst_percent hscope, String.ofList_toList, hread, hdigits, hsix,
        Bool.false_eq_true, if_false]
    · rename_i hopen
      have hhead : proxy.toList.head? ≠ some '[' := by
        intro hhead
        obtain ⟨rest, hrest⟩ := List.head?_eq_some_iff.mp hhead
        exact hopen rest hrest
      have hfour : isIpv4 ip = true := by
        rw [← Bool.not_eq_false]
        exact fun hsix => hhead (hbrackets.mpr hsix)
      rw [split_of_head hhead] at hsplit
      rw [hsplit]
      simp only [Option.bind_eq_bind, Option.bind_some, String.ofList_toList,
        hread, hdigits, hfour, if_true]
  rw [torProxy, haddress]
  simp [hloopback, hzero]

end Tor

section Agreement

variable {parseIp : String → Option IpAddr} {session : SessionConfig}
  {text value proxy : String}

/-- What the check of a configuration asks of the text behind the scheme. -/
def FitsConfig (proxy : String) : Prop :=
  proxy.utf8ByteSize ≤ maxEndpointBytes ∧ asciiUnbroken proxy = true ∧
    '@' ∉ proxy.toList ∧ '/' ∉ proxy.toList ∧
    ∃ endpoint, Endpoint.parse proxy = .ok endpoint

/-- A proxy of a connection: the text is trimmed first. -/
def FitsConnection (parseIp : String → Option IpAddr) (tor : Bool)
    (proxy : String) : Prop :=
  plainProxy (trim proxy) = true ∧
    ∃ endpoint, Endpoint.parse (trim proxy) = .ok endpoint ∧
      (tor = true → (parseIp endpoint.host).any isLoopback = true)

theorem validateEndpoint_eq_ok_iff {label : String} :
    validateEndpoint label proxy = .ok () ↔ FitsConfig proxy := by
  have hread : ∀ endpoint, parseEndpoint label proxy = .ok endpoint ↔
      Endpoint.parse proxy = .ok endpoint := by
    intro endpoint
    unfold parseEndpoint
    cases Endpoint.parse proxy with
    | ok found => simp
    | error error => simp
  rw [validateEndpoint, then_eq_ok, require_eq_ok_iff, bind_eq_ok]
  simp only [require_eq_ok_iff, hread, FitsConfig]
  generalize maxEndpointBytes = limit
  constructor
  · rintro ⟨hfits, endpoint, hparse, -⟩
    simp only [not_or, Nat.not_lt, Bool.not_eq_false] at hfits
    exact ⟨hfits.1, hfits.2.1, hfits.2.2.1, hfits.2.2.2, endpoint, hparse⟩
  · rintro ⟨hsize, hascii, hat, hslash, endpoint, hparse⟩
    refine ⟨?_, endpoint, hparse, ?_⟩
    · simp only [not_or, Nat.not_lt, Bool.not_eq_false]
      exact ⟨hsize, hascii, hat, hslash⟩
    · obtain ⟨-, -, -, hblank, -⟩ := Endpoint.parse_eq_ok_iff.mp hparse
      rw [not_or, Nat.not_lt]
      refine ⟨?_, Nat.le_trans (utf8ByteSize_host hparse) hsize⟩
      intro hempty
      rw [hempty] at hblank
      cases hblank

theorem validateUnderlay_eq_ok_iff :
    validateUnderlay parseIp text = .ok () ↔
      trim text = "direct" ∨ ∃ proxy, proxyText (trim text) = some proxy ∧
        FitsConfig proxy ∧ ((stripFront "tor://" (trim text)).isSome = true →
          torProxy parseIp proxy = true) := by
  rw [validateUnderlay]
  split_ifs with hdirect
  · simp [hdirect]
  · rw [bind_eq_ok, or_iff_right hdirect]
    simp only [valueOr_eq_ok_iff, then_eq_ok, validateEndpoint_eq_ok_iff,
      require_eq_ok_iff, not_and, Bool.not_eq_false]

/-- The rest of a session has no say in its underlay. -/
theorem validateSession_underlay_iff
    (hrest : validateSession parseIp { session with underlay := none } =
      .ok ()) :
    validateSession parseIp { session with underlay := some text } = .ok () ↔
      validateUnderlay parseIp text = .ok () := by
  simp only [validateSession, then_eq_ok] at hrest ⊢
  obtain ⟨hshroud, hrole, hpeer, hsnap, htimeout, -, hcert, hkey, hprofile,
    hreconnect, hpayload⟩ := hrest
  exact ⟨fun ⟨_, _, _, _, _, hunderlay, _⟩ => hunderlay,
    fun hunderlay => ⟨hshroud, hrole, hpeer, hsnap, htimeout, hunderlay,
      hcert, hkey, hprofile, hreconnect, hpayload⟩⟩

theorem parse_eq_ok_iff :
    (∃ underlay, TcpUnderlay.parse parseIp (some text) = .ok underlay) ↔
      trim text = "" ∨ eqIgnoreAsciiCase (trim text) "direct" = true ∨
        ∃ proxy, proxyText (trim text) = some proxy ∧
          FitsConnection parseIp (stripFront "tor://" (trim text)).isSome
            proxy := by
  have hcut : TcpUnderlay.proxyText (trim text) =
      (proxyText (trim text)).map trim := rfl
  rw [TcpUnderlay.parse, Option.map_some, Option.filter_some]
  by_cases hempty : trim text = ""
  · simp [hempty]
  · rw [if_pos (by simpa using hempty), or_iff_right hempty]
    dsimp only
    split_ifs with hdirect
    · simp [hdirect]
    · rw [or_iff_right hdirect]
      simp only [TcpUnderlay.parseProxy_eq_ok_iff, hcut,
        Option.map_eq_some_iff]
      constructor
      · rintro ⟨_, _, ⟨proxy, hproxy, rfl⟩, hplain, endpoint, hparse, -, hend⟩
        refine ⟨proxy, hproxy, hplain, endpoint, hparse, fun htor => ?_⟩
        rw [if_pos htor] at hend
        exact hend.1
      · rintro ⟨proxy, hproxy, hplain, endpoint, hparse, htor⟩
        obtain ⟨-, -, -, -, hzero⟩ := Endpoint.parse_eq_ok_iff.mp hparse
        cases hscheme : (stripFront "tor://" (trim text)).isSome with
        | true =>
            exact ⟨_, _, ⟨proxy, hproxy, rfl⟩, hplain, endpoint, hparse,
              hzero, by rw [if_pos rfl]; exact ⟨htor hscheme, rfl⟩⟩
        | false =>
            exact ⟨_, _, ⟨proxy, hproxy, rfl⟩, hplain, endpoint, hparse,
              hzero, by rw [if_neg Bool.false_ne_true]⟩

/-- A text for no underlay that only a connection knows. -/
def OtherDirect (value : String) : Prop :=
  value = "" ∨
    value ≠ "direct" ∧ eqIgnoreAsciiCase value "direct" = true

/-- The proxies that are loaded and cannot be used. -/
def LoadsOnly (parseIp : String → Option IpAddr) (tor : Bool)
    (proxy : String) : Prop :=
  FitsConfig proxy ∧
    ((tor = true ∧ torProxy parseIp proxy = true ∧ '%' ∈ proxy.toList) ∨
      (tor = false ∧ ((∃ char ∈ (trim proxy).toList,
          isControl char = true ∨ isWhitespace char = true) ∨
        ∀ endpoint, Endpoint.parse (trim proxy) ≠ .ok endpoint)))

/-- The proxies that could be used and are not loaded. -/
def ConnectsOnly (parseIp : String → Option IpAddr) (tor : Bool)
    (proxy : String) : Prop :=
  FitsConnection parseIp tor proxy ∧
    (maxEndpointBytes < proxy.utf8ByteSize ∨ asciiUnbroken proxy = false ∨
      (tor = true ∧ ∀ endpoint ip, Endpoint.parse (trim proxy) = .ok endpoint →
        parseIp endpoint.host = some ip → ¬ StandardForm proxy ip))

def Disputed (parseIp : String → Option IpAddr) (value : String) : Prop :=
  OtherDirect value ∨ ∃ proxy, proxyText value = some proxy ∧
    (LoadsOnly parseIp (stripFront "tor://" value).isSome proxy ∨
      ConnectsOnly parseIp (stripFront "tor://" value).isSome proxy)

section Cases

variable {tor : Bool} {blanks : List Char}

theorem loadsOnly_iff (hip : ReadsAddresses parseIp)
    (hblanks : ∀ char ∈ blanks, isWhitespace char = true)
    (hproxy : proxy.toList = blanks ++ (trim proxy).toList) :
    LoadsOnly parseIp tor proxy ↔
      (FitsConfig proxy ∧ (tor = true → torProxy parseIp proxy = true)) ∧
        ¬ FitsConnection parseIp tor proxy := by
  cases tor with
  | true =>
      simp only [LoadsOnly, true_and, Bool.true_eq_false, false_and, or_false,
        forall_const, and_assoc]
      refine and_congr_right fun _ => and_congr_right fun htor => ?_
      constructor
      · rintro hscope ⟨-, endpoint, hparse, hloopback⟩
        exact no_scope_of_parse hip hblanks hproxy hparse (hloopback rfl)
          hscope
      · intro hrefused
        by_contra hscope
        obtain ⟨htrim, hplain, -, endpoint, ip, hparse, hread, hloopback, -⟩ :=
          parse_of_torProxy hip htor hscope
        refine hrefused ⟨by rw [htrim]; exact hplain, endpoint,
          by rw [htrim]; exact hparse, fun _ => ?_⟩
        rw [hread]
        exact hloopback
  | false =>
      simp only [LoadsOnly, Bool.false_eq_true, false_and, true_and, false_or,
        false_imp_iff, and_true]
      refine and_congr_right fun hfits => ?_
      obtain ⟨-, -, hat, hslash, -⟩ := hfits
      have hinside : ∀ char ∈ (trim proxy).toList, char ∈ proxy.toList := by
        intro char hchar
        rw [hproxy]
        exact List.mem_append_right _ hchar
      constructor
      · rintro (⟨char, hchar, hbroken⟩ | hnone) ⟨hplain, endpoint, hparse, -⟩
        · obtain ⟨-, -, hcontrol, hwhite⟩ :=
            (plainProxy_iff.mp hplain).2 char hchar
          rw [hcontrol, hwhite] at hbroken
          simp at hbroken
        · exact hnone endpoint hparse
      · intro hrefused
        by_contra hboth
        simp only [not_or, not_exists, not_and, not_forall, not_not,
          Bool.not_eq_true] at hboth
        obtain ⟨hclean, endpoint, hparse⟩ := hboth
        refine hrefused ⟨plainProxy_iff.mpr ⟨?_, ?_⟩, endpoint, hparse,
          fun htor => absurd htor Bool.false_ne_true⟩
        · intro hempty
          rw [hempty] at hparse
          cases hparse
        · intro char hchar
          refine ⟨?_, ?_, hclean char hchar⟩
          · rintro rfl
            exact hat (hinside _ hchar)
          · rintro rfl
            exact hslash (hinside _ hchar)

theorem connectsOnly_iff (hip : ReadsAddresses parseIp)
    (hblanks : ∀ char ∈ blanks, isWhitespace char = true)
    (hproxy : proxy.toList = blanks ++ (trim proxy).toList) :
    ConnectsOnly parseIp tor proxy ↔
      FitsConnection parseIp tor proxy ∧ ¬ (FitsConfig proxy ∧
        (tor = true → torProxy parseIp proxy = true)) := by
  refine and_congr_right fun hfits => ?_
  obtain ⟨hplain, endpoint, hparse, hloopback⟩ := hfits
  have hfree : ∀ char, isWhitespace char = false → ¬ PlainChar char →
      char ∉ proxy.toList := by
    intro char hwhite hmarked hchar
    rw [hproxy, List.mem_append] at hchar
    rcases hchar with hblank | hinside
    · rw [hblanks char hblank] at hwhite
      cases hwhite
    · exact hmarked ((plainProxy_iff.mp hplain).2 char hinside)
  have hat : '@' ∉ proxy.toList :=
    hfree '@' (by decide) fun hmarked => hmarked.1 rfl
  have hslash : '/' ∉ proxy.toList :=
    hfree '/' (by decide) fun hmarked => hmarked.2.1 rfl
  have hread := parse_of_trimmed hblanks hproxy hparse
  have hform : tor = true → (torProxy parseIp proxy = true ↔
      ¬ ∀ endpoint ip, Endpoint.parse (trim proxy) = .ok endpoint →
        parseIp endpoint.host = some ip → ¬ StandardForm proxy ip) := by
    intro htor
    have hhost := hloopback htor
    rw [Option.any_eq_true] at hhost
    obtain ⟨ip, hip', hloop⟩ := hhost
    constructor
    · intro haddress hnone
      obtain ⟨htrim, -, hsign, found, address, hfound, hreads, -, hbrackets⟩ :=
        parse_of_torProxy hip haddress
          (no_scope_of_parse hip hblanks hproxy hparse (hloopback htor))
      exact hnone found address (by rw [htrim]; exact hfound) hreads
        ⟨htrim, hsign, hbrackets⟩
    · intro hsome
      simp only [not_forall, not_not] at hsome
      obtain ⟨found, address, hfound, hreads, hstandard⟩ := hsome
      rw [hparse] at hfound
      cases hfound
      rw [hip'] at hreads
      cases hreads
      rw [hstandard.1] at hparse
      exact torProxy_of_standardForm hip hparse hip' hloop hstandard
  cases htor : tor with
  | true =>
      rw [FitsConfig, hform htor]
      simp only [hat, hslash, hread, not_false_eq_true, true_and, and_true,
        forall_const, not_and_or, not_le, Bool.not_eq_true, not_not, or_assoc]
  | false =>
      simp only [FitsConfig, hat, hslash, hread, not_false_eq_true, and_true,
        Bool.false_eq_true, false_and, or_false, false_imp_iff, not_and_or,
        not_le, Bool.not_eq_true]

end Cases

/-- The two readers agree on a text unless it is disputed. -/
theorem underlay_validators_agree_iff (hip : ReadsAddresses parseIp)
    (hrest : validateSession parseIp { session with underlay := none } =
      .ok ()) :
    (validateSession parseIp { session with underlay := some text } = .ok () ↔
        ∃ underlay, TcpUnderlay.parse parseIp (some text) = .ok underlay) ↔
      ¬ Disputed parseIp (trim text) := by
  rw [validateSession_underlay_iff hrest, validateUnderlay_eq_ok_iff,
    parse_eq_ok_iff]
  have htrimmed := trimmed_trim text
  generalize trim text = value at htrimmed ⊢
  cases hproxy : proxyText value with
  | none =>
      have hcase : eqIgnoreAsciiCase "direct" "direct" = true := by decide
      simp only [Disputed, OtherDirect, hproxy, reduceCtorEq, false_and,
        exists_false, or_false]
      by_cases hdirect : value = "direct"
      · simp [hdirect, hcase]
      · simp [hdirect]
  | some proxy =>
      obtain ⟨hempty, hcase⟩ := not_direct_of_proxy hproxy
      have hdirect : value ≠ "direct" := by
        rintro rfl
        exact absurd hcase (by decide)
      obtain ⟨blanks, hblanks, happend⟩ := proxy_eq_append htrimmed hproxy
      simp only [Disputed, OtherDirect, hproxy, hempty, hcase, hdirect,
        Bool.false_eq_true, false_or, and_false, Option.some.injEq,
        exists_eq_left', loadsOnly_iff hip hblanks happend,
        connectsOnly_iff hip hblanks happend]
      tauto

end Agreement

namespace UnderlayWitness

/-- The loopback address is the only one that is read here. -/
def parseIp (text : String) : Option IpAddr :=
  if text = "127.0.0.1" then some (.ofOctets 127 0 0 1) else none

def listener (underlay : Option String) : SessionConfig where
  role := .listen
  bind := some "127.0.0.1:7000"
  peer := none
  transportPeer := none
  snapProfile := none
  timeoutSecs := some 30
  handshakeProfile := none
  underlay := underlay
  quicCert := none
  quicKey := none
  phantomOne := false
  shroud3Adaptive := false
  negotiateEnvelopePolicy := false
  phantomOneProfile := "balanced"
  reconnect := none
  startupPayload := none

theorem parseIp_reads : ReadsAddresses parseIp := by
  intro text ip hread
  unfold parseIp at hread
  split_ifs at hread with htext
  rw [htext]
  have hchars : "127.0.0.1".toList =
      ['1', '2', '7', '.', '0', '.', '0', '.', '1'] := rfl
  refine ⟨by decide, ?_⟩
  rw [hchars]
  simp only [List.forall_mem_cons, List.not_mem_nil, false_imp_iff,
    forall_const, and_true]
  decide

theorem tor_underlay_is_undisputed :
    validateSession parseIp (listener none) = .ok () ∧
      ¬ Disputed parseIp (trim " tor://127.0.0.1:9050 ") := by
  have hrest : validateSession parseIp (listener none) = .ok () := by decide
  have hloads : validateSession parseIp
      (listener (some " tor://127.0.0.1:9050 ")) = .ok () := by decide
  have hconnects : TcpUnderlay.parse parseIp (some " tor://127.0.0.1:9050 ") =
      .ok (.tor "127.0.0.1:9050") := by decide
  exact ⟨hrest, (@underlay_validators_agree_iff _ (listener none) _
    parseIp_reads hrest).mp ⟨fun _ => ⟨_, hconnects⟩, fun _ => hloads⟩⟩

/-- A proxy with a wide space is loaded and then refused, and a text for the
direct underlay in capital letters is not loaded. -/
theorem underlay_readers_differ :
    (validateSession parseIp
        (listener (some "socks5://proxy\u2003host:1080")) = .ok () ∧
      TcpUnderlay.parse parseIp (some "socks5://proxy\u2003host:1080") =
        .error (.invalidArgument
          "SOCKS5 underlay must be a host:port without credentials or path")) ∧
      validateSession parseIp (listener (some "DIRECT")) =
        .error (.invalid ("session.underlay must be direct, " ++
          "socks5://host:port, or tor://loopback:port")) ∧
      TcpUnderlay.parse parseIp (some "DIRECT") = .ok .direct := by
  refine ⟨⟨?_, ?_⟩, ?_, ?_⟩
  · decide
  · decide
  · decide
  · decide

end UnderlayWitness

end Shph.Configuration
