/-
How the underlay of a session is written.  The text is parsed to an underlay,
whose endpoint is written again in one form, and the text that is stored in the
configuration is parsed when the configuration is loaded.
-/
import Shph.ControlPlanePlan
import Shph.Identity
import Shph.Library.Decimal
import Shph.Library.Delimited

namespace Shph.ControlPlane

open Delimited
open Identity (isControl)

/-- The digits of a `u16`, one after the other. -/
def readU16 : Nat → List Char → Except String UInt16
  | value, [] => .ok (UInt16.ofNat value)
  | value, char :: rest =>
      if char.isDigit then
        let next := 10 * value + (char.toNat - '0'.toNat)
        if next ≤ 65535 then readU16 next rest
        else .error "number too large to fit in target type"
      else .error "invalid digit found in string"

/-- `parse::<u16>`. -/
def parseU16 : List Char → Except String UInt16
  | [] => .error "cannot parse integer from empty string"
  | ['+'] => .error "invalid digit found in string"
  | '+' :: digits => readU16 0 digits
  | digits => readU16 0 digits

structure Endpoint where
  host : String
  port : UInt16
deriving Repr, DecidableEq

namespace Endpoint

/-- The host and the text of the port. -/
def split : List Char → Option (List Char × List Char)
  | '[' :: stripped => cutFirst [']', ':'] stripped
  | addr => cutLast ':' addr

def parse (addr : String) : Except String Endpoint :=
  match split addr.toList with
  | none => .error ("invalid endpoint: " ++ addr)
  | some (host, portText) => do
      let port ← parseU16 portText
      if isBlank (String.ofList host) ∨ port = 0 then
        .error ("invalid endpoint: " ++ addr)
      else .ok { host := String.ofList host, port }

end Endpoint

def formatSocketEndpoint (host : String) (port : UInt16) : String :=
  if ':' ∈ host.toList then "[" ++ host ++ "]:" ++ toString port.toNat
  else host ++ ":" ++ toString port.toNat

/-- `str::strip_prefix`. -/
def stripFront (front text : String) : Option String :=
  (front.toList.isPrefixOf? text.toList).map String.ofList

/-- `str::eq_ignore_ascii_case`. -/
def eqIgnoreAsciiCase (left right : String) : Bool :=
  left.toList.map Char.toLower = right.toList.map Char.toLower

namespace TcpUnderlay

/-- The text behind the scheme. -/
def proxyText (value : String) : Option String :=
  (((stripFront "socks5://" value).or (stripFront "socks5h://" value)).or
    (stripFront "tor://" value)).map trim

/-- Without credentials, a path, control characters or whitespace. -/
def plainProxy (proxy : String) : Bool :=
  proxy ≠ "" && !proxy.toList.contains '@' && !proxy.toList.contains '/' &&
    !proxy.toList.any fun char => isControl char || isWhitespace char

def parseEndpoint (proxy : String) : Except ShphError Endpoint :=
  match Endpoint.parse proxy with
  | .ok endpoint => .ok endpoint
  | .error error => .error (.invalidArgument ("invalid SOCKS5 proxy: " ++ error))

def parseProxy (parseIp : String → Option IpAddr) (value : String) :
    Except ShphError TcpUnderlay := do
  let proxy ← okOr (proxyText value) (.invalidArgument
    ("underlay must be direct, socks5://host:port, socks5h://host:port, " ++
      "or tor://loopback:port"))
  ensure (plainProxy proxy) (.invalidArgument
    "SOCKS5 underlay must be a host:port without credentials or path")
  let endpoint ← parseEndpoint proxy
  ensure (endpoint.port ≠ 0)
    (.invalidArgument "SOCKS5 proxy port must be non-zero")
  if (stripFront "tor://" value).isSome then
    ensure ((parseIp endpoint.host).any isLoopback)
      (.invalidArgument "Tor proxy must be a literal loopback address")
    return .tor (formatSocketEndpoint endpoint.host endpoint.port)
  else
    return .socks5 (formatSocketEndpoint endpoint.host endpoint.port)

def parse (parseIp : String → Option IpAddr) (value : Option String) :
    Except ShphError TcpUnderlay :=
  match (value.map trim).filter fun value => value ≠ "" with
  | none => .ok .direct
  | some value =>
      if eqIgnoreAsciiCase value "direct" then .ok .direct
      else parseProxy parseIp value

def configValue : TcpUnderlay → Option String
  | .direct => none
  | .socks5 proxy => some ("socks5://" ++ proxy)
  | .tor proxy => some ("tor://" ++ proxy)

end TcpUnderlay

section Port

theorem le_ofDigitChars (chars : List Char) (value : Nat) :
    value ≤ Nat.ofDigitChars 10 chars value := by
  induction chars generalizing value with
  | nil => simp
  | cons char chars ih =>
      rw [Nat.ofDigitChars_cons]
      exact Nat.le_trans (by omega) (ih _)

theorem readU16_digits {chars : List Char} {value : Nat}
    (hdigits : ∀ char ∈ chars, char.isDigit = true)
    (hsmall : Nat.ofDigitChars 10 chars value ≤ 65535) :
    readU16 value chars =
      .ok (UInt16.ofNat (Nat.ofDigitChars 10 chars value)) := by
  induction chars generalizing value with
  | nil => rw [readU16, Nat.ofDigitChars_nil]
  | cons char chars ih =>
      rw [Nat.ofDigitChars_cons] at hsmall ⊢
      have hnext := le_ofDigitChars chars (10 * value +
        (char.toNat - '0'.toNat))
      rw [readU16, if_pos (hdigits char List.mem_cons_self)]
      dsimp only
      rw [if_pos (Nat.le_trans hnext hsmall)]
      exact ih (fun other hother =>
        hdigits other (List.mem_cons_of_mem _ hother)) hsmall

/-- Only digits are read. -/
theorem isDigit_of_readU16 {chars : List Char} {value : Nat} {port : UInt16}
    (hread : readU16 value chars = .ok port) :
    ∀ char ∈ chars, char.isDigit = true := by
  induction chars generalizing value with
  | nil => exact fun _ hchar => absurd hchar List.not_mem_nil
  | cons first chars ih =>
      rw [readU16] at hread
      dsimp only at hread
      split_ifs at hread with hdigit hsmall
      intro char hchar
      obtain rfl | hrest := List.mem_cons.mp hchar
      · exact hdigit
      · exact ih hread char hrest

theorem notMem_of_parseU16 {chars : List Char} {port : UInt16} {char : Char}
    (hparse : parseU16 chars = .ok port) (hplus : char ≠ '+')
    (hdigit : char.isDigit = false) : char ∉ chars := by
  intro hchar
  have hread : ∀ digits, readU16 0 digits = .ok port → char ∉ digits := by
    intro digits hdigits hmember
    rw [isDigit_of_readU16 hdigits char hmember] at hdigit
    cases hdigit
  unfold parseU16 at hparse
  split at hparse
  · cases hparse
  · cases hparse
  · obtain heq | hrest := List.mem_cons.mp hchar
    · exact hplus heq
    · exact hread _ hparse hrest
  · exact hread _ hparse hchar

theorem toDigits_port (port : UInt16) :
    parseU16 (Nat.toDigits 10 port.toNat) = .ok port := by
  have hdigits : ∀ char ∈ Nat.toDigits 10 port.toNat, char.isDigit = true :=
    fun char hchar => Nat.isDigit_of_mem_toDigits (by decide) (by decide) hchar
  have hread : readU16 0 (Nat.toDigits 10 port.toNat) = .ok port := by
    rw [readU16_digits hdigits]
    · rw [Nat.ofDigitChars_ten_toDigits, UInt16.ofNat_toNat]
    · rw [Nat.ofDigitChars_ten_toDigits]
      have hport := port.toNat_lt
      omega
  unfold parseU16
  split
  · rename_i hempty
    exact absurd hempty Nat.toDigits_ne_nil
  · rename_i hplus
    exact absurd (hdigits '+' (by rw [hplus]; simp)) (by decide)
  · rename_i rest _ hplus
    exact absurd (hdigits '+' (by rw [hplus]; simp)) (by decide)
  · exact hread

end Port

section Endpoint

variable {endpoint other : Endpoint} {addr : String}

theorem Endpoint.parse_eq_ok_iff :
    Endpoint.parse addr = .ok endpoint ↔
      ∃ portText, Endpoint.split addr.toList =
          some (endpoint.host.toList, portText) ∧
        parseU16 portText = .ok endpoint.port ∧
        isBlank endpoint.host = false ∧ endpoint.port ≠ 0 := by
  unfold Endpoint.parse
  constructor
  · intro hparse
    split at hparse
    · cases hparse
    · rename_i host portText hsplit
      cases hport : parseU16 portText with
      | error error =>
          rw [hport] at hparse
          cases hparse
      | ok port =>
          rw [hport] at hparse
          change (if _ then _ else _) = _ at hparse
          split_ifs at hparse with hinvalid
          rw [← Except.ok.inj hparse]
          rw [not_or, Bool.not_eq_true] at hinvalid
          exact ⟨portText, by rw [hsplit, String.toList_ofList], hport,
            hinvalid⟩
  · rintro ⟨portText, hsplit, hport, hblank, hzero⟩
    rw [hsplit]
    dsimp only
    rw [hport, String.ofList_toList]
    have hvalid : ¬ (isBlank endpoint.host = true ∨ endpoint.port = 0) := by
      rw [not_or, Bool.not_eq_true]
      exact ⟨hblank, hzero⟩
    change (if _ then _ else _) = _
    rw [if_neg hvalid]

/-- The host comes back from the text that is written for it. -/
def FitHost (host : List Char) : Prop :=
  ¬ [']', ':'] <:+: host ∧ (':' ∈ host ∨ host.head? ≠ some '[')

theorem toDigits_colon (number : Nat) : ':' ∉ Nat.toDigits 10 number := by
  intro hcolon
  have hdigit : Char.isDigit ':' = true :=
    Nat.isDigit_of_mem_toDigits (by decide) (by decide) hcolon
  exact absurd hdigit (by decide)

theorem format_of_colon {host : String} (hcolon : ':' ∈ host.toList)
    (port : UInt16) :
    (formatSocketEndpoint host port).toList =
      '[' :: (host.toList ++ ']' :: ':' :: Nat.toDigits 10 port.toNat) := by
  rw [formatSocketEndpoint, if_pos hcolon]
  simp [ToString.toString]

theorem format_of_noColon {host : String} (hcolon : ':' ∉ host.toList)
    (port : UInt16) :
    (formatSocketEndpoint host port).toList =
      host.toList ++ ':' :: Nat.toDigits 10 port.toNat := by
  rw [formatSocketEndpoint, if_neg hcolon]
  simp [ToString.toString]

theorem split_of_head {chars : List Char} (hhead : chars.head? ≠ some '[') :
    Endpoint.split chars = cutLast ':' chars := by
  unfold Endpoint.split
  split
  · exact absurd rfl hhead
  · rfl

theorem parse_format (hblank : isBlank endpoint.host = false)
    (hzero : endpoint.port ≠ 0) (hfit : FitHost endpoint.host.toList) :
    Endpoint.parse (formatSocketEndpoint endpoint.host endpoint.port) =
      .ok endpoint := by
  refine Endpoint.parse_eq_ok_iff.mpr ⟨Nat.toDigits 10 endpoint.port.toNat, ?_,
    toDigits_port _, hblank, hzero⟩
  by_cases hcolon : ':' ∈ endpoint.host.toList
  · rw [format_of_colon hcolon]
    exact cutFirst_append (by decide) hfit.1
  · have hhead := hfit.2.resolve_left hcolon
    rw [format_of_noColon hcolon]
    rw [split_of_head]
    · exact cutLast_append (toDigits_colon _)
    · cases hhost : endpoint.host.toList with
      | nil => simp
      | cons char rest =>
          rw [hhost] at hhead
          exact hhead

/-- A host that does not come back is lost, or a shorter one takes its
place. -/
theorem format_ne (hfit : ¬ FitHost endpoint.host.toList)
    (hparse : Endpoint.parse
      (formatSocketEndpoint endpoint.host endpoint.port) = .ok other) :
    formatSocketEndpoint other.host other.port ≠
      formatSocketEndpoint endpoint.host endpoint.port := by
  obtain ⟨portText, hsplit, hport, -, -⟩ := Endpoint.parse_eq_ok_iff.mp hparse
  by_cases hinside : [']', ':'] <:+: endpoint.host.toList
  · -- the port would be read from behind the first closing bracket
    have hcolon : ':' ∈ endpoint.host.toList :=
      hinside.subset (by simp)
    obtain ⟨front, back, hhost, hfree⟩ := exists_first_of_infix hinside
    rw [format_of_colon hcolon, hhost, List.append_assoc] at hsplit
    have hcut := hsplit.symm.trans (cutFirst_append (by decide) hfree)
    obtain ⟨-, hback⟩ := Prod.mk.inj (Option.some.inj hcut)
    have hbracket : ']' ∉ portText :=
      notMem_of_parseU16 hport (by decide) (by decide)
    rw [hback] at hbracket
    exact absurd (by simp) hbracket
  · -- the opening bracket is taken for one that encloses the host
    have hnoColon : ':' ∉ endpoint.host.toList :=
      fun hcolon => hfit ⟨hinside, .inl hcolon⟩
    have hhead : endpoint.host.toList.head? = some '[' := by
      by_contra hhead
      exact hfit ⟨hinside, .inr hhead⟩
    obtain ⟨rest, hhost⟩ := List.head?_eq_some_iff.mp hhead
    rw [format_of_noColon hnoColon, hhost] at hsplit
    obtain ⟨hchars, -⟩ := eq_of_cutFirst hsplit
    have hportColon : ':' ∉ portText :=
      notMem_of_parseU16 hport (by decide) (by decide)
    have hcuts : some (rest, Nat.toDigits 10 endpoint.port.toNat) =
        some (other.host.toList ++ [']'], portText) := by
      rw [← cutLast_append (toDigits_colon _), ← cutLast_append hportColon,
        List.append_assoc]
      exact congrArg (cutLast ':') hchars
    obtain ⟨hrest, hdigits⟩ := Prod.mk.inj (Option.some.inj hcuts)
    have hsame : other.port = endpoint.port := by
      rw [← hdigits, toDigits_port] at hport
      exact (Except.ok.inj hport).symm
    have hotherColon : ':' ∉ other.host.toList := by
      intro hcolon
      apply hnoColon
      rw [hhost, hrest]
      exact List.mem_cons_of_mem _ (List.mem_append_left _ hcolon)
    intro heq
    have hlength := congrArg (fun text => text.toList.length) heq
    simp only [format_of_noColon hotherColon, format_of_noColon hnoColon,
      hhost, hrest, hsame, List.length_append, List.length_cons,
      List.length_nil] at hlength
    omega

end Endpoint

namespace TcpUnderlay

/-- The endpoint is not one whose host a closing bracket and a colon cut in
two, nor one whose host begins with a bracket and has no colon. -/
def Reloads : List Char → Prop
  | '[' :: stripped => ∀ host portText,
      cutFirst [']', ':'] stripped = some (host, portText) →
        ':' ∈ host ∨ host.head? ≠ some '['
  | addr => ∀ host portText,
      cutLast ':' addr = some (host, portText) → ¬ [']', ':'] <:+: host

theorem reloads_iff {addr host portText : List Char}
    (hsplit : Endpoint.split addr = some (host, portText)) :
    Reloads addr ↔ FitHost host := by
  unfold Endpoint.split at hsplit
  unfold Reloads
  split
  · rename_i stripped
    change cutFirst [']', ':'] stripped = _ at hsplit
    obtain ⟨-, hfree⟩ := eq_of_cutFirst hsplit
    constructor
    · intro hreloads
      exact ⟨hfree, hreloads _ _ hsplit⟩
    · rintro ⟨-, hfit⟩ host' portText' hsplit'
      rw [hsplit] at hsplit'
      obtain ⟨rfl, -⟩ := Prod.mk.inj (Option.some.inj hsplit')
      exact hfit
  · rename_i hopen
    split at hsplit
    · exact absurd rfl (hopen _)
    · obtain ⟨haddr, -⟩ := eq_of_cutLast hsplit
      have hhead : host.head? ≠ some '[' := by
        intro hhead
        obtain ⟨rest, rfl⟩ := List.head?_eq_some_iff.mp hhead
        exact hopen _ haddr
      constructor
      · intro hreloads
        exact ⟨hreloads _ _ hsplit, .inr hhead⟩
      · rintro ⟨hfit, -⟩ host' portText' hsplit'
        rw [hsplit] at hsplit'
        obtain ⟨rfl, -⟩ := Prod.mk.inj (Option.some.inj hsplit')
        exact hfit

/-- A character that the text of a proxy may have. -/
def PlainChar (char : Char) : Prop :=
  char ≠ '@' ∧ char ≠ '/' ∧ isControl char = false ∧
    isWhitespace char = false

theorem plainProxy_iff {proxy : String} :
    plainProxy proxy = true ↔
      proxy ≠ "" ∧ ∀ char ∈ proxy.toList, PlainChar char := by
  simp only [plainProxy, PlainChar, Bool.and_eq_true, decide_eq_true_eq,
    Bool.not_eq_true', List.contains_eq_mem, decide_eq_false_iff_not,
    List.any_eq_false, Bool.or_eq_true, not_or, Bool.not_eq_true]
  constructor
  · rintro ⟨⟨⟨hempty, hat⟩, hslash⟩, hothers⟩
    refine ⟨hempty, fun char hchar => ⟨?_, ?_, hothers char hchar⟩⟩
    · rintro rfl
      exact hat hchar
    · rintro rfl
      exact hslash hchar
  · rintro ⟨hempty, hplain⟩
    exact ⟨⟨⟨hempty, fun hat => (hplain _ hat).1 rfl⟩,
      fun hslash => (hplain _ hslash).2.1 rfl⟩,
      fun char hchar => (hplain char hchar).2.2⟩

theorem plainChar_of_isDigit {char : Char} (hdigit : char.isDigit = true) :
    PlainChar char := by
  have hcode : 48 ≤ char.toNat ∧ char.toNat ≤ 57 := by
    simp only [Char.isDigit, Bool.and_eq_true, decide_eq_true_eq] at hdigit
    exact hdigit
  refine ⟨?_, ?_, ?_, ?_⟩
  · rintro rfl
    exact absurd hdigit (by decide)
  · rintro rfl
    exact absurd hdigit (by decide)
  · simp only [isControl, Bool.or_eq_false_iff, Bool.and_eq_false_iff,
      decide_eq_false_iff_not]
    omega
  · simp only [isWhitespace, Bool.or_eq_false_iff, Bool.and_eq_false_iff,
      decide_eq_false_iff_not, beq_eq_false_iff_ne]
    omega

theorem parseEndpoint_eq_ok_iff {proxy : String} {endpoint : Endpoint} :
    parseEndpoint proxy = .ok endpoint ↔
      Endpoint.parse proxy = .ok endpoint := by
  unfold parseEndpoint
  cases Endpoint.parse proxy with
  | ok found => simp
  | error error => simp

theorem parseProxy_eq_ok_iff {parseIp : String → Option IpAddr} {value : String}
    {underlay : TcpUnderlay} :
    parseProxy parseIp value = .ok underlay ↔
      ∃ proxy, proxyText value = some proxy ∧ plainProxy proxy = true ∧
        ∃ endpoint, Endpoint.parse proxy = .ok endpoint ∧
          endpoint.port ≠ 0 ∧
          if (stripFront "tor://" value).isSome then
            (parseIp endpoint.host).any isLoopback = true ∧
              .tor (formatSocketEndpoint endpoint.host endpoint.port) =
                underlay
          else
            .socks5 (formatSocketEndpoint endpoint.host endpoint.port) =
              underlay := by
  simp only [parseProxy, bind_eq_ok_iff, okOr_eq_ok_iff, ensure_eq_ok_iff,
    exists_const, parseEndpoint_eq_ok_iff]
  cases htor : (stripFront "tor://" value).isSome with
  | true => simp [bind_eq_ok_iff, pure, Except.pure]
  | false => simp [pure, Except.pure]

/-- The characters of a formatted endpoint are those of its host, brackets,
colons and digits. -/
theorem plainChar_format {endpoint : Endpoint}
    (hhost : ∀ char ∈ endpoint.host.toList, PlainChar char) :
    ∀ char ∈ (formatSocketEndpoint endpoint.host endpoint.port).toList,
      PlainChar char := by
  have hdigits : ∀ char ∈ Nat.toDigits 10 endpoint.port.toNat,
      PlainChar char := fun char hchar => plainChar_of_isDigit
    (Nat.isDigit_of_mem_toDigits (by decide) (by decide) hchar)
  have hopen : PlainChar '[' := by
    refine ⟨?_, ?_, ?_, ?_⟩ <;> decide
  have hclose : PlainChar ']' := by
    refine ⟨?_, ?_, ?_, ?_⟩ <;> decide
  have hcolon : PlainChar ':' := by
    refine ⟨?_, ?_, ?_, ?_⟩ <;> decide
  intro char hchar
  by_cases hinside : ':' ∈ endpoint.host.toList
  · rw [format_of_colon hinside] at hchar
    simp only [List.mem_cons, List.mem_append] at hchar
    obtain rfl | hchar | rfl | rfl | hchar := hchar
    · exact hopen
    · exact hhost char hchar
    · exact hclose
    · exact hcolon
    · exact hdigits char hchar
  · rw [format_of_noColon hinside] at hchar
    simp only [List.mem_cons, List.mem_append] at hchar
    obtain hchar | rfl | hchar := hchar
    · exact hhost char hchar
    · exact hcolon
    · exact hdigits char hchar

theorem mem_of_split {addr host portText : List Char}
    (hsplit : Endpoint.split addr = some (host, portText)) {char : Char}
    (hchar : char ∈ host) : char ∈ addr := by
  unfold Endpoint.split at hsplit
  split at hsplit
  · rw [(eq_of_cutFirst hsplit).1]
    exact List.mem_cons_of_mem _ (List.mem_append_left _ hchar)
  · rw [(eq_of_cutLast hsplit).1]
    exact List.mem_append_left _ hchar

theorem stripFront_append (front text : String) :
    stripFront front (front ++ text) = some text := by
  have hstrip : ∀ front : List Char,
      front.isPrefixOf? (front ++ text.toList) = some text.toList := by
    intro front
    induction front with
    | nil => rfl
    | cons char front ih => simp [List.isPrefixOf?, ih]
  rw [stripFront, String.toList_append, hstrip, Option.map_some,
    String.ofList_toList]

theorem stripFront_tor_socks5 (text : String) :
    stripFront "tor://" ("socks5://" ++ text) = none := by
  rw [stripFront, String.toList_append]
  rfl

theorem proxyText_tor (text : String) :
    proxyText ("tor://" ++ text) = some (trim text) := by
  have hsocks5 : stripFront "socks5://" ("tor://" ++ text) = none := by
    rw [stripFront, String.toList_append]
    rfl
  have hsocks5h : stripFront "socks5h://" ("tor://" ++ text) = none := by
    rw [stripFront, String.toList_append]
    rfl
  rw [proxyText, hsocks5, hsocks5h, stripFront_append]
  rfl

theorem proxyText_socks5 (text : String) :
    proxyText ("socks5://" ++ text) = some (trim text) := by
  rw [proxyText, stripFront_append]
  rfl

/-- A text with a scheme and without whitespace is neither blank nor
`direct`. -/
theorem parse_scheme {parseIp : String → Option IpAddr} {front text : String}
    (hfront : front = "socks5://" ∨ front = "tor://")
    (hplain : ∀ char ∈ text.toList, PlainChar char) :
    parse parseIp (some (front ++ text)) =
      parseProxy parseIp (front ++ text) := by
  have hscheme : ∀ char ∈ front.toList, isWhitespace char = false := by
    obtain rfl | rfl := hfront
    · simp [isWhitespace]
    · simp [isWhitespace]
  have htrim : trim (front ++ text) = front ++ text := by
    apply trim_eq_self
    intro char hchar
    rw [String.toList_append, List.mem_append] at hchar
    obtain hchar | hchar := hchar
    · exact hscheme char hchar
    · exact (hplain char hchar).2.2.2
  have hhead : (front ++ text).toList.head? = front.toList.head? := by
    rw [String.toList_append]
    obtain rfl | rfl := hfront
    · rfl
    · rfl
  have hne : front ++ text ≠ "" := by
    intro hempty
    rw [hempty] at hhead
    obtain rfl | rfl := hfront
    · cases hhead
    · cases hhead
  have hdirect : eqIgnoreAsciiCase (front ++ text) "direct" = false := by
    apply decide_eq_false
    intro hlower
    have hfirst := congrArg List.head? hlower
    rw [List.head?_map, hhead] at hfirst
    obtain rfl | rfl := hfront
    · exact absurd hfirst (by decide)
    · exact absurd hfirst (by decide)
  unfold parse
  rw [Option.map_some, htrim, Option.filter_some, if_pos (decide_eq_true hne)]
  dsimp only
  rw [hdirect, if_neg (by decide)]

theorem proxyText_direct {value : String}
    (hdirect : eqIgnoreAsciiCase value "direct" = true) :
    proxyText value = none := by
  have hlower : value.toList.map Char.toLower =
      ['d', 'i', 'r', 'e', 'c', 't'] := of_decide_eq_true hdirect
  have hstrip : ∀ front : String, front.toList.head? = some 's' ∨
      front.toList.head? = some 't' → stripFront front value = none := by
    intro front hfront
    obtain ⟨first, rest, hvalue, hfirst, -⟩ :=
      List.map_eq_cons_iff.mp hlower
    rw [stripFront, hvalue]
    cases hchars : front.toList with
    | nil => simp [hchars] at hfront
    | cons char others =>
        have hne : char ≠ first := by
          rintro rfl
          rw [hchars] at hfront
          obtain heq | heq := hfront
          · cases heq
            exact absurd hfirst (by decide)
          · cases heq
            exact absurd hfirst (by decide)
        simp [List.isPrefixOf?, hne]
  rw [proxyText, hstrip _ (.inl rfl), hstrip _ (.inl rfl), hstrip _ (.inr rfl)]
  rfl

/-- The stored text of an endpoint is read as the same endpoint exactly where
its host fits. -/
theorem exists_parse_format_iff {endpoint : Endpoint}
    (accepted : Endpoint → Prop) (hblank : isBlank endpoint.host = false)
    (hzero : endpoint.port ≠ 0) (haccepted : accepted endpoint) :
    (∃ other, Endpoint.parse
        (formatSocketEndpoint endpoint.host endpoint.port) = .ok other ∧
      other.port ≠ 0 ∧ accepted other ∧
      formatSocketEndpoint other.host other.port =
        formatSocketEndpoint endpoint.host endpoint.port) ↔
      FitHost endpoint.host.toList := by
  constructor
  · rintro ⟨other, hparse, -, -, hsame⟩
    by_contra hfit
    exact format_ne hfit hparse hsame
  · intro hfit
    exact ⟨endpoint, parse_format hblank hzero hfit, hzero, haccepted, rfl⟩

section Stored

variable {parseIp : String → Option IpAddr} {endpoint : Endpoint}

theorem trim_format (hhost : ∀ char ∈ endpoint.host.toList, PlainChar char) :
    trim (formatSocketEndpoint endpoint.host endpoint.port) =
      formatSocketEndpoint endpoint.host endpoint.port :=
  trim_eq_self fun char hchar => (plainChar_format hhost char hchar).2.2.2

theorem plainProxy_format
    (hhost : ∀ char ∈ endpoint.host.toList, PlainChar char) :
    plainProxy (formatSocketEndpoint endpoint.host endpoint.port) = true := by
  refine plainProxy_iff.mpr ⟨?_, plainChar_format hhost⟩
  intro hempty
  have hchars := congrArg String.toList hempty
  by_cases hcolon : ':' ∈ endpoint.host.toList
  · rw [format_of_colon hcolon] at hchars
    cases hchars
  · rw [format_of_noColon hcolon] at hchars
    simp at hchars

theorem parse_stored_socks5
    (hhost : ∀ char ∈ endpoint.host.toList, PlainChar char)
    (hblank : isBlank endpoint.host = false) (hzero : endpoint.port ≠ 0) :
    parse parseIp (some ("socks5://" ++
        formatSocketEndpoint endpoint.host endpoint.port)) =
      .ok (.socks5 (formatSocketEndpoint endpoint.host endpoint.port)) ↔
      FitHost endpoint.host.toList := by
  rw [parse_scheme (.inl rfl) (plainChar_format hhost), parseProxy_eq_ok_iff,
    proxyText_socks5, trim_format hhost, stripFront_tor_socks5,
    ← exists_parse_format_iff (fun _ => True) hblank hzero trivial]
  simp [plainProxy_format hhost]

theorem parse_stored_tor
    (hhost : ∀ char ∈ endpoint.host.toList, PlainChar char)
    (hblank : isBlank endpoint.host = false) (hzero : endpoint.port ≠ 0)
    (hloopback : (parseIp endpoint.host).any isLoopback = true) :
    parse parseIp (some ("tor://" ++
        formatSocketEndpoint endpoint.host endpoint.port)) =
      .ok (.tor (formatSocketEndpoint endpoint.host endpoint.port)) ↔
      FitHost endpoint.host.toList := by
  rw [parse_scheme (.inr rfl) (plainChar_format hhost), parseProxy_eq_ok_iff,
    proxyText_tor, trim_format hhost, stripFront_append,
    ← exists_parse_format_iff (fun other =>
      (parseIp other.host).any isLoopback = true) hblank hzero hloopback]
  simp [plainProxy_format hhost]

end Stored

/-- A stored underlay is loaded as itself exactly where the text it was parsed
from has an endpoint that reloads. -/
theorem underlay_reloads_iff (parseIp : String → Option IpAddr)
    (value : String) (underlay : TcpUnderlay)
    (hparse : parse parseIp (some value) = .ok underlay) :
    parse parseIp underlay.configValue = .ok underlay ↔
      ∀ proxy, proxyText (trim value) = some proxy →
        Reloads proxy.toList := by
  unfold parse at hparse
  rw [Option.map_some, Option.filter_some] at hparse
  by_cases hempty : trim value = ""
  · rw [if_neg (by simp [hempty])] at hparse
    have hnone : proxyText "" = none := by decide
    rw [← Except.ok.inj hparse, hempty, hnone]
    exact iff_of_true rfl fun _ hproxy => absurd hproxy (by simp)
  rw [if_pos (decide_eq_true hempty)] at hparse
  dsimp only at hparse
  split_ifs at hparse with hdirect
  · rw [← Except.ok.inj hparse, proxyText_direct hdirect]
    exact iff_of_true rfl fun _ hproxy => absurd hproxy (by simp)
  · obtain ⟨proxy, hproxy, hplain, endpoint, hendpoint, -, hunderlay⟩ :=
      parseProxy_eq_ok_iff.mp hparse
    obtain ⟨portText, hsplit, -, hblank, hzero⟩ :=
      Endpoint.parse_eq_ok_iff.mp hendpoint
    have hhost : ∀ char ∈ endpoint.host.toList, PlainChar char :=
      fun char hchar =>
        (plainProxy_iff.mp hplain).2 char (mem_of_split hsplit hchar)
    have hreloads : (∀ text, proxyText (trim value) = some text →
        Reloads text.toList) ↔ FitHost endpoint.host.toList := by
      rw [hproxy, ← reloads_iff hsplit]
      simp
    rw [hreloads]
    split_ifs at hunderlay with htor
    · obtain ⟨hloopback, rfl⟩ := hunderlay
      exact parse_stored_tor hhost hblank hzero hloopback
    · rw [← hunderlay]
      exact parse_stored_socks5 hhost hblank hzero

end TcpUnderlay

namespace UnderlayTextWitness

open TcpUnderlay

/-- The loopback address is the only one that is read here. -/
def parseIp (text : String) : Option IpAddr :=
  if text = "127.0.0.1" then some (.ofOctets 127 0 0 1) else none

theorem underlay_reloads_tor :
    parse parseIp (some " tor://[127.0.0.1]:+9050 ") =
        .ok (.tor "127.0.0.1:9050") ∧
      parse parseIp (configValue (.tor "127.0.0.1:9050")) =
        .ok (.tor "127.0.0.1:9050") := by
  have hparse : parse parseIp (some " tor://[127.0.0.1]:+9050 ") =
      .ok (.tor "127.0.0.1:9050") := by decide
  refine ⟨hparse, (underlay_reloads_iff parseIp _ _ hparse).mpr ?_⟩
  intro proxy hproxy
  have hcut : proxyText (trim " tor://[127.0.0.1]:+9050 ") =
      some "[127.0.0.1]:+9050" := by decide
  rw [hcut] at hproxy
  rw [← Option.some.inj hproxy]
  intro host portText hsplit
  have hhost : cutFirst [']', ':'] "127.0.0.1]:+9050".toList =
      some ("127.0.0.1".toList, "+9050".toList) := by decide
  obtain ⟨rfl, -⟩ := Prod.mk.inj (Option.some.inj (hhost.symm.trans hsplit))
  exact .inr (by decide)

/-- A host in two pairs of brackets is loaded without them. -/
theorem brackets_are_lost :
    parse parseIp (some "socks5://[[proxy]]:1080") =
        .ok (.socks5 "[proxy]:1080") ∧
      parse parseIp (configValue (.socks5 "[proxy]:1080")) =
        .ok (.socks5 "proxy:1080") ∧
      parse parseIp (configValue (.socks5 "[proxy]:1080")) ≠
        .ok (.socks5 "[proxy]:1080") := by
  decide

end UnderlayTextWitness

end Shph.ControlPlane
