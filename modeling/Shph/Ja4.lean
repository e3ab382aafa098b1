/-
JA4 fingerprints of a ClientHello, as the observer of the standard transport
computes them.
-/
import Shph.Handshake

namespace Shph.Ja4

open ByteCodec

def greaseMask : UInt16 := 0x0f0f

def greaseValue : UInt16 := 0x0a0a

def tlsExtServerName : UInt16 := 0x0000

def tlsExtAlpn : UInt16 := 0x0010

inductive Ja4Transport where
  | tcp
  | quic
  | dtls
deriving Repr, DecidableEq

def Ja4Transport.marker : Ja4Transport → Char
  | .tcp => 't'
  | .quic => 'q'
  | .dtls => 'd'

inductive Ja4TlsVersion where
  | ssl2
  | ssl3
  | tls10
  | tls11
  | tls12
  | tls13
  | unknown
deriving Repr, DecidableEq

def Ja4TlsVersion.marker : Ja4TlsVersion → String
  | .ssl2 => "s2"
  | .ssl3 => "s3"
  | .tls10 => "10"
  | .tls11 => "11"
  | .tls12 => "12"
  | .tls13 => "13"
  | .unknown => "00"

structure Ja4ClientHello where
  transport : Ja4Transport
  tlsVersion : Ja4TlsVersion
  serverNamePresent : Bool
  cipherSuites : List UInt16
  extensionTypes : List UInt16
  firstAlpn : Option Bytes
  signatureSchemes : List UInt16
deriving Repr, DecidableEq

def isGrease (value : UInt16) : Bool := value &&& greaseMask == greaseValue

def filteredValues (values : List UInt16) : List UInt16 :=
  values.filter fun value => !isGrease value

/-- `{value:04x}`. -/
def hexValue (value : UInt16) : String :=
  hexEncode (bigEndian 2 value.toNat)

def sorted (values : List UInt16) : List UInt16 :=
  values.mergeSort fun left right => decide (left.toNat ≤ right.toNat)

def joined (values : List UInt16) : String :=
  ",".intercalate (values.map hexValue)

def listText (values : List UInt16) (originalOrder : Bool) : String :=
  joined (if originalOrder then values else sorted values)

def isAsciiAlphanumeric (byte : UInt8) : Bool :=
  (Char.ofNat byte.toNat).isAlphanum

def alpnMarker : Option Bytes → Char × Char
  | some (first :: rest) =>
      let last := (first :: rest).getLast (List.cons_ne_nil first rest)
      if isAsciiAlphanumeric first && isAsciiAlphanumeric last then
        (Char.ofNat first.toNat, Char.ofNat last.toNat)
      else (hexDigit (first.toNat / 16), hexDigit (last.toNat % 16))
  | _ => ('0', '0')

/-- `{:02}` of a number below a hundred. -/
def twoDigits (number : Nat) : String :=
  String.ofList [Nat.digitChar (number / 10), Nat.digitChar (number % 10)]

def zeroHash : String := "000000000000"

/-- The first six bytes of the hash, in hexadecimal. -/
def hash12 (sha256 : Bytes → FixedBytes 32) (value : String) : String :=
  hexEncode ((sha256 (textBytes value)).val.take 6)

namespace Ja4ClientHello

variable (hello : Ja4ClientHello)

def firstChunk (ciphers extensions : List UInt16) : String :=
  let cipherCount := min ciphers.length 99
  let extensionCount := min extensions.length 99
  let (alpnFirst, alpnLast) := alpnMarker hello.firstAlpn
  String.ofList [hello.transport.marker] ++ hello.tlsVersion.marker ++
    (if hello.serverNamePresent then "d" else "i") ++
    twoDigits cipherCount ++ twoDigits extensionCount ++
    String.ofList [alpnFirst, alpnLast]

def signatureText : String := joined (filteredValues hello.signatureSchemes)

/-- The cipher suites that are counted and hashed. -/
def ciphers : List UInt16 := filteredValues hello.cipherSuites

/-- The extensions that are counted. -/
def extensions : List UInt16 := filteredValues hello.extensionTypes

/-- The extensions that are hashed. -/
def extensionValues : List UInt16 :=
  hello.extensions.filter fun value =>
    value != tlsExtServerName && value != tlsExtAlpn

def fingerprint (sha256 : Bytes → FixedBytes 32) : String :=
  let firstChunk := hello.firstChunk hello.ciphers hello.extensions
  let cipherText := listText hello.ciphers false
  let extensionText := listText hello.extensionValues false
  let extensionAndSignatures :=
    if extensionText = "" then ""
    else if hello.signatureText = "" then extensionText
    else extensionText ++ "_" ++ hello.signatureText
  let cipherHash :=
    if cipherText = "" then zeroHash else hash12 sha256 cipherText
  let extensionHash :=
    if extensionText = "" then zeroHash
    else hash12 sha256 extensionAndSignatures
  firstChunk ++ "_" ++ cipherHash ++ "_" ++ extensionHash

end Ja4ClientHello

section Texts

theorem hexValue_ne_empty (value : UInt16) : hexValue value ≠ "" := by
  intro hempty
  have hlength := congrArg (fun text => text.toList.length) hempty
  simp [hexValue, hexEncode, bigEndian] at hlength

theorem joined_eq_empty_iff {values : List UInt16} :
    joined values = "" ↔ values = [] := by
  cases values with
  | nil => simp [joined]
  | cons value values =>
      have hne := hexValue_ne_empty value
      simp only [reduceCtorEq, iff_false]
      intro hempty
      cases values with
      | nil =>
          rw [joined, List.map_singleton, String.intercalate_singleton] at hempty
          exact hne hempty
      | cons next values =>
          rw [joined, List.map_cons, List.map_cons,
            String.intercalate_cons_cons, String.append_eq_empty_iff,
            String.append_eq_empty_iff] at hempty
          exact hne hempty.1.1

end Texts

end Shph.Ja4
