/-
The standard Base64 alphabet with canonical padding: groups of three bytes
become four digits, a last group of one or two bytes is padded, and decoding
refuses missing padding, misplaced padding and non-zero trailing bits.  The
URL-safe alphabet without padding comes after it.
-/
import Shph.Library.Bytes

namespace Base64

open ByteCodec

/-- The digit of a six-bit value. -/
def digit (value : Nat) : Char :=
  if value < 26 then Char.ofNat (65 + value)
  else if value < 52 then Char.ofNat (71 + value)
  else if value < 62 then Char.ofNat (value - 4)
  else if value = 62 then '+'
  else '/'

def digitValue (char : Char) : Option Nat :=
  let code := char.toNat
  if 65 ≤ code ∧ code ≤ 90 then some (code - 65)
  else if 97 ≤ code ∧ code ≤ 122 then some (code - 71)
  else if 48 ≤ code ∧ code ≤ 57 then some (code + 4)
  else if char = '+' then some 62
  else if char = '/' then some 63
  else none

def encodeDigits : Bytes → List Char
  | [] => []
  | [a] => [digit (a.toNat / 4), digit (a.toNat % 4 * 16), '=', '=']
  | [a, b] =>
      [digit (a.toNat / 4), digit (a.toNat % 4 * 16 + b.toNat / 16),
        digit (b.toNat % 16 * 4), '=']
  | a :: b :: c :: rest =>
      digit (a.toNat / 4) :: digit (a.toNat % 4 * 16 + b.toNat / 16) ::
        digit (b.toNat % 16 * 4 + c.toNat / 64) :: digit (c.toNat % 64) ::
          encodeDigits rest

/-- Decode a last group of two digits and two padding characters. -/
def decodeOne (w x : Char) : Option Bytes := do
  let w ← digitValue w
  let x ← digitValue x
  if x % 16 = 0 then return [UInt8.ofNat (w * 4 + x / 16)] else none

/-- Decode a last group of three digits and one padding character. -/
def decodeTwo (w x y : Char) : Option Bytes := do
  let w ← digitValue w
  let x ← digitValue x
  let y ← digitValue y
  if y % 4 = 0 then
    return [UInt8.ofNat (w * 4 + x / 16), UInt8.ofNat (x % 16 * 16 + y / 4)]
  else none

def decodeThree (w x y z : Char) : Option Bytes := do
  let w ← digitValue w
  let x ← digitValue x
  let y ← digitValue y
  let z ← digitValue z
  return [UInt8.ofNat (w * 4 + x / 16), UInt8.ofNat (x % 16 * 16 + y / 4),
    UInt8.ofNat (y % 4 * 64 + z)]

def decodeDigits : List Char → Option Bytes
  | [] => some []
  | w :: x :: y :: z :: rest =>
      if z = '=' ∧ rest = [] then
        if y = '=' then decodeOne w x else decodeTwo w x y
      else do
        let group ← decodeThree w x y z
        let bytes ← decodeDigits rest
        return group ++ bytes
  | _ => none

def encode (bytes : Bytes) : String := String.ofList (encodeDigits bytes)

def decode (text : String) : Option Bytes := decodeDigits text.toList

theorem digitValue_digit {value : Nat} (hvalue : value < 64) :
    digitValue (digit value) = some value := by
  have hall : ∀ value : Fin 64, digitValue (digit value) = some value.val := by
    decide
  exact hall ⟨value, hvalue⟩

theorem digit_ne_padding {value : Nat} (hvalue : value < 64) :
    digit value ≠ '=' := by
  have hall : ∀ value : Fin 64, digit value ≠ '=' := by decide
  exact hall ⟨value, hvalue⟩

theorem ofNat_eq {byte : UInt8} {number : Nat} (hnumber : number = byte.toNat) :
    UInt8.ofNat number = byte := by
  rw [hnumber, UInt8.ofNat_toNat]

theorem decodeOne_encode (a : UInt8) :
    decodeOne (digit (a.toNat / 4)) (digit (a.toNat % 4 * 16)) = some [a] := by
  have ha := a.toNat_lt
  have hfirst : a.toNat / 4 * 4 + a.toNat % 4 * 16 / 16 = a.toNat := by omega
  simp only [decodeOne, digitValue_digit (show a.toNat / 4 < 64 by omega),
    digitValue_digit (show a.toNat % 4 * 16 < 64 by omega),
    Option.bind_eq_bind, Option.bind_some, ofNat_eq hfirst]
  rw [if_pos (by omega)]
  rfl

theorem decodeTwo_encode (a b : UInt8) :
    decodeTwo (digit (a.toNat / 4))
        (digit (a.toNat % 4 * 16 + b.toNat / 16))
        (digit (b.toNat % 16 * 4)) = some [a, b] := by
  have ha := a.toNat_lt
  have hb := b.toNat_lt
  have hfirst : a.toNat / 4 * 4 + (a.toNat % 4 * 16 + b.toNat / 16) / 16 =
      a.toNat := by omega
  have hsecond : (a.toNat % 4 * 16 + b.toNat / 16) % 16 * 16 +
      b.toNat % 16 * 4 / 4 = b.toNat := by omega
  simp only [decodeTwo, digitValue_digit (show a.toNat / 4 < 64 by omega),
    digitValue_digit (show a.toNat % 4 * 16 + b.toNat / 16 < 64 by omega),
    digitValue_digit (show b.toNat % 16 * 4 < 64 by omega),
    Option.bind_eq_bind, Option.bind_some, ofNat_eq hfirst, ofNat_eq hsecond]
  rw [if_pos (by omega)]
  rfl

theorem decodeThree_encode (a b c : UInt8) :
    decodeThree (digit (a.toNat / 4))
        (digit (a.toNat % 4 * 16 + b.toNat / 16))
        (digit (b.toNat % 16 * 4 + c.toNat / 64)) (digit (c.toNat % 64)) =
      some [a, b, c] := by
  have ha := a.toNat_lt
  have hb := b.toNat_lt
  have hc := c.toNat_lt
  have hfirst : a.toNat / 4 * 4 + (a.toNat % 4 * 16 + b.toNat / 16) / 16 =
      a.toNat := by omega
  have hsecond : (a.toNat % 4 * 16 + b.toNat / 16) % 16 * 16 +
      (b.toNat % 16 * 4 + c.toNat / 64) / 4 = b.toNat := by omega
  have hthird : (b.toNat % 16 * 4 + c.toNat / 64) % 4 * 64 + c.toNat % 64 =
      c.toNat := by omega
  simp only [decodeThree, digitValue_digit (show a.toNat / 4 < 64 by omega),
    digitValue_digit (show a.toNat % 4 * 16 + b.toNat / 16 < 64 by omega),
    digitValue_digit (show b.toNat % 16 * 4 + c.toNat / 64 < 64 by omega),
    digitValue_digit (show c.toNat % 64 < 64 by omega),
    Option.bind_eq_bind, Option.bind_some, ofNat_eq hfirst, ofNat_eq hsecond,
    ofNat_eq hthird]
  rfl

theorem decodeDigits_encodeDigits (bytes : Bytes) :
    decodeDigits (encodeDigits bytes) = some bytes := by
  induction bytes using encodeDigits.induct with
  | case1 => rfl
  | case2 a => simp [encodeDigits, decodeDigits, decodeOne_encode]
  | case3 a b =>
      have hb := b.toNat_lt
      have hdigit := digit_ne_padding (show b.toNat % 16 * 4 < 64 by omega)
      simp [encodeDigits, decodeDigits, decodeTwo_encode, hdigit]
  | case4 a b c rest ih =>
      have hdigit := digit_ne_padding (show c.toNat % 64 < 64 by omega)
      simp [encodeDigits, decodeDigits, decodeThree_encode, hdigit, ih]

@[simp] theorem decode_encode (bytes : Bytes) :
    decode (encode bytes) = some bytes := by
  simp [decode, encode, decodeDigits_encodeDigits]

theorem encodeDigits_length_le (bytes : Bytes) :
    (encodeDigits bytes).length ≤ 4 * bytes.length := by
  induction bytes using encodeDigits.induct with
  | case1 => simp [encodeDigits]
  | case2 a => simp [encodeDigits]
  | case3 a b => simp [encodeDigits]
  | case4 a b c rest ih =>
      simp only [encodeDigits, List.length_cons]
      omega

theorem encode_length_le (bytes : Bytes) :
    (encode bytes).length ≤ 4 * bytes.length := by
  rw [encode, String.length_ofList]
  exact encodeDigits_length_le bytes

theorem digit_utf8Size {value : Nat} (hvalue : value < 64) :
    (digit value).utf8Size = 1 := by
  have hall : ∀ value : Fin 64, (digit value).utf8Size = 1 := by decide
  exact hall ⟨value, hvalue⟩

theorem utf8Len_encodeDigits (bytes : Bytes) :
    String.utf8Len (encodeDigits bytes) = (bytes.length + 2) / 3 * 4 := by
  induction bytes using encodeDigits.induct with
  | case1 => rfl
  | case2 a =>
      have ha := a.toNat_lt
      rw [encodeDigits]
      simp only [String.utf8Len, List.length_singleton,
        digit_utf8Size (show a.toNat / 4 < 64 by omega),
        digit_utf8Size (show a.toNat % 4 * 16 < 64 by omega)]
      decide
  | case3 a b =>
      have ha := a.toNat_lt
      have hb := b.toNat_lt
      rw [encodeDigits]
      simp only [String.utf8Len, List.length_cons, List.length_nil,
        digit_utf8Size (show a.toNat / 4 < 64 by omega),
        digit_utf8Size (show a.toNat % 4 * 16 + b.toNat / 16 < 64 by omega),
        digit_utf8Size (show b.toNat % 16 * 4 < 64 by omega)]
      decide
  | case4 a b c rest ih =>
      have ha := a.toNat_lt
      have hb := b.toNat_lt
      have hc := c.toNat_lt
      rw [encodeDigits]
      simp only [String.utf8Len, List.length_cons, ih,
        digit_utf8Size (show a.toNat / 4 < 64 by omega),
        digit_utf8Size (show a.toNat % 4 * 16 + b.toNat / 16 < 64 by omega),
        digit_utf8Size
          (show b.toNat % 16 * 4 + c.toNat / 64 < 64 by omega),
        digit_utf8Size (show c.toNat % 64 < 64 by omega)]
      omega

/-- Every digit, and the padding character, is a single byte of UTF-8. -/
theorem encode_utf8ByteSize (bytes : Bytes) :
    (encode bytes).utf8ByteSize = (bytes.length + 2) / 3 * 4 := by
  rw [encode, String.utf8ByteSize_ofList, utf8Len_encodeDigits]

/-- A text in Base64 has digits and the padding character. -/
theorem forall_mem_encodeDigits {property : Char → Prop}
    (hdigit : ∀ value < 64, property (digit value)) (hpadding : property '=')
    (bytes : Bytes) : ∀ char ∈ encodeDigits bytes, property char := by
  induction bytes using encodeDigits.induct with
  | case1 => simp [encodeDigits]
  | case2 a =>
      have ha := a.toNat_lt
      simp only [encodeDigits, List.forall_mem_cons]
      exact ⟨hdigit _ (by omega), hdigit _ (by omega), hpadding, hpadding,
        by simp⟩
  | case3 a b =>
      have ha := a.toNat_lt
      have hb := b.toNat_lt
      simp only [encodeDigits, List.forall_mem_cons]
      exact ⟨hdigit _ (by omega), hdigit _ (by omega), hdigit _ (by omega),
        hpadding, by simp⟩
  | case4 a b c rest ih =>
      have ha := a.toNat_lt
      have hb := b.toNat_lt
      have hc := c.toNat_lt
      simp only [encodeDigits, List.forall_mem_cons]
      exact ⟨hdigit _ (by omega), hdigit _ (by omega), hdigit _ (by omega),
        hdigit _ (by omega), ih⟩

/-- The two digits in which the URL-safe alphabet differs. -/
def toUrl (char : Char) : Char :=
  if char = '+' then '-' else if char = '/' then '_' else char

/-- Back to the standard alphabet; its own two special digits become the
padding character, which has no value. -/
def fromUrl (char : Char) : Char :=
  if char = '-' then '+' else if char = '_' then '/'
  else if char = '+' ∨ char = '/' then '=' else char

def urlDigit (value : Nat) : Char := toUrl (digit value)

def encodeUrlDigits : Bytes → List Char
  | [] => []
  | [a] => [urlDigit (a.toNat / 4), urlDigit (a.toNat % 4 * 16)]
  | [a, b] =>
      [urlDigit (a.toNat / 4), urlDigit (a.toNat % 4 * 16 + b.toNat / 16),
        urlDigit (b.toNat % 16 * 4)]
  | a :: b :: c :: rest =>
      urlDigit (a.toNat / 4) :: urlDigit (a.toNat % 4 * 16 + b.toNat / 16) ::
        urlDigit (b.toNat % 16 * 4 + c.toNat / 64) ::
          urlDigit (c.toNat % 64) :: encodeUrlDigits rest

def decodeUrlDigits : List Char → Option Bytes
  | [] => some []
  | [_] => none
  | [w, x] => decodeOne (fromUrl w) (fromUrl x)
  | [w, x, y] => decodeTwo (fromUrl w) (fromUrl x) (fromUrl y)
  | w :: x :: y :: z :: rest => do
      let group ← decodeThree (fromUrl w) (fromUrl x) (fromUrl y) (fromUrl z)
      let bytes ← decodeUrlDigits rest
      return group ++ bytes

theorem fromUrl_urlDigit {value : Nat} (hvalue : value < 64) :
    fromUrl (urlDigit value) = digit value := by
  have hall : ∀ value : Fin 64, fromUrl (urlDigit value) = digit value := by
    decide
  exact hall ⟨value, hvalue⟩

theorem decodeUrlDigits_encodeUrlDigits (bytes : Bytes) :
    decodeUrlDigits (encodeUrlDigits bytes) = some bytes := by
  induction bytes using encodeUrlDigits.induct with
  | case1 => rfl
  | case2 a =>
      have ha := a.toNat_lt
      rw [encodeUrlDigits, decodeUrlDigits, fromUrl_urlDigit (by omega),
        fromUrl_urlDigit (by omega), decodeOne_encode]
  | case3 a b =>
      have ha := a.toNat_lt
      have hb := b.toNat_lt
      rw [encodeUrlDigits, decodeUrlDigits, fromUrl_urlDigit (by omega),
        fromUrl_urlDigit (by omega), fromUrl_urlDigit (by omega),
        decodeTwo_encode]
  | case4 a b c rest ih =>
      have ha := a.toNat_lt
      have hb := b.toNat_lt
      have hc := c.toNat_lt
      rw [encodeUrlDigits, decodeUrlDigits, fromUrl_urlDigit (by omega),
        fromUrl_urlDigit (by omega), fromUrl_urlDigit (by omega),
        fromUrl_urlDigit (by omega), decodeThree_encode, ih]
      rfl

/-- The characters of the URL-safe alphabet that matter to a text around
them: single bytes that are not a full stop. -/
theorem urlDigit_plain {value : Nat} (hvalue : value < 64) :
    urlDigit value ≠ '.' ∧ (urlDigit value).utf8Size = 1 := by
  have hall : ∀ value : Fin 64,
      urlDigit value ≠ '.' ∧ (urlDigit value).utf8Size = 1 := by
    decide
  exact hall ⟨value, hvalue⟩

/-- A property that all sixty-four digits have. -/
theorem forall_mem_encodeUrlDigits {property : Char → Prop}
    (hdigits : ∀ value < 64, property (urlDigit value)) (bytes : Bytes) :
    ∀ char ∈ encodeUrlDigits bytes, property char := by
  induction bytes using encodeUrlDigits.induct with
  | case1 => simp [encodeUrlDigits]
  | case2 a =>
      have ha := a.toNat_lt
      simp only [encodeUrlDigits, List.forall_mem_cons]
      exact ⟨hdigits _ (by omega), hdigits _ (by omega), by simp⟩
  | case3 a b =>
      have ha := a.toNat_lt
      have hb := b.toNat_lt
      simp only [encodeUrlDigits, List.forall_mem_cons]
      exact ⟨hdigits _ (by omega), hdigits _ (by omega),
        hdigits _ (by omega), by simp⟩
  | case4 a b c rest ih =>
      have ha := a.toNat_lt
      have hb := b.toNat_lt
      have hc := c.toNat_lt
      simp only [encodeUrlDigits, List.forall_mem_cons]
      exact ⟨hdigits _ (by omega), hdigits _ (by omega),
        hdigits _ (by omega), hdigits _ (by omega), ih⟩

theorem encodeUrlDigits_plain (bytes : Bytes) :
    ∀ char ∈ encodeUrlDigits bytes, char ≠ '.' ∧ char.utf8Size = 1 :=
  forall_mem_encodeUrlDigits (fun _ hvalue => urlDigit_plain hvalue) bytes

theorem encodeUrlDigits_length (bytes : Bytes) :
    (encodeUrlDigits bytes).length = (4 * bytes.length + 2) / 3 := by
  induction bytes using encodeUrlDigits.induct with
  | case1 => rfl
  | case2 a => simp [encodeUrlDigits]
  | case3 a b => simp [encodeUrlDigits]
  | case4 a b c rest ih =>
      simp only [encodeUrlDigits, List.length_cons, ih]
      omega

theorem encodeUrlDigits_length_le (bytes : Bytes) :
    (encodeUrlDigits bytes).length ≤ 2 * bytes.length := by
  rw [encodeUrlDigits_length]
  omega

end Base64
