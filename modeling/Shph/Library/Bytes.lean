/-
Byte strings, byte strings of a fixed length, and the big- and little-endian
encodings of numbers in a fixed number of bytes.  Encoding truncates exactly
as an integer cast does, so the round trips carry the width as a hypothesis.
-/
import Mathlib

namespace ByteCodec

abbrev Bytes := List UInt8

/-- A byte array of a length known to its type. -/
@[ext]
structure FixedBytes (width : Nat) where
  val : Bytes
  length_eq : val.length = width
deriving Repr, DecidableEq

/-- `width` copies of one byte. -/
def FixedBytes.replicate (width : Nat) (byte : UInt8) : FixedBytes width :=
  ⟨List.replicate width byte, List.length_replicate⟩

/-- Read a byte string as an array of exactly `width` bytes. -/
def FixedBytes.ofBytes? (width : Nat) (bytes : Bytes) :
    Option (FixedBytes width) :=
  if hlength : bytes.length = width then some ⟨bytes, hlength⟩ else none

theorem FixedBytes.ofBytes?_eq_some_iff {width : Nat} {bytes : Bytes}
    {array : FixedBytes width} :
    ofBytes? width bytes = some array ↔ bytes = array.val := by
  unfold ofBytes?
  constructor
  · intro h
    split at h
    · rw [Option.some.injEq] at h
      exact congrArg FixedBytes.val h
    · simp at h
  · intro h
    subst h
    rw [dif_pos array.length_eq]

@[simp] theorem FixedBytes.ofBytes?_val {width : Nat}
    (array : FixedBytes width) : ofBytes? width array.val = some array :=
  ofBytes?_eq_some_iff.mpr rfl

/-- Two concatenations with first parts of one length split in the same
place. -/
theorem FixedBytes.append_inj {width : Nat} {left right : FixedBytes width}
    {restLeft restRight : Bytes}
    (happend : left.val ++ restLeft = right.val ++ restRight) :
    left = right ∧ restLeft = restRight := by
  have hsplit := List.append_inj happend
    (left.length_eq.trans right.length_eq.symm)
  exact ⟨FixedBytes.ext hsplit.1, hsplit.2⟩

/-- The low `width` bytes of a number, most significant byte first. -/
def bigEndian : Nat → Nat → Bytes
  | 0, _ => []
  | width + 1, number =>
      bigEndian width (number / 256) ++ [UInt8.ofNat number]

/-- The number written by a big-endian byte string. -/
def ofBigEndian (bytes : Bytes) : Nat :=
  bytes.foldl (fun number byte => number * 256 + byte.toNat) 0

/-- The low `width` bytes of a number, least significant byte first. -/
def littleEndian : Nat → Nat → Bytes
  | 0, _ => []
  | width + 1, number =>
      UInt8.ofNat number :: littleEndian width (number / 256)

/-- The number written by a little-endian byte string. -/
def ofLittleEndian : Bytes → Nat
  | [] => 0
  | byte :: rest => byte.toNat + 256 * ofLittleEndian rest

@[simp] theorem bigEndian_length (width number : Nat) :
    (bigEndian width number).length = width := by
  induction width generalizing number with
  | zero => rfl
  | succ width ih => simp [bigEndian, ih]

/-- A number in big-endian order, as long as its type says. -/
def FixedBytes.ofNat (width number : Nat) : FixedBytes width :=
  ⟨bigEndian width number, bigEndian_length width number⟩

@[simp] theorem littleEndian_length (width number : Nat) :
    (littleEndian width number).length = width := by
  induction width generalizing number with
  | zero => rfl
  | succ width ih => simp [littleEndian, ih]

theorem ofBigEndian_snoc (bytes : Bytes) (byte : UInt8) :
    ofBigEndian (bytes ++ [byte]) = ofBigEndian bytes * 256 + byte.toNat := by
  simp [ofBigEndian]

theorem ofBigEndian_lt (bytes : Bytes) :
    ofBigEndian bytes < 256 ^ bytes.length := by
  induction bytes using List.reverseRecOn with
  | nil => simp [ofBigEndian]
  | append_singleton bytes byte ih =>
      rw [ofBigEndian_snoc, List.length_append, List.length_singleton,
        Nat.pow_succ]
      have hbyte := byte.toNat_lt
      omega

theorem ofBigEndian_bigEndian {width number : Nat}
    (hnumber : number < 256 ^ width) :
    ofBigEndian (bigEndian width number) = number := by
  induction width generalizing number with
  | zero =>
      have hzero : number = 0 := by simpa using hnumber
      simp [bigEndian, ofBigEndian, hzero]
  | succ width ih =>
      rw [Nat.pow_succ] at hnumber
      have hhigh : number / 256 < 256 ^ width :=
        Nat.div_lt_of_lt_mul (by omega)
      rw [bigEndian, ofBigEndian_snoc, ih hhigh, UInt8.toNat_ofNat']
      omega

/-- Every byte string is the big-endian form of the number it writes. -/
theorem bigEndian_ofBigEndian (bytes : Bytes) :
    bigEndian bytes.length (ofBigEndian bytes) = bytes := by
  induction bytes using List.reverseRecOn with
  | nil => rfl
  | append_singleton bytes byte ih =>
      have hbyte := byte.toNat_lt
      rw [List.length_append, List.length_singleton, bigEndian,
        ofBigEndian_snoc,
        show (ofBigEndian bytes * 256 + byte.toNat) / 256 = ofBigEndian bytes
          by omega, ih]
      congr 2
      apply UInt8.toNat_inj.mp
      rw [UInt8.toNat_ofNat']
      omega

theorem bigEndian_inj {width left right : Nat} (hleft : left < 256 ^ width)
    (hright : right < 256 ^ width)
    (heq : bigEndian width left = bigEndian width right) : left = right := by
  rw [← ofBigEndian_bigEndian hleft, heq, ofBigEndian_bigEndian hright]

theorem ofLittleEndian_littleEndian {width number : Nat}
    (hnumber : number < 256 ^ width) :
    ofLittleEndian (littleEndian width number) = number := by
  induction width generalizing number with
  | zero =>
      have hzero : number = 0 := by simpa using hnumber
      simp [littleEndian, ofLittleEndian, hzero]
  | succ width ih =>
      rw [Nat.pow_succ] at hnumber
      have hhigh : number / 256 < 256 ^ width :=
        Nat.div_lt_of_lt_mul (by omega)
      rw [littleEndian, ofLittleEndian, ih hhigh, UInt8.toNat_ofNat']
      omega

/-- `width` bytes from an offset on. -/
def slice (bytes : Bytes) (offset width : Nat) : Bytes :=
  (bytes.drop offset).take width

/-- The part of a concatenation that starts where the first part ends. -/
theorem slice_append {front middle rest : Bytes} {offset width : Nat}
    (hoffset : front.length = offset) (hwidth : middle.length = width) :
    slice (front ++ (middle ++ rest)) offset width = middle := by
  rw [slice, ← hoffset, List.drop_left, ← hwidth, List.take_left]

/-- The lexicographic order of byte strings. -/
def lexLe : Bytes → Bytes → Bool
  | [], _ => true
  | _ :: _, [] => false
  | a :: left, b :: right => if a = b then lexLe left right else a < b

theorem lexLe_antisymm {left right : Bytes} (hle : lexLe left right = true)
    (hge : lexLe right left = true) : left = right := by
  induction left generalizing right with
  | nil =>
      cases right with
      | nil => rfl
      | cons b right => simp [lexLe] at hge
  | cons a left ih =>
      cases right with
      | nil => simp [lexLe] at hle
      | cons b right =>
          by_cases heq : a = b
          · subst heq
            rw [lexLe, if_pos rfl] at hle hge
            rw [ih hle hge]
          · rw [lexLe, if_neg heq, decide_eq_true_eq] at hle
            rw [lexLe, if_neg (Ne.symm heq), decide_eq_true_eq] at hge
            exact absurd hle (UInt8.lt_asymm hge)

theorem lexLe_total (left right : Bytes) :
    lexLe left right = true ∨ lexLe right left = true := by
  induction left generalizing right with
  | nil => simp [lexLe]
  | cons a left ih =>
      cases right with
      | nil => simp [lexLe]
      | cons b right =>
          by_cases heq : a = b
          · subst heq
            simpa [lexLe] using ih right
          · simpa [lexLe, heq, Ne.symm heq] using UInt8.lt_or_lt_of_ne heq

theorem lexLe_trans {left middle right : Bytes}
    (hfirst : lexLe left middle = true) (hsecond : lexLe middle right = true) :
    lexLe left right = true := by
  induction left generalizing middle right with
  | nil => rfl
  | cons a left ih =>
      cases middle with
      | nil => simp [lexLe] at hfirst
      | cons b middle =>
          cases right with
          | nil => simp [lexLe] at hsecond
          | cons c right =>
              simp only [lexLe] at hfirst hsecond ⊢
              by_cases hab : a = b
              · subst hab
                rw [if_pos rfl] at hfirst
                by_cases hac : a = c
                · rw [if_pos hac] at hsecond ⊢
                  exact ih hfirst hsecond
                · rwa [if_neg hac] at hsecond ⊢
              · rw [if_neg hab, decide_eq_true_eq] at hfirst
                by_cases hbc : b = c
                · subst hbc
                  rw [if_neg hab, decide_eq_true_eq]
                  exact hfirst
                · rw [if_neg hbc, decide_eq_true_eq] at hsecond
                  have hlt := UInt8.lt_trans hfirst hsecond
                  rw [if_neg (UInt8.ne_of_lt hlt), decide_eq_true_eq]
                  exact hlt

end ByteCodec
