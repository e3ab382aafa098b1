/-
Decimal numbers inside longer texts: where they end, how they start and how
long they are.
-/
import Mathlib

namespace Decimal

/-- A decimal number ends where the digits stop. -/
theorem toDigits_append_inj {left right : Nat} {a b : Char}
    {rest rest' : List Char} (ha : a.isDigit = false) (hb : b.isDigit = false)
    (heq : Nat.toDigits 10 left ++ a :: rest =
      Nat.toDigits 10 right ++ b :: rest') :
    left = right ∧ a :: rest = b :: rest' := by
  have htake (number : Nat) (char : Char) (chars : List Char)
      (hchar : char.isDigit = false) :
      (Nat.toDigits 10 number ++ char :: chars).takeWhile Char.isDigit =
        Nat.toDigits 10 number := by
    rw [List.takeWhile_append_of_pos fun digit hdigit =>
      Nat.isDigit_of_mem_toDigits (by decide) (by decide) hdigit]
    simp [hchar]
  have hdigits := congrArg (List.takeWhile Char.isDigit) heq
  rw [htake left a rest ha, htake right b rest' hb] at hdigits
  have hnumber := congrArg (fun digits => Nat.ofDigitChars 10 digits 0) hdigits
  simp only [Nat.ofDigitChars_ten_toDigits] at hnumber
  rw [hdigits, List.append_cancel_left_eq] at heq
  exact ⟨hnumber, heq⟩

theorem toDigits_append_head (number : Nat) (rest : List Char) :
    (Nat.toDigits 10 number ++ rest).head? ≠ some '.' := by
  cases hdigits : Nat.toDigits 10 number with
  | nil => exact absurd hdigits Nat.toDigits_ne_nil
  | cons digit digits =>
      have hdigit : digit.isDigit = true :=
        @Nat.isDigit_of_mem_toDigits 10 number digit (by decide) (by decide)
          (by simp [hdigits])
      rw [List.cons_append, List.head?_cons]
      rintro ⟨rfl⟩
      exact absurd hdigit (by decide)

theorem toDigits_length_le {number : Nat} (hnumber : number < 10 ^ 20) :
    (Nat.toDigits 10 number).length ≤ 20 :=
  (@Nat.length_toDigits_le_iff 10 number 20 (by decide) (by decide)).mpr
    hnumber

/-- A digit is a single byte of UTF-8. -/
theorem utf8Size_of_isDigit {char : Char} (hdigit : char.isDigit = true) :
    char.utf8Size = 1 := by
  simp only [Char.isDigit, Bool.and_eq_true, decide_eq_true_eq] at hdigit
  rw [Char.utf8Size_eq_one_iff]
  exact Nat.le_trans hdigit.2 (by decide)

theorem utf8Len_digits {digits : List Char}
    (hdigits : ∀ char ∈ digits, char.isDigit = true) :
    String.utf8Len digits = digits.length := by
  induction digits with
  | nil => rfl
  | cons digit digits ih =>
      obtain ⟨hdigit, hrest⟩ := List.forall_mem_cons.mp hdigits
      rw [String.utf8Len_cons, ih hrest, utf8Size_of_isDigit hdigit,
        List.length_cons]

theorem utf8Len_toDigits (number : Nat) :
    String.utf8Len (Nat.toDigits 10 number) =
      (Nat.toDigits 10 number).length :=
  utf8Len_digits fun _ hdigit =>
    Nat.isDigit_of_mem_toDigits (by decide) (by decide) hdigit

end Decimal
