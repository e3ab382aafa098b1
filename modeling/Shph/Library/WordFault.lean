/-
The arithmetic of machine words that stops at an overflow, and loops over it,
for words of any width.
-/
import Mathlib

namespace WordFault

universe u v w

inductive Fault where
  | overflow
  | divideByZero
  | outOfFuel
deriving Repr, DecidableEq

section Unsigned

variable (width : Nat)

/-- The value, unless the word is too small for it. -/
def unsigned (value : Nat) : Except Fault Nat :=
  if value < 2 ^ width then .ok value else .error .overflow

def addWord (left right : Nat) : Except Fault Nat :=
  unsigned width (left + right)

def mulWord (left right : Nat) : Except Fault Nat :=
  unsigned width (left * right)

def subWord (left right : Nat) : Except Fault Nat :=
  if right ≤ left then .ok (left - right) else .error .overflow

def remWord (left right : Nat) : Except Fault Nat :=
  if right = 0 then .error .divideByZero else .ok (left % right)

/-- A shift drops the bits that leave the word.  It has to be by less than the
width. -/
def shlWord (value amount : Nat) : Except Fault Nat :=
  if amount < width then .ok (value <<< amount % 2 ^ width)
  else .error .overflow

end Unsigned

section Signed

variable (width : Nat)

def signed (value : Int) : Except Fault Int :=
  if -2 ^ (width - 1) ≤ value ∧ value < 2 ^ (width - 1) then .ok value
  else .error .overflow

def addInt (left right : Int) : Except Fault Int :=
  signed width (left + right)

def subInt (left right : Int) : Except Fault Int :=
  signed width (left - right)

def mulInt (left right : Int) : Except Fault Int :=
  signed width (left * right)

def divInt (left right : Int) : Except Fault Int :=
  if right = 0 then .error .divideByZero else signed width (left.tdiv right)

/-- The signed word with the bits of an unsigned one. -/
def toSigned (value : Nat) : Int := Int.bmod value (2 ^ width)

/-- The unsigned word with the bits of a signed one. -/
def toUnsigned (value : Int) : Nat := (value % 2 ^ width).toNat

end Signed

section Rules

variable {width : Nat}

/-- The rule that runs a step that goes through. -/
theorem bind_of_ok {A B : Type u} {E : Type v} {first : Except E A}
    {rest : A → Except E B} {value : A} {result : Except E B}
    (hfirst : first = .ok value) (hrest : rest value = result) :
    (first >>= rest) = result := by
  rw [hfirst]
  exact hrest

theorem addWord_eq {left right : Nat} (hfits : left + right < 2 ^ width) :
    addWord width left right = .ok (left + right) :=
  if_pos hfits

theorem mulWord_eq {left right : Nat} (hfits : left * right < 2 ^ width) :
    mulWord width left right = .ok (left * right) :=
  if_pos hfits

theorem subWord_eq {left right : Nat} (hle : right ≤ left) :
    subWord left right = .ok (left - right) :=
  if_pos hle

theorem remWord_eq {left right : Nat} (hpos : 0 < right) :
    remWord left right = .ok (left % right) :=
  if_neg hpos.ne'

theorem shlWord_eq {value amount : Nat} (hamount : amount < width) :
    shlWord width value amount = .ok (value <<< amount % 2 ^ width) :=
  if_pos hamount

/-- The signed words of a width around zero. -/
def FitsSigned (width : Nat) (value : Int) : Prop :=
  -2 ^ (width - 1) ≤ value ∧ value < 2 ^ (width - 1)

theorem addInt_eq {left right : Int} (hfits : FitsSigned width (left + right)) :
    addInt width left right = .ok (left + right) :=
  if_pos hfits

theorem subInt_eq {left right : Int} (hfits : FitsSigned width (left - right)) :
    subInt width left right = .ok (left - right) :=
  if_pos hfits

theorem mulInt_eq {left right : Int} (hfits : FitsSigned width (left * right)) :
    mulInt width left right = .ok (left * right) :=
  if_pos hfits

theorem divInt_eq {left right : Int} (hne : right ≠ 0)
    (hfits : FitsSigned width (left.tdiv right)) :
    divInt width left right = .ok (left.tdiv right) :=
  (if_neg hne).trans (if_pos hfits)

end Rules

section Loops

variable {S : Type u} {I : Type v} {E : Type w}

/-- The loop `while running { body }`, for at most as many turns as there is
fuel. -/
def whileLoop (running : S → Bool) (body : S → Except Fault S) :
    Nat → S → Except Fault S
  | fuel, state =>
      if running state then
        match fuel with
        | 0 => .error .outOfFuel
        | fuel + 1 => body state >>= whileLoop running body fuel
      else .ok state

/-- A loop that gets nearer to its end at every turn ends, without a fault and
with what its turns preserve. -/
theorem whileLoop_ends {running : S → Bool} {body : S → Except Fault S}
    {inv : S → Prop} {distance : S → Nat}
    (hbody : ∀ state, inv state → running state = true →
      ∃ next, body state = .ok next ∧ inv next ∧
        distance next < distance state)
    {fuel : Nat} {state : S} (hinv : inv state)
    (hfuel : distance state ≤ fuel) :
    ∃ final, whileLoop running body fuel state = .ok final ∧ inv final ∧
      running final = false := by
  induction fuel generalizing state with
  | zero =>
      have hstopped : running state = false := by
        by_contra hrunning
        obtain ⟨next, -, -, hcloser⟩ :=
          hbody state hinv (Bool.not_eq_false _ ▸ hrunning)
        omega
      exact ⟨state, by simp [whileLoop, hstopped], hinv, hstopped⟩
  | succ fuel ih =>
      cases hrunning : running state with
      | false => exact ⟨state, by simp [whileLoop, hrunning], hinv, hrunning⟩
      | true =>
          obtain ⟨next, hnext, hkept, hcloser⟩ := hbody state hinv hrunning
          obtain ⟨final, hfinal, hdone⟩ := ih hkept (by omega)
          refine ⟨final, ?_, hdone⟩
          rw [whileLoop, if_pos hrunning, hnext]
          exact hfinal

/-- A loop over a list whose turns go through computes what they compute. -/
theorem foldlM_eq_ok {step : S → I → Except E S} {next : S → I → S}
    {inv : S → Prop} {items : List I}
    (hstep : ∀ state, inv state → ∀ item ∈ items,
      step state item = .ok (next state item) ∧ inv (next state item))
    {start : S} (hstart : inv start) :
    items.foldlM step start = .ok (items.foldl next start) ∧
      inv (items.foldl next start) := by
  induction items generalizing start with
  | nil => exact ⟨rfl, hstart⟩
  | cons item items ih =>
      obtain ⟨hok, hkept⟩ := hstep start hstart item List.mem_cons_self
      have hrest := ih (fun state hinv other hother =>
        hstep state hinv other (List.mem_cons_of_mem item hother)) hkept
      rw [List.foldlM_cons, hok, List.foldl_cons]
      exact hrest

end Loops

end WordFault
