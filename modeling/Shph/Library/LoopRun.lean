/-
Loops that a turn may end.  A turn leads to the next state or to the result of
the loop, and a run takes turns until one of them ends it.
-/
import Mathlib

namespace LoopRun

universe u v w

inductive Outcome (S : Type u) (R : Type v) where
  | running (state : S)
  | ended (result : R)
deriving Repr, DecidableEq

variable {S : Type u} {R : Type v} {I : Type w}

def Outcome.map {T : Type u} (f : S → T) : Outcome S R → Outcome T R
  | running state => running (f state)
  | ended result => ended result

def run (step : S → I → Outcome S R) : S → List I → Outcome S R
  | state, [] => .running state
  | state, turn :: turns =>
      match step state turn with
      | .running next => run step next turns
      | .ended result => .ended result

/-- Every turn that the run takes meets a condition on the state it finds. -/
def Along (step : S → I → Outcome S R) (P : S → I → Prop) :
    S → List I → Prop
  | _, [] => True
  | state, turn :: turns =>
      P state turn ∧
        ∀ next, step state turn = .running next → Along step P next turns

/-- How many of the turns that the run takes pass a test. -/
def countAlong (step : S → I → Outcome S R) (test : S → I → Bool) :
    S → List I → Nat
  | _, [] => 0
  | state, turn :: turns =>
      (test state turn).toNat +
        match step state turn with
        | .running next => countAlong step test next turns
        | .ended _ => 0

variable {step : S → I → Outcome S R}

theorem run_cons_running {state next : S} {turn : I}
    (hstep : step state turn = .running next) (turns : List I) :
    run step state (turn :: turns) = run step next turns := by
  rw [run, hstep]

theorem run_cons_ended {state : S} {turn : I} {result : R}
    (hstep : step state turn = .ended result) (turns : List I) :
    run step state (turn :: turns) = .ended result := by
  rw [run, hstep]

theorem run_snoc_running {start state : S} {turns : List I}
    (hrun : run step start turns = .running state) (turn : I) :
    run step start (turns ++ [turn]) = step state turn := by
  induction turns generalizing start with
  | nil =>
      cases hrun
      rw [List.nil_append, run]
      cases step state turn <;> rfl
  | cons first turns ih =>
      cases hstep : step start first with
      | running next =>
          rw [run_cons_running hstep] at hrun
          rw [List.cons_append, run_cons_running hstep, ih hrun]
      | ended result =>
          rw [run_cons_ended hstep] at hrun
          cases hrun

/-- A loop over neighbouring numbers: what holds before a number holds behind it
for the next one. -/
theorem foldl_range'_invariant {P : Nat → S → Prop} {turn : S → Nat → S}
    {start count : Nat} {state : S} (hstart : P start state)
    (hturn : ∀ index state, start ≤ index → index < start + count →
      P index state → P (index + 1) (turn state index)) :
    P (start + count) ((List.range' start count).foldl turn state) := by
  induction count generalizing start state with
  | zero => exact hstart
  | succ count ih =>
      rw [List.range'_succ, List.foldl_cons, Nat.add_comm count 1,
        ← Nat.add_assoc]
      apply ih (hturn start state (Nat.le_refl start) (by omega) hstart)
      intro index state hlow hhigh
      exact hturn index state (by omega) (by omega)

end LoopRun
