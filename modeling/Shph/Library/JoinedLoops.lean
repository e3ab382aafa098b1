/-
Two loops that are joined.  Their turns come in any order; the first loop that
fails ends both, and when both have finished so has the pair.
-/
import Shph.Library.LoopRun

namespace LoopRun

universe u v w

variable {S S' T T' : Type u} {I I' : Type v} {E : Type w}

/-- A joined loop takes turns until it has finished. -/
inductive Half (S T : Type u) where
  | polling (state : S)
  | finished (value : T)
deriving Repr, DecidableEq

structure Joined (S T S' T' : Type u) where
  left : Half S T
  right : Half S' T'
deriving Repr, DecidableEq

def Half.poll (step : S → I → Outcome S (Except E T)) :
    Half S T → I → Except E (Half S T)
  | polling state, turn =>
      match step state turn with
      | .running next => .ok (polling next)
      | .ended result => result.map finished
  | finished value, _ => .ok (finished value)

/-- The pair has finished when both loops have. -/
def Joined.settled (joined : Joined S T S' T') :
    Outcome (Joined S T S' T') (Except E (T × T')) :=
  match joined.left, joined.right with
  | .finished left, .finished right => .ended (.ok (left, right))
  | _, _ => .running joined

def tryJoin (left : S → I → Outcome S (Except E T))
    (right : S' → I' → Outcome S' (Except E T'))
    (joined : Joined S T S' T') :
    I ⊕ I' → Outcome (Joined S T S' T') (Except E (T × T'))
  | .inl turn =>
      match joined.left.poll left turn with
      | .error error => .ended (.error error)
      | .ok half => { joined with left := half }.settled
  | .inr turn =>
      match joined.right.poll right turn with
      | .error error => .ended (.error error)
      | .ok half => { joined with right := half }.settled

section TryJoin

variable {left : S → I → Outcome S (Except E T)}
  {right : S' → I' → Outcome S' (Except E T')} {state next : S}
  {state' next' : S'} {turn : I} {turn' : I'} {error : E}

theorem tryJoin_left_running (hstep : left state turn = .running next)
    (other : S') :
    tryJoin left right ⟨.polling state, .polling other⟩ (.inl turn) =
      .running ⟨.polling next, .polling other⟩ := by
  simp only [tryJoin, Half.poll, hstep, Joined.settled]

theorem tryJoin_right_running (hstep : right state' turn' = .running next')
    (other : S) :
    tryJoin left right ⟨.polling other, .polling state'⟩ (.inr turn') =
      .running ⟨.polling other, .polling next'⟩ := by
  simp only [tryJoin, Half.poll, hstep, Joined.settled]

theorem tryJoin_left_error (hstep : left state turn = .ended (.error error))
    (half : Half S' T') :
    tryJoin left right ⟨.polling state, half⟩ (.inl turn) =
      .ended (.error error) := by
  simp only [tryJoin, Half.poll, hstep, Except.map]

theorem tryJoin_right_error
    (hstep : right state' turn' = .ended (.error error)) (half : Half S T) :
    tryJoin left right ⟨half, .polling state'⟩ (.inr turn') =
      .ended (.error error) := by
  simp only [tryJoin, Half.poll, hstep, Except.map]

end TryJoin

section Ends

variable {R : Type w} {step : S → I → Outcome S R} {Inv : S → Prop}
  {P Fails : S → I → Prop} {expected : R}

/-- What a turn can do to a loop that should end with one result: it goes on,
it ends so, or it fails and ends in another way. -/
def EndsAs (step : S → I → Outcome S R) (Inv : S → Prop)
    (Fails : S → I → Prop) (expected : R) (state : S) (turn : I) : Prop :=
  (¬ Fails state turn ∧ ((∃ next, step state turn = .running next ∧ Inv next) ∨
    step state turn = .ended expected)) ∨
  (Fails state turn ∧ ∃ other, other ≠ expected ∧
    step state turn = .ended other)

/-- A run that has ended did so as it should exactly if no turn of it
failed. -/
theorem ended_as_iff
    (hstep : ∀ state turn, Inv state → P state turn →
      EndsAs step Inv Fails expected state turn)
    {start : S} (hstart : Inv start) {turns : List I}
    (halong : Along step P start turns) {result : R}
    (hrun : run step start turns = .ended result) :
    result = expected ↔
      Along step (fun state turn => ¬ Fails state turn) start turns := by
  induction turns generalizing start with
  | nil => cases hrun
  | cons first turns ih =>
      rcases hstep start first hstart halong.1 with
        ⟨hfine, ⟨next, hnext, hinv⟩ | hended⟩ | ⟨hfails, other, hother, hended⟩
      · rw [run_cons_running hnext] at hrun
        have hrest := ih hinv (halong.2 next hnext) hrun
        constructor
        · intro hresult
          refine ⟨hfine, fun later hlater => ?_⟩
          rw [hnext] at hlater
          cases hlater
          exact hrest.mp hresult
        · intro hnone
          exact hrest.mpr (hnone.2 next hnext)
      · rw [run_cons_ended hended] at hrun
        cases hrun
        refine iff_of_true rfl ⟨hfine, fun later hlater => ?_⟩
        rw [hended] at hlater
        cases hlater
      · rw [run_cons_ended hended] at hrun
        cases hrun
        exact iff_of_false hother fun hnone => hnone.1 hfails

/-- A turn that ends the loop in every state ends every run it is part of. -/
theorem ended_of_mem
    (hstep : ∀ state turn next, Inv state → step state turn = .running next →
      P state turn → Inv next)
    {last : I} (hlast : ∀ state, Inv state →
      ∃ result, step state last = .ended result)
    {start : S} (hstart : Inv start) {turns : List I}
    (halong : Along step P start turns) (hmem : last ∈ turns) :
    ∃ result, run step start turns = .ended result := by
  induction turns generalizing start with
  | nil => cases hmem
  | cons first turns ih =>
      cases hfirst : step start first with
      | ended result => exact ⟨result, run_cons_ended hfirst turns⟩
      | running next =>
          rw [run_cons_running hfirst]
          rcases List.mem_cons.mp hmem with rfl | hrest
          · obtain ⟨result, hended⟩ := hlast start hstart
            rw [hended] at hfirst
            cases hfirst
          · exact ih (hstep start first next hstart hfirst halong.1)
              (halong.2 next hfirst) hrest

end Ends

end LoopRun
