/-
Whole runs of a stateful call.  A call takes a state and an input and returns
a result together with the next state.  A run threads the state through a
list of inputs and keeps every input next to the result its call returned, so
that a property of a history is a property of one list.
-/
import Mathlib

namespace StatefulRun

universe u v w x

variable {S : Type u} {I : Type v} {R : Type w}

/-- Every input of the run, paired with the result of its call. -/
def trace (call : S → I → R × S) : S → List I → List (I × R)
  | _, [] => []
  | state, input :: rest =>
      (input, (call state input).1) :: trace call (call state input).2 rest

/-- The state left behind by the last call of the run. -/
def final (call : S → I → R × S) : S → List I → S
  | state, [] => state
  | state, input :: rest => final call (call state input).2 rest

@[simp] theorem trace_nil (call : S → I → R × S) (state : S) :
    trace call state [] = [] := rfl

@[simp] theorem final_nil (call : S → I → R × S) (state : S) :
    final call state [] = state := rfl

theorem trace_cons (call : S → I → R × S) (state : S) (input : I)
    (rest : List I) :
    trace call state (input :: rest) =
      (input, (call state input).1) ::
        trace call (call state input).2 rest := rfl

theorem final_cons (call : S → I → R × S) (state : S) (input : I)
    (rest : List I) :
    final call state (input :: rest) =
      final call (call state input).2 rest := rfl

theorem final_append (call : S → I → R × S) (state : S)
    (first second : List I) :
    final call state (first ++ second) =
      final call (final call state first) second := by
  induction first generalizing state with
  | nil => rfl
  | cons input rest ih => exact ih (call state input).2

theorem trace_append (call : S → I → R × S) (state : S)
    (first second : List I) :
    trace call state (first ++ second) =
      trace call state first ++
        trace call (final call state first) second := by
  induction first generalizing state with
  | nil => rfl
  | cons input rest ih =>
      simp only [List.cons_append, trace_cons, final_cons]
      rw [ih]

theorem trace_length (call : S → I → R × S) (state : S) (inputs : List I) :
    (trace call state inputs).length = inputs.length := by
  induction inputs generalizing state with
  | nil => rfl
  | cons input rest ih => simp [trace_cons, ih]

theorem trace_map_fst (call : S → I → R × S) (state : S) (inputs : List I) :
    (trace call state inputs).map Prod.fst = inputs := by
  induction inputs generalizing state with
  | nil => rfl
  | cons input rest ih => rw [trace_cons, List.map_cons, ih]

theorem trace_snoc (call : S → I → R × S) (state : S)
    (inputs : List I) (input : I) :
    trace call state (inputs ++ [input]) =
      trace call state inputs ++
        [(input, (call (final call state inputs) input).1)] := by
  rw [trace_append]
  rfl

theorem final_snoc (call : S → I → R × S) (state : S)
    (inputs : List I) (input : I) :
    final call state (inputs ++ [input]) =
      (call (final call state inputs) input).2 := by
  rw [final_append]
  rfl

/-- The run rule: a relation between the history so far and the present state
that holds before the first call and survives every call holds after the whole
run. -/
theorem history_invariant {call : S → I → R × S} {start : S}
    {P : List (I × R) → S → Prop} (hstart : P [] start)
    (hstep : ∀ history state input, P history state →
      P (history ++ [(input, (call state input).1)]) (call state input).2)
    (inputs : List I) :
    P (trace call start inputs) (final call start inputs) := by
  induction inputs using List.reverseRecOn with
  | nil => exact hstart
  | append_singleton inputs input ih =>
      rw [trace_snoc, final_snoc]
      exact hstep _ _ input ih

/-- The run rule for calls whose inputs are known to meet a condition. -/
theorem history_invariant_of_mem {call : S → I → R × S} {start : S}
    {P : List (I × R) → S → Prop} (inputs : List I) (hstart : P [] start)
    (hstep : ∀ history state, ∀ input ∈ inputs, P history state →
      P (history ++ [(input, (call state input).1)]) (call state input).2) :
    P (trace call start inputs) (final call start inputs) := by
  induction inputs using List.reverseRecOn with
  | nil => exact hstart
  | append_singleton inputs input ih =>
      rw [trace_snoc, final_snoc]
      apply hstep _ _ input (by simp)
      exact ih fun history state other hother =>
        hstep history state other (by simp [hother])

theorem trace_append_cons_of_unchanged {call : S → I → R × S} {start : S}
    {before : List I} {input : I}
    (hkeep : (call (final call start before) input).2 =
      final call start before) (after : List I) :
    trace call start (before ++ input :: after) =
      trace call start before ++
        (input, (call (final call start before) input).1) ::
          trace call (final call start before) after := by
  rw [trace_append, trace_cons, hkeep]

section Accepted

variable {E : Type w} {O : Type x}

/-- The inputs a fallible call accepted, each with the value it returned. -/
def successes (history : List (I × Except E O)) : List (I × O) :=
  history.filterMap fun entry =>
    match entry.2 with
    | .ok value => some (entry.1, value)
    | .error _ => none

@[simp] theorem successes_nil :
    successes ([] : List (I × Except E O)) = [] := rfl

theorem successes_append (first second : List (I × Except E O)) :
    successes (first ++ second) = successes first ++ successes second := by
  simp [successes]

@[simp] theorem successes_singleton_ok (input : I) (value : O) :
    successes [(input, (.ok value : Except E O))] = [(input, value)] := rfl

@[simp] theorem successes_singleton_error (input : I) (error : E) :
    successes [(input, (.error error : Except E O))] = [] := rfl

theorem successes_length_le (history : List (I × Except E O)) :
    (successes history).length ≤ history.length :=
  List.length_filterMap_le _ _

/-- If no call failed, the accepted inputs are all inputs. -/
theorem successes_map_fst_of_length {history : List (I × Except E O)}
    (hlength : (successes history).length = history.length) :
    (successes history).map Prod.fst = history.map Prod.fst := by
  induction history with
  | nil => rfl
  | cons entry history ih =>
      obtain ⟨input, result⟩ := entry
      cases result with
      | ok value =>
          have hsplit : successes ((input, .ok value) :: history) =
            (input, value) :: successes history := rfl
          rw [hsplit, List.length_cons, List.length_cons,
            Nat.add_right_cancel_iff] at hlength
          rw [hsplit, List.map_cons, List.map_cons, ih hlength]
      | error error =>
          have hsplit : successes ((input, .error error) :: history) =
            successes history := rfl
          have hle := successes_length_le history
          rw [hsplit, List.length_cons] at hlength
          omega

theorem successes_trace_map_fst {call : S → I → Except E O × S} {state : S}
    {inputs : List I}
    (hlength : (successes (trace call state inputs)).length = inputs.length) :
    (successes (trace call state inputs)).map Prod.fst = inputs := by
  have hcount : (successes (trace call state inputs)).length =
      (trace call state inputs).length := by
    rw [hlength, trace_length]
  rw [successes_map_fst_of_length hcount, trace_map_fst]

/-- The inputs a Boolean call answered with `true`. -/
def admitted (history : List (I × Bool)) : List I :=
  (history.filter fun entry => entry.2).map Prod.fst

@[simp] theorem admitted_nil : admitted ([] : List (I × Bool)) = [] := rfl

theorem admitted_snoc (history : List (I × Bool)) (input : I)
    (answer : Bool) :
    admitted (history ++ [(input, answer)]) =
      admitted history ++ (if answer then [input] else []) := by
  cases answer <;> simp [admitted]

end Accepted

end StatefulRun
