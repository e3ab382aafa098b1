/-
What the opaque relay keeps to.  Whatever the streams do and whenever it is
cancelled, each side gets what the other one has sent, in its order and within
the limit, and what is returned is accounted for.
-/
import Shph.EdgeRelay

namespace Shph.Edge

open ByteCodec Dialogue Program Relation

section Explanation

variable (surroundings : Surroundings) (maxBytes : UInt64)
  (idleTimeout : Duration)

/-- What must have happened for the relay to return an error. -/
def Explains : RelayError → Prop
  | .limitExceeded => ∃ leftToRight,
      maxBytes.toNat < (surroundings.whole leftToRight).length
  | .cancelled => surroundings.cancels
  | .idleTimeout | .io => surroundings.faults
  | .invalidTimeout => idleTimeout = 0
  | .backendTimeout | .backend => False

/-- What must have happened for the relay to return: both streams have ended
and are passed on to their ends, or the error is explained. -/
def Accounts (directions : Bool → Direction) :
    Except RelayError (Nat × Nat) → Prop
  | .ok totals => idleTimeout ≠ 0 ∧
      totals = ((surroundings.whole true).length,
        (surroundings.whole false).length) ∧
      ∀ leftToRight, surroundings.closes leftToRight ∧
        (directions leftToRight).sink = surroundings.whole leftToRight
  | .error error => Explains surroundings maxBytes idleTimeout error

variable {surroundings maxBytes idleTimeout}

theorem Direction.Blames.explains {leftToRight : Bool} {cancelled : Prop}
    {error : RelayError}
    (hblames : Blames maxBytes surroundings.faults cancelled
      (surroundings.whole leftToRight) error)
    (hcancelled : cancelled → surroundings.cancels) :
    Explains surroundings maxBytes idleTimeout error := by
  cases error with
  | limitExceeded => exact ⟨leftToRight, hblames⟩
  | cancelled => exact hcancelled hblames
  | idleTimeout => exact hblames
  | io => exact hblames
  | invalidTimeout => exact hblames.elim
  | backendTimeout => exact hblames.elim
  | backend => exact hblames.elim

end Explanation

theorem Direction.Step.not_done {closes faults cancelled : Prop}
    {direction next : Direction}
    (hstep : direction.Step closes faults cancelled next)
    (result : Except RelayError Nat) : direction.program ≠ done result := by
  intro hdone
  cases hstep with
  | moves hmoves =>
      rw [hdone] at hmoves
      cases hmoves
  | faults hpending _ _ => exact hpending result hdone
  | cancelled hpending _ => exact hpending result hdone

theorem Direction.Step.attempts {closes faults cancelled : Prop}
    {direction next : Direction}
    (hstep : direction.Step closes faults cancelled next) :
    Attempts next.program direction.program := by
  cases hstep with
  | moves hmoves => exact Or.inl ⟨_, _, _, _, hmoves⟩
  | faults hpending _ _ => exact Or.inr ⟨hpending, _, rfl⟩
  | cancelled hpending _ => exact Or.inr ⟨hpending, _, rfl⟩

/-- Where the relay can be: each task forwards, the token is only set by the
caller or for an error, and the task that was the first to end has ended. -/
structure Relaying (surroundings : Surroundings) (maxBytes : UInt64)
    (idleTimeout : Duration) (pipe : Pipe) : Prop where
  forwards : ∀ leftToRight, Direction.Forwards maxBytes
    (surroundings.closes leftToRight) surroundings.faults
    (pipe.cancelled = true) (surroundings.whole leftToRight)
    (pipe.directions leftToRight)
  caused : pipe.cancelled = true → surroundings.cancels ∨
    ∃ leftToRight error, pipe.first = some leftToRight ∧
      (pipe.directions leftToRight).program = done (.error error)
  chosen : ∀ leftToRight, pipe.first = some leftToRight →
    ∃ result, (pipe.directions leftToRight).program = done result ∧
      ∀ error, result = .error error →
        Explains surroundings maxBytes idleTimeout error
  accounts : ∀ result, pipe.result = some result →
    Accounts surroundings maxBytes idleTimeout pipe.directions result

namespace Relaying

variable {surroundings : Surroundings} {maxBytes : UInt64}
  {idleTimeout : Duration} {pipe next : Pipe}

theorem start (hidle : idleTimeout ≠ 0) :
    Relaying surroundings maxBytes idleTimeout
      (pipeOpaqueWithCancel surroundings.whole maxBytes idleTimeout) := by
  refine ⟨fun leftToRight => ?_, by rintro ⟨⟩, by rintro _ ⟨⟩,
    fun result hresult => ?_⟩
  · simp only [pipeOpaqueWithCancel, forwardWithCancel, if_neg hidle]
    exact Direction.forwards_start
  · simp only [pipeOpaqueWithCancel, if_neg hidle] at hresult
    cases hresult

theorem step_direction {leftToRight : Bool} {following : Direction}
    (hrelaying : Relaying surroundings maxBytes idleTimeout pipe)
    (hopen : pipe.result = none)
    (hstep : (pipe.directions leftToRight).Step
      (surroundings.closes leftToRight) surroundings.faults
      (pipe.cancelled = true) following) :
    Relaying surroundings maxBytes idleTimeout
      { pipe with
        directions := Function.update pipe.directions leftToRight
          following } := by
  -- the task that has ended is not the one that takes a step
  have hkept {ended : Bool} {result : Except RelayError Nat}
      (hended : (pipe.directions ended).program = done result) :
      (Function.update pipe.directions leftToRight following ended).program =
        done result := by
    rw [Function.update_of_ne, hended]
    rintro rfl
    exact hstep.not_done result hended
  refine ⟨fun side => ?_, fun hcancelled => ?_, fun ended hfirst => ?_,
    fun result hresult => ?_⟩
  · dsimp only
    by_cases hside : side = leftToRight
    · subst hside
      rw [Function.update_self]
      exact (hrelaying.forwards side).step hstep
    · rw [Function.update_of_ne hside]
      exact hrelaying.forwards side
  · rcases hrelaying.caused hcancelled with hcancels |
      ⟨ended, error, hfirst, hended⟩
    · exact Or.inl hcancels
    · exact Or.inr ⟨ended, error, hfirst, hkept hended⟩
  · obtain ⟨result, hended, hexplains⟩ := hrelaying.chosen ended hfirst
    exact ⟨result, hkept hended, hexplains⟩
  · dsimp only at hresult
    rw [hopen] at hresult
    cases hresult

theorem step_cancel
    (hrelaying : Relaying surroundings maxBytes idleTimeout pipe)
    (hopen : pipe.result = none) (hcancels : surroundings.cancels) :
    Relaying surroundings maxBytes idleTimeout
      { pipe with cancelled := true } := by
  refine ⟨fun side => (hrelaying.forwards side).mono fun _ => rfl,
    fun _ => Or.inl hcancels, hrelaying.chosen, fun result hresult => ?_⟩
  dsimp only at hresult
  rw [hopen] at hresult
  cases hresult

theorem step_select {leftToRight : Bool} {result : Except RelayError Nat}
    (hrelaying : Relaying surroundings maxBytes idleTimeout pipe)
    (hopen : pipe.result = none) (hfirst : pipe.first = none)
    (hended : (pipe.directions leftToRight).program = done result) :
    Relaying surroundings maxBytes idleTimeout
      { pipe with
        first := some leftToRight
        cancelled := pipe.cancelled || !result.isOk } := by
  have hcaller : pipe.cancelled = true → surroundings.cancels := by
    intro hcancelled
    rcases hrelaying.caused hcancelled with hcancels | ⟨_, _, hother, _⟩
    · exact hcancels
    · rw [hfirst] at hother
      cases hother
  refine ⟨fun side => (hrelaying.forwards side).mono fun hcancelled => ?_,
    fun hcancelled => ?_, fun side hside => ?_, fun other hother => ?_⟩
  · rw [hcancelled]
    rfl
  · cases result with
    | ok total =>
        refine Or.inl (hcaller ?_)
        simpa [Except.isOk, Except.toBool] using hcancelled
    | error error => exact Or.inr ⟨leftToRight, error, rfl, hended⟩
  · cases hside
    refine ⟨result, hended, ?_⟩
    rintro error rfl
    exact ((hrelaying.forwards leftToRight).of_failed hended).explains hcaller
  · dsimp only at hother
    rw [hopen] at hother
    cases hother

theorem accounts_finish {leftToRight : Bool}
    {first second : Except RelayError Nat} (hidle : idleTimeout ≠ 0)
    (hrelaying : Relaying surroundings maxBytes idleTimeout pipe)
    (hfirst : pipe.first = some leftToRight)
    (hended : (pipe.directions leftToRight).program = done first)
    (hother : (pipe.directions (!leftToRight)).program = done second) :
    Accounts surroundings maxBytes idleTimeout pipe.directions
      (finishFirstDirection first second leftToRight) := by
  obtain ⟨result, hresult, hexplains⟩ := hrelaying.chosen leftToRight hfirst
  rw [hended] at hresult
  cases hresult
  cases first with
  | error error => exact hexplains error rfl
  | ok firstTotal =>
      cases second with
      | error error =>
          apply ((hrelaying.forwards (!leftToRight)).of_failed hother).explains
          intro hcancelled
          rcases hrelaying.caused hcancelled with hcancels |
            ⟨side, error, hside, hfailed⟩
          · exact hcancels
          · rw [hfirst] at hside
            cases hside
            rw [hended] at hfailed
            cases hfailed
      | ok secondTotal =>
          obtain ⟨hcloses, hsink, htotal⟩ :=
            (hrelaying.forwards leftToRight).of_returned hended
          obtain ⟨hotherCloses, hotherSink, hotherTotal⟩ :=
            (hrelaying.forwards (!leftToRight)).of_returned hother
          subst htotal hotherTotal
          refine ⟨hidle, ?_, fun side => ?_⟩
          · cases leftToRight
            · rfl
            · rfl
          · by_cases hside : side = leftToRight
            · subst hside
              exact ⟨hcloses, hsink⟩
            · obtain rfl := Bool.eq_not.mpr hside
              exact ⟨hotherCloses, hotherSink⟩

theorem step (hidle : idleTimeout ≠ 0)
    (hrelaying : Relaying surroundings maxBytes idleTimeout pipe)
    (hstep : Pipe.Step surroundings pipe next) :
    Relaying surroundings maxBytes idleTimeout next := by
  cases hstep with
  | direction hopen leftToRight hstep =>
      exact hrelaying.step_direction hopen hstep
  | cancel hopen hcancels _ => exact hrelaying.step_cancel hopen hcancels
  | select hopen hfirst leftToRight hended =>
      exact hrelaying.step_select hopen hfirst hended
  | finish _ hfirst hended hother =>
      have haccounts :=
        hrelaying.accounts_finish hidle hfirst hended hother
      refine ⟨hrelaying.forwards, hrelaying.caused, hrelaying.chosen, ?_⟩
      rintro result ⟨⟩
      exact haccounts

theorem of_reaches (hidle : idleTimeout ≠ 0)
    (hreaches : Pipe.Reaches surroundings
      (pipeOpaqueWithCancel surroundings.whole maxBytes idleTimeout) pipe) :
    Relaying surroundings maxBytes idleTimeout pipe := by
  induction hreaches with
  | refl => exact start hidle
  | tail _ hstep ih => exact ih.step hidle hstep

/-- A relay that stands still has returned, or waits for the rest of a stream
that neither ends nor gives more. -/
theorem settled
    (hrelaying : Relaying surroundings maxBytes idleTimeout pipe)
    (hsettled : pipe.Settled surroundings) (hopen : pipe.result = none) :
    pipe.cancelled = false ∧ ∃ leftToRight,
      ¬ surroundings.closes leftToRight ∧
        (pipe.directions leftToRight).sink =
          surroundings.whole leftToRight := by
  have hstuck (leftToRight : Bool) :=
    (hrelaying.forwards leftToRight).stuck fun _ hstep =>
      hsettled _ (.direction hopen leftToRight hstep)
  have hwaits {leftToRight : Bool}
      (hwaits : ¬ surroundings.closes leftToRight ∧ ¬ pipe.cancelled = true ∧
        (pipe.directions leftToRight).sink = surroundings.whole leftToRight) :
      pipe.cancelled = false ∧ ∃ leftToRight,
        ¬ surroundings.closes leftToRight ∧
          (pipe.directions leftToRight).sink =
            surroundings.whole leftToRight :=
    ⟨Bool.eq_false_iff.mpr hwaits.2.1, _, hwaits.1, hwaits.2.2⟩
  rcases hstuck true with ⟨first, hfirst⟩ | hfirst
  · cases hchosen : pipe.first with
    | none => exact absurd (.select hopen hchosen true hfirst) (hsettled _)
    | some leftToRight =>
        obtain ⟨result, hended, _⟩ := hrelaying.chosen leftToRight hchosen
        rcases hstuck (!leftToRight) with ⟨second, hsecond⟩ | hsecond
        · exact absurd (.finish hopen hchosen hended hsecond) (hsettled _)
        · exact hwaits hsecond
  · exact hwaits hfirst

/-- If nothing fails and both streams end, the lengths of both are returned if
they are within the limit. -/
theorem returns (hrelaying : Relaying surroundings maxBytes idleTimeout pipe)
    (hidle : idleTimeout ≠ 0) (hfaults : ¬ surroundings.faults)
    (hcancels : ¬ surroundings.cancels)
    (hcloses : ∀ leftToRight, surroundings.closes leftToRight)
    (hsettled : pipe.Settled surroundings) :
    pipe.result = some (
      if (surroundings.whole true).length ≤ maxBytes.toNat ∧
          (surroundings.whole false).length ≤ maxBytes.toNat then
        .ok ((surroundings.whole true).length,
          (surroundings.whole false).length)
      else .error .limitExceeded) := by
  cases hresult : pipe.result with
  | none =>
      obtain ⟨_, leftToRight, hstays, _⟩ :=
        hrelaying.settled hsettled hresult
      exact absurd (hcloses leftToRight) hstays
  | some result =>
      have haccounts := hrelaying.accounts result hresult
      cases result with
      | ok totals =>
          obtain ⟨_, rfl, hdelivered⟩ := haccounts
          have hfits (leftToRight : Bool) :
              (surroundings.whole leftToRight).length ≤ maxBytes.toNat := by
            rw [← (hdelivered leftToRight).2]
            exact (hrelaying.forwards leftToRight).sink_le.2
          rw [if_pos ⟨hfits true, hfits false⟩]
      | error error =>
          have hlimit : error = .limitExceeded ∧ ∃ leftToRight,
              maxBytes.toNat <
                (surroundings.whole leftToRight).length := by
            cases error with
            | limitExceeded => exact ⟨rfl, haccounts⟩
            | cancelled => exact absurd haccounts hcancels
            | idleTimeout => exact absurd haccounts hfaults
            | io => exact absurd haccounts hfaults
            | invalidTimeout => exact absurd haccounts hidle
            | backendTimeout => exact haccounts.elim
            | backend => exact haccounts.elim
          obtain ⟨rfl, leftToRight, hexceeds⟩ := hlimit
          rw [if_neg]
          rintro ⟨htrue, hfalse⟩
          cases leftToRight with
          | false => omega
          | true => omega

end Relaying

namespace Pipe

variable (surroundings : Surroundings)

/-- The turns of the relay itself that are still to come. -/
def pending (pipe : Pipe) : Nat :=
  (if pipe.cancelled then 0 else 1) + (if pipe.first.isSome then 0 else 1) +
    if pipe.result.isSome then 0 else 1

/-- No run goes on for ever. -/
theorem step_wellFounded :
    WellFounded fun next pipe : Pipe => Step surroundings pipe next := by
  let measure : Pipe →
      (Program RelayError Nat × Program RelayError Nat) × Nat :=
    fun pipe => (((pipe.directions true).program,
      (pipe.directions false).program), pipe.pending)
  apply Subrelation.wf ?_ (InvImage.wf measure (WellFounded.prod_gameAdd
    (WellFounded.prod_gameAdd attempts_wellFounded attempts_wellFounded)
    Nat.lt_wfRel.wf))
  intro next pipe hstep
  cases hstep with
  | direction hopen leftToRight hstep =>
      apply Prod.GameAdd.fst
      cases leftToRight with
      | false => exact Prod.GameAdd.snd hstep.attempts
      | true => exact Prod.GameAdd.fst hstep.attempts
  | cancel _ _ hfresh =>
      apply Prod.GameAdd.snd
      change pending _ < pending _
      simp only [pending, hfresh, if_true, Bool.false_eq_true, if_false]
      omega
  | select _ hfirst _ _ =>
      apply Prod.GameAdd.snd
      change pending _ < pending _
      simp only [pending, hfirst, Option.isSome]
      split <;> split <;> simp_all
  | finish hopen _ _ _ =>
      apply Prod.GameAdd.snd
      change pending _ < pending _
      simp only [pending, hopen, Option.isSome]
      simp

end Pipe

section Results

variable (surroundings : Surroundings) (maxBytes : UInt64)
  (idleTimeout : Duration)

theorem pipe_eq_start (hidle : idleTimeout = 0) {pipe : Pipe}
    (hreaches : Pipe.Reaches surroundings
      (pipeOpaqueWithCancel surroundings.whole maxBytes idleTimeout) pipe) :
    pipe = pipeOpaqueWithCancel surroundings.whole maxBytes idleTimeout := by
  have hreturned : (pipeOpaqueWithCancel surroundings.whole maxBytes
      idleTimeout).result = some (.error .invalidTimeout) := by
    rw [pipeOpaqueWithCancel, if_pos hidle]
  rcases ReflTransGen.cases_head hreaches with heq | ⟨next, hstep, _⟩
  · exact heq.symm
  · cases hstep <;> simp_all

/-- Whatever the streams do and whenever the relay is cancelled, each side gets
only what the other one has sent, in its order and within the limit; the end of
a stream is passed on after everything before it; and what is returned counts
all that was sent, or is an error for which there is a reason. -/
theorem opaque_relay_safe {pipe : Pipe}
    (hreaches : Pipe.Reaches surroundings
      (pipeOpaqueWithCancel surroundings.whole maxBytes idleTimeout) pipe) :
    (∀ leftToRight,
      (pipe.directions leftToRight).sink <+: surroundings.whole leftToRight ∧
      (pipe.directions leftToRight).sink.length ≤ maxBytes.toNat ∧
      ∀ total, (pipe.directions leftToRight).program = done (.ok total) →
        surroundings.closes leftToRight ∧
          (pipe.directions leftToRight).sink =
            surroundings.whole leftToRight ∧
          total = (surroundings.whole leftToRight).length) ∧
      ∀ result, pipe.result = some result →
        Accounts surroundings maxBytes idleTimeout pipe.directions result := by
  by_cases hidle : idleTimeout = 0
  · obtain rfl := pipe_eq_start surroundings maxBytes idleTimeout hidle hreaches
    refine ⟨fun leftToRight => ⟨List.nil_prefix, Nat.zero_le _, ?_⟩, ?_⟩
    · intro total hprogram
      simp only [pipeOpaqueWithCancel, forwardWithCancel, if_pos hidle]
        at hprogram
      cases hprogram
    · intro result hresult
      simp only [pipeOpaqueWithCancel, if_pos hidle] at hresult
      cases hresult
      exact hidle
  · have hrelaying := Relaying.of_reaches hidle hreaches
    refine ⟨fun leftToRight => ?_, hrelaying.accounts⟩
    have hforwards := hrelaying.forwards leftToRight
    obtain ⟨hsink, hlimit⟩ := hforwards.sink_le
    exact ⟨hsink, hlimit, fun total => hforwards.of_returned⟩

/-- No run goes on for ever, from any state.  A relay that has come to a stand
has returned, or waits for the rest of a stream that does not end; and if
nothing fails and both streams end, it returns their lengths if and only if
they are within the limit. -/
theorem opaque_relay_settles :
    (WellFounded fun next pipe => Pipe.Step surroundings pipe next) ∧
      ∀ pipe, Pipe.Reaches surroundings
          (pipeOpaqueWithCancel surroundings.whole maxBytes idleTimeout) pipe →
        pipe.Settled surroundings →
        (pipe.result = none → pipe.cancelled = false ∧ ∃ leftToRight,
          ¬ surroundings.closes leftToRight ∧
            (pipe.directions leftToRight).sink =
              surroundings.whole leftToRight) ∧
        (idleTimeout ≠ 0 → ¬ surroundings.faults → ¬ surroundings.cancels →
          (∀ leftToRight, surroundings.closes leftToRight) →
          pipe.result = some (
            if (surroundings.whole true).length ≤ maxBytes.toNat ∧
                (surroundings.whole false).length ≤ maxBytes.toNat then
              .ok ((surroundings.whole true).length,
                (surroundings.whole false).length)
            else .error .limitExceeded)) := by
  refine ⟨Pipe.step_wellFounded surroundings, fun pipe hreaches hsettled =>
    ⟨fun hopen => ?_, fun hidle hfaults hcancels hcloses => ?_⟩⟩
  · have hidle : idleTimeout ≠ 0 := by
      intro hidle
      obtain rfl :=
        pipe_eq_start surroundings maxBytes idleTimeout hidle hreaches
      simp only [pipeOpaqueWithCancel, if_pos hidle] at hopen
      cases hopen
    exact (Relaying.of_reaches hidle hreaches).settled hsettled hopen
  · have hrelaying := Relaying.of_reaches hidle hreaches
    exact hrelaying.returns hidle hfaults hcancels hcloses hsettled

theorem exists_settled (pipe : Pipe) :
    ∃ final, Pipe.Reaches surroundings pipe final ∧
      final.Settled surroundings := by
  induction pipe using (Pipe.step_wellFounded surroundings).induction with
  | _ pipe ih =>
      by_cases hsettled : pipe.Settled surroundings
      · exact ⟨pipe, ReflTransGen.refl, hsettled⟩
      · obtain ⟨next, hnext⟩ := not_forall.mp hsettled
        have hstep := not_not.mp hnext
        obtain ⟨final, hreaches, hfinal⟩ := ih next hstep
        exact ⟨final, ReflTransGen.head hstep hreaches, hfinal⟩

end Results

namespace RelayWitness

/-- One byte from left to right, and nothing back. -/
def surroundings : Surroundings :=
  { whole := fun leftToRight => if leftToRight then [7] else []
    closes := fun _ => True
    faults := False
    cancels := False }

def start : Pipe := pipeOpaqueWithCancel surroundings.whole 1 (30 * 10 ^ 9)

theorem returns {final : Pipe}
    (hreaches : Pipe.Reaches surroundings start final)
    (hsettled : final.Settled surroundings) :
    final.result = some (.ok (1, 0)) := by
  have hidle : (30 * 10 ^ 9 : Duration) ≠ 0 := by decide
  exact (Relaying.of_reaches hidle hreaches).returns hidle id id
    (fun _ => trivial) hsettled

end RelayWitness

theorem opaque_relay_safe_one : ∃ pipe,
    Pipe.Reaches RelayWitness.surroundings RelayWitness.start pipe ∧
      pipe.result = some (.ok (1, 0)) ∧ (pipe.directions true).sink = [7] := by
  obtain ⟨pipe, hreaches, hsettled⟩ :=
    exists_settled RelayWitness.surroundings RelayWitness.start
  have hresult := RelayWitness.returns hreaches hsettled
  have hsafe :=
    opaque_relay_safe RelayWitness.surroundings 1 (30 * 10 ^ 9) hreaches
  exact ⟨pipe, hreaches, hresult, ((hsafe.2 _ hresult).2.2 true).2⟩

theorem opaque_relay_settles_one : ∃ pipe,
    Pipe.Reaches RelayWitness.surroundings RelayWitness.start pipe ∧
      pipe.Settled RelayWitness.surroundings ∧
        pipe.result = some (.ok (1, 0)) := by
  obtain ⟨pipe, hreaches, hsettled⟩ :=
    exists_settled RelayWitness.surroundings RelayWitness.start
  have hsettles :=
    (opaque_relay_settles RelayWitness.surroundings 1 (30 * 10 ^ 9)).2 pipe
      hreaches hsettled
  exact ⟨pipe, hreaches, hsettled,
    hsettles.2 (by decide) id id fun _ => trivial⟩

end Shph.Edge
