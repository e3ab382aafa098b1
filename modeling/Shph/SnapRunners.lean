/-
The two loops over the candidates of a SNAP plan side by side: the one that
sends a payload and the one that sets up a session.  What they do is kept as a
list of attempts and sleeps, on which the clock and the ends of the attempts
depend.
-/
import Shph.Snap

namespace Shph.Snap

/-- What a loop does: an attempt under its timeout, or the delay before a
round. -/
inductive Action where
  | attempt (candidate : SnapCandidate) (timeout : Nat)
  | sleep (delay : Nat)
deriving Repr, DecidableEq

/-- Everything outside the two loops.  A shuffle keeps the candidates.  Of an
attempt it says how it ends and whether the payload may have been delivered by
then. -/
structure Oracle (H : Type) where
  elapsed : List Action → Nat
  delay : Nat → Nat
  shuffled : Nat → List SnapCandidate → List SnapCandidate
  shuffled_perm : ∀ round candidates,
    (shuffled round candidates).Perm candidates
  explicitTimeoutCapSecs : Option UInt64
  outcome : List Action → Except ShphError H × Bool
  auditContext : Except ShphError Unit
  certificate : Except ShphError Unit

structure Trace where
  attempt : Nat
  lastError : Option ShphError
  actions : List Action
deriving Repr, DecidableEq

namespace Trace

def start : Trace := ⟨0, none, []⟩

def tried (trace : Trace) (candidate : SnapCandidate) (timeout : Nat) :
    Trace :=
  { trace with
    attempt := trace.attempt + 1
    actions := trace.actions ++ [.attempt candidate timeout] }

def failed (trace : Trace) (error : ShphError) : Trace :=
  { trace with lastError := some error }

def slept (trace : Trace) (delay : Nat) : Trace :=
  { trace with actions := trace.actions ++ [.sleep delay] }

end Trace

section Loops

variable {H : Type} (plan : SnapPlan) (oracle : Oracle H)

/-- `budget.saturating_sub(started.elapsed())`. -/
def remainingBudget (trace : Trace) : Option Nat :=
  plan.retryPolicy.maxElapsed.map (· - oracle.elapsed trace.actions)

def attemptTimeout (candidate : SnapCandidate) (trace : Trace) : Option Nat :=
  snapCandidateAttemptTimeout plan candidate oracle.explicitTimeoutCapSecs
    (remainingBudget plan oracle trace)

def deniesFallback (previousFailed : Option SnapCandidate)
    (candidate : SnapCandidate) : Bool :=
  previousFailed.any fun previous =>
    !SnapPlan.candidateAllowsFallback previous candidate

/-- The candidates of a round in `send_snap_payload_with_plan`. -/
def sendCandidates : Option SnapCandidate → List SnapCandidate → Trace →
    Option (Except ShphError H) × Trace
  | _, [], trace => (none, trace)
  | previousFailed, candidate :: rest, trace =>
      if plan.attemptLimit ≤ trace.attempt then (none, trace)
      else if deniesFallback previousFailed candidate then
        sendCandidates previousFailed rest trace
      else
        let remaining := remainingBudget plan oracle trace
        if remaining.any (· < snapMinCandidateBudget) then (none, trace)
        else
          match attemptTimeout plan oracle candidate trace with
          | none => (none, trace)
          | some timeout =>
              if timeout < snapMinCandidateBudget then (none, trace)
              else
                match snapModeForAdapter candidate.adapter with
                | .error error => (some (.error error), trace)
                | .ok _ =>
                    let trace := trace.tried candidate timeout
                    match oracle.outcome trace.actions with
                    | (.ok state, _) => (some (.ok state), trace)
                    | (.error error, delivered) =>
                        if snapAttemptErrorIsRetryable error delivered then
                          let trace := trace.failed error
                          if plan.attemptLimit ≤ trace.attempt ∨
                              plan.retryPolicy.maxElapsed.any
                                (· ≤ oracle.elapsed trace.actions) then
                            (none, trace)
                          else sendCandidates (some candidate) rest trace
                        else (some (.error error), trace)

/-- The candidates of a round in `connect_snap_session`. -/
def connectCandidates : Option SnapCandidate → List SnapCandidate → Trace →
    Option (Except ShphError H) × Trace
  | _, [], trace => (none, trace)
  | previousFailed, candidate :: rest, trace =>
      if plan.attemptLimit ≤ trace.attempt then (none, trace)
      else
        let remaining := remainingBudget plan oracle trace
        if remaining.any (· < snapMinCandidateBudget) then (none, trace)
        else if deniesFallback previousFailed candidate then
          connectCandidates previousFailed rest trace
        else
          match attemptTimeout plan oracle candidate trace with
          | none => (none, trace)
          | some timeout =>
              match snapModeForAdapter candidate.adapter with
              | .error error =>
                  (some (.error error),
                    { trace with attempt := trace.attempt + 1 })
              | .ok _ =>
                  let trace := trace.tried candidate timeout
                  match (oracle.outcome trace.actions).1 with
                  | .ok state => (some (.ok state), trace)
                  | .error error =>
                      if snapErrorIsRetryable error then
                        connectCandidates (some candidate) rest
                          (trace.failed error)
                      else (some (.error error), trace)

/-- The delay before every round but the first. -/
def backOff (round : Nat) (trace : Trace) : Trace :=
  if 1 < round then trace.slept (oracle.delay round) else trace

/-- The rounds that are left of a send. -/
def sendRounds : Nat → Nat → Trace → Option (Except ShphError H) × Trace
  | 0, _, trace => (none, trace)
  | left + 1, round, trace =>
      if 1 < round ∧ plan.retryPolicy.maxElapsed.any
          (· ≤ oracle.elapsed trace.actions + oracle.delay round) then
        (none, trace)
      else
        match sendCandidates plan oracle none
            (plan.candidatesForRound oracle.shuffled round)
            (backOff oracle round trace) with
        | (some result, trace) => (some result, trace)
        | (none, trace) => sendRounds left (round + 1) trace

/-- The rounds that are left of a set-up. -/
def connectRounds : Nat → Nat → Trace → Option (Except ShphError H) × Trace
  | 0, _, trace => (none, trace)
  | left + 1, round, trace =>
      if 1 < round ∧ (remainingBudget plan oracle trace).any
          (· < oracle.delay round) then
        (none, trace)
      else
        match connectCandidates plan oracle none
            (plan.candidatesForRound oracle.shuffled round)
            (backOff oracle round trace) with
        | (some result, trace) => (some result, trace)
        | (none, trace) =>
            if plan.attemptLimit ≤ trace.attempt ∨
                plan.retryPolicy.maxElapsed.any
                  (· ≤ oracle.elapsed trace.actions) then
              (none, trace)
            else connectRounds left (round + 1) trace

/-- The result of a loop and what it did. -/
def finish (run : Option (Except ShphError H) × Trace) :
    Except ShphError H × List Action :=
  (run.1.getD (.error (run.2.lastError.getD .timeout)), run.2.actions)

def hasQuicStandard : Bool :=
  plan.candidates.any fun candidate => candidate.adapter == "quic-standard"

/-- `send_snap_payload_with_plan`. -/
def sendRun : Except ShphError H × List Action :=
  match validateSnapRuntime plan, oracle.auditContext with
  | .error error, _ => (.error error, [])
  | .ok _, .error error => (.error error, [])
  | .ok _, .ok _ =>
      if hasQuicStandard plan then
        finish (sendRounds plan oracle plan.retryPolicy.rounds.toNat 1 .start)
      else
        (.error (.unsupported
          "SNAP planned one-shot runtime requires a quic-standard candidate"),
          [])

/-- `connect_snap_session`.  The certificate is read when a candidate needs
it. -/
def connectRun : Except ShphError H × List Action :=
  match validateSnapRuntime plan, oracle.auditContext,
      if hasQuicStandard plan then oracle.certificate else .ok () with
  | .error error, _, _ => (.error error, [])
  | .ok _, .error error, _ => (.error error, [])
  | .ok _, .ok _, .error error => (.error error, [])
  | .ok _, .ok _, .ok _ =>
      finish (connectRounds plan oracle plan.retryPolicy.rounds.toNat 1 .start)

end Loops

section Conditions

variable {H : Type} (plan : SnapPlan) (oracle : Oracle H)

def Spent (trace : Trace) : Prop :=
  ∃ budget ∈ plan.retryPolicy.maxElapsed,
    budget ≤ oracle.elapsed trace.actions

/-- Less of the budget is left than an attempt needs. -/
def Short (trace : Trace) : Prop :=
  ∃ remaining ∈ remainingBudget plan oracle trace,
    remaining < snapMinCandidateBudget

/-- No candidate of the round whose turn comes is left with a timeout under
the least budget of an attempt. -/
def RoundInStep : Option SnapCandidate → List SnapCandidate → Trace → Prop
  | _, [], _ => True
  | previousFailed, candidate :: rest, trace =>
      plan.attemptLimit ≤ trace.attempt ∨
        (deniesFallback previousFailed candidate = true ∧
          RoundInStep previousFailed rest trace) ∨
        (deniesFallback previousFailed candidate = false ∧
          (Short plan oracle trace ∨
            ∀ timeout ∈ attemptTimeout plan oracle candidate trace,
              snapMinCandidateBudget ≤ timeout ∧
                ∀ error, (oracle.outcome
                    (trace.tried candidate timeout).actions).1 = .error error →
                  snapErrorIsRetryable error = true →
                    RoundInStep (some candidate) rest
                      ((trace.tried candidate timeout).failed error)))

/-- Before a round the two loops stop together: when the limit of attempts is
reached no time is left for the delay, and otherwise the delay does not use up
the budget to the nanosecond. -/
def BackoffInStep (round : Nat) (trace : Trace) : Prop :=
  if plan.attemptLimit ≤ trace.attempt then
    ∃ budget ∈ plan.retryPolicy.maxElapsed,
      budget ≤ oracle.elapsed trace.actions + oracle.delay round
  else
    ∀ budget ∈ plan.retryPolicy.maxElapsed,
      oracle.elapsed trace.actions < budget →
        oracle.elapsed trace.actions + oracle.delay round ≠ budget

/-- The delay before a round uses up the budget. -/
def SendStops (round : Nat) (trace : Trace) : Prop :=
  1 < round ∧ ∃ budget ∈ plan.retryPolicy.maxElapsed,
    budget ≤ oracle.elapsed trace.actions + oracle.delay round

/-- What has to hold in the rounds that are left. -/
def RunInStep : Nat → Nat → Trace → Prop
  | 0, _, _ => True
  | left + 1, round, trace =>
      (1 < round → BackoffInStep plan oracle round trace) ∧
        (SendStops plan oracle round trace ∨
          (RoundInStep plan oracle none
              (plan.candidatesForRound oracle.shuffled round)
              (backOff oracle round trace) ∧
            ∀ next, sendCandidates plan oracle none
                (plan.candidatesForRound oracle.shuffled round)
                (backOff oracle round trace) = (none, next) →
              RunInStep left (round + 1) next))

end Conditions

section Rounds

variable {H : Type} {plan : SnapPlan} {oracle : Oracle H}
  {previousFailed : Option SnapCandidate} {candidate : SnapCandidate}
  {candidates : List SnapCandidate} {trace : Trace}

theorem short_iff : Short plan oracle trace ↔
    (remainingBudget plan oracle trace).any
      (· < snapMinCandidateBudget) = true := by
  simp only [Short, Option.any_eq_true, decide_eq_true_eq]
  rfl

theorem spent_iff : Spent plan oracle trace ↔
    plan.retryPolicy.maxElapsed.any
      (· ≤ oracle.elapsed trace.actions) = true := by
  simp only [Spent, Option.any_eq_true, decide_eq_true_eq]
  rfl

/-- Nothing is left of a spent budget. -/
theorem Spent.short (hspent : Spent plan oracle trace) :
    Short plan oracle trace := by
  obtain ⟨budget, hbudget, helapsed⟩ := hspent
  refine ⟨0, ?_, by decide⟩
  rw [remainingBudget, Option.mem_def.mp hbudget, Option.map_some,
    Nat.sub_eq_zero_of_le helapsed]
  rfl

theorem sendCandidates_limit
    (hlimit : plan.attemptLimit ≤ trace.attempt) :
    sendCandidates plan oracle previousFailed candidates trace =
      (none, trace) := by
  cases candidates with
  | nil => rfl
  | cons candidate rest => rw [sendCandidates, if_pos hlimit]

theorem connectCandidates_limit
    (hlimit : plan.attemptLimit ≤ trace.attempt) :
    connectCandidates plan oracle previousFailed candidates trace =
      (none, trace) := by
  cases candidates with
  | nil => rfl
  | cons candidate rest => rw [connectCandidates, if_pos hlimit]

theorem connectCandidates_short (hshort : Short plan oracle trace) :
    connectCandidates plan oracle previousFailed candidates trace =
      (none, trace) := by
  cases candidates with
  | nil => rfl
  | cons candidate rest =>
      rw [connectCandidates]
      by_cases hlimit : plan.attemptLimit ≤ trace.attempt
      · rw [if_pos hlimit]
      · rw [if_neg hlimit]
        exact if_pos (short_iff.mp hshort)

/-- Without time no candidate is attempted, denied or not. -/
theorem sendCandidates_short (hshort : Short plan oracle trace) :
    sendCandidates plan oracle previousFailed candidates trace =
      (none, trace) ∧
        RoundInStep plan oracle previousFailed candidates trace := by
  induction candidates with
  | nil => exact ⟨rfl, trivial⟩
  | cons candidate rest ih =>
      rw [sendCandidates, RoundInStep]
      split_ifs with hlimit hdenied
      · exact ⟨rfl, .inl hlimit⟩
      · exact ⟨ih.1, .inr (.inl ⟨hdenied, ih.2⟩)⟩
      · exact ⟨if_pos (short_iff.mp hshort),
          .inr (.inr ⟨Bool.eq_false_iff.mpr hdenied, .inl hshort⟩)⟩

theorem tried_extends (timeout : Nat) :
    trace.actions <+: (trace.tried candidate timeout).actions :=
  List.prefix_append _ _

theorem connectCandidates_extends :
    trace.actions <+: (connectCandidates plan oracle previousFailed candidates
      trace).2.actions := by
  induction candidates generalizing previousFailed trace with
  | nil => exact List.prefix_rfl
  | cons candidate rest ih =>
      rw [connectCandidates]
      dsimp only
      split_ifs
      · exact List.prefix_rfl
      · exact List.prefix_rfl
      · exact ih
      · split
        · exact List.prefix_rfl
        · split
          · exact List.prefix_rfl
          · split
            · exact tried_extends _
            · split_ifs
              · exact (tried_extends _).trans
                  (@ih (some candidate) ((trace.tried candidate _).failed _))
              · exact tried_extends _

/-- A set-up makes an attempt whenever there is a timeout for it. -/
theorem connectCandidates_tries {mode : TransportMode} {timeout : Nat}
    (hlimit : ¬ plan.attemptLimit ≤ trace.attempt)
    (hshort : ¬ Short plan oracle trace)
    (hdenied : deniesFallback previousFailed candidate = false)
    (htimeout : attemptTimeout plan oracle candidate trace = some timeout)
    (hmode : snapModeForAdapter candidate.adapter = .ok mode) :
    (trace.tried candidate timeout).actions <+:
      (connectCandidates plan oracle previousFailed (candidate :: candidates)
        trace).2.actions := by
  rw [connectCandidates, if_neg hlimit]
  dsimp only
  rw [if_neg (mt short_iff.mpr hshort), hdenied,
    if_neg Bool.false_ne_true, htimeout]
  dsimp only
  rw [hmode]
  dsimp only
  split
  · exact List.prefix_rfl
  · split_ifs
    · exact @connectCandidates_extends _ _ _ _ _
        ((trace.tried candidate timeout).failed _)
    · exact List.prefix_rfl

theorem sendCandidates_extends :
    trace.actions <+: (sendCandidates plan oracle previousFailed candidates
      trace).2.actions := by
  induction candidates generalizing previousFailed trace with
  | nil => exact List.prefix_rfl
  | cons candidate rest ih =>
      rw [sendCandidates]
      dsimp only
      split_ifs
      · exact List.prefix_rfl
      · exact ih
      · exact List.prefix_rfl
      · split
        · exact List.prefix_rfl
        · split_ifs
          · exact List.prefix_rfl
          · split
            · exact List.prefix_rfl
            · split
              · exact tried_extends _
              · split_ifs
                · exact tried_extends _
                · exact (tried_extends _).trans
                    (@ih (some candidate) ((trace.tried candidate _).failed _))
                · exact tried_extends _

/-- After an attempt that used up the limit or the time neither loop makes
another one. -/
theorem stops_after (hstop : plan.attemptLimit ≤ trace.attempt ∨
    plan.retryPolicy.maxElapsed.any
      (· ≤ oracle.elapsed trace.actions) = true) :
    RoundInStep plan oracle previousFailed candidates trace ∧
      connectCandidates plan oracle previousFailed candidates trace =
        (none, trace) := by
  rcases hstop with hlimit | hspent
  · refine ⟨?_, connectCandidates_limit hlimit⟩
    cases candidates with
    | nil => exact trivial
    | cons candidate rest => exact .inl hlimit
  · have hshort := (spent_iff.mpr hspent).short
    exact ⟨(sendCandidates_short hshort).2, connectCandidates_short hshort⟩

/-- The end of an attempt as both loops see it. -/
def Undelivered (oracle : Oracle H) : Prop :=
  ∀ actions error delivered,
    oracle.outcome actions = (.error error, delivered) → delivered = false

/-- In a round the two loops do the same, or the set-up makes an attempt where
the send ends the round. -/
theorem round_cases (hundelivered : Undelivered oracle)
    (hmodes : ∀ candidate ∈ candidates,
      ∃ mode, snapModeForAdapter candidate.adapter = .ok mode) :
    (RoundInStep plan oracle previousFailed candidates trace ∧
        connectCandidates plan oracle previousFailed candidates trace =
          sendCandidates plan oracle previousFailed candidates trace) ∨
      (¬ RoundInStep plan oracle previousFailed candidates trace ∧
        ∃ next, sendCandidates plan oracle previousFailed candidates trace =
            (none, next) ∧
          ∃ candidate timeout, (next.tried candidate timeout).actions <+:
            (connectCandidates plan oracle previousFailed candidates
              trace).2.actions) := by
  induction candidates generalizing previousFailed trace with
  | nil => exact .inl ⟨trivial, rfl⟩
  | cons candidate rest ih =>
      have hrest : ∀ other ∈ rest,
          ∃ mode, snapModeForAdapter other.adapter = .ok mode :=
        fun other hother => hmodes other (List.mem_cons_of_mem _ hother)
      obtain ⟨mode, hmode⟩ := hmodes candidate List.mem_cons_self
      by_cases hlimit : plan.attemptLimit ≤ trace.attempt
      · rw [connectCandidates_limit hlimit, sendCandidates_limit hlimit]
        exact .inl ⟨.inl hlimit, rfl⟩
      by_cases hshort : Short plan oracle trace
      · obtain ⟨hsend, hstep⟩ := @sendCandidates_short _ plan oracle
          previousFailed (candidate :: rest) trace hshort
        rw [connectCandidates_short hshort, hsend]
        exact .inl ⟨hstep, rfl⟩
      have hremaining : ¬ (remainingBudget plan oracle trace).any
          (· < snapMinCandidateBudget) = true := mt short_iff.mpr hshort
      rw [connectCandidates, if_neg hlimit, sendCandidates, if_neg hlimit]
      dsimp only
      rw [if_neg hremaining, if_neg hremaining, RoundInStep,
        or_iff_right hlimit]
      by_cases hdenied : deniesFallback previousFailed candidate = true
      · rw [if_pos hdenied, if_pos hdenied]
        simp only [hdenied, true_and, Bool.true_eq_false, false_and, or_false]
        exact ih hrest
      rw [if_neg hdenied, if_neg hdenied]
      rw [Bool.not_eq_true] at hdenied
      simp only [hdenied, Bool.false_eq_true, false_and, true_and, false_or,
        hshort]
      cases htimeout : attemptTimeout plan oracle candidate trace with
      | none => exact .inl ⟨fun _ hnone => (by cases hnone), rfl⟩
      | some timeout =>
          simp only [Option.mem_def, Option.some.injEq, forall_eq', hmode]
          by_cases hleast : timeout < snapMinCandidateBudget
          · rw [if_pos hleast]
            refine .inr ⟨fun hstep => absurd hstep.1 (Nat.not_le.mpr hleast),
              trace, rfl, candidate, timeout, ?_⟩
            split
            · exact List.prefix_rfl
            · split_ifs
              · exact @connectCandidates_extends _ _ _ _ _
                  ((trace.tried candidate timeout).failed _)
              · exact List.prefix_rfl
          · rw [if_neg hleast]
            simp only [Nat.not_lt.mp hleast, true_and]
            cases houtcome : oracle.outcome
                (trace.tried candidate timeout).actions with
            | mk result delivered =>
                cases result with
                | ok state => exact .inl ⟨by simp, rfl⟩
                | error error =>
                    have hretry : snapAttemptErrorIsRetryable error
                        delivered = snapErrorIsRetryable error := by
                      rw [hundelivered _ _ _ houtcome]
                      rfl
                    simp only [hretry, Except.error.injEq, forall_eq']
                    by_cases hagain : snapErrorIsRetryable error = true
                    · rw [if_pos hagain, if_pos hagain]
                      simp only [hagain, forall_const]
                      have hnext := @ih (some candidate)
                        ((trace.tried candidate timeout).failed error) hrest
                      generalize (trace.tried candidate timeout).failed error =
                        next at hnext ⊢
                      split_ifs with hstop
                      · exact .inl (stops_after hstop)
                      · exact hnext
                    · rw [if_neg hagain, if_neg hagain]
                      exact .inl ⟨fun hretried => absurd hretried hagain, rfl⟩

end Rounds

section Runs

variable {H : Type} {plan : SnapPlan} {oracle : Oracle H} {left round : Nat}
  {trace : Trace}

/-- The rest of a set-up after a round without a result. -/
def connectRest (plan : SnapPlan) (oracle : Oracle H) (left round : Nat)
    (trace : Trace) : Option (Except ShphError H) × Trace :=
  if plan.attemptLimit ≤ trace.attempt ∨ plan.retryPolicy.maxElapsed.any
      (· ≤ oracle.elapsed trace.actions) then
    (none, trace)
  else connectRounds plan oracle left round trace

theorem backOff_extends :
    trace.actions <+: (backOff oracle round trace).actions := by
  unfold backOff
  split_ifs
  · exact List.prefix_append _ _
  · exact List.prefix_rfl

theorem sendRounds_extends :
    trace.actions <+: (sendRounds plan oracle left round trace).2.actions := by
  induction left generalizing round trace with
  | zero => exact List.prefix_rfl
  | succ left ih =>
      have hround := backOff_extends.trans (@sendCandidates_extends _ plan
        oracle none (plan.candidatesForRound oracle.shuffled round)
        (backOff oracle round trace))
      rw [sendRounds]
      split_ifs
      · exact List.prefix_rfl
      · split
        · rename_i hsend
          rw [hsend] at hround
          exact hround
        · rename_i hsend
          rw [hsend] at hround
          exact hround.trans ih

theorem connectRounds_extends :
    trace.actions <+:
      (connectRounds plan oracle left round trace).2.actions := by
  induction left generalizing round trace with
  | zero => exact List.prefix_rfl
  | succ left ih =>
      have hround := backOff_extends.trans (@connectCandidates_extends _ plan
        oracle none (plan.candidatesForRound oracle.shuffled round)
        (backOff oracle round trace))
      rw [connectRounds]
      split_ifs
      · exact List.prefix_rfl
      · split
        · rename_i hconnect
          rw [hconnect] at hround
          exact hround
        · rename_i hconnect
          rw [hconnect] at hround
          split_ifs
          · exact hround
          · exact hround.trans ih

theorem connectRest_extends :
    trace.actions <+: (connectRest plan oracle left round trace).2.actions := by
  unfold connectRest
  split_ifs
  · exact List.prefix_rfl
  · exact connectRounds_extends

/-- A result ends the loop, and without one the next rounds follow. -/
def thenRounds (run : Option (Except ShphError H) × Trace)
    (next : Trace → Option (Except ShphError H) × Trace) :
    Option (Except ShphError H) × Trace :=
  match run with
  | (some result, trace) => (some result, trace)
  | (none, trace) => next trace

theorem sendStops_iff : SendStops plan oracle round trace ↔
    1 < round ∧ plan.retryPolicy.maxElapsed.any
      (· ≤ oracle.elapsed trace.actions + oracle.delay round) = true := by
  simp only [SendStops, Option.any_eq_true, decide_eq_true_eq]
  rfl

theorem sendRounds_go (hgoes : ¬ SendStops plan oracle round trace) :
    sendRounds plan oracle (left + 1) round trace =
      thenRounds (sendCandidates plan oracle none
        (plan.candidatesForRound oracle.shuffled round)
        (backOff oracle round trace))
          (sendRounds plan oracle left (round + 1)) := by
  rw [sendRounds, if_neg (mt sendStops_iff.mpr hgoes)]
  rfl

theorem sendRounds_stop (hstops : SendStops plan oracle round trace) :
    sendRounds plan oracle left round trace = (none, trace) := by
  cases left with
  | zero => rfl
  | succ left => rw [sendRounds, if_pos (sendStops_iff.mp hstops)]

/-- What follows a later round begins with the sleep before it. -/
theorem thenRounds_sleeps {run : Option (Except ShphError H) × Trace}
    {next : Trace → Option (Except ShphError H) × Trace} (hround : 1 < round)
    (hrun : (backOff oracle round trace).actions <+: run.2.actions)
    (hnext : ∀ reached, reached.actions <+: (next reached).2.actions) :
    (trace.slept (oracle.delay round)).actions <+:
      (thenRounds run next).2.actions := by
  rw [backOff, if_pos hround] at hrun
  obtain ⟨result, reached⟩ := run
  cases result with
  | some result => exact hrun
  | none => exact hrun.trans (hnext reached)

/-- A send that goes on to another round sleeps first. -/
theorem sendRounds_sleeps (hround : 1 < round)
    (hgoes : ¬ SendStops plan oracle round trace) :
    (trace.slept (oracle.delay round)).actions <+:
      (sendRounds plan oracle (left + 1) round trace).2.actions := by
  rw [sendRounds_go hgoes]
  exact thenRounds_sleeps hround sendCandidates_extends fun _ =>
    sendRounds_extends

/-- Then it does what was done before the round, or a sleep follows. -/
theorem sendRounds_tail (hround : 1 < round) :
    (sendRounds plan oracle left round trace).2.actions = trace.actions ∨
      ∃ delay, (trace.slept delay).actions <+:
        (sendRounds plan oracle left round trace).2.actions := by
  cases left with
  | zero => exact .inl rfl
  | succ left =>
      by_cases hstops : SendStops plan oracle round trace
      · exact .inl (by rw [sendRounds_stop hstops])
      · exact .inr ⟨_, sendRounds_sleeps hround hstops⟩

/-- Two continuations that begin with different actions are different. -/
theorem actions_ne {front left right : List Action} {first second : Action}
    (hleft : front ++ [first] <+: left) (hright : front ++ [second] <+: right)
    (hne : first ≠ second) : left ≠ right := by
  rintro rfl
  have hlength : (front ++ [first]).length = (front ++ [second]).length := by
    simp
  have hsame := (List.prefix_of_prefix_length_le hleft hright
    hlength.le).eq_of_length hlength
  exact hne (by simpa using hsame)

theorem actions_ne_of_longer {front longer : List Action} {action : Action}
    (hlonger : front ++ [action] <+: longer) : front ≠ longer := by
  rintro rfl
  have hlength := hlonger.length_le
  simp at hlength

/-- The delay is longer than what is left of the budget. -/
def ConnectStops (plan : SnapPlan) (oracle : Oracle H) (round : Nat)
    (trace : Trace) : Prop :=
  1 < round ∧ ∃ remaining ∈ remainingBudget plan oracle trace,
    remaining < oracle.delay round

theorem connectStops_iff : ConnectStops plan oracle round trace ↔
    1 < round ∧ (remainingBudget plan oracle trace).any
      (· < oracle.delay round) = true := by
  simp only [ConnectStops, Option.any_eq_true, decide_eq_true_eq]
  rfl

theorem connectRounds_go (hgoes : ¬ ConnectStops plan oracle round trace) :
    connectRounds plan oracle (left + 1) round trace =
      thenRounds (connectCandidates plan oracle none
        (plan.candidatesForRound oracle.shuffled round)
        (backOff oracle round trace))
          (connectRest plan oracle left (round + 1)) := by
  rw [connectRounds, if_neg (mt connectStops_iff.mpr hgoes)]
  rfl

theorem connectRounds_stop (hstops : ConnectStops plan oracle round trace) :
    connectRounds plan oracle left round trace = (none, trace) := by
  cases left with
  | zero => rfl
  | succ left => rw [connectRounds, if_pos (connectStops_iff.mp hstops)]

/-- The two loops are in step and come to the same end, or they are not and
have done different things. -/
def Compared (inStep : Prop) (send connect : Option (Except ShphError H) × Trace) :
    Prop :=
  (inStep ∧ connect = send) ∨
    (¬ inStep ∧ send.2.actions ≠ connect.2.actions)

/-- What a round decides about the rest of the two loops. -/
theorem thenRounds_compared (hround : 1 ≤ round)
    (hundelivered : Undelivered oracle)
    (hmodes : ∀ candidate ∈ plan.candidatesForRound oracle.shuffled round,
      ∃ mode, snapModeForAdapter candidate.adapter = .ok mode)
    (hnext : ∀ next, Compared (RunInStep plan oracle left (round + 1) next)
      (sendRounds plan oracle left (round + 1) next)
      (connectRest plan oracle left (round + 1) next)) :
    Compared
      (RoundInStep plan oracle none
          (plan.candidatesForRound oracle.shuffled round) trace ∧
        ∀ next, sendCandidates plan oracle none
            (plan.candidatesForRound oracle.shuffled round) trace =
              (none, next) → RunInStep plan oracle left (round + 1) next)
      (thenRounds (sendCandidates plan oracle none
        (plan.candidatesForRound oracle.shuffled round) trace)
          (sendRounds plan oracle left (round + 1)))
      (thenRounds (connectCandidates plan oracle none
        (plan.candidatesForRound oracle.shuffled round) trace)
          (connectRest plan oracle left (round + 1))) := by
  rcases @round_cases _ plan oracle none _ trace hundelivered hmodes with
    ⟨hstep, hsame⟩ | ⟨hstep, next, hsend, candidate, timeout, hconnect⟩
  · rw [hsame]
    cases hsend : sendCandidates plan oracle none
        (plan.candidatesForRound oracle.shuffled round) trace with
    | mk result next =>
        cases result with
        | some result =>
            exact .inl ⟨⟨hstep, fun _ hnone => by cases hnone⟩, rfl⟩
        | none =>
            rcases hnext next with ⟨hrest, hequal⟩ | ⟨hrest, hdiffer⟩
            · refine .inl ⟨⟨hstep, fun other hother => ?_⟩, hequal⟩
              cases hother
              exact hrest
            · exact .inr ⟨fun hboth => hrest (hboth.2 next rfl), hdiffer⟩
  · refine .inr ⟨fun hboth => hstep hboth.1, ?_⟩
    have hlonger : (next.tried candidate timeout).actions <+:
        (thenRounds (connectCandidates plan oracle none
          (plan.candidatesForRound oracle.shuffled round) trace)
            (connectRest plan oracle left (round + 1))).2.actions := by
      cases hrun : connectCandidates plan oracle none
          (plan.candidatesForRound oracle.shuffled round) trace with
      | mk result reached =>
          rw [hrun] at hconnect
          cases result with
          | some result => exact hconnect
          | none => exact hconnect.trans connectRest_extends
    rw [hsend]
    rcases @sendRounds_tail _ plan oracle left (round + 1) next
      (Nat.lt_succ_of_le hround) with hstays | ⟨delay, hsleeps⟩
    · change (sendRounds plan oracle left (round + 1) next).2.actions ≠ _
      rw [hstays]
      exact actions_ne_of_longer hlonger
    · exact actions_ne hsleeps hlonger (by simp)

/-- The limit or the budget is used up, or the delay does not fit. -/
def ConnectEnds (plan : SnapPlan) (oracle : Oracle H) (round : Nat)
    (trace : Trace) : Prop :=
  plan.attemptLimit ≤ trace.attempt ∨ Spent plan oracle trace ∨
    ConnectStops plan oracle round trace

theorem connectRest_end (hends : ConnectEnds plan oracle round trace) :
    connectRest plan oracle left round trace = (none, trace) := by
  unfold connectRest
  split_ifs with hstop
  · rfl
  · rw [← spent_iff, not_or] at hstop
    rcases hends with hlimit | hspent | hdelay
    · exact absurd hlimit hstop.1
    · exact absurd hspent hstop.2
    · exact connectRounds_stop hdelay

theorem connectRest_go (hgoes : ¬ ConnectEnds plan oracle round trace) :
    connectRest plan oracle (left + 1) round trace =
      thenRounds (connectCandidates plan oracle none
        (plan.candidatesForRound oracle.shuffled round)
        (backOff oracle round trace))
          (connectRest plan oracle left (round + 1)) := by
  rw [ConnectEnds, not_or, not_or] at hgoes
  have hstop : ¬ (plan.attemptLimit ≤ trace.attempt ∨
      plan.retryPolicy.maxElapsed.any
        (· ≤ oracle.elapsed trace.actions) = true) := by
    rw [← spent_iff, not_or]
    exact ⟨hgoes.1, hgoes.2.1⟩
  have hrounds := @connectRounds_go _ plan oracle left round trace hgoes.2.2
  rw [← hrounds, connectRest, if_neg hstop]

/-- A set-up that goes on to another round sleeps first. -/
theorem connectRest_sleeps (hround : 1 < round)
    (hgoes : ¬ ConnectEnds plan oracle round trace) :
    (trace.slept (oracle.delay round)).actions <+:
      (connectRest plan oracle (left + 1) round trace).2.actions := by
  rw [connectRest_go hgoes]
  exact thenRounds_sleeps hround connectCandidates_extends fun _ =>
    connectRest_extends

/-- Before a later round the loops are in step exactly when both go on or both
end. -/
theorem backoffInStep_iff (hround : 1 < round) :
    BackoffInStep plan oracle round trace ↔
      (SendStops plan oracle round trace ↔
        ConnectEnds plan oracle round trace) := by
  simp only [BackoffInStep, SendStops, ConnectEnds, ConnectStops, Spent,
    remainingBudget, hround, true_and]
  cases plan.retryPolicy.maxElapsed with
  | none => split_ifs with hlimit <;> simp [hlimit]
  | some budget =>
      simp only [Option.mem_def, Option.some.injEq, exists_eq_left',
        forall_eq', Option.map_some]
      split_ifs with hlimit
      · simp [hlimit]
      · simp only [hlimit, false_or]
        omega

theorem run_compared (hundelivered : Undelivered oracle)
    (hmodes : ∀ round, ∀ candidate ∈ plan.candidatesForRound oracle.shuffled
      round, ∃ mode, snapModeForAdapter candidate.adapter = .ok mode)
    (hround : 1 < round) :
    Compared (RunInStep plan oracle left round trace)
      (sendRounds plan oracle left round trace)
      (connectRest plan oracle left round trace) := by
  induction left generalizing round trace with
  | zero =>
      refine .inl ⟨trivial, ?_⟩
      unfold connectRest
      split_ifs
      · rfl
      · rfl
  | succ left ih =>
      have hrest : ∀ next,
          Compared (RunInStep plan oracle left (round + 1) next)
            (sendRounds plan oracle left (round + 1) next)
            (connectRest plan oracle left (round + 1) next) :=
        fun next => ih (Nat.lt_succ_of_lt hround)
      have hafter := @thenRounds_compared _ plan oracle left round
        (backOff oracle round trace) hround.le hundelivered (hmodes round)
        hrest
      by_cases hsend : SendStops plan oracle round trace
      · rw [sendRounds_stop hsend]
        by_cases hconnect : ConnectEnds plan oracle round trace
        · rw [connectRest_end hconnect]
          exact .inl ⟨⟨fun _ => (backoffInStep_iff hround).mpr
            (iff_of_true hsend hconnect), .inl hsend⟩, rfl⟩
        · refine .inr ⟨fun hstep => hconnect (((backoffInStep_iff hround).mp
            (hstep.1 hround)).mp hsend), ?_⟩
          exact actions_ne_of_longer (connectRest_sleeps hround hconnect)
      · by_cases hconnect : ConnectEnds plan oracle round trace
        · rw [connectRest_end hconnect]
          refine .inr ⟨fun hstep => hsend (((backoffInStep_iff hround).mp
            (hstep.1 hround)).mpr hconnect), ?_⟩
          exact (actions_ne_of_longer (sendRounds_sleeps hround hsend)).symm
        · rw [sendRounds_go hsend, connectRest_go hconnect]
          have hstep : RunInStep plan oracle (left + 1) round trace ↔
              (RoundInStep plan oracle none
                  (plan.candidatesForRound oracle.shuffled round)
                  (backOff oracle round trace) ∧
                ∀ next, sendCandidates plan oracle none
                    (plan.candidatesForRound oracle.shuffled round)
                    (backOff oracle round trace) = (none, next) →
                  RunInStep plan oracle left (round + 1) next) := by
            rw [RunInStep, or_iff_right hsend]
            exact and_iff_right fun _ => (backoffInStep_iff hround).mpr
              (iff_of_false hsend hconnect)
          unfold Compared
          rw [hstep]
          exact hafter

theorem mem_candidatesForRound {candidate : SnapCandidate}
    (hcandidate : candidate ∈ plan.candidatesForRound oracle.shuffled round) :
    candidate ∈ plan.candidates := by
  unfold SnapPlan.candidatesForRound at hcandidate
  split_ifs at hcandidate
  · exact hcandidate
  · split at hcandidate
    · exact hcandidate
    · exact List.mem_rotate.mp hcandidate
    · exact (oracle.shuffled_perm _ _).mem_iff.mp hcandidate

/-- Every adapter of a plan that can be run has a mode. -/
theorem mode_of_validated (hvalid : validateSnapRuntime plan = .ok ())
    {candidate : SnapCandidate} (hcandidate : candidate ∈ plan.candidates) :
    ∃ mode, snapModeForAdapter candidate.adapter = .ok mode := by
  have hall : ∀ candidates : List SnapCandidate,
      candidates.forM validateSnapCandidate = .ok () →
        ∀ candidate ∈ candidates, validateSnapCandidate candidate = .ok () := by
    intro candidates hchecked
    induction candidates with
    | nil => exact fun _ hmem => absurd hmem List.not_mem_nil
    | cons first rest ih =>
        change (validateSnapCandidate first >>= fun _ =>
          rest.forM validateSnapCandidate) = _ at hchecked
        rw [bind_eq_ok_iff] at hchecked
        obtain ⟨_, hfirst, hrest⟩ := hchecked
        exact List.forall_mem_cons.mpr ⟨hfirst, ih hrest⟩
  have hchecked := hall _ hvalid candidate hcandidate
  simp only [validateSnapCandidate, bind_eq_ok_iff, ensure_eq_ok_iff,
    exists_const] at hchecked
  obtain ⟨-, transport, htransport, -⟩ := hchecked
  unfold expectedTransport at htransport
  unfold snapModeForAdapter
  split_ifs at htransport with htcp honion hother
  · exact ⟨.tcp, if_pos (by rw [htcp]; decide)⟩
  · refine ⟨.tcp, if_pos ?_⟩
    simp only [List.mem_cons, List.not_mem_nil, or_false] at honion ⊢
    exact .inr honion
  · simp only [List.mem_cons, List.not_mem_nil, or_false] at hother
    rcases hother with hadapter | hadapter | hadapter | hadapter
    · exact ⟨.quic, by rw [hadapter]; rfl⟩
    · exact ⟨.quicStandard, by rw [hadapter]; rfl⟩
    · exact ⟨.offlineMesh, by rw [hadapter]; rfl⟩
    · exact ⟨.dataMule, by rw [hadapter]; rfl⟩

/-- A set-up that does nothing: no attempt in the first round, and the end
before the first delay. -/
def Idle (plan : SnapPlan) (oracle : Oracle H) : Prop :=
  (∀ candidate ∈ (plan.candidatesForRound oracle.shuffled 1).head?,
      plan.attemptLimit = 0 ∨ Short plan oracle .start ∨
        attemptTimeout plan oracle candidate .start =
          none) ∧
    (plan.retryPolicy.rounds.toNat ≤ 1 ∨ ConnectEnds plan oracle 2 .start)

/-- What the two loops ask for to do the same.  A send refuses a plan without
a standard QUIC candidate before it does anything. -/
def InStep (plan : SnapPlan) (oracle : Oracle H) : Prop :=
  validateSnapRuntime plan = .ok () → oracle.auditContext = .ok () →
    if hasQuicStandard plan then
      RunInStep plan oracle plan.retryPolicy.rounds.toNat 1 .start
    else Idle plan oracle

theorem idle_iff (hrounds : 1 ≤ plan.retryPolicy.rounds.toNat)
    (hmodes : ∀ candidate ∈ plan.candidatesForRound oracle.shuffled 1,
      ∃ mode, snapModeForAdapter candidate.adapter = .ok mode) :
    (connectRounds plan oracle plan.retryPolicy.rounds.toNat 1
        .start).2.actions = [] ↔ Idle plan oracle := by
  obtain ⟨left, hleft⟩ := Nat.exists_eq_add_of_le' hrounds
  have hgoes : ¬ ConnectStops plan oracle 1 .start :=
    fun hstops => absurd hstops.1 (by decide)
  have hstart : backOff oracle 1 .start = .start := rfl
  rw [Idle, hleft, connectRounds_go hgoes, hstart]
  by_cases hfirst : ∀ candidate ∈
      (plan.candidatesForRound oracle.shuffled 1).head?,
      plan.attemptLimit = 0 ∨ Short plan oracle .start ∨
        attemptTimeout plan oracle candidate .start =
          none
  · have hnothing : connectCandidates plan oracle none
        (plan.candidatesForRound oracle.shuffled 1) .start =
          (none, .start) := by
      cases hcandidates : plan.candidatesForRound oracle.shuffled 1 with
      | nil => rfl
      | cons candidate rest =>
          rw [hcandidates] at hfirst
          by_cases hlimit : plan.attemptLimit ≤ Trace.start.attempt
          · exact connectCandidates_limit hlimit
          by_cases hshort : Short plan oracle .start
          · exact connectCandidates_short hshort
          have hnone : attemptTimeout plan oracle candidate .start = none := by
            rcases hfirst candidate rfl with hzero | hlittle | hnone
            · exact absurd hzero.le hlimit
            · exact absurd hlittle hshort
            · exact hnone
          rw [connectCandidates, if_neg hlimit]
          dsimp only
          rw [if_neg (mt short_iff.mpr hshort), if_neg (by
            exact Bool.false_ne_true), hnone]
    rw [hnothing, thenRounds, and_iff_right hfirst]
    cases left with
    | zero =>
        have hends : connectRest plan oracle 0 2 .start =
            (none, Trace.start) := by
          unfold connectRest
          split_ifs
          · rfl
          · rfl
        rw [hends]
        exact iff_of_true rfl (.inl (Nat.le_refl _))
    | succ left =>
        rw [or_iff_right (by omega)]
        by_cases hends : ConnectEnds plan oracle 2 .start
        · rw [connectRest_end hends]
          exact iff_of_true rfl hends
        · have hlonger := @connectRest_sleeps _ plan oracle left 2 .start
            (by decide) hends
          refine iff_of_false (fun hempty => ?_) hends
          exact actions_ne_of_longer hlonger hempty.symm
  · rw [and_iff_left_of_imp fun hboth => absurd hboth hfirst]
    refine iff_of_false (fun hempty => ?_) hfirst
    simp only [not_forall, not_or] at hfirst
    obtain ⟨candidate, hcandidate, hlimit, hshort, hnone⟩ := hfirst
    obtain ⟨rest, hcandidates⟩ := List.head?_eq_some_iff.mp hcandidate
    obtain ⟨timeout, htimeout⟩ := Option.ne_none_iff_exists'.mp hnone
    obtain ⟨mode, hmode⟩ := hmodes candidate (by rw [hcandidates]; simp)
    have htries := @connectCandidates_tries _ plan oracle none candidate rest
      .start mode timeout (fun hle => hlimit (Nat.le_zero.mp hle)) hshort rfl
      htimeout hmode
    rw [hcandidates] at hempty
    cases hrun : connectCandidates plan oracle none (candidate :: rest)
        .start with
    | mk result reached =>
        rw [hrun] at hempty htries
        cases result with
        | some result =>
            exact actions_ne_of_longer htries hempty.symm
        | none =>
            exact actions_ne_of_longer (htries.trans connectRest_extends)
              hempty.symm

theorem first_compared (hundelivered : Undelivered oracle)
    (hmodes : ∀ round, ∀ candidate ∈ plan.candidatesForRound oracle.shuffled
      round, ∃ mode, snapModeForAdapter candidate.adapter = .ok mode)
    (hrounds : 1 ≤ plan.retryPolicy.rounds.toNat) :
    Compared (RunInStep plan oracle plan.retryPolicy.rounds.toNat 1 .start)
      (sendRounds plan oracle plan.retryPolicy.rounds.toNat 1 .start)
      (connectRounds plan oracle plan.retryPolicy.rounds.toNat 1 .start) := by
  obtain ⟨left, hleft⟩ := Nat.exists_eq_add_of_le' hrounds
  have hsend : ¬ SendStops plan oracle 1 .start :=
    fun hstops => absurd hstops.1 (by decide)
  have hconnect : ¬ ConnectStops plan oracle 1 .start :=
    fun hstops => absurd hstops.1 (by decide)
  have hstep : RunInStep plan oracle (left + 1) 1 .start ↔
      (RoundInStep plan oracle none
          (plan.candidatesForRound oracle.shuffled 1) .start ∧
        ∀ next, sendCandidates plan oracle none
            (plan.candidatesForRound oracle.shuffled 1) .start =
              (none, next) → RunInStep plan oracle left 2 next) := by
    rw [RunInStep, or_iff_right hsend]
    exact and_iff_right fun hround => absurd hround (by decide)
  rw [hleft, sendRounds_go hsend, connectRounds_go hconnect]
  unfold Compared
  rw [hstep]
  exact thenRounds_compared (Nat.le_refl 1) hundelivered (hmodes 1)
    fun next => run_compared hundelivered hmodes (by decide)

/-- The two loops attempt the same candidates under the same timeouts and sleep
alike exactly when they stay in step. -/
theorem runners_agree_iff (hundelivered : Undelivered oracle)
    (hcertificate : oracle.certificate = .ok ())
    (hrounds : 1 ≤ plan.retryPolicy.rounds.toNat) :
    (sendRun plan oracle).2 = (connectRun plan oracle).2 ↔
      InStep plan oracle := by
  have hread : (if hasQuicStandard plan then oracle.certificate else .ok ()) =
      .ok () := by
    rw [hcertificate, ite_self]
  unfold sendRun connectRun InStep
  rw [hread]
  cases hvalid : validateSnapRuntime plan with
  | error error => simp
  | ok _ =>
      cases haudit : oracle.auditContext with
      | error error => simp
      | ok _ =>
          have hmodes : ∀ round, ∀ candidate ∈
              plan.candidatesForRound oracle.shuffled round,
              ∃ mode, snapModeForAdapter candidate.adapter = .ok mode :=
            fun _ _ hcandidate =>
              mode_of_validated hvalid (mem_candidatesForRound hcandidate)
          simp only [forall_const]
          by_cases hquic : hasQuicStandard plan = true
          · rw [if_pos hquic, if_pos hquic]
            rcases first_compared hundelivered hmodes hrounds with
              ⟨hstep, hsame⟩ | ⟨hstep, hdiffer⟩
            · exact iff_of_true (by rw [hsame]) hstep
            · exact iff_of_false hdiffer hstep
          · rw [if_neg hquic, if_neg hquic, ← idle_iff hrounds (hmodes 1)]
            exact eq_comm

end Runs

namespace RunnersWitness

def standardQuic : SnapCandidate :=
  ⟨.direct, "quic-standard", "quic-standard", "192.0.2.1", 7001, none, [],
    false, "one"⟩

/-- Three rounds over one candidate within a minute. -/
def threeRounds (attemptLimit : Nat) : SnapPlan :=
  ⟨.ofNat 5, ⟨3, .stable, some (60 * 10 ^ 9)⟩, attemptLimit, [standardQuic]⟩

def duration : Action → Nat
  | .attempt _ timeout => timeout
  | .sleep delay => delay

/-- Every attempt takes its timeout and fails with it. -/
def unreachable : Oracle Unit where
  elapsed actions := (actions.map duration).sum
  delay _ := 10 ^ 9
  shuffled _ candidates := candidates
  shuffled_perm _ _ := List.Perm.refl _
  explicitTimeoutCapSecs := none
  outcome _ := (.error .timeout, false)
  auditContext := .ok ()
  certificate := .ok ()

theorem unreachable_undelivered : Undelivered unreachable := by
  intro actions error delivered houtcome
  cases houtcome
  rfl

theorem unreachable_in_step : InStep (threeRounds 3) unreachable :=
  (runners_agree_iff unreachable_undelivered rfl (by decide)).mp
    (by decide +kernel)

/-- After the last attempt that its plan allows a send sleeps twice more. -/
theorem send_sleeps_on :
    Undelivered unreachable ∧
      (sendRun (threeRounds 1) unreachable).2 =
        [.attempt standardQuic (5 * 10 ^ 9), .sleep (10 ^ 9),
          .sleep (10 ^ 9)] ∧
      (connectRun (threeRounds 1) unreachable).2 =
        [.attempt standardQuic (5 * 10 ^ 9)] :=
  ⟨unreachable_undelivered, by decide +kernel, by decide +kernel⟩

end RunnersWitness

end Shph.Snap
