/-
A SNAP send hands its payload to the network in one attempt at most, whatever
the clock and the network do, and keeps to the limits of its plan.
-/
import Shph.Snap

namespace Shph.Snap

section Attempt

variable {A B H : Type}

/-- The end of an attempt that does not send twice and, once it has begun to
send, says so. -/
def Careful (outcome : Except ShphError A × Sending) : Prop :=
  outcome.2.sendsBegun ≤ 1 ∧
    (outcome.2.payloadMayHaveBeenDelivered = false →
      outcome.2.sendsBegun = 0)

/-- A part of an attempt that does not touch the payload. -/
def Keeps (part : AttemptM A) : Prop :=
  ∀ sending, (part.run sending).2 = sending

theorem keeps_called (outcome : Except ShphError A) :
    Keeps (called outcome) :=
  fun _ => rfl

theorem keeps_pure (value : A) : Keeps (pure value : AttemptM A) :=
  fun _ => rfl

theorem Keeps.bind {part : AttemptM A} {rest : A → AttemptM B}
    (hpart : Keeps part) (hrest : ∀ value, Keeps (rest value)) :
    Keeps (part >>= rest) := by
  intro sending
  have hstate := hpart sending
  change (ExceptT.bindCont rest (part.run sending).1
    (part.run sending).2).2 = sending
  rw [hstate]
  cases (part.run sending).1 with
  | error error => rfl
  | ok value => exact hrest value sending

theorem keeps_awaitAcknowledgement
    (reply : Option (Except ShphError ByteCodec.Bytes)) :
    Keeps (awaitAcknowledgement reply) :=
  (keeps_called _).bind fun _ => (keeps_called _).bind fun _ =>
    keeps_called _

/-- A call before the payload is sent. -/
theorem careful_called {outcome : Except ShphError A}
    {rest : A → AttemptM B}
    (hrest : ∀ value, Careful ((rest value).run ⟨false, 0⟩)) :
    Careful ((called outcome >>= rest).run ⟨false, 0⟩) := by
  cases outcome with
  | error error => exact ⟨Nat.zero_le _, fun _ => rfl⟩
  | ok value => exact hrest value

/-- The payload is sent once it has been marked, and not again. -/
theorem careful_send {outcome : Except ShphError Unit}
    {rest : Unit → AttemptM B} (hrest : ∀ value, Keeps (rest value)) :
    Careful ((markMayHaveBeenDelivered >>= fun _ =>
      sendPayload outcome >>= rest).run ⟨false, 0⟩) := by
  cases outcome with
  | error error => exact ⟨Nat.le_refl 1, fun hmark => by cases hmark⟩
  | ok value =>
      have hstate : (((markMayHaveBeenDelivered >>= fun _ =>
          sendPayload (.ok value) >>= rest).run ⟨false, 0⟩)).2 = ⟨true, 1⟩ :=
        hrest value ⟨true, 1⟩
      rw [Careful, hstate]
      exact ⟨Nat.le_refl 1, fun hmark => by cases hmark⟩

variable (options : SendOptions) (script : AttemptScript H)

theorem careful_sessionFlow :
    Careful ((sessionFlow options script).run ⟨false, 0⟩) := by
  refine careful_called fun state => careful_called fun _ =>
    careful_called fun _ => ?_
  split
  · exact careful_called fun _ => careful_send fun _ => keeps_pure state
  · exact careful_send fun _ => keeps_pure state

theorem careful_quicStandardFlow :
    Careful ((quicStandardFlow options script).run ⟨false, 0⟩) := by
  have hend : ∀ state : H, ∀ _ : Unit, Keeps
      (awaitAcknowledgement script.acknowledgement >>= fun _ => pure state) :=
    fun state _ => (keeps_awaitAcknowledgement _).bind fun _ =>
      keeps_pure state
  refine careful_called fun state => careful_called fun _ => ?_
  split
  · exact careful_called fun _ => careful_send (hend state)
  · split
    · exact careful_called fun _ => careful_send (hend state)
    · exact careful_send (hend state)

theorem careful_runAttempt (mode : TransportMode) :
    Careful (runAttempt options script mode) := by
  rw [runAttempt]
  split
  · split
    · exact ⟨Nat.zero_le _, fun _ => rfl⟩
    · exact careful_quicStandardFlow options script
  · exact careful_sessionFlow options script

end Attempt

/-- The last attempt of a round that failed. -/
def lastFailed (history : List Attempted) (round : Nat) : Option Attempted :=
  (history.filter fun attempted =>
    decide (attempted.round = round) && attempted.error.isSome).getLast?

/-- What a plan asks of the attempts made by it. -/
structure KeepsPlan (plan : SnapPlan) (history : List Attempted) : Prop where
  limit : history.length ≤ plan.attemptLimit
  fallback : ∀ before attempted after,
    history = before ++ attempted :: after →
      ∀ failed ∈ lastFailed before attempted.round,
        SnapPlan.candidateAllowsFallback failed.candidate
          attempted.candidate = true
  budget : ∀ total ∈ plan.retryPolicy.maxElapsed, ∀ attempted ∈ history,
    attempted.elapsed + snapMinCandidateBudget ≤ total

/-- An attempt after which another one may follow. -/
def Retried (attempted : Attempted) : Prop :=
  attempted.sending.sendsBegun = 0 ∧ ∃ error, attempted.error = some error ∧
    snapAttemptErrorIsRetryable error
      attempted.sending.payloadMayHaveBeenDelivered = true

/-- A history in which only the last attempt may have ended the send. -/
def Ended (history : List Attempted) : Prop :=
  ∃ before last, history = before ++ [last] ∧
    (∀ attempted ∈ before, Retried attempted) ∧ last.sending.sendsBegun ≤ 1

variable {plan : SnapPlan}

theorem KeepsPlan.snoc {history : List Attempted} {new : Attempted}
    (hkeeps : KeepsPlan plan history)
    (hlimit : history.length < plan.attemptLimit)
    (hfallback : ∀ failed ∈ lastFailed history new.round,
      SnapPlan.candidateAllowsFallback failed.candidate new.candidate = true)
    (hbudget : ∀ total ∈ plan.retryPolicy.maxElapsed,
      new.elapsed + snapMinCandidateBudget ≤ total) :
    KeepsPlan plan (history ++ [new]) where
  limit := by
    rw [List.length_append, List.length_singleton]
    exact hlimit
  fallback before attempted after heq := by
    rcases List.eq_nil_or_concat after with hnil | ⟨start, last, hlast⟩
    · rw [hnil] at heq
      obtain ⟨hbefore, hnew⟩ := List.append_inj' heq rfl
      rw [← hbefore, ← List.singleton_inj.mp hnew]
      exact hfallback
    · rw [hlast, List.concat_eq_append, ← List.cons_append,
        ← List.append_assoc] at heq
      exact hkeeps.fallback before attempted start
        (List.append_inj' heq rfl).1
  budget total htotal attempted hmem := by
    rcases List.mem_append.mp hmem with hold | hlast
    · exact hkeeps.budget total htotal attempted hold
    · rw [List.mem_singleton.mp hlast]
      exact hbudget total htotal

/-- The loop between two attempts of a round. -/
structure Trying (plan : SnapPlan) (round : Nat)
    (previousFailed : Option SnapCandidate) (progress : Progress) : Prop where
  keeps : KeepsPlan plan progress.history
  retried : ∀ attempted ∈ progress.history, Retried attempted
  count : progress.attempt = progress.history.length
  rounds : ∀ attempted ∈ progress.history, attempted.round ≤ round
  previous : (lastFailed progress.history round).map Attempted.candidate =
    previousFailed

/-- What a part of the loop leaves behind: it may go on, or it has ended. -/
def Outcome {H : Type} (plan : SnapPlan) (round : Nat)
    (result : Option (Except ShphError H) × Progress) : Prop :=
  KeepsPlan plan result.2.history ∧
    ((∃ previousFailed, Trying plan round previousFailed result.2) ∨
      (result.1.isSome = true ∧ Ended result.2.history))

theorem Trying.read {round : Nat} {previousFailed : Option SnapCandidate}
    {progress : Progress} (htrying : Trying plan round previousFailed
      progress) : Trying plan round previousFailed progress.read :=
  ⟨htrying.keeps, htrying.retried, htrying.count, htrying.rounds,
    htrying.previous⟩

theorem Trying.outcome {H : Type} {round : Nat}
    {previousFailed : Option SnapCandidate} {progress : Progress}
    (htrying : Trying plan round previousFailed progress)
    (result : Option (Except ShphError H)) :
    Outcome plan round (result, progress) :=
  ⟨htrying.keeps, .inl ⟨previousFailed, htrying⟩⟩

/-- A round begins without a failed candidate. -/
theorem Trying.next {round : Nat} {previousFailed : Option SnapCandidate}
    {progress : Progress} (htrying : Trying plan round previousFailed
      progress) : Trying plan (round + 1) none progress where
  keeps := htrying.keeps
  retried := htrying.retried
  count := htrying.count
  rounds attempted hmem := Nat.le_succ_of_le (htrying.rounds attempted hmem)
  previous := by
    have hnone : progress.history.filter (fun attempted =>
        decide (attempted.round = round + 1) && attempted.error.isSome) =
          [] := by
      rw [List.filter_eq_nil_iff]
      intro attempted hmem
      have hle := htrying.rounds attempted hmem
      simp only [Bool.and_eq_true, decide_eq_true_eq, not_and]
      omega
    rw [lastFailed, hnone]
    rfl

section Loop

variable {H : Type} (options : SendOptions) (world : Surroundings H)

theorem careful_attemptResult (candidate : SnapCandidate)
    (mode : TransportMode) (attempt : Nat) :
    Careful (attemptResult options world candidate mode attempt) := by
  unfold attemptResult
  split
  · exact ⟨Nat.zero_le _, fun _ => rfl⟩
  · exact careful_runAttempt options _ _

/-- The new attempt of a round keeps to the plan. -/
theorem Trying.keeps_record {round : Nat}
    {previousFailed : Option SnapCandidate} {progress : Progress}
    {new : Attempted}
    (htrying : Trying plan round previousFailed progress)
    (hround : new.round = round)
    (hlimit : ¬ plan.attemptLimit ≤ progress.attempt)
    (hfallback : ¬ previousFailed.any (fun previous =>
      !SnapPlan.candidateAllowsFallback previous new.candidate) = true)
    (hbudget : ¬ (plan.retryPolicy.maxElapsed.map (· - new.elapsed)).any
      (· < snapMinCandidateBudget) = true) :
    KeepsPlan plan (progress.history ++ [new]) := by
  apply htrying.keeps.snoc
  · rw [← htrying.count]
    exact Nat.not_le.mp hlimit
  · intro failed hfailed
    rw [hround] at hfailed
    have hprevious := htrying.previous
    rw [Option.mem_def.mp hfailed, Option.map_some] at hprevious
    rw [← hprevious, Option.any_some, Bool.not_eq_true,
      Bool.not_eq_false'] at hfallback
    exact hfallback
  · intro total htotal
    rw [Option.mem_def.mp htotal, Option.map_some, Option.any_some,
      decide_eq_true_eq] at hbudget
    have hpositive : 0 < snapMinCandidateBudget := by decide
    omega

/-- After a failure that is retried the round goes on from it. -/
theorem Trying.record {round : Nat} {previousFailed : Option SnapCandidate}
    {progress : Progress} {new : Attempted}
    (htrying : Trying plan round previousFailed progress)
    (hkeeps : KeepsPlan plan (progress.history ++ [new]))
    (hround : new.round = round) (hretried : Retried new)
    (error : ShphError) :
    Trying plan round (some new.candidate)
      ((progress.record new).failed error) where
  keeps := hkeeps
  retried attempted hmem := by
    rcases List.mem_append.mp hmem with hold | hlast
    · exact htrying.retried attempted hold
    · rw [List.mem_singleton.mp hlast]
      exact hretried
  count := by
    change progress.attempt + 1 = (progress.history ++ [new]).length
    rw [htrying.count, List.length_append, List.length_singleton]
  rounds attempted hmem := by
    rcases List.mem_append.mp hmem with hold | hlast
    · exact htrying.rounds attempted hold
    · rw [List.mem_singleton.mp hlast, hround]
  previous := by
    obtain ⟨_, found, herror, _⟩ := hretried
    change (lastFailed (progress.history ++ [new]) round).map
      Attempted.candidate = some new.candidate
    rw [lastFailed, List.filter_append, List.filter_singleton, hround, herror]
    simp

theorem runCandidates_outcome (round : Nat)
    (candidates : List SnapCandidate) :
    ∀ (previousFailed : Option SnapCandidate) (progress : Progress),
      Trying plan round previousFailed progress →
        Outcome plan round (runCandidates plan options world round
          previousFailed candidates progress) := by
  induction candidates with
  | nil => exact fun _ _ htrying => htrying.outcome none
  | cons candidate rest ih =>
      intro previousFailed progress htrying
      rw [runCandidates]
      split
      · exact htrying.outcome none
      rename_i hlimit
      split
      · exact ih previousFailed progress htrying
      rename_i hfallback
      dsimp only
      split
      · exact htrying.read.outcome none
      rename_i hbudget
      split
      · exact htrying.read.outcome none
      split
      · exact htrying.read.outcome none
      split
      · exact htrying.read.outcome _
      rename_i mode _
      have hcareful := careful_attemptResult options world candidate mode
        progress.read.attempt
      generalize attemptResult options world candidate mode
        progress.read.attempt = outcome at hcareful ⊢
      have hkeeps : KeepsPlan plan (progress.read.history ++ [⟨round,
          candidate, world.elapsed progress.readings, errorOf outcome.1,
          outcome.2⟩]) :=
        htrying.read.keeps_record rfl hlimit hfallback hbudget
      have hended : Ended (progress.read.history ++ [⟨round, candidate,
          world.elapsed progress.readings, errorOf outcome.1, outcome.2⟩]) :=
        ⟨_, _, rfl, htrying.retried, hcareful.1⟩
      split
      · exact ⟨hkeeps, .inr ⟨rfl, hended⟩⟩
      · rename_i error herror
        split
        · rename_i hretry
          have hmark : outcome.2.payloadMayHaveBeenDelivered = false := by
            rw [snapAttemptErrorIsRetryable, Bool.and_eq_true,
              Bool.not_eq_true'] at hretry
            exact hretry.1
          have hnext := htrying.read.record hkeeps rfl
            ⟨hcareful.2 hmark, error, by rw [herror]; rfl, hretry⟩ error
          split
          · exact hnext.read.outcome none
          · exact ih _ _ hnext.read
        · exact ⟨hkeeps, .inr ⟨rfl, hended⟩⟩

theorem runRounds_outcome (left : Nat) :
    ∀ (round : Nat) (progress : Progress),
      Trying plan round none progress →
        KeepsPlan plan
          (runRounds plan options world left round progress).2.history ∧
        ((∀ attempted ∈
            (runRounds plan options world left round progress).2.history,
            Retried attempted) ∨
          Ended
            (runRounds plan options world left round progress).2.history) := by
  induction left with
  | zero => exact fun _ _ htrying => ⟨htrying.keeps, .inl htrying.retried⟩
  | succ left ih =>
      intro round progress htrying
      rw [runRounds]
      split
      · exact ⟨htrying.keeps, .inl htrying.retried⟩
      · have houtcome := runCandidates_outcome options world round
          (plan.candidatesForRound world.shuffled round) none progress.read
          htrying.read
        generalize runCandidates plan options world round none
          (plan.candidatesForRound world.shuffled round) progress.read =
            result at houtcome ⊢
        obtain ⟨hkeeps, ⟨previousFailed, hgoes⟩ | ⟨hsome, hended⟩⟩ := houtcome
        · split
          · exact ⟨hkeeps, .inl hgoes.retried⟩
          · exact ih (round + 1) _ hgoes.next
        · split
          · exact ⟨hkeeps, .inr hended⟩
          · cases hsome

theorem trying_start (plan : SnapPlan) :
    Trying plan 1 none ⟨0, none, 0, []⟩ where
  keeps := by
    refine ⟨Nat.zero_le _, ?_, ?_⟩
    · intro before attempted after heq
      exact absurd heq.symm (by simp)
    · exact fun _ _ attempted hmem => absurd hmem List.not_mem_nil
  retried attempted hmem := absurd hmem List.not_mem_nil
  count := rfl
  rounds attempted hmem := absurd hmem List.not_mem_nil
  previous := rfl

theorem send_outcome (plan : SnapPlan) :
    KeepsPlan plan (sendSnapPayloadWithPlan plan options world).2 ∧
      ((∀ attempted ∈ (sendSnapPayloadWithPlan plan options world).2,
          Retried attempted) ∨
        Ended (sendSnapPayloadWithPlan plan options world).2) := by
  have hempty : KeepsPlan plan [] := (trying_start plan).keeps
  have hnone : ∀ attempted ∈ ([] : List Attempted), Retried attempted :=
    (trying_start plan).retried
  unfold sendSnapPayloadWithPlan
  split
  · exact ⟨hempty, .inl hnone⟩
  · exact ⟨hempty, .inl hnone⟩
  · split
    · have houtcome := runRounds_outcome options world
        plan.retryPolicy.rounds.toNat 1 ⟨0, none, 0, []⟩ (trying_start plan)
      generalize runRounds plan options world plan.retryPolicy.rounds.toNat 1
        ⟨0, none, 0, []⟩ = result at houtcome ⊢
      split
      · exact houtcome
      · exact houtcome
    · exact ⟨hempty, .inl hnone⟩

/-- An attempt that is not retried is the last one. -/
theorem last_of_not_retried {history before after : List Attempted}
    {attempted : Attempted}
    (hends : (∀ other ∈ history, Retried other) ∨ Ended history)
    (hhistory : history = before ++ attempted :: after)
    (hnot : ¬ Retried attempted) : after = [] := by
  rcases hends with hall | ⟨start, last, hlast, hstart, _⟩
  · exact absurd (hall attempted (hhistory ▸ by simp)) hnot
  · rcases List.eq_nil_or_concat after with hnil | ⟨middle, final, hfinal⟩
    · exact hnil
    · rw [hhistory, hfinal, List.concat_eq_append, ← List.cons_append,
        ← List.append_assoc] at hlast
      have hmem : attempted ∈ start := by
        rw [← (List.append_inj' hlast rfl).1]
        simp
      exact absurd (hstart attempted hmem) hnot

/-- Of a whole send at most one attempt begins to send the payload, and it
does so once. -/
theorem sends_le_one {history : List Attempted}
    (hends : (∀ attempted ∈ history, Retried attempted) ∨ Ended history) :
    (history.map fun attempted => attempted.sending.sendsBegun).sum ≤ 1 := by
  have hzero : ∀ attempts : List Attempted,
      (∀ attempted ∈ attempts, Retried attempted) →
        (attempts.map fun attempted =>
          attempted.sending.sendsBegun).sum = 0 := by
    intro attempts hretried
    rw [List.sum_eq_zero_iff_forall_eq_nat]
    intro sends hsends
    obtain ⟨attempted, hmem, rfl⟩ := List.mem_map.mp hsends
    exact (hretried attempted hmem).1
  rcases hends with hall | ⟨start, last, hlast, hstart, hone⟩
  · rw [hzero history hall]
    exact Nat.zero_le 1
  · rw [hlast, List.map_append, List.sum_append, hzero start hstart]
    simpa using hone

end Loop

/-- A SNAP send begins to send its payload in one attempt at most, keeps the
limit on attempts, the fallback rules and the time budget, and makes no
attempt after an error that is not retryable. -/
theorem snap_delivers_at_most_once {H : Type} (plan : SnapPlan)
    (options : SendOptions) (world : Surroundings H) :
    let history := (sendSnapPayloadWithPlan plan options world).2
    (history.map fun attempted => attempted.sending.sendsBegun).sum ≤ 1 ∧
    history.length ≤ plan.attemptLimit ∧
    (∀ before attempted after, history = before ++ attempted :: after →
      ∀ failed ∈ lastFailed before attempted.round,
        SnapPlan.candidateAllowsFallback failed.candidate
          attempted.candidate = true) ∧
    (∀ total ∈ plan.retryPolicy.maxElapsed, ∀ attempted ∈ history,
      attempted.elapsed + snapMinCandidateBudget ≤ total) ∧
    (∀ before attempted after, history = before ++ attempted :: after →
      ∀ error, attempted.error = some error →
        snapAttemptErrorIsRetryable error
          attempted.sending.payloadMayHaveBeenDelivered = false →
            after = []) := by
  intro history
  obtain ⟨hkeeps, hends⟩ := send_outcome options world plan
  refine ⟨sends_le_one hends, hkeeps.limit, hkeeps.fallback, hkeeps.budget,
    ?_⟩
  intro before attempted after hhistory error herror hterminal
  refine last_of_not_retried hends hhistory ?_
  rintro ⟨_, other, hother, hretry⟩
  rw [herror, Option.some.injEq] at hother
  rw [← hother, hterminal] at hretry
  cases hretry

namespace SnapWitness

def directTcp : SnapCandidate :=
  ⟨.direct, "direct-tcp", "tcp", "192.0.2.1", 7000, none, ["quic-standard"],
    false, "one"⟩

def standardQuic : SnapCandidate :=
  ⟨.direct, "quic-standard", "quic-standard", "192.0.2.1", 7001, none, [],
    false, "two"⟩

/-- Two rounds over two candidates within a minute. -/
def twoRounds : SnapPlan :=
  ⟨.ofNat 5, ⟨2, .stable, some (60 * 10 ^ 9)⟩, 4, [directTcp, standardQuic]⟩

/-- The first connection times out; over the second one the payload is sent,
but its acknowledgement does not come. -/
def ackLost : Surroundings Unit where
  elapsed reading := reading * 10 ^ 9
  delay _ := 10 ^ 9
  shuffled _ candidates := candidates
  explicitTimeoutCapSecs := none
  endpointAddress _ := .ok ()
  auditContext := .ok ()
  script attempt := ⟨.ok (), if attempt = 0 then .error .timeout else .ok (),
    .ok (), .ok (), .ok (), .ok (), .ok (), none⟩

/-- The lost acknowledgement is a timeout, but there is no third attempt. -/
theorem snap_delivers_at_most_once_ack_lost :
    ((sendSnapPayloadWithPlan twoRounds ⟨false, false⟩ ackLost).2.map
      fun attempted => (attempted.candidate.candidateId, attempted.error,
        attempted.sending.sendsBegun)) =
      [("one", some .timeout, 0), ("two", some .timeout, 1)] ∧
    ((sendSnapPayloadWithPlan twoRounds ⟨false, false⟩ ackLost).2.map
      fun attempted => attempted.sending.sendsBegun).sum ≤ 1 :=
  ⟨by decide +kernel,
    (snap_delivers_at_most_once twoRounds ⟨false, false⟩ ackLost).1⟩

end SnapWitness

end Shph.Snap
