/-
The mode machine of the adaptive shaper over whole runs.  The calls that
succeed are kept in a log, and the engine's state is related to that log: its
window to the latest samples, its pending mode to the latest classifications,
its last transition to the latest change of mode.
-/
import Shph.Library.RingWindow
import Shph.Shroud3

namespace Shph.Shroud3

open ByteCodec RingWindow StatefulRun

structure Shroud3Call where
  payload : Bytes
  pathMtu : Nat
  observation : Shroud3Observation
deriving Repr, DecidableEq

/-- What a successful call observed and what it did to the mode. -/
structure Success where
  observedAt : Nat
  sample : WindowSample
  classified : Shroud3WorkloadMode
  before : Shroud3WorkloadMode
  after : Shroud3WorkloadMode
deriving Repr, DecidableEq

def Success.changes (success : Success) : Bool :=
  success.after ≠ success.before

namespace AdaptiveShroud3

variable {rng : Rng}

def run (engine : AdaptiveShroud3 rng) (call : Shroud3Call) :
    Except ShphError Bytes × AdaptiveShroud3 rng :=
  engine.encode call.payload call.pathMtu call.observation

def callSample (engine : AdaptiveShroud3 rng) (call : Shroud3Call) :
    WindowSample :=
  engine.windowSample call.payload.length call.observation.observedAt

def callMode (engine : AdaptiveShroud3 rng) (call : Shroud3Call) :
    Shroud3WorkloadMode :=
  engine.observedMode (engine.callSample call) call.observation.queueAge

/-- The entry of the log for a call that succeeds. -/
def success (engine : AdaptiveShroud3 rng) (call : Shroud3Call) :
    Option Success :=
  match engine.run call with
  | (.error _, _) => none
  | (.ok _, next) => some {
      observedAt := call.observation.observedAt
      sample := engine.callSample call
      classified := engine.callMode call
      before := engine.mode
      after := next.mode }

def observe (engine : AdaptiveShroud3 rng) (call : Shroud3Call) :
    Option Success × AdaptiveShroud3 rng :=
  (engine.success call, (engine.run call).2)

/-- The successful calls of a run. -/
def log (engine : AdaptiveShroud3 rng) (calls : List Shroud3Call) :
    List Success :=
  (trace observe engine calls).filterMap Prod.snd

/-- The engine after a successful call. -/
structure Advances (engine : AdaptiveShroud3 rng) (call : Shroud3Call)
    (plan : TransitionPlan) (next : AdaptiveShroud3 rng) : Prop where
  plan_eq : plan = engine.planTransition (engine.callMode call)
    call.observation.observedAt
  monotone : ∀ last ∈ engine.lastObservation,
    last ≤ call.observation.observedAt
  config_eq : next.config = engine.config
  mode_eq : next.mode = plan.mode
  history_eq : next.history = engine.historyAfter (engine.callSample call)
  historyLen_eq : next.historyLen = engine.historyLenAfter
  historyNext_eq : next.historyNext =
    (engine.historyNext + 1) % workloadWindowCapacity
  pendingMode_eq : next.pendingMode = plan.pendingMode
  pendingCount_eq : next.pendingCount = plan.pendingCount
  lastObservation_eq : next.lastObservation =
    some call.observation.observedAt
  lastTransition_eq : next.lastTransition =
    if plan.reason.isSome then some call.observation.observedAt
    else engine.lastTransition
  metrics_eq : ∃ burstLength payloadBytes wireBytes shapingDelay fallback,
    next.metrics = record engine.metrics burstLength payloadBytes wireBytes
      shapingDelay plan fallback

/-- What one call can do. -/
theorem run_cases (engine : AdaptiveShroud3 rng) (call : Shroud3Call) :
    (∃ error, engine.run call = (.error error, engine)) ∨
    ∃ bytes plan next, engine.run call = (.ok bytes, next) ∧
      Advances engine call plan next := by
  unfold run encode
  split
  · exact Or.inl ⟨_, rfl⟩
  · split
    · exact Or.inl ⟨_, rfl⟩
    · rename_i hmonotone
      dsimp only
      split
      · exact Or.inl ⟨_, rfl⟩
      · split
        · exact Or.inl ⟨_, rfl⟩
        · split
          · exact Or.inl ⟨_, rfl⟩
          · refine Or.inr ⟨_, _, _, rfl, rfl, ?_, rfl, rfl, rfl, rfl, rfl,
              rfl, rfl, rfl, rfl, _, _, _, _, _, rfl⟩
            intro last hlast
            rw [Option.mem_def] at hlast
            simpa [hlast] using hmonotone

theorem success_eq_none {engine : AdaptiveShroud3 rng}
    {call : Shroud3Call} {error : ShphError}
    (hrun : engine.run call = (.error error, engine)) :
    engine.success call = none := by
  rw [success, hrun]

/-- How often the same mode was observed in a row, this time included. -/
def confirmations (engine : AdaptiveShroud3 rng)
    (observedMode : Shroud3WorkloadMode) : Nat :=
  if engine.pendingMode = some observedMode then
    min (engine.pendingCount + 1) 255
  else 1

/-- The ways in which a transition is planned. -/
theorem planTransition_cases (engine : AdaptiveShroud3 rng)
    (observedMode : Shroud3WorkloadMode) (observedAt : Nat) :
    let plan := engine.planTransition observedMode observedAt
    (plan = ⟨engine.mode, none, 0, none, false⟩) ∨
    (engine.mode ≠ .queuePressure ∧
      plan = ⟨.queuePressure, none, 0, some .queuePressure, false⟩) ∨
    (observedMode ≠ engine.mode ∧
      engine.config.transitionConfirmations ≤
        engine.confirmations observedMode ∧
      (∀ last ∈ engine.lastTransition,
        engine.config.minimumDwell ≤ observedAt - last) ∧
      plan = ⟨observedMode, none, 0, some (transitionReason observedMode),
        false⟩) ∨
    plan = ⟨engine.mode, some observedMode,
      engine.confirmations observedMode, none, true⟩ := by
  intro plan
  by_cases hsame : observedMode = engine.mode
  · exact Or.inl (if_pos hsame)
  · by_cases hpressure : observedMode = .queuePressure
    · refine Or.inr (Or.inl ⟨fun hmode => hsame (hpressure.trans hmode.symm),
        ?_⟩)
      change engine.planTransition observedMode observedAt = _
      rw [planTransition, if_neg hsame, if_pos hpressure, hpressure]
    · by_cases hconfirmed : engine.config.transitionConfirmations ≤
          engine.confirmations observedMode ∧
          engine.lastTransition.all fun last =>
            engine.config.minimumDwell ≤ observedAt - last
      · refine Or.inr (Or.inr (Or.inl ⟨hsame, hconfirmed.1, ?_, ?_⟩))
        · intro last hlast
          have hdwell := hconfirmed.2
          rw [Option.mem_def] at hlast
          simpa [hlast] using hdwell
        · change engine.planTransition observedMode observedAt = _
          rw [planTransition, if_neg hsame, if_neg hpressure]
          exact if_pos hconfirmed
      · refine Or.inr (Or.inr (Or.inr ?_))
        change engine.planTransition observedMode observedAt = _
        rw [planTransition, if_neg hsame, if_neg hpressure]
        exact if_neg hconfirmed

/-- A reason is given exactly when the mode changes. -/
theorem planTransition_reason (engine : AdaptiveShroud3 rng)
    (observedMode : Shroud3WorkloadMode) (observedAt : Nat) :
    (engine.planTransition observedMode observedAt).reason.isSome = true ↔
      (engine.planTransition observedMode observedAt).mode ≠ engine.mode := by
  rcases planTransition_cases engine observedMode observedAt with
    hplan | ⟨hmode, hplan⟩ | ⟨hmode, -, -, hplan⟩ | hplan
  · simp [hplan]
  · simp [hplan, hmode.symm]
  · simp [hplan, hmode]
  · simp [hplan]

/-- `switches` is the sum of the three counters, saturated like them. -/
def SwitchesCounted (metrics : Shroud3Metrics) : Prop :=
  metrics.switches = min (metrics.burstTransitions +
    metrics.windowTrendTransitions + metrics.queuePressureTransitions) u64Max

theorem SwitchesCounted.record {metrics : Shroud3Metrics}
    (hcounted : SwitchesCounted metrics)
    (burstLength payloadBytes wireBytes shapingDelay : Nat)
    (plan : TransitionPlan) (fallback : Bool) :
    SwitchesCounted (record metrics burstLength payloadBytes wireBytes
      shapingDelay plan fallback) := by
  unfold SwitchesCounted at hcounted ⊢
  unfold AdaptiveShroud3.record
  cases plan.reason with
  | none => exact hcounted
  | some reason =>
      cases reason <;>
        simp only [recordReason, saturatingAdd, hcounted] <;> omega

/-- The engine's state against the log of the successful calls. -/
structure Follows (config : Shroud3Config) (log : List Success)
    (engine : AdaptiveShroud3 rng) : Prop where
  config_eq : engine.config = config
  window : Holds workloadWindowCapacity engine.history.toList
    engine.historyLen engine.historyNext (log.map Success.sample)
  pending : ∀ mode ∈ engine.pendingMode,
    engine.pendingCount ≤ log.length ∧
      ∀ recent ∈ log.rtake engine.pendingCount, recent.classified = mode
  lastObservation_eq : engine.lastObservation =
    log.getLast?.map Success.observedAt
  lastTransition_eq : engine.lastTransition =
    (log.filter Success.changes).getLast?.map Success.observedAt
  transition_le : ∀ transition ∈ engine.lastTransition,
    ∃ last ∈ engine.lastObservation, transition ≤ last
  switches : SwitchesCounted engine.metrics

/-- The confirmations counted are the latest classifications. -/
theorem Follows.confirmations {config : Shroud3Config} {log : List Success}
    {engine : AdaptiveShroud3 rng} (hfollows : Follows config log engine)
    {mode : Shroud3WorkloadMode} {success : Success}
    (hsuccess : success.classified = mode) :
    engine.confirmations mode ≤ (log ++ [success]).length ∧
      ∀ recent ∈ (log ++ [success]).rtake (engine.confirmations mode),
        recent.classified = mode := by
  unfold AdaptiveShroud3.confirmations
  rw [List.length_append, List.length_singleton]
  split
  · rename_i hpending
    obtain ⟨hcount, hlog⟩ := hfollows.pending mode hpending
    have hle : min (engine.pendingCount + 1) 255 ≤ engine.pendingCount + 1 :=
      Nat.min_le_left _ _
    refine ⟨by omega, ?_⟩
    rw [← rtake_rtake_of_le hle, List.rtake_concat_succ]
    intro recent hmem
    have hrecent := List.mem_of_mem_drop hmem
    rw [List.mem_append, List.mem_singleton] at hrecent
    rcases hrecent with hold | rfl
    · exact hlog recent hold
    · exact hsuccess
  · refine ⟨Nat.le_add_left _ _, ?_⟩
    rw [List.rtake_concat_succ, List.rtake_zero, List.nil_append,
      List.forall_mem_singleton]
    exact hsuccess

/-- The entry of the log for a call that led to `next`. -/
def entry (engine : AdaptiveShroud3 rng) (call : Shroud3Call)
    (next : AdaptiveShroud3 rng) : Success where
  observedAt := call.observation.observedAt
  sample := engine.callSample call
  classified := engine.callMode call
  before := engine.mode
  after := next.mode

theorem entry_changes {engine next : AdaptiveShroud3 rng} {call : Shroud3Call}
    {plan : TransitionPlan} (hadvances : Advances engine call plan next) :
    (engine.entry call next).changes = plan.reason.isSome := by
  have hreason := planTransition_reason engine (engine.callMode call)
    call.observation.observedAt
  rw [← hadvances.plan_eq] at hreason
  rw [Bool.eq_iff_iff, hreason, Success.changes, decide_eq_true_eq]
  change next.mode ≠ engine.mode ↔ _
  rw [hadvances.mode_eq]

theorem Follows.step {config : Shroud3Config} {log : List Success}
    {engine next : AdaptiveShroud3 rng} {call : Shroud3Call}
    {plan : TransitionPlan} (hfollows : Follows config log engine)
    (hadvances : Advances engine call plan next) :
    Follows config (log ++ [engine.entry call next]) next where
  config_eq := hadvances.config_eq.trans hfollows.config_eq
  window := by
    have hpush := hfollows.window.push (by decide) (engine.callSample call)
    rw [hadvances.history_eq, hadvances.historyLen_eq,
      hadvances.historyNext_eq, List.map_append, List.map_singleton]
    simpa [historyAfter, historyLenAfter, entry] using hpush
  pending := by
    intro mode hmode
    rw [hadvances.pendingMode_eq, hadvances.plan_eq] at hmode
    rw [hadvances.pendingCount_eq, hadvances.plan_eq]
    rcases planTransition_cases engine (engine.callMode call)
      call.observation.observedAt with
      hplan | ⟨-, hplan⟩ | ⟨-, -, -, hplan⟩ | hplan
    · simp [hplan] at hmode
    · simp [hplan] at hmode
    · simp [hplan] at hmode
    · rw [hplan, Option.mem_some_iff] at hmode
      rw [hplan, ← hmode]
      exact hfollows.confirmations rfl
  lastObservation_eq := by
    rw [hadvances.lastObservation_eq, List.getLast?_concat]
    rfl
  lastTransition_eq := by
    rw [hadvances.lastTransition_eq, List.filter_append,
      List.filter_singleton, entry_changes hadvances]
    cases plan.reason with
    | none => simpa using hfollows.lastTransition_eq
    | some reason =>
        rw [Option.isSome_some, cond_true, List.getLast?_concat]
        rfl
  transition_le := by
    intro transition hmem
    rw [hadvances.lastObservation_eq]
    refine ⟨call.observation.observedAt, rfl, ?_⟩
    rw [hadvances.lastTransition_eq] at hmem
    split at hmem
    · rw [Option.mem_some_iff] at hmem
      exact Nat.le_of_eq hmem.symm
    · obtain ⟨last, hlast, hle⟩ := hfollows.transition_le transition hmem
      exact Nat.le_trans hle (hadvances.monotone last hlast)
  switches := by
    obtain ⟨_, _, _, _, _, hmetrics⟩ := hadvances.metrics_eq
    rw [hmetrics]
    exact hfollows.switches.record _ _ _ _ _ _

/-- A change to anything but queue pressure was confirmed and waited for the
dwell. -/
theorem Follows.transition {config : Shroud3Config} {log : List Success}
    {engine next : AdaptiveShroud3 rng} {call : Shroud3Call}
    {plan : TransitionPlan} (hfollows : Follows config log engine)
    (hadvances : Advances engine call plan next)
    (hchange : next.mode ≠ engine.mode)
    (hpressure : next.mode ≠ .queuePressure) :
    config.transitionConfirmations ≤
        (log ++ [engine.entry call next]).length ∧
      (∀ recent ∈ (log ++ [engine.entry call next]).rtake
          config.transitionConfirmations, recent.classified = next.mode) ∧
      ∀ change, (log.filter Success.changes).getLast? = some change →
        change.observedAt + config.minimumDwell ≤
          call.observation.observedAt := by
  rw [hadvances.mode_eq, hadvances.plan_eq] at hchange hpressure ⊢
  rcases planTransition_cases engine (engine.callMode call)
    call.observation.observedAt with
    hplan | ⟨-, hplan⟩ | ⟨-, hconfirmed, hdwell, hplan⟩ | hplan
  · simp [hplan] at hchange
  · simp [hplan] at hpressure
  · rw [hfollows.config_eq] at hconfirmed hdwell
    obtain ⟨hcount, hrecent⟩ := hfollows.confirmations
      (show (engine.entry call next).classified = engine.callMode call from rfl)
    refine ⟨Nat.le_trans hconfirmed hcount, ?_, ?_⟩
    · intro recent hmem
      rw [hplan]
      rw [← rtake_rtake_of_le hconfirmed] at hmem
      exact hrecent recent (List.mem_of_mem_drop hmem)
    · intro change hlast
      have htransition : engine.lastTransition = some change.observedAt := by
        rw [hfollows.lastTransition_eq, hlast, Option.map_some]
      obtain ⟨last, hmem, hle⟩ :=
        hfollows.transition_le change.observedAt htransition
      have hmonotone := hadvances.monotone last hmem
      have hwaited := hdwell change.observedAt htransition
      omega
  · simp [hplan] at hchange

theorem success_of_advances {engine next : AdaptiveShroud3 rng}
    {call : Shroud3Call} {bytes : Bytes}
    (hrun : engine.run call = (.ok bytes, next)) :
    engine.success call = some (engine.entry call next) := by
  rw [success, hrun]
  rfl

theorem observe_follows {config : Shroud3Config}
    (history : List (Shroud3Call × Option Success))
    (engine : AdaptiveShroud3 rng) (call : Shroud3Call)
    (hfollows : Follows config (history.filterMap Prod.snd) engine) :
    Follows config
      ((history ++ [(call, (engine.observe call).1)]).filterMap Prod.snd)
      (engine.observe call).2 := by
  rw [List.filterMap_append]
  rcases run_cases engine call with
    ⟨error, hrun⟩ | ⟨bytes, plan, next, hrun, hadvances⟩
  · simp only [observe, success_eq_none hrun, hrun]
    simpa using hfollows
  · simp only [observe, success_of_advances hrun, hrun]
    exact hfollows.step hadvances

theorem withRng_follows {config : Shroud3Config} {rngState : rng.State}
    {engine : AdaptiveShroud3 rng}
    (hengine : withRng rng config rngState = .ok engine) :
    Follows config [] engine := by
  obtain ⟨-, -, hnew⟩ := bind_eq_ok_iff.mp hengine
  obtain rfl := Except.ok.inj hnew
  refine ⟨rfl, ⟨by simp, rfl, rfl, ?_⟩, ?_, rfl, rfl, ?_, rfl⟩
  · simp
  · exact fun mode hmode => nomatch hmode
  · exact fun transition hmem => nomatch hmem

/-- For every validated configuration and every run of `encode` calls, the
call after the run changes the mode to anything but queue pressure only if the
latest successful calls, itself included and as many as have to confirm, were
classified as that mode and the dwell since the last change has passed.  The
window it classifies is that of the latest sixteen observations, the switches
are the sum of their reasons, and a call that fails changes nothing. -/
theorem mode_machine {config : Shroud3Config} {rngState : rng.State}
    {start : AdaptiveShroud3 rng}
    (hstart : withRng rng config rngState = .ok start)
    (calls : List Shroud3Call) (call : Shroud3Call) :
    let log := start.log calls
    let engine := final observe start calls
    (∀ success, engine.success call = some success →
      (success.after ≠ success.before → success.after ≠ .queuePressure →
        config.transitionConfirmations ≤ (log ++ [success]).length ∧
        (∀ recent ∈
            (log ++ [success]).rtake config.transitionConfirmations,
          recent.classified = success.after) ∧
        ∀ change, (log.filter Success.changes).getLast? = some change →
          change.observedAt + config.minimumDwell ≤ success.observedAt) ∧
      (engine.classifiedWindow success.sample).Perm
        (((log ++ [success]).map Success.sample).rtake 16) ∧
      success.sample = ⟨call.payload.length, log.getLast?.map fun last =>
        call.observation.observedAt - last.observedAt⟩) ∧
    engine.metrics.switches = min (engine.metrics.burstTransitions +
      engine.metrics.windowTrendTransitions +
      engine.metrics.queuePressureTransitions) u64Max ∧
    ∀ error, (engine.run call).1 = .error error →
      (engine.run call).2 = engine := by
  intro log engine
  have hfollows : Follows config log engine :=
    history_invariant (P := fun history engine =>
      Follows config (history.filterMap Prod.snd) engine)
      (withRng_follows hstart) observe_follows calls
  rcases run_cases engine call with
    ⟨failed, hrun⟩ | ⟨bytes, plan, next, hrun, hadvances⟩
  · refine ⟨?_, hfollows.switches, fun _ _ => congrArg Prod.snd hrun⟩
    intro success hsuccess
    rw [success_eq_none hrun] at hsuccess
    simp at hsuccess
  · refine ⟨?_, hfollows.switches, ?_⟩
    · intro success hsuccess
      rw [success_of_advances hrun, Option.some.injEq] at hsuccess
      subst hsuccess
      refine ⟨hfollows.transition hadvances, ?_, ?_⟩
      · have hwindow := (hfollows.step hadvances).window.take_perm
        rw [hadvances.history_eq, hadvances.historyLen_eq] at hwindow
        exact hwindow
      · change engine.windowSample _ _ = _
        rw [windowSample, hfollows.lastObservation_eq, Option.map_map]
        rfl
    · intro error herror
      rw [hrun] at herror
      simp at herror

end AdaptiveShroud3

namespace Witness

open AdaptiveShroud3

/-- A generator that draws the least number and fills with zeros. -/
def rng : Rng := .zeros

def start : AdaptiveShroud3 rng where
  config := .default
  rngState := ()
  mode := .interactive
  history := Vector.replicate _ ⟨0, none⟩
  historyLen := 0
  historyNext := 0
  pendingMode := none
  pendingCount := 0
  lastObservation := none
  lastTransition := none
  burstLength := 0
  pendingDelay := 0
  metrics := .default

def callAt (ms : Nat) : Shroud3Call := ⟨[7], 1472, ⟨fromMillis ms, 0⟩⟩

/-- Four payloads in three milliseconds. -/
def burst : List Shroud3Call := [callAt 0, callAt 1, callAt 2, callAt 3]

def confirming : Success :=
  ⟨fromMillis 4, ⟨1, some (fromMillis 1)⟩, .bursty, .interactive, .bursty⟩

theorem start_eq : withRng rng .default () = .ok start := rfl

theorem burst_confirmed :
    (final observe start burst).success (callAt 4) = some confirming := by
  decide

/-- The fifth payload of a burst switches the mode, and it and the one before
were classified as part of a burst. -/
theorem mode_machine_burst :
    (final observe start burst).success (callAt 4) = some confirming ∧
      ∀ recent ∈ (start.log burst ++ [confirming]).rtake 2,
        recent.classified = .bursty :=
  ⟨burst_confirmed, (((mode_machine start_eq burst (callAt 4)).1 confirming
    burst_confirmed).1 (by decide) (by decide)).2.1⟩

end Witness

end Shph.Shroud3
