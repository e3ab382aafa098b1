/-
The cover-traffic budget.  A scheduler is told of every payload and asked
before every cover frame; the caller brings the time, which may stand still
but not run backwards.
-/
import Shph.Error
import Shph.Library.StatefulRun
import Shph.Word

namespace Shph

open StatefulRun

structure CoverPolicy where
  intervalMs : UInt32
  idleTimeoutMs : UInt32
  maximumBytes : UInt64
  overheadPercent : UInt16
deriving Repr, DecidableEq

namespace CoverPolicy

def validate (policy : CoverPolicy) : Except ShphError Unit :=
  ensure ((100 ≤ policy.intervalMs ∧ policy.intervalMs ≤ 60000) ∧
      policy.intervalMs ≤ policy.idleTimeoutMs ∧
      policy.idleTimeoutMs ≤ 300000 ∧ policy.maximumBytes ≠ 0 ∧
      policy.maximumBytes ≤ 64 * 1024 * 1024 ∧
      1 ≤ policy.overheadPercent ∧ policy.overheadPercent ≤ 100)
    (.config "invalid cover traffic budget")

/-- A duration is a number of nanoseconds. -/
def interval (policy : CoverPolicy) : Nat := policy.intervalMs.toNat * 10 ^ 6

def idleTimeout (policy : CoverPolicy) : Nat :=
  policy.idleTimeoutMs.toNat * 10 ^ 6

/-- The cover bytes that so many payload bytes pay for. -/
def allowance (policy : CoverPolicy) (payloadBytes : Nat) : Nat :=
  min (payloadBytes * policy.overheadPercent.toNat / 100)
    policy.maximumBytes.toNat

end CoverPolicy

/-- `Duration - Duration`, which panics below zero. -/
def durationSub (left right : Nat) : Option Nat :=
  if right ≤ left then some (left - right) else none

structure CoverScheduler where
  policy : Option CoverPolicy
  lastObserved : Nat
  lastData : Option Nat
  lastCover : Option Nat
  payloadBytes : Nat
  coverBytes : Nat
  stopped : Bool
deriving Repr, DecidableEq

namespace CoverScheduler

def new (policy : Option CoverPolicy) : Except ShphError CoverScheduler := do
  match policy with
  | some policy => policy.validate
  | none => pure ()
  return ⟨policy, 0, none, none, 0, 0, false⟩

def observe (scheduler : CoverScheduler) (now : Nat) :
    Except ShphError Unit × CoverScheduler :=
  if now < scheduler.lastObserved then
    (.error (.invalidArgument "cover clock moved backwards"), scheduler)
  else (.ok (), { scheduler with lastObserved := now })

def recordPayload (scheduler : CoverScheduler) (now : Nat) (bytes : UInt64) :
    Except ShphError Unit × CoverScheduler :=
  match scheduler.observe now with
  | (.error error, scheduler) => (.error error, scheduler)
  | (.ok (), scheduler) =>
      (.ok (), { scheduler with
        lastData := some now
        payloadBytes := saturatingAdd scheduler.payloadBytes bytes.toNat })

/-- What a call of `reserve` brings along. -/
structure Reservation where
  now : Nat
  bytes : UInt64
  payloadPending : Bool
  congested : Bool
  cancelled : Bool
deriving Repr, DecidableEq

/-- No answer stands for a panic of one of the two subtractions. -/
def reserve (scheduler : CoverScheduler) (call : Reservation) :
    Option (Except ShphError Bool) × CoverScheduler :=
  match scheduler.observe call.now with
  | (.error error, scheduler) => (some (.error error), scheduler)
  | (.ok (), scheduler) =>
      let scheduler :=
        { scheduler with stopped := scheduler.stopped || call.cancelled }
      match scheduler.policy, scheduler.lastData with
      | some policy, some lastData =>
          if scheduler.stopped ∨ call.payloadPending ∨ call.congested ∨
              call.bytes = 0 ∨ 4096 < call.bytes then
            (some (.ok false), scheduler)
          else
            match durationSub call.now lastData with
            | none => (none, scheduler)
            | some idle =>
                if policy.idleTimeout ≤ idle then
                  (some (.ok false), scheduler)
                else
                  match durationSub call.now
                    (scheduler.lastCover.getD lastData) with
                  | none => (none, scheduler)
                  | some gap =>
                      if gap < policy.interval then
                        (some (.ok false), scheduler)
                      else if policy.allowance scheduler.payloadBytes -
                          scheduler.coverBytes < call.bytes.toNat then
                        (some (.ok false), scheduler)
                      else
                        (some (.ok true), { scheduler with
                          coverBytes := saturatingAdd scheduler.coverBytes
                            call.bytes.toNat
                          lastCover := some call.now })
      | _, _ => (some (.ok false), scheduler)

/-- The scheduler after a reservation that was not granted. -/
def withheld (scheduler : CoverScheduler) (call : Reservation) :
    CoverScheduler :=
  { scheduler with
    lastObserved := call.now
    stopped := scheduler.stopped || call.cancelled }

def granted (scheduler : CoverScheduler) (call : Reservation) :
    CoverScheduler :=
  { scheduler.withheld call with
    coverBytes := saturatingAdd scheduler.coverBytes call.bytes.toNat
    lastCover := some call.now }

/-- Everything that was checked before a reservation was granted. -/
structure Grants (policy : CoverPolicy) (lastData : Nat)
    (scheduler : CoverScheduler) (call : Reservation) : Prop where
  policy_eq : scheduler.policy = some policy
  data_eq : scheduler.lastData = some lastData
  running : scheduler.stopped = false
  live : call.cancelled = false
  data_le : lastData ≤ call.now
  idle : call.now - lastData < policy.idleTimeout
  cover_le : scheduler.lastCover.getD lastData ≤ call.now
  gap : policy.interval ≤ call.now - scheduler.lastCover.getD lastData
  budget : call.bytes.toNat ≤
    policy.allowance scheduler.payloadBytes - scheduler.coverBytes

theorem durationSub_eq_none_iff {left right : Nat} :
    durationSub left right = none ↔ left < right := by
  simp [durationSub]

theorem durationSub_eq_some_iff {left right difference : Nat} :
    durationSub left right = some difference ↔
      right ≤ left ∧ difference = left - right := by
  by_cases hle : right ≤ left <;> simp [durationSub, hle, eq_comm]

/-- What one reservation can do. -/
theorem reserve_cases (scheduler : CoverScheduler) (call : Reservation) :
    (call.now < scheduler.lastObserved ∧ ∃ error,
      scheduler.reserve call = (some (.error error), scheduler)) ∨
    (scheduler.lastObserved ≤ call.now ∧
      (scheduler.reserve call =
          (some (.ok false), scheduler.withheld call) ∨
        (∃ policy lastData, Grants policy lastData scheduler call ∧
          scheduler.reserve call =
            (some (.ok true), scheduler.granted call)) ∨
        ∃ since, (scheduler.lastData = some since ∨
          scheduler.lastCover = some since) ∧ call.now < since)) := by
  unfold reserve observe
  by_cases hback : call.now < scheduler.lastObserved
  · rw [if_pos hback]
    exact Or.inl ⟨hback, _, rfl⟩
  · rw [if_neg hback]
    refine Or.inr ⟨Nat.le_of_not_lt hback, ?_⟩
    dsimp only
    split
    · rename_i policy lastData hpolicy hdata
      split
      · exact Or.inl rfl
      · rename_i hopen
        simp only [not_or, Bool.not_eq_true, Bool.or_eq_false_iff] at hopen
        split
        · rename_i hnone
          rw [durationSub_eq_none_iff] at hnone
          exact Or.inr (Or.inr ⟨lastData, Or.inl hdata, hnone⟩)
        · rename_i idle hidle
          rw [durationSub_eq_some_iff] at hidle
          split
          · exact Or.inl rfl
          · rename_i hlive
            split
            · rename_i hnone
              rw [durationSub_eq_none_iff] at hnone
              refine Or.inr (Or.inr ⟨scheduler.lastCover.getD lastData, ?_,
                hnone⟩)
              cases hcover : scheduler.lastCover with
              | none => exact Or.inl hdata
              | some lastCover => exact Or.inr rfl
            · rename_i gap hgap
              rw [durationSub_eq_some_iff] at hgap
              split
              · exact Or.inl rfl
              · rename_i hspaced
                split
                · exact Or.inl rfl
                · rename_i hbudget
                  obtain ⟨hdataLe, rfl⟩ := hidle
                  obtain ⟨hcoverLe, rfl⟩ := hgap
                  refine Or.inr (Or.inl ⟨policy, lastData, ⟨hpolicy, hdata,
                    hopen.1.1, hopen.1.2, hdataLe, Nat.lt_of_not_le hlive,
                    hcoverLe, Nat.le_of_not_lt hspaced,
                    Nat.le_of_not_lt hbudget⟩, rfl⟩)
    · exact Or.inl rfl

inductive Call where
  | recordPayload (now : Nat) (bytes : UInt64)
  | reserve (call : Reservation)
deriving Repr, DecidableEq

inductive Answer where
  | recorded (result : Except ShphError Unit)
  | reserved (result : Option (Except ShphError Bool))

def serve (scheduler : CoverScheduler) : Call → Answer × CoverScheduler
  | .recordPayload now bytes =>
      let (result, scheduler) := scheduler.recordPayload now bytes
      (.recorded result, scheduler)
  | .reserve call =>
      let (result, scheduler) := scheduler.reserve call
      (.reserved result, scheduler)

/-- The answer of a call that returned an error. -/
def failure : Call → ShphError → Answer
  | .recordPayload _ _, error => .recorded (.error error)
  | .reserve _, error => .reserved (some (.error error))

/-- When a payload was recorded. -/
def payloadTime : Call × Answer → Option Nat
  | (.recordPayload now _, .recorded (.ok ())) => some now
  | _ => none

/-- When a cover frame was granted. -/
def grantTime : Call × Answer → Option Nat
  | (.reserve call, .reserved (some (.ok true))) => some call.now
  | _ => none

/-- A reservation with the cancellation flag set that did not fail. -/
def cancels : Call × Answer → Bool
  | (.reserve call, .reserved (some (.ok _))) => call.cancelled
  | _ => false

/-- The size of a payload that was recorded. -/
def payloadSize : Call × Answer → Nat
  | (.recordPayload _ bytes, .recorded (.ok ())) => bytes.toNat
  | _ => 0

/-- The size of a cover frame that was granted. -/
def grantSize : Call × Answer → Nat
  | (.reserve call, .reserved (some (.ok true))) => call.bytes.toNat
  | _ => 0

/-- The counters are the sums of these sizes, which may saturate. -/
structure Totals (history : List (Call × Answer))
    (scheduler : CoverScheduler) : Prop where
  payload_eq : scheduler.payloadBytes =
    min (history.map payloadSize).sum u64Max
  cover_eq : scheduler.coverBytes = min (history.map grantSize).sum u64Max

def payloadTimes (history : List (Call × Answer)) : List Nat :=
  history.filterMap payloadTime

def grantTimes (history : List (Call × Answer)) : List Nat :=
  history.filterMap grantTime

theorem payloadTimes_snoc (history : List (Call × Answer))
    (entry : Call × Answer) : payloadTimes (history ++ [entry]) =
      payloadTimes history ++ (payloadTime entry).toList := by
  rw [payloadTimes, List.filterMap_append]
  cases hentry : payloadTime entry <;> simp [payloadTimes, hentry]

theorem grantTimes_snoc (history : List (Call × Answer))
    (entry : Call × Answer) : grantTimes (history ++ [entry]) =
      grantTimes history ++ (grantTime entry).toList := by
  rw [grantTimes, List.filterMap_append]
  cases hentry : grantTime entry <;> simp [grantTimes, hentry]

/-- The scheduler's state against the payloads and the cover frames so far and
whether it was cancelled. -/
structure Agrees (policy : CoverPolicy) (payloads covers : List Nat)
    (cancelled : Bool) (scheduler : CoverScheduler) : Prop where
  policy_eq : scheduler.policy = some policy
  data_eq : scheduler.lastData = payloads.getLast?
  cover_eq : scheduler.lastCover = covers.getLast?
  stopped_eq : scheduler.stopped = cancelled
  data_le : ∀ time ∈ payloads, time ≤ scheduler.lastObserved
  cover_le : ∀ time ∈ covers, time ≤ scheduler.lastObserved
  sorted : covers.Pairwise (· ≤ ·)
  payload_le : scheduler.payloadBytes ≤ u64Max
  budget : scheduler.coverBytes ≤ policy.allowance scheduler.payloadBytes

theorem allowance_mono (policy : CoverPolicy) {less more : Nat}
    (hle : less ≤ more) : policy.allowance less ≤ policy.allowance more := by
  have hproduct := Nat.mul_le_mul_right policy.overheadPercent.toNat hle
  unfold CoverPolicy.allowance
  omega

/-- What one call can do.  It never panics. -/
theorem serve_cases {policy : CoverPolicy} {payloads covers : List Nat}
    {cancelled : Bool} {scheduler : CoverScheduler}
    (hagrees : Agrees policy payloads covers cancelled scheduler)
    (call : Call) :
    (∃ error, scheduler.serve call = (failure call error, scheduler)) ∨
    (∃ now bytes, call = .recordPayload now bytes ∧
      scheduler.lastObserved ≤ now ∧ scheduler.serve call =
        (.recorded (.ok ()), { scheduler with
          lastObserved := now
          lastData := some now
          payloadBytes :=
            saturatingAdd scheduler.payloadBytes bytes.toNat })) ∨
    (∃ reservation, call = .reserve reservation ∧
      scheduler.lastObserved ≤ reservation.now ∧ scheduler.serve call =
        (.reserved (some (.ok false)), scheduler.withheld reservation)) ∨
    ∃ reservation lastData, call = .reserve reservation ∧
      scheduler.lastObserved ≤ reservation.now ∧
      Grants policy lastData scheduler reservation ∧ scheduler.serve call =
        (.reserved (some (.ok true)), scheduler.granted reservation) := by
  cases call with
  | recordPayload now bytes =>
      by_cases hback : now < scheduler.lastObserved
      · refine Or.inl ⟨.invalidArgument "cover clock moved backwards", ?_⟩
        simp only [serve, recordPayload, observe, if_pos hback, failure]
      · refine Or.inr (Or.inl ⟨now, bytes, rfl, Nat.le_of_not_lt hback, ?_⟩)
        simp only [serve, recordPayload, observe, if_neg hback]
  | reserve reservation =>
      rcases reserve_cases scheduler reservation with
        ⟨-, error, hanswer⟩ | ⟨hnow, hanswer | hgranted | hpanic⟩
      · exact Or.inl ⟨error, by simp only [serve, hanswer, failure]⟩
      · refine Or.inr (Or.inr (Or.inl ⟨reservation, rfl, hnow, ?_⟩))
        simp only [serve, hanswer]
      · obtain ⟨other, lastData, hgrants, hanswer⟩ := hgranted
        obtain rfl : policy = other := Option.some.inj
          (hagrees.policy_eq.symm.trans hgrants.policy_eq)
        refine Or.inr (Or.inr (Or.inr
          ⟨reservation, lastData, rfl, hnow, hgrants, ?_⟩))
        simp only [serve, hanswer]
      · -- Both times were observed, and the clock has not gone back since.
        obtain ⟨since, hsince, hlate⟩ := hpanic
        have hle : since ≤ scheduler.lastObserved := by
          rcases hsince with hdata | hcover
          · rw [hagrees.data_eq] at hdata
            exact hagrees.data_le since (List.mem_of_getLast? hdata)
          · rw [hagrees.cover_eq] at hcover
            exact hagrees.cover_le since (List.mem_of_getLast? hcover)
        omega

section Steps

variable {policy : CoverPolicy} {payloads covers : List Nat} {cancelled : Bool}
  {scheduler : CoverScheduler}

/-- Times seen by the scheduler stay in the past. -/
theorem forall_le_of_le {times : List Nat} {observed now : Nat}
    (htimes : ∀ time ∈ times, time ≤ observed) (hnow : observed ≤ now) :
    ∀ time ∈ times, time ≤ now :=
  fun time hmem => Nat.le_trans (htimes time hmem) hnow

theorem Agrees.record
    (hagrees : Agrees policy payloads covers cancelled scheduler) {now : Nat}
    (hnow : scheduler.lastObserved ≤ now) (bytes : UInt64) :
    Agrees policy (payloads ++ [now]) covers cancelled
      { scheduler with
        lastObserved := now
        lastData := some now
        payloadBytes :=
          saturatingAdd scheduler.payloadBytes bytes.toNat } where
  policy_eq := hagrees.policy_eq
  data_eq := List.getLast?_concat.symm
  cover_eq := hagrees.cover_eq
  stopped_eq := hagrees.stopped_eq
  data_le := List.forall_mem_append.mpr
    ⟨forall_le_of_le hagrees.data_le hnow, by simp⟩
  cover_le := forall_le_of_le hagrees.cover_le hnow
  sorted := hagrees.sorted
  payload_le := Nat.min_le_right _ _
  budget := by
    -- The allowance only grows, also where the sum saturates.
    have hgrows : scheduler.payloadBytes ≤
        saturatingAdd scheduler.payloadBytes bytes.toNat :=
      Nat.le_min.mpr ⟨Nat.le_add_right _ _, hagrees.payload_le⟩
    exact Nat.le_trans hagrees.budget (allowance_mono policy hgrows)

theorem Agrees.withheld
    (hagrees : Agrees policy payloads covers cancelled scheduler)
    {call : Reservation} (hnow : scheduler.lastObserved ≤ call.now) :
    Agrees policy payloads covers (cancelled || call.cancelled)
      (scheduler.withheld call) where
  policy_eq := hagrees.policy_eq
  data_eq := hagrees.data_eq
  cover_eq := hagrees.cover_eq
  stopped_eq := congrArg (· || call.cancelled) hagrees.stopped_eq
  data_le := forall_le_of_le hagrees.data_le hnow
  cover_le := forall_le_of_le hagrees.cover_le hnow
  sorted := hagrees.sorted
  payload_le := hagrees.payload_le
  budget := hagrees.budget

theorem Agrees.granted
    (hagrees : Agrees policy payloads covers cancelled scheduler)
    {call : Reservation} {lastData : Nat}
    (hnow : scheduler.lastObserved ≤ call.now)
    (hgrants : Grants policy lastData scheduler call) :
    Agrees policy payloads (covers ++ [call.now]) (cancelled || call.cancelled)
      (scheduler.granted call) where
  policy_eq := hagrees.policy_eq
  data_eq := hagrees.data_eq
  cover_eq := List.getLast?_concat.symm
  stopped_eq := congrArg (· || call.cancelled) hagrees.stopped_eq
  data_le := forall_le_of_le hagrees.data_le hnow
  cover_le := List.forall_mem_append.mpr
    ⟨forall_le_of_le hagrees.cover_le hnow,
      List.forall_mem_singleton.mpr (Nat.le_refl call.now)⟩
  sorted := by
    rw [List.pairwise_append]
    refine ⟨hagrees.sorted, List.pairwise_singleton _ _, ?_⟩
    intro time hmem last hlast
    rw [List.mem_singleton] at hlast
    rw [hlast]
    exact forall_le_of_le hagrees.cover_le hnow time hmem
  payload_le := hagrees.payload_le
  budget := by
    have hbudget := hagrees.budget
    have hroom := hgrants.budget
    change saturatingAdd scheduler.coverBytes call.bytes.toNat ≤ _
    unfold saturatingAdd
    change _ ≤ policy.allowance scheduler.payloadBytes
    omega

end Steps

theorem failure_silent (call : Call) (error : ShphError) :
    payloadTime (call, failure call error) = none ∧
      grantTime (call, failure call error) = none ∧
      cancels (call, failure call error) = false ∧
      payloadSize (call, failure call error) = 0 ∧
      grantSize (call, failure call error) = 0 := by
  cases call <;> exact ⟨rfl, rfl, rfl, rfl, rfl⟩

/-- A sum that saturates again. -/
theorem saturatingAdd_min (sum more : Nat) :
    saturatingAdd (min sum u64Max) more = min (sum + more) u64Max := by
  unfold saturatingAdd
  omega

theorem serve_totals {policy : CoverPolicy} {payloads covers : List Nat}
    {cancelled : Bool} {scheduler : CoverScheduler}
    {history : List (Call × Answer)}
    (hagrees : Agrees policy payloads covers cancelled scheduler)
    (htotals : Totals history scheduler) (call : Call) :
    Totals (history ++ [(call, (scheduler.serve call).1)])
      (scheduler.serve call).2 := by
  obtain ⟨hpayload, hcover⟩ := htotals
  rcases serve_cases hagrees call with ⟨error, hserve⟩ |
    ⟨now, bytes, rfl, hnow, hserve⟩ | ⟨reservation, rfl, hnow, hserve⟩ |
    ⟨reservation, lastData, rfl, hnow, hgrants, hserve⟩
  · obtain ⟨-, -, -, hpaid, hgranted⟩ := failure_silent call error
    rw [hserve]
    constructor <;> simp [hpaid, hgranted, hpayload, hcover]
  · rw [hserve]
    constructor
    · simp [payloadSize, hpayload, saturatingAdd_min]
    · simp [grantSize, hcover]
  · rw [hserve]
    constructor <;>
      simp [payloadSize, grantSize, withheld, hpayload, hcover]
  · rw [hserve]
    constructor
    · simp [payloadSize, granted, withheld, hpayload]
    · simp [grantSize, granted, hcover, saturatingAdd_min]

/-- The run invariant: the state agrees with the history of the calls. -/
theorem serve_agrees {policy : CoverPolicy}
    (history : List (Call × Answer)) (scheduler : CoverScheduler) (call : Call)
    (hagrees : Agrees policy (payloadTimes history) (grantTimes history)
      (history.any cancels) scheduler) :
    Agrees policy
      (payloadTimes (history ++ [(call, (scheduler.serve call).1)]))
      (grantTimes (history ++ [(call, (scheduler.serve call).1)]))
      ((history ++ [(call, (scheduler.serve call).1)]).any cancels)
      (scheduler.serve call).2 := by
  rw [payloadTimes_snoc, grantTimes_snoc, List.any_append]
  rcases serve_cases hagrees call with ⟨error, hserve⟩ |
    ⟨now, bytes, rfl, hnow, hserve⟩ | ⟨reservation, rfl, hnow, hserve⟩ |
    ⟨reservation, lastData, rfl, hnow, hgrants, hserve⟩
  · obtain ⟨hpayload, hgrant, hcancel, -⟩ := failure_silent call error
    rw [hserve]
    simpa [hpayload, hgrant, hcancel] using hagrees
  · rw [hserve]
    simpa [payloadTime, grantTime, cancels] using hagrees.record hnow bytes
  · rw [hserve]
    simpa [payloadTime, grantTime, cancels] using hagrees.withheld hnow
  · rw [hserve]
    simpa [payloadTime, grantTime, cancels] using
      hagrees.granted hnow hgrants

theorem new_agrees {policy : CoverPolicy} {scheduler : CoverScheduler}
    (hnew : new (some policy) = .ok scheduler) :
    Agrees policy [] [] false scheduler ∧ Totals [] scheduler := by
  have hsame : scheduler = ⟨some policy, 0, none, none, 0, 0, false⟩ := by
    obtain ⟨valid, -, hscheduler⟩ := bind_eq_ok_iff.mp hnew
    exact (Except.ok.inj hscheduler).symm
  rw [hsame]
  constructor
  · constructor <;> simp
  · constructor <;> rfl

/-- The last element of a list in order is its greatest. -/
theorem le_getLast?_of_sorted {times : List Nat} {last : Nat}
    (hsorted : times.Pairwise (· ≤ ·)) (hlast : times.getLast? = some last) :
    ∀ time ∈ times, time ≤ last := by
  obtain ⟨front, rfl⟩ := List.getLast?_eq_some_iff.mp hlast
  rw [List.pairwise_append] at hsorted
  intro time hmem
  rw [List.mem_append, List.mem_singleton] at hmem
  rcases hmem with hfront | rfl
  · exact hsorted.2.2 time hfront last (List.mem_singleton_self last)
  · exact Nat.le_refl time

/-- After any run of payloads and reservations the counters are the sums of what
was recorded and granted, the cover bytes stay within their allowance, and the next call does not panic, leaves the state alone if
it fails, and is granted only in due time: not before a payload, not at the
idle timeout, not after a cancellation, and an interval after every earlier
cover frame. -/
theorem run_within_budget {policy : CoverPolicy} {scheduler : CoverScheduler}
    (hnew : new (some policy) = .ok scheduler) (calls : List Call)
    (call : Call) :
    let history := trace serve scheduler calls
    let reached := final serve scheduler calls
    let answer := (reached.serve call).1
    Totals history reached ∧
      reached.coverBytes ≤
        min (reached.payloadBytes * policy.overheadPercent.toNat / 100)
          policy.maximumBytes.toNat ∧
      answer ≠ .reserved none ∧
      (∀ error, answer = failure call error →
        (reached.serve call).2 = reached) ∧
      ∀ now, grantTime (call, answer) = some now →
        (∃ lastPayload, (payloadTimes history).getLast? = some lastPayload ∧
          lastPayload ≤ now ∧
          now < lastPayload + policy.idleTimeoutMs.toNat * 10 ^ 6) ∧
        (∀ earlier ∈ history, cancels earlier = false) ∧
        ∀ earlier ∈ grantTimes history,
          earlier + policy.intervalMs.toNat * 10 ^ 6 ≤ now := by
  intro history reached answer
  obtain ⟨hagrees, htotals⟩ : Agrees policy (payloadTimes history)
      (grantTimes history) (history.any cancels) reached ∧
        Totals history reached :=
    history_invariant (P := fun history reached => Agrees policy
      (payloadTimes history) (grantTimes history) (history.any cancels)
      reached ∧ Totals history reached) (new_agrees hnew)
      (fun history scheduler call hboth =>
        ⟨serve_agrees history scheduler call hboth.1,
          serve_totals hboth.1 hboth.2 call⟩) calls
  refine ⟨htotals, hagrees.budget, ?_⟩
  rcases serve_cases hagrees call with ⟨error, hserve⟩ |
    ⟨now, bytes, rfl, hnow, hserve⟩ | ⟨reservation, rfl, hnow, hserve⟩ |
    ⟨reservation, lastData, rfl, hnow, hgrants, hserve⟩
  · have hanswer : answer = failure call error := congrArg Prod.fst hserve
    have hsilent := failure_silent call error
    rw [hanswer]
    refine ⟨?_, fun _ _ => congrArg Prod.snd hserve, ?_⟩
    · cases call <;> simp [failure]
    · simp [hsilent.2.1]
  · have hanswer : answer = .recorded (.ok ()) := congrArg Prod.fst hserve
    simp [hanswer, failure, grantTime]
  · have hanswer : answer = .reserved (some (.ok false)) :=
      congrArg Prod.fst hserve
    simp [hanswer, failure, grantTime]
  · have hanswer : answer = .reserved (some (.ok true)) :=
      congrArg Prod.fst hserve
    rw [hanswer]
    refine ⟨by simp, by simp [failure], ?_⟩
    rintro now hgranted
    obtain rfl : reservation.now = now := Option.some.inj hgranted
    refine ⟨⟨lastData, ?_, hgrants.data_le, ?_⟩, ?_, ?_⟩
    · rw [← hagrees.data_eq, hgrants.data_eq]
    · have hidle := hgrants.idle
      have hdata := hgrants.data_le
      unfold CoverPolicy.idleTimeout at hidle
      omega
    · have hrunning := hgrants.running
      rw [hagrees.stopped_eq, List.any_eq_false] at hrunning
      intro earlier hmem
      simpa using hrunning earlier hmem
    · intro earlier hmem
      have hgap := hgrants.gap
      have hcover := hgrants.cover_le
      cases hlast : (grantTimes history).getLast? with
      | none =>
          rw [List.getLast?_eq_none_iff] at hlast
          rw [hlast] at hmem
          simp at hmem
      | some last =>
          have hle := le_getLast?_of_sorted hagrees.sorted hlast earlier hmem
          rw [hagrees.cover_eq, hlast, Option.getD_some] at hgap hcover
          unfold CoverPolicy.interval at hgap
          omega

namespace Witness

def policy : CoverPolicy := ⟨100, 500, 500, 10⟩

def start : CoverScheduler := ⟨some policy, 0, none, none, 0, 0, false⟩

def coverAt (now : Nat) : Call := .reserve ⟨now, 128, false, false, false⟩

/-- A payload and a first cover frame. -/
def calls : List Call := [.recordPayload 0 2560, coverAt (10 ^ 8)]

theorem start_eq : new (some policy) = .ok start := by decide

/-- A second cover frame is granted an interval after the first. -/
theorem run_within_budget_second :
    let history := trace serve start calls
    let reached := final serve start calls
    let answer := (reached.serve (coverAt (2 * 10 ^ 8))).1
    grantTime (coverAt (2 * 10 ^ 8), answer) = some (2 * 10 ^ 8) ∧
      (∃ lastPayload, (payloadTimes history).getLast? = some lastPayload ∧
        lastPayload ≤ 2 * 10 ^ 8 ∧ 2 * 10 ^ 8 < lastPayload + 500 * 10 ^ 6) ∧
      (∀ earlier ∈ history, cancels earlier = false) ∧
      ∀ earlier ∈ grantTimes history, earlier + 100 * 10 ^ 6 ≤ 2 * 10 ^ 8 := by
  have hgranted : grantTime (coverAt (2 * 10 ^ 8),
      ((final serve start calls).serve (coverAt (2 * 10 ^ 8))).1) =
        some (2 * 10 ^ 8) := by decide
  exact ⟨hgranted, (run_within_budget start_eq calls
    (coverAt (2 * 10 ^ 8))).2.2.2.2 _ hgranted⟩

end Witness

end CoverScheduler

end Shph
