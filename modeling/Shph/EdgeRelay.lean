/-
The opaque relay between two byte streams.  One task forwards what comes in on
the left to the right, another one the other way round; each counts what it has
read against the limit and passes the end of its stream on.  The first task
that fails cancels the other one.
-/
import Shph.Capability
import Shph.Library.DialogueContracts

namespace Shph.Edge

open ByteCodec Dialogue Program Relation

def copyBufferBytes : Nat := 16 * 1024

inductive RelayError where
  | backendTimeout
  | backend
  | idleTimeout
  | cancelled
  | limitExceeded
  | io
  | invalidTimeout
deriving Repr, DecidableEq

section Forward

variable (maxBytes : UInt64)

/-- One turn reads a chunk and writes it on.  At the end of the stream the
other one is closed, which transfers nothing. -/
def forwardFrom (total : Nat) : Program RelayError Nat :=
  .read copyBufferBytes fun chunk =>
    if chunk = [] then .sync (pure total)
    else
      match _ : checkedAdd total chunk.length with
      | none => .fail .limitExceeded
      | some sum =>
          if maxBytes.toNat < sum then .fail .limitExceeded
          else .write chunk (forwardFrom sum)
termination_by maxBytes.toNat - total
decreasing_by
  rename_i hchunk htotal hlimit
  have hsum := (checkedAdd_eq_some_iff.mp htotal).2
  have hlength := List.length_pos_iff.mpr hchunk
  omega

def forwardWithCancel (idleTimeout : Duration) : Program RelayError Nat :=
  if idleTimeout = 0 then .fail .invalidTimeout else forwardFrom maxBytes 0

/-- A chunk is written on if it fits the limit, and refused otherwise. -/
theorem forwardFrom_eq (total : Nat) :
    forwardFrom maxBytes total = .read copyBufferBytes fun chunk =>
      if chunk = [] then .sync (pure total)
      else if maxBytes.toNat < total + chunk.length then .fail .limitExceeded
      else .write chunk (forwardFrom maxBytes (total + chunk.length)) := by
  rw [forwardFrom]
  congr 1
  funext chunk
  by_cases hchunk : chunk = []
  · rw [if_pos hchunk, if_pos hchunk]
  · rw [if_neg hchunk, if_neg hchunk]
    have hmax : maxBytes.toNat ≤ u64Max := by
      have hlt := maxBytes.toNat_lt
      unfold u64Max
      omega
    split
    · rename_i hnone
      rw [if_pos]
      have hsum : ¬ total + chunk.length ≤ u64Max := by
        intro hle
        rw [checkedAdd_eq_some_iff.mpr ⟨hle, rfl⟩] at hnone
        cases hnone
      omega
    · rename_i sum hsome
      rw [(checkedAdd_eq_some_iff.mp hsome).2]

end Forward

/-- One of the two tasks, with what the stream it reads is still to give and
what the stream it writes has taken. -/
structure Direction where
  program : Program RelayError Nat
  source : Bytes
  sink : Bytes

/-- A step of a task: a call on a stream goes on, it fails or its time is up,
or the task sees at a call that it has been cancelled. -/
inductive Direction.Step (closes faults cancelled : Prop) :
    Direction → Direction → Prop
  | moves {direction : Direction} {next : Program RelayError Nat}
      {rest output : Bytes}
      (hmoves : Moves closes direction.program direction.source next rest
        output) :
      Step closes faults cancelled direction
        ⟨next, rest, direction.sink ++ output⟩
  | faults {direction : Direction} (hpending : direction.program.Pending)
      (hfaults : faults) {error : RelayError}
      (herror : error = .idleTimeout ∨ error = .io) :
      Step closes faults cancelled direction
        ⟨.fail error, direction.source, direction.sink⟩
  | cancelled {direction : Direction} (hpending : direction.program.Pending)
      (hcancelled : cancelled) :
      Step closes faults cancelled direction
        ⟨.fail .cancelled, direction.source, direction.sink⟩

namespace Direction

section Forwarding

variable (maxBytes : UInt64) (closes faults cancelled : Prop) (whole : Bytes)

/-- What must have happened for a task to end with an error. -/
def Blames : RelayError → Prop
  | .limitExceeded => maxBytes.toNat < whole.length
  | .cancelled => cancelled
  | .idleTimeout | .io => faults
  | .invalidTimeout | .backendTimeout | .backend => False

/-- Where a task can be: before a read, with a chunk to write on, about to pass
on the end of its stream, or ended. -/
inductive Forwards : Direction → Prop
  | reading {source sink : Bytes} (hwhole : whole = sink ++ source)
      (hlimit : sink.length ≤ maxBytes.toNat) :
      Forwards ⟨forwardFrom maxBytes sink.length, source, sink⟩
  | writing {pending source sink : Bytes}
      (hwhole : whole = sink ++ pending ++ source)
      (hlimit : (sink ++ pending).length ≤ maxBytes.toNat) :
      Forwards ⟨.write pending (forwardFrom maxBytes (sink ++ pending).length),
        source, sink⟩
  | closing (hcloses : closes) (hlimit : whole.length ≤ maxBytes.toNat) :
      Forwards ⟨.sync (pure whole.length), [], whole⟩
  | returned (hcloses : closes) (hlimit : whole.length ≤ maxBytes.toNat) :
      Forwards ⟨pure whole.length, [], whole⟩
  | failed {error : RelayError} {source sink : Bytes}
      (hblames : Blames maxBytes faults cancelled whole error)
      (hsink : sink <+: whole) (hlimit : sink.length ≤ maxBytes.toNat) :
      Forwards ⟨.fail error, source, sink⟩

end Forwarding

variable {maxBytes : UInt64} {closes faults cancelled : Prop} {whole : Bytes}
  {direction next : Direction}

theorem forwards_start : Forwards maxBytes closes faults cancelled whole
    ⟨forwardFrom maxBytes 0, whole, []⟩ :=
  .reading (List.nil_append whole).symm (Nat.zero_le _)

namespace Forwards

theorem mono {later : Prop} (himp : cancelled → later)
    (hforwards : Forwards maxBytes closes faults cancelled whole direction) :
    Forwards maxBytes closes faults later whole direction := by
  cases hforwards with
  | reading hwhole hlimit => exact .reading hwhole hlimit
  | writing hwhole hlimit => exact .writing hwhole hlimit
  | closing hcloses hlimit => exact .closing hcloses hlimit
  | returned hcloses hlimit => exact .returned hcloses hlimit
  | @failed error _ _ hblames hsink hlimit =>
      refine .failed ?_ hsink hlimit
      cases error with
      | cancelled => exact himp hblames
      | _ => exact hblames

/-- Nothing is made up, and nothing beyond the limit is passed on. -/
theorem sink_le
    (hforwards : Forwards maxBytes closes faults cancelled whole direction) :
    direction.sink <+: whole ∧ direction.sink.length ≤ maxBytes.toNat := by
  cases hforwards with
  | reading hwhole hlimit =>
      exact ⟨hwhole ▸ List.prefix_append _ _, hlimit⟩
  | writing hwhole hlimit =>
      rw [List.append_assoc] at hwhole
      rw [List.length_append] at hlimit
      exact ⟨hwhole ▸ List.prefix_append _ _, by dsimp only; omega⟩
  | closing _ hlimit => exact ⟨List.prefix_refl _, hlimit⟩
  | returned _ hlimit => exact ⟨List.prefix_refl _, hlimit⟩
  | failed _ hsink hlimit => exact ⟨hsink, hlimit⟩

theorem not_done_read {result : Except RelayError Nat} {total : Nat} :
    forwardFrom maxBytes total ≠ done result := by
  rw [forwardFrom_eq]
  rintro ⟨⟩

/-- A task that has ended well has passed everything on, the end included. -/
theorem of_returned {total : Nat}
    (hforwards : Forwards maxBytes closes faults cancelled whole direction)
    (hprogram : direction.program = done (.ok total)) :
    closes ∧ direction.sink = whole ∧ total = whole.length := by
  cases hforwards with
  | reading _ _ => exact absurd hprogram not_done_read
  | writing _ _ => cases hprogram
  | closing _ _ => cases hprogram
  | returned hcloses _ =>
      cases hprogram
      exact ⟨hcloses, rfl, rfl⟩
  | failed _ _ _ => cases hprogram

theorem of_failed {error : RelayError}
    (hforwards : Forwards maxBytes closes faults cancelled whole direction)
    (hprogram : direction.program = done (.error error)) :
    Blames maxBytes faults cancelled whole error := by
  cases hforwards with
  | reading _ _ => exact absurd hprogram not_done_read
  | writing _ _ => cases hprogram
  | closing _ _ => cases hprogram
  | returned _ _ => cases hprogram
  | failed hblames _ _ =>
      cases hprogram
      exact hblames

/-- Having read a chunk, a task writes it on or ends with the limit. -/
theorem of_chunk {chunk source sink : Bytes} (hchunk : chunk ≠ [])
    (hwhole : whole = sink ++ (chunk ++ source))
    (hlimit : sink.length ≤ maxBytes.toNat) :
    Forwards maxBytes closes faults cancelled whole
      ⟨if chunk = [] then .sync (pure sink.length)
        else if maxBytes.toNat < sink.length + chunk.length then
          .fail .limitExceeded
        else .write chunk (forwardFrom maxBytes (sink.length + chunk.length)),
        source, sink⟩ := by
  rw [if_neg hchunk, ← List.length_append]
  split
  · rename_i hexceeds
    refine .failed ?_ (hwhole ▸ List.prefix_append _ _) hlimit
    rw [← List.append_assoc] at hwhole
    change maxBytes.toNat < whole.length
    rw [hwhole, List.length_append]
    omega
  · rename_i hfits
    refine .writing ?_ (Nat.not_lt.mp hfits)
    rw [hwhole, List.append_assoc]

theorem moves {following : Program RelayError Nat} {rest output : Bytes}
    (hforwards : Forwards maxBytes closes faults cancelled whole direction)
    (hmoves : Moves closes direction.program direction.source following rest
      output) :
    Forwards maxBytes closes faults cancelled whole
      ⟨following, rest, direction.sink ++ output⟩ := by
  cases hforwards with
  | @reading source sink hwhole hlimit =>
      dsimp only at hmoves ⊢
      rw [forwardFrom_eq] at hmoves
      cases hmoves with
      | read _ hchunk _ _ =>
          rw [List.append_nil]
          exact of_chunk hchunk hwhole hlimit
      | eof _ hcloses =>
          dsimp only
          rw [if_pos rfl, List.append_nil]
          rw [List.append_nil] at hwhole
          subst hwhole
          exact .closing hcloses hlimit
  | @writing pending source sink hwhole hlimit =>
      obtain ⟨rfl, ⟨later, rfl, _, rfl⟩ | ⟨rfl, rfl, rfl⟩⟩ := hmoves.of_write
      · rw [← List.append_assoc] at hwhole hlimit ⊢
        exact .writing hwhole hlimit
      · simp only [List.append_nil] at hwhole hlimit ⊢
        exact .reading hwhole hlimit
  | closing hcloses hlimit =>
      cases hmoves
      rw [List.append_nil]
      exact .returned hcloses hlimit
  | returned _ _ => cases hmoves
  | failed _ _ _ => cases hmoves

theorem step
    (hforwards : Forwards maxBytes closes faults cancelled whole direction)
    (hstep : direction.Step closes faults cancelled next) :
    Forwards maxBytes closes faults cancelled whole next := by
  obtain ⟨hsink, hlimit⟩ := hforwards.sink_le
  cases hstep with
  | moves hmoves => exact hforwards.moves hmoves
  | faults _ hfaults herror =>
      rcases herror with rfl | rfl
      · exact .failed hfaults hsink hlimit
      · exact .failed hfaults hsink hlimit
  | cancelled _ hcancelled => exact .failed hcancelled hsink hlimit

/-- A task that cannot go on has ended, or waits for the rest of a stream that
neither ends nor gives more. -/
theorem stuck
    (hforwards : Forwards maxBytes closes faults cancelled whole direction)
    (hstuck : ∀ next, ¬ direction.Step closes faults cancelled next) :
    (∃ result, direction.program = done result) ∨
      ¬ closes ∧ ¬ cancelled ∧ direction.sink = whole := by
  have hmoves {following : Program RelayError Nat} {rest output : Bytes} :
      ¬ Moves closes direction.program direction.source following rest
        output := fun hmoves => hstuck _ (.moves hmoves)
  cases hforwards with
  | @reading source sink hwhole _ =>
      right
      dsimp only at hmoves
      rw [forwardFrom_eq] at hmoves
      cases source with
      | nil =>
          rw [List.append_nil] at hwhole
          refine ⟨fun hcloses => hmoves (.eof _ hcloses), ?_, hwhole.symm⟩
          exact fun hcancelled =>
            hstuck _ (.cancelled (fun _ => not_done_read) hcancelled)
      | cons byte rest =>
          have hone : 1 ≤ copyBufferBytes := by decide
          exact absurd (.read _ (List.cons_ne_nil byte []) hone rest) hmoves
  | @writing pending source _ _ _ =>
      by_cases hpending : pending = []
      · subst hpending
        exact absurd (.written _ _) hmoves
      · exact absurd (.writeAll hpending _ _) hmoves
  | closing _ _ => exact absurd (.sync _ _) hmoves
  | returned _ _ => exact Or.inl ⟨_, rfl⟩
  | failed _ _ _ => exact Or.inl ⟨_, rfl⟩

end Forwards

end Direction

/-- What the relay works in.  The two directions are told apart by whether they
go from left to right.  `whole` is all that the stream a direction reads will
ever give, and `closes` that it then ends. -/
structure Surroundings where
  whole : Bool → Bytes
  closes : Bool → Prop
  faults : Prop
  cancels : Prop

/-- The relay: its two tasks, the token they share, the one that was the first
to end, and what the relay returns. -/
structure Pipe where
  directions : Bool → Direction
  cancelled : Bool
  first : Option Bool
  result : Option (Except RelayError (Nat × Nat))

/-- What is returned once both tasks have ended. -/
def finishFirstDirection (first second : Except RelayError Nat)
    (firstIsLeftToRight : Bool) : Except RelayError (Nat × Nat) := do
  let firstTotal ← first
  let secondTotal ← second
  return if firstIsLeftToRight then (firstTotal, secondTotal)
    else (secondTotal, firstTotal)

def pipeOpaqueWithCancel (whole : Bool → Bytes) (maxBytes : UInt64)
    (idleTimeout : Duration) : Pipe :=
  { directions := fun leftToRight =>
      ⟨forwardWithCancel maxBytes idleTimeout, whole leftToRight, []⟩
    cancelled := false
    first := none
    result :=
      if idleTimeout = 0 then some (.error .invalidTimeout) else none }

namespace Pipe

variable (surroundings : Surroundings)

inductive Step : Pipe → Pipe → Prop
  | direction {pipe : Pipe} (hopen : pipe.result = none) (leftToRight : Bool)
      {next : Direction}
      (hstep : (pipe.directions leftToRight).Step
        (surroundings.closes leftToRight) surroundings.faults
        (pipe.cancelled = true) next) :
      Step pipe
        { pipe with
          directions := Function.update pipe.directions leftToRight next }
  | cancel {pipe : Pipe} (hopen : pipe.result = none)
      (hcancels : surroundings.cancels) (hfresh : pipe.cancelled = false) :
      Step pipe { pipe with cancelled := true }
  | select {pipe : Pipe} (hopen : pipe.result = none)
      (hfirst : pipe.first = none) (leftToRight : Bool)
      {result : Except RelayError Nat}
      (hended : (pipe.directions leftToRight).program = done result) :
      Step pipe
        { pipe with
          first := some leftToRight
          cancelled := pipe.cancelled || !result.isOk }
  | finish {pipe : Pipe} (hopen : pipe.result = none) {leftToRight : Bool}
      (hfirst : pipe.first = some leftToRight)
      {first second : Except RelayError Nat}
      (hended : (pipe.directions leftToRight).program = done first)
      (hother : (pipe.directions (!leftToRight)).program = done second) :
      Step pipe
        { pipe with
          result := some (finishFirstDirection first second leftToRight) }

abbrev Reaches : Pipe → Pipe → Prop := ReflTransGen (Step surroundings)

/-- Neither task can go on, and there is nothing left to return. -/
def Settled (pipe : Pipe) : Prop := ∀ next, ¬ Step surroundings pipe next

end Pipe

end Shph.Edge
