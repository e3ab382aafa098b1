/-
The byte quota of an onion relay.  Two loops copy bytes in opposite
directions and claim them from one shared counter with a weak compare-exchange
before they write; their steps may interleave in every order.
-/
import Shph.Library.Bytes

namespace Shph.Onion

open ByteCodec

def relayCopyBufferBytes : Nat := 8 * 1024

inductive RelayError where
  | quotaExhausted
  | io
deriving Repr, DecidableEq

/-- Where one of the loops stands.  The buffer holds what was read last. -/
inductive Phase where
  | reading
  | loading (buffer : Bytes)
  | exchanging (buffer : Bytes) (current : UInt64)
  | writing (buffer : Bytes) (allowed done : Nat)
  | checking (buffer : Bytes) (allowed : Nat)
  | shuttingDown
  | ended (result : Except RelayError Unit)

/-- One direction: the bytes still to come, those read and written so far, and
how many it was granted. -/
structure Direction where
  input : Bytes
  read : Bytes
  written : Bytes
  granted : Nat
  phase : Phase

/-- One step of a loop with what its surroundings do: how many bytes a read or
a write moves, whether it fails, and whether an exchange fails for no
reason. -/
inductive Event where
  | read (count : Nat)
  | readFails
  | load
  | exchange (spurious : Bool)
  | write (count : Nat)
  | writeFails
  | check
  | shutdown (succeeds : Bool)
deriving Repr, DecidableEq

namespace Direction

def start (input : Bytes) : Direction := ⟨input, [], [], 0, .reading⟩

def fail (direction : Direction) (error : RelayError) : Direction :=
  { direction with phase := .ended (.error error) }

/-- What may be claimed of the counter as it was seen. -/
def allowance (byteLimit current : UInt64) (buffer : Bytes) : Nat :=
  min buffer.length (byteLimit.toNat - current.toNat)

/-- The compare-exchange, or the end when nothing remains. -/
def exchange (byteLimit copied : UInt64) (direction : Direction)
    (buffer : Bytes) (current : UInt64) (spurious : Bool) :
    Direction × UInt64 :=
  if byteLimit.toNat - current.toNat = 0 then
    (direction.fail .quotaExhausted, copied)
  else if copied = current ∧ spurious = false then
    let allowed := allowance byteLimit current buffer
    ({ direction with
        granted := direction.granted + allowed
        phase := .writing buffer allowed 0 },
      current + UInt64.ofNat allowed)
  else ({ direction with phase := .exchanging buffer copied }, copied)

/-- A step of one loop on the shared counter; a step that is not due does
nothing. -/
def step (byteLimit copied : UInt64) (direction : Direction) :
    Event → Direction × UInt64
  | .read count =>
      match direction.phase with
      | .reading =>
          if direction.input = [] then
            ({ direction with phase := .shuttingDown }, copied)
          else
            let buffer := direction.input.take
              (max 1 (min count relayCopyBufferBytes))
            ({ direction with
                input := direction.input.drop buffer.length
                read := direction.read ++ buffer
                phase := .loading buffer }, copied)
      | _ => (direction, copied)
  | .readFails =>
      match direction.phase with
      | .reading => (direction.fail .io, copied)
      | _ => (direction, copied)
  | .load =>
      match direction.phase with
      | .loading buffer =>
          ({ direction with phase := .exchanging buffer copied }, copied)
      | _ => (direction, copied)
  | .exchange spurious =>
      match direction.phase with
      | .exchanging buffer current =>
          direction.exchange byteLimit copied buffer current spurious
      | _ => (direction, copied)
  | .write count =>
      match direction.phase with
      | .writing buffer allowed done =>
          if done = allowed then
            ({ direction with phase := .checking buffer allowed }, copied)
          else
            let more := min count (allowed - done)
            ({ direction with
                written := direction.written ++ (buffer.drop done).take more
                phase := .writing buffer allowed (done + more) }, copied)
      | _ => (direction, copied)
  | .writeFails =>
      match direction.phase with
      | .writing _ _ _ => (direction.fail .io, copied)
      | _ => (direction, copied)
  | .check =>
      match direction.phase with
      | .checking buffer allowed =>
          if allowed ≠ buffer.length ∨ byteLimit ≤ copied then
            (direction.fail .quotaExhausted, copied)
          else ({ direction with phase := .reading }, copied)
      | _ => (direction, copied)
  | .shutdown succeeds =>
      match direction.phase with
      | .shuttingDown =>
          (if succeeds then { direction with phase := .ended (.ok ()) }
            else direction.fail .io, copied)
      | _ => (direction, copied)

end Direction

inductive Side where
  | clientToUpstream
  | upstreamToClient
deriving Repr, DecidableEq

structure Relay where
  byteLimit : UInt64
  copied : UInt64
  directions : Side → Direction

namespace Relay

/-- A relay before its first step. -/
def start (byteLimit : UInt64) (input : Side → Bytes) : Relay :=
  ⟨byteLimit, 0, fun side => .start (input side)⟩

/-- The result of the relay, once it has one: the first error, or success of
both directions. -/
def result (relay : Relay) : Option (Except RelayError Unit) :=
  match (relay.directions .clientToUpstream).phase,
    (relay.directions .upstreamToClient).phase with
  | .ended (.error error), _ => some (.error error)
  | _, .ended (.error error) => some (.error error)
  | .ended (.ok _), .ended (.ok _) => some (.ok ())
  | _, _ => none

/-- A step of one side, while the relay runs. -/
def step (relay : Relay) (event : Side × Event) : Relay :=
  match relay.result with
  | some _ => relay
  | none =>
      let next := (relay.directions event.1).step relay.byteLimit relay.copied
        event.2
      { relay with
        copied := next.2
        directions := Function.update relay.directions event.1 next.1 }

def run (relay : Relay) (events : List (Side × Event)) : Relay :=
  events.foldl step relay

end Relay

/-- How the bytes of a direction stand in each phase: all that was read is
written, or still in the buffer, or the loop has ended. -/
def Phase.Accounts (read written : Bytes) (granted : Nat) : Phase → Prop
  | .reading => read = written ∧ written.length ≤ granted
  | .loading buffer => read = written ++ buffer ∧ written.length ≤ granted
  | .exchanging buffer _ =>
      read = written ++ buffer ∧ written.length ≤ granted
  | .writing buffer allowed done =>
      read = written ++ buffer.drop done ∧ done ≤ allowed ∧
        allowed ≤ buffer.length ∧ written.length + (allowed - done) ≤ granted
  | .checking buffer allowed =>
      read = written ++ buffer.drop allowed ∧ allowed ≤ buffer.length ∧
        written.length ≤ granted
  | .shuttingDown => read = written ∧ written.length ≤ granted
  | .ended _ => written <+: read ∧ written.length ≤ granted

def Direction.Consistent (direction : Direction) : Prop :=
  direction.phase.Accounts direction.read direction.written direction.granted

/-- In every phase the written bytes begin the bytes read, and were granted. -/
theorem Direction.Consistent.written {direction : Direction}
    (hconsistent : direction.Consistent) :
    direction.written <+: direction.read ∧
      direction.written.length ≤ direction.granted := by
  unfold Direction.Consistent at hconsistent
  cases hphase : direction.phase with
  | reading =>
      rw [hphase] at hconsistent
      exact ⟨hconsistent.1 ▸ List.prefix_refl _, hconsistent.2⟩
  | loading buffer =>
      rw [hphase] at hconsistent
      exact ⟨hconsistent.1 ▸ List.prefix_append _ _, hconsistent.2⟩
  | exchanging buffer current =>
      rw [hphase] at hconsistent
      exact ⟨hconsistent.1 ▸ List.prefix_append _ _, hconsistent.2⟩
  | writing buffer allowed done =>
      rw [hphase] at hconsistent
      obtain ⟨hread, _, _, hgranted⟩ := hconsistent
      exact ⟨hread ▸ List.prefix_append _ _, by omega⟩
  | checking buffer allowed =>
      rw [hphase] at hconsistent
      exact ⟨hconsistent.1 ▸ List.prefix_append _ _, hconsistent.2.2⟩
  | shuttingDown =>
      rw [hphase] at hconsistent
      exact ⟨hconsistent.1 ▸ List.prefix_refl _, hconsistent.2⟩
  | ended result =>
      rw [hphase] at hconsistent
      exact hconsistent

/-- A loop that can end with an error only. -/
def Phase.Stopping : Phase → Prop
  | .writing _ _ _ => True
  | .checking _ _ => True
  | .ended (.error _) => True
  | _ => False

/-- What one step may do to the counter: nothing, or a grant within the
limit, which is written next. -/
def Direction.Claims (byteLimit copied : UInt64) (direction : Direction)
    (next : Direction × UInt64) : Prop :=
  (next.2 = copied ∧ next.1.granted = direction.granted) ∨
    (∃ allowed, copied.toNat < byteLimit.toNat ∧
      next.2.toNat = copied.toNat + allowed ∧
      next.2.toNat ≤ byteLimit.toNat ∧
      next.1.granted = direction.granted + allowed ∧ next.1.phase.Stopping)

theorem Direction.Consistent.fail {direction : Direction}
    (hconsistent : direction.Consistent) (error : RelayError) :
    (direction.fail error).Consistent :=
  hconsistent.written

namespace Direction

variable {byteLimit copied : UInt64} {direction : Direction}

/-- The counter after a grant: the addition does not wrap. -/
theorem toNat_add_allowance {current : UInt64} (buffer : Bytes)
    (hremains : byteLimit.toNat - current.toNat ≠ 0) :
    (current + UInt64.ofNat (allowance byteLimit current buffer)).toNat =
        current.toNat + allowance byteLimit current buffer ∧
      current.toNat + allowance byteLimit current buffer ≤
        byteLimit.toNat := by
  have hlimit := byteLimit.toNat_lt
  have hle : allowance byteLimit current buffer ≤
      byteLimit.toNat - current.toNat := Nat.min_le_right _ _
  rw [UInt64.toNat_add, UInt64.toNat_ofNat']
  rw [Nat.mod_eq_of_lt (by omega : allowance byteLimit current buffer < 2 ^ 64),
    Nat.mod_eq_of_lt (by omega)]
  exact ⟨rfl, by omega⟩

theorem exchange_consistent {buffer : Bytes} {current : UInt64}
    (hconsistent : direction.Consistent)
    (hphase : direction.phase = .exchanging buffer current)
    (spurious : Bool) :
    (direction.exchange byteLimit copied buffer current
      spurious).1.Consistent := by
  have haccounts := hconsistent
  rw [Direction.Consistent, hphase] at haccounts
  unfold exchange
  split
  · exact hconsistent.fail _
  · split
    · refine ⟨haccounts.1, Nat.zero_le _, Nat.min_le_left _ _, ?_⟩
      have hgranted := haccounts.2
      dsimp only
      omega
    · exact haccounts

theorem exchange_claims {buffer : Bytes} {current : UInt64}
    (spurious : Bool) :
    direction.Claims byteLimit copied
      (direction.exchange byteLimit copied buffer current spurious) := by
  unfold exchange
  split
  · exact .inl ⟨rfl, rfl⟩
  · rename_i hremains
    split
    · rename_i hsame
      obtain ⟨rfl, _⟩ := hsame
      obtain ⟨hadd, hle⟩ := toNat_add_allowance buffer hremains
      exact .inr ⟨_, by omega, hadd, hadd ▸ hle, rfl, trivial⟩
    · exact .inl ⟨rfl, rfl⟩

theorem step_consistent (hconsistent : direction.Consistent)
    (event : Event) :
    (direction.step byteLimit copied event).1.Consistent := by
  have haccounts := hconsistent
  unfold Direction.Consistent at haccounts
  cases event with
  | read count =>
      dsimp only [step]
      split
      · rename_i hphase
        rw [hphase] at haccounts
        split
        · exact haccounts
        · refine ⟨?_, haccounts.2⟩
          dsimp only
          rw [haccounts.1]
      · exact hconsistent
  | readFails =>
      dsimp only [step]
      split
      · exact hconsistent.fail _
      · exact hconsistent
  | load =>
      dsimp only [step]
      split
      · rename_i buffer hphase
        rw [hphase] at haccounts
        exact haccounts
      · exact hconsistent
  | exchange spurious =>
      dsimp only [step]
      split
      · rename_i buffer current hphase
        exact exchange_consistent hconsistent hphase spurious
      · exact hconsistent
  | write count =>
      dsimp only [step]
      split
      · rename_i buffer allowed done hphase
        rw [hphase] at haccounts
        obtain ⟨hread, hdone, hallowed, hgranted⟩ := haccounts
        split
        · rename_i heq
          subst heq
          refine ⟨hread, hallowed, ?_⟩
          dsimp only
          omega
        · have hmore : min count (allowed - done) ≤ allowed - done :=
            Nat.min_le_right _ _
          refine ⟨?_, by omega, hallowed, ?_⟩
          · dsimp only
            rw [hread, List.append_assoc, ← List.drop_drop,
              List.take_append_drop]
          · dsimp only
            rw [List.length_append, List.length_take, List.length_drop]
            omega
      · exact hconsistent
  | writeFails =>
      dsimp only [step]
      split
      · exact hconsistent.fail _
      · exact hconsistent
  | check =>
      dsimp only [step]
      split
      · rename_i buffer allowed hphase
        split
        · exact hconsistent.fail _
        · rename_i hnot
          rw [not_or, not_not] at hnot
          rw [hphase, hnot.1] at haccounts
          obtain ⟨hread, _, hgranted⟩ := haccounts
          rw [List.drop_length, List.append_nil] at hread
          exact ⟨hread, hgranted⟩
      · exact hconsistent
  | shutdown succeeds =>
      dsimp only [step]
      split
      · split
        · exact hconsistent.written
        · exact hconsistent.fail _
      · exact hconsistent

theorem step_claims (event : Event) :
    direction.Claims byteLimit copied
      (direction.step byteLimit copied event) := by
  cases event <;> dsimp only [step] <;> split
  all_goals first
    | exact exchange_claims _
    | exact .inl ⟨rfl, rfl⟩
    | (split <;> exact .inl ⟨rfl, rfl⟩)

/-- With the quota used up a stopping loop goes on to its error. -/
theorem step_stopping (hstopping : direction.phase.Stopping)
    (hused : byteLimit ≤ copied) (event : Event) :
    (direction.step byteLimit copied event).1.phase.Stopping := by
  cases event with
  | write count =>
      dsimp only [step]
      split
      · split
        · trivial
        · trivial
      · exact hstopping
  | writeFails =>
      dsimp only [step]
      split
      · trivial
      · exact hstopping
  | check =>
      dsimp only [step]
      split
      · rw [if_pos (.inr hused)]
        trivial
      · exact hstopping
  | read count | readFails | load | exchange spurious | shutdown succeeds =>
      -- these steps are due in phases that do not stop
      dsimp only [step]
      split
      · rename_i hphase
        rw [hphase] at hstopping
        exact hstopping.elim
      · exact hstopping

end Direction

/-- The bytes granted to both directions. -/
def grantedTotal (directions : Side → Direction) : Nat :=
  (directions .clientToUpstream).granted +
    (directions .upstreamToClient).granted

theorem grantedTotal_update {directions : Side → Direction} {side : Side}
    {next : Direction} {more : Nat}
    (hmore : next.granted = (directions side).granted + more) :
    grantedTotal (Function.update directions side next) =
      grantedTotal directions + more := by
  cases side with
  | clientToUpstream =>
      rw [grantedTotal, grantedTotal, Function.update_self,
        Function.update_of_ne (by decide), hmore]
      omega
  | upstreamToClient =>
      rw [grantedTotal, grantedTotal, Function.update_self,
        Function.update_of_ne (by decide), hmore]
      omega

/-- What holds of a relay at every point of a run. -/
structure Relay.Sound (relay : Relay) : Prop where
  consistent : ∀ side, (relay.directions side).Consistent
  counted : relay.copied.toNat = grantedTotal relay.directions
  bounded : relay.copied.toNat ≤ relay.byteLimit.toNat
  stopping : relay.copied = relay.byteLimit → relay.byteLimit ≠ 0 →
    ∃ side, (relay.directions side).phase.Stopping

namespace Relay

variable {relay : Relay}

theorem start_sound (byteLimit : UInt64) (input : Side → Bytes) :
    (start byteLimit input).Sound where
  consistent _ := ⟨rfl, Nat.le_refl _⟩
  counted := rfl
  bounded := Nat.zero_le _
  stopping hreached hlimit := absurd hreached.symm hlimit

/-- A step that is taken: one direction moves and claims what it may. -/
theorem step_cases (relay : Relay) (event : Side × Event) :
    relay.step event = relay ∨
      ∃ next copied, relay.step event = { relay with
          copied := copied
          directions := Function.update relay.directions event.1 next } ∧
        ((relay.directions event.1).Consistent → next.Consistent) ∧
        (relay.directions event.1).Claims relay.byteLimit relay.copied
          (next, copied) ∧
        ((relay.directions event.1).phase.Stopping →
          relay.byteLimit ≤ relay.copied → next.phase.Stopping) := by
  cases hresult : relay.result with
  | some result =>
      left
      rw [step, hresult]
  | none =>
      right
      refine ⟨((relay.directions event.1).step relay.byteLimit relay.copied
        event.2).1, ((relay.directions event.1).step relay.byteLimit
          relay.copied event.2).2, ?_, ?_, Direction.step_claims event.2, ?_⟩
      · rw [step, hresult]
      · exact fun hconsistent =>
          Direction.step_consistent hconsistent event.2
      · exact fun hstopping hused =>
          Direction.step_stopping hstopping hused event.2

theorem step_sound (hsound : relay.Sound) (event : Side × Event) :
    (relay.step event).Sound := by
  obtain hsame | ⟨next, copied, hstep, hconsistent, hclaims, hstopping⟩ :=
    step_cases relay event
  · rw [hsame]
    exact hsound
  · rw [hstep]
    have hall : ∀ side, (Function.update relay.directions event.1 next
        side).Consistent := by
      intro side
      by_cases hside : side = event.1
      · rw [hside, Function.update_self]
        exact hconsistent (hsound.consistent event.1)
      · rw [Function.update_of_ne hside]
        exact hsound.consistent side
    obtain ⟨hcopied, hgranted⟩ | ⟨allowed, hless, hadd, hle, hgranted,
      hwrites⟩ := hclaims
    · subst hcopied
      refine ⟨hall, ?_, hsound.bounded, ?_⟩
      · have hnone : next.granted =
            (relay.directions event.1).granted + 0 := hgranted
        dsimp only
        rw [grantedTotal_update hnone, hsound.counted, Nat.add_zero]
      · intro hreached hlimit
        obtain ⟨side, hside⟩ := hsound.stopping hreached hlimit
        by_cases hmoved : side = event.1
        · refine ⟨event.1, ?_⟩
          dsimp only
          rw [Function.update_self]
          exact hstopping (hmoved ▸ hside) (hreached ▸ UInt64.le_refl _)
        · refine ⟨side, ?_⟩
          dsimp only
          rw [Function.update_of_ne hmoved]
          exact hside
    · refine ⟨hall, ?_, hle, ?_⟩
      · dsimp only
        rw [hadd, grantedTotal_update hgranted, hsound.counted]
      · refine fun _ _ => ⟨event.1, ?_⟩
        dsimp only
        rw [Function.update_self]
        exact hwrites

theorem run_sound (hsound : relay.Sound) (events : List (Side × Event)) :
    (relay.run events).Sound := by
  induction events generalizing relay with
  | nil => exact hsound
  | cons event rest ih => exact ih (step_sound hsound event)

theorem byteLimit_step (relay : Relay) (event : Side × Event) :
    (relay.step event).byteLimit = relay.byteLimit := by
  rw [step]
  split
  · rfl
  · rfl

theorem byteLimit_run (relay : Relay) (events : List (Side × Event)) :
    (relay.run events).byteLimit = relay.byteLimit := by
  induction events generalizing relay with
  | nil => rfl
  | cons event rest ih =>
      exact (ih (relay.step event)).trans (byteLimit_step relay event)

/-- Once the counter has reached the limit it stays, and nothing is granted to
either direction. -/
theorem step_of_used (hused : relay.copied = relay.byteLimit)
    (event : Side × Event) :
    (relay.step event).copied = relay.copied ∧
      ∀ side, ((relay.step event).directions side).granted =
        (relay.directions side).granted := by
  obtain hsame | ⟨next, copied, hstep, _, hclaims, _⟩ :=
    step_cases relay event
  · rw [hsame]
    exact ⟨rfl, fun _ => rfl⟩
  · rw [hstep]
    obtain ⟨hcopied, hgranted⟩ | ⟨allowed, hless, _⟩ := hclaims
    · refine ⟨hcopied, ?_⟩
      intro side
      dsimp only
      by_cases hside : side = event.1
      · rw [hside, Function.update_self]
        exact hgranted
      · rw [Function.update_of_ne hside]
    · rw [hused] at hless
      exact absurd hless (Nat.lt_irrefl _)

theorem run_of_used (hused : relay.copied = relay.byteLimit)
    (events : List (Side × Event)) :
    (relay.run events).copied = relay.copied ∧
      ∀ side, ((relay.run events).directions side).granted =
        (relay.directions side).granted := by
  induction events generalizing relay with
  | nil => exact ⟨rfl, fun _ => rfl⟩
  | cons event rest ih =>
      obtain ⟨hcopied, hgranted⟩ := step_of_used hused event
      have hstill : (relay.step event).copied =
          (relay.step event).byteLimit := by
        rw [hcopied, byteLimit_step, hused]
      obtain ⟨hrest, hmore⟩ := ih hstill
      exact ⟨hrest.trans hcopied, fun side =>
        (hmore side).trans (hgranted side)⟩

/-- A relay that ended well has no direction that stops with an error. -/
theorem not_stopping_of_ok (hok : relay.result = some (.ok ()))
    (side : Side) : ¬ (relay.directions side).phase.Stopping := by
  unfold result at hok
  split at hok
  · cases hok
  · cases hok
  · rename_i hclient hupstream
    cases side with
    | clientToUpstream =>
        rw [hclient]
        exact id
    | upstreamToClient =>
        rw [hupstream]
        exact id
  · cases hok

end Relay

/-- At every point of every run, for every limit: what was written in both
directions is within the limit, each grant is added to the counter without
wrapping, what was written in a direction begins what was read in it, and once
the counter has reached the limit nothing more is granted and, unless the
limit is zero, the relay does not end well. -/
theorem relay_byte_quota (byteLimit : UInt64) (input : Side → Bytes)
    (events later : List (Side × Event)) :
    let relay := (Relay.start byteLimit input).run events
    (relay.directions .clientToUpstream).written.length +
        (relay.directions .upstreamToClient).written.length ≤
      byteLimit.toNat ∧
    relay.copied.toNat = grantedTotal relay.directions ∧
    (∀ side, (relay.directions side).written <+:
      (relay.directions side).read) ∧
    (relay.copied = byteLimit →
      (relay.run later).copied = byteLimit ∧
      (∀ side, ((relay.run later).directions side).granted =
        (relay.directions side).granted) ∧
      (byteLimit ≠ 0 → (relay.run later).result ≠ some (.ok ()))) := by
  intro relay
  have hsound : relay.Sound :=
    Relay.run_sound (Relay.start_sound byteLimit input) events
  have hlimit : relay.byteLimit = byteLimit :=
    Relay.byteLimit_run (Relay.start byteLimit input) events
  refine ⟨?_, hsound.counted, fun side => (hsound.consistent side).written.1,
    ?_⟩
  · have hclient := (hsound.consistent .clientToUpstream).written.2
    have hupstream := (hsound.consistent .upstreamToClient).written.2
    have htotal := hsound.counted
    have hbounded := hsound.bounded
    rw [grantedTotal] at htotal
    rw [hlimit] at hbounded
    omega
  · intro hreached
    have hused : relay.copied = relay.byteLimit := hreached.trans hlimit.symm
    obtain ⟨hcopied, hgranted⟩ := Relay.run_of_used hused later
    refine ⟨hcopied.trans hreached, hgranted, ?_⟩
    intro hpositive hok
    have hlater := Relay.run_sound hsound later
    have hlaterLimit : (relay.run later).byteLimit = byteLimit :=
      (Relay.byteLimit_run relay later).trans hlimit
    obtain ⟨side, hside⟩ := hlater.stopping
      ((hcopied.trans hreached).trans hlaterLimit.symm)
      (hlaterLimit ▸ hpositive)
    exact Relay.not_stopping_of_ok hok side hside

namespace RelayWitness

/-- Eleven bytes from the client, nothing from the upstream. -/
def elevenBytes : Side → Bytes
  | .clientToUpstream => List.replicate 11 0x65
  | .upstreamToClient => []

/-- The client's bytes are read and claimed in two tries. -/
def claimed : List (Side × Event) :=
  [(.clientToUpstream, .read 32), (.clientToUpstream, .load),
    (.clientToUpstream, .exchange true), (.clientToUpstream, .exchange false)]

def forwarded : List (Side × Event) :=
  [(.clientToUpstream, .write 3), (.clientToUpstream, .write 3),
    (.clientToUpstream, .write 3), (.upstreamToClient, .read 32),
    (.upstreamToClient, .shutdown true), (.clientToUpstream, .check)]

theorem relay_byte_quota_four :
    ((Relay.start 4 elevenBytes).run claimed).copied = 4 ∧
    (((Relay.start 4 elevenBytes).run claimed).run forwarded).copied = 4 ∧
    (((Relay.start 4 elevenBytes).run claimed).run forwarded).result ≠
      some (.ok ()) := by
  have hreached : ((Relay.start 4 elevenBytes).run claimed).copied = 4 := by
    decide
  obtain ⟨hcopied, _, hresult⟩ := (relay_byte_quota 4 elevenBytes claimed
    forwarded).2.2.2 hreached
  exact ⟨hreached, hcopied, hresult (by decide)⟩

/-- With a limit of zero and nothing to copy, the relay ends well. -/
theorem zero_limit_ends_well :
    (Relay.start 0 fun _ => []).copied = 0 ∧
    ((Relay.start 0 fun _ => []).run
      [(.clientToUpstream, .read 1), (.clientToUpstream, .shutdown true),
        (.upstreamToClient, .read 1),
        (.upstreamToClient, .shutdown true)]).result = some (.ok ()) :=
  ⟨rfl, rfl⟩

end RelayWitness

end Shph.Onion
