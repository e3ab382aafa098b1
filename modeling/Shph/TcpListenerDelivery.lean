/-
A session on its way to the listener.  Once a worker has put it into the
channel, connections that keep coming do not hold it up: the listener looks at
the channel first, accepts one more at most, and returns it after the results
ahead of it, if its deadline does not come before.
-/
import Shph.TcpListenerSafety

namespace Shph

open ByteCodec Dialogue StatefulRun

variable {prims : Primitives} {server : TcpServer prims}
  {listener middle next : TcpListener}

namespace TcpServer

/-- A run, and the number of turns of the listener in it. -/
inductive Ran (server : TcpServer prims) :
    Nat → TcpListener → TcpListener → Prop
  | refl (listener : TcpListener) : Ran server 0 listener listener
  | listens {turns : Nat} {listener middle next : TcpListener}
      (hran : Ran server turns listener middle)
      (hlistens : server.Listens middle next) :
      Ran server (turns + 1) listener next
  | works {turns : Nat} {listener middle next : TcpListener}
      (hran : Ran server turns listener middle)
      (hworks : server.Works middle next) :
      Ran server turns listener next

theorem Ran.reaches {turns : Nat} (hran : server.Ran turns listener next) :
    server.Reaches listener next := by
  induction hran with
  | refl _ => exact .refl
  | listens _ hlistens ih => exact ih.tail (Or.inl hlistens)
  | works _ hworks ih => exact ih.tail (Or.inr hworks)

/-- A worker leaves the listener where it is, and adds to the channel at its
end. -/
theorem Works.frame (hworks : server.Works listener next) :
    next.phase = listener.phase ∧ next.connects = listener.connects ∧
      next.started = listener.started ∧
      (∃ more, next.results = listener.results ++ more) ∧
      (listener.cancellation = true → next.cancellation = true) := by
  cases hworks with
  | calls call => exact ⟨rfl, rfl, rfl, ⟨[], by simp⟩, id⟩
  | ends hrunning hends =>
      exact ⟨rfl, rfl, rfl, ⟨[], by simp⟩, fun hset => by simp [hset]⟩
  | sends hfinished hthere hroom => exact ⟨rfl, rfl, rfl, ⟨_, rfl⟩, id⟩
  | dropped hfinished hgone => exact ⟨rfl, rfl, rfl, ⟨[], by simp⟩, id⟩

/-- A listener that has returned stays so. -/
theorem Reaches.returned (hreaches : server.Reaches listener next)
    (hgone : listener.phase.isReturned = true) :
    next.phase = listener.phase := by
  induction hreaches with
  | refl => rfl
  | tail _ hstep ih =>
      rcases hstep with hlistens | hworks
      · have hthere := hlistens.effect.1
        rw [ih, hgone] at hthere
        cases hthere
      · exact hworks.frame.1.trans ih

/-- The listener has given up: its deadline came while it was at its head, or
its socket failed in the call to `accept` that it was in. -/
def GaveUp (server : TcpServer prims) (listener next : TcpListener) : Prop :=
  ∃ middle, server.Reaches listener middle ∧
    (middle.phase = .looping ∧ server.Reaches (middle.turn true) next ∨
      listener.phase = .accepting ∧ middle.phase = .accepting ∧
        ∃ error, server.Reaches
          { middle with phase := .returned (.error error) } next)

theorem GaveUp.isReturned (hgaveUp : server.GaveUp listener next) :
    next.phase.isReturned = true := by
  obtain ⟨middle, _, ⟨_, hreaches⟩ | ⟨_, _, error, hreaches⟩⟩ := hgaveUp
  · rw [hreaches.returned rfl]
    rfl
  · rw [hreaches.returned rfl]
    rfl

theorem GaveUp.tail (hgaveUp : server.GaveUp listener middle)
    (hstep : server.Step middle next) : server.GaveUp listener next := by
  obtain ⟨turning, hreaches, ⟨hphase, hlate⟩ |
    ⟨hstart, hphase, error, hlate⟩⟩ := hgaveUp
  · exact ⟨turning, hreaches, Or.inl ⟨hphase, hlate.tail hstep⟩⟩
  · exact ⟨turning, hreaches,
      Or.inr ⟨hstart, hphase, error, hlate.tail hstep⟩⟩

/-- No connection was accepted but the one that was under way. -/
structure Undisturbed (listener next : TcpListener) : Prop where
  connects_le : next.connects.length ≤ listener.connects.length + 1
  started : ∀ worker ∈ next.started,
    worker ∈ listener.started ∨ worker.cancelled = true
  cancellation : next.cancellation = true

variable {failed : List (TcpWorker × TcpOutcome)} {worker : TcpWorker}
  {state : HandshakeState} {turns : Nat}

/-- The session is still in the channel, behind what is left of the results
that were ahead of it. -/
structure Awaited (failed : List (TcpWorker × TcpOutcome))
    (worker : TcpWorker) (state : HandshakeState) (turns : Nat)
    (listener next : TcpListener) : Prop where
  there : next.phase.isReturned = false
  ahead : ∃ taken left rest, failed = taken ++ left ∧
    next.results = left ++ (worker, .ok state) :: rest ∧
      turns ≤ taken.length + 1
  accepting : next.phase = .accepting → listener.phase = .accepting ∧
    turns = 0 ∧ next.connects = listener.connects ∧
      next.started = listener.started

/-- How far the session has come. -/
def Progress (server : TcpServer prims)
    (failed : List (TcpWorker × TcpOutcome)) (worker : TcpWorker)
    (state : HandshakeState) (turns : Nat) (listener next : TcpListener) :
    Prop :=
  Undisturbed listener next ∧
    (Awaited failed worker state turns listener next ∨
      next.phase = .returned (.ok (worker, state)) ∨
      server.GaveUp listener next)

theorem Progress.works
    (hprogress : server.Progress failed worker state turns listener middle)
    (hworks : server.Works middle next) :
    server.Progress failed worker state turns listener next := by
  obtain ⟨hphase, hconnects, hstarted, ⟨more, hresults⟩, hflag⟩ := hworks.frame
  obtain ⟨hundisturbed, hcases⟩ := hprogress
  refine ⟨⟨?_, ?_, hflag hundisturbed.cancellation⟩, ?_⟩
  · rw [hconnects]
    exact hundisturbed.connects_le
  · rw [hstarted]
    exact hundisturbed.started
  · rcases hcases with hawaited | hreturned | hgaveUp
    · obtain ⟨taken, left, rest, hfailed, hahead, hturns⟩ := hawaited.ahead
      refine Or.inl ⟨?_, ⟨taken, left, rest ++ more, hfailed, ?_, hturns⟩, ?_⟩
      · rw [hphase]
        exact hawaited.there
      · rw [hresults, hahead, List.append_assoc, List.cons_append]
      · rw [hphase, hconnects, hstarted]
        exact hawaited.accepting
    · exact Or.inr (Or.inl (hphase.trans hreturned))
    · exact Or.inr (Or.inr (hgaveUp.tail (Or.inr hworks)))

theorem Awaited.listens
    (hfailed : ∀ entry ∈ failed, entry.2.isOk = false)
    (hreaches : server.Reaches listener middle)
    (hundisturbed : Undisturbed listener middle)
    (hawaited : Awaited failed worker state turns listener middle)
    (heffect : server.Effect middle next) :
    server.Progress failed worker state (turns + 1) listener next := by
  obtain ⟨taken, left, rest, hsplit, hahead, hturns⟩ := hawaited.ahead
  have hfirst (hphase : middle.phase = .accepting) :
      turns + 1 ≤ taken.length + 1 := by
    rw [(hawaited.accepting hphase).2.1]
    exact Nat.le_add_left 1 _
  have hnonempty : middle.results ≠ [] := by
    rw [hahead]
    simp
  cases heffect with
  | moves phase hthere hidle =>
      rcases hidle with ⟨hphase, rfl⟩ | hempty
      · exact ⟨⟨hundisturbed.connects_le, hundisturbed.started,
            hundisturbed.cancellation⟩,
          Or.inl ⟨rfl, ⟨taken, left, rest, hsplit, hahead, hfirst hphase⟩,
            by rintro ⟨⟩⟩⟩
      · exact absurd hempty hnonempty
  | expires hphase =>
      exact ⟨⟨hundisturbed.connects_le, hundisturbed.started, rfl⟩,
        Or.inr (Or.inr ⟨middle, hreaches, Or.inl ⟨hphase, .refl⟩⟩)⟩
  | fails error hphase =>
      exact ⟨⟨hundisturbed.connects_le, hundisturbed.started,
          hundisturbed.cancellation⟩,
        Or.inr (Or.inr ⟨middle, hreaches, Or.inr
          ⟨(hawaited.accepting hphase).1, hphase, error, .refl⟩⟩)⟩
  | @takes entry others hresults hphase =>
      rw [hahead] at hresults
      cases left with
      | nil =>
          obtain ⟨rfl, rfl⟩ := List.cons.inj hresults
          exact ⟨⟨hundisturbed.connects_le, hundisturbed.started, rfl⟩,
            Or.inr (Or.inl rfl)⟩
      | cons first left =>
          rw [List.cons_append] at hresults
          obtain ⟨rfl, rfl⟩ := List.cons.inj hresults
          have herror := hfailed first (by simp [hsplit])
          rcases TcpListener.finishTcpWorker_cases { middle with
              results := left ++ (worker, .ok state) :: rest } first with
            ⟨_, hok, _⟩ | ⟨error, _, hnext⟩
          · rw [hok] at herror
            cases herror
          · rw [hnext]
            refine ⟨⟨hundisturbed.connects_le, hundisturbed.started,
                hundisturbed.cancellation⟩,
              Or.inl ⟨rfl, ⟨taken ++ [first], left, rest, ?_, rfl, ?_⟩,
                by rintro ⟨⟩⟩⟩
            · rw [hsplit, List.append_assoc, List.singleton_append]
            · rw [List.length_append, List.length_singleton]
              omega
  | refuses connect error hphase _ _ =>
      obtain ⟨_, _, hconnects, hstarted⟩ := hawaited.accepting hphase
      refine ⟨⟨?_, hundisturbed.started, hundisturbed.cancellation⟩,
        Or.inl ⟨rfl, ⟨taken, left, rest, hsplit, hahead, hfirst hphase⟩,
          by rintro ⟨⟩⟩⟩
      rw [List.length_append, hconnects, List.length_singleton]
  | admits connect hphase _ _ _ =>
      obtain ⟨_, _, hconnects, hstarted⟩ := hawaited.accepting hphase
      rw [TcpListener.spawn]
      refine ⟨⟨?_, ?_, hundisturbed.cancellation⟩,
        Or.inl ⟨rfl, ⟨taken, left, rest, hsplit, hahead, hfirst hphase⟩,
          by rintro ⟨⟩⟩⟩
      · rw [List.length_append, hconnects, List.length_singleton]
      · intro other hother
        rcases List.mem_append.mp hother with hold | hnew
        · exact hundisturbed.started other hold
        · right
          rw [List.mem_singleton.mp hnew]
          exact hundisturbed.cancellation

/-- By induction on the run: its last step is one of the listener or one of a
worker. -/
theorem Ran.progress (hreaches : server.Reaches .new listener)
    (hthere : listener.phase.isReturned = false)
    {rest : List (TcpWorker × TcpOutcome)}
    (hfailed : ∀ entry ∈ failed, entry.2.isOk = false)
    (hresults : listener.results = failed ++ (worker, .ok state) :: rest)
    (hran : server.Ran turns listener next) :
    server.Progress failed worker state turns listener next := by
  induction hran with
  | refl listener =>
      have houtcome := hreaches.invariant.2.1.outcomes (worker, .ok state) (by
        rw [hresults]
        simp)
      exact ⟨⟨Nat.le_add_right _ _, fun _ hmem => Or.inl hmem,
          houtcome.flagged rfl⟩,
        Or.inl ⟨hthere, ⟨[], failed, rest, rfl, hresults, Nat.zero_le _⟩,
          fun hphase => ⟨hphase, rfl, rfl, rfl⟩⟩⟩
  | listens hran hlistens ih =>
      obtain ⟨hundisturbed, hcases⟩ := ih hreaches hthere hresults
      obtain ⟨hpresent, heffect⟩ := hlistens.effect
      rcases hcases with hawaited | hreturned | hgaveUp
      · exact hawaited.listens hfailed hran.reaches hundisturbed heffect
      · rw [hreturned] at hpresent
        cases hpresent
      · rw [hgaveUp.isReturned] at hpresent
        cases hpresent
  | works _ hworks ih => exact (ih hreaches hthere hresults).works hworks

/-- A worker that was made after the flag was set reads and writes nothing. -/
theorem Ends.of_cancelled {worker : TcpWorker} {calls : List CookieCall}
    {input output : Bytes} {result : TcpOutcome}
    (hends : server.Ends worker calls input output result)
    (hcancelled : worker.cancelled = true) :
    input = [] ∧ output = [] ∧ result = .error .timeout := by
  obtain ⟨env, hserves, hfaces⟩ := hends
  have hrun : (server.handshakeWorker worker).run prims server.reader env =
      .done (.error .timeout) := by
    rw [TcpHandshakeWorker.run, TcpHandshakeWorker.checkCancelled,
      hserves.cancelled hcancelled]
    rfl
  rw [hrun] at hfaces
  obtain ⟨hinput, houtput, hdone⟩ := hfaces.of_done
  exact ⟨hinput, houtput, Program.done.inj hdone⟩

end TcpServer

open TcpServer in
/-- A session that a worker has put into the channel, behind failures only.
However long its workers go on and whoever connects, the listener accepts at
most one connection more, for which nothing is read or written; and it returns
this session, if not before then after one turn for each failure and two more,
unless its deadline comes or its socket fails. -/
theorem tcp_listener_delivers (server : TcpServer prims)
    (hreaches : server.Reaches .new listener)
    (hthere : listener.phase.isReturned = false)
    {failed rest : List (TcpWorker × TcpOutcome)} {worker : TcpWorker}
    {state : HandshakeState} {turns : Nat}
    (hfailed : ∀ entry ∈ failed, entry.2.isOk = false)
    (hresults : listener.results = failed ++ (worker, .ok state) :: rest)
    (hran : server.Ran turns listener next) :
    next.connects.length ≤ listener.connects.length + 1 ∧
      (∀ other ∈ next.started, other ∈ listener.started ∨
        ∀ input output result,
          server.Ends other next.calls input output result →
            input = [] ∧ output = [] ∧ result = .error .timeout) ∧
      (next.phase = .returned (.ok (worker, state)) ∨
        server.GaveUp listener next ∨
        next.phase.isReturned = false ∧ turns < failed.length + 2) := by
  obtain ⟨hundisturbed, hcases⟩ :=
    Ran.progress hreaches hthere hfailed hresults hran
  refine ⟨hundisturbed.connects_le, ?_, ?_⟩
  · intro other hother
    rcases hundisturbed.started other hother with hold | hcancelled
    · exact Or.inl hold
    · exact Or.inr fun _ _ _ hends => hends.of_cancelled hcancelled
  · rcases hcases with hawaited | hreturned | hgaveUp
    · obtain ⟨taken, left, _, hsplit, _, hturns⟩ := hawaited.ahead
      refine Or.inr (Or.inr ⟨hawaited.there, ?_⟩)
      rw [hsplit, List.length_append]
      omega
    · exact Or.inl hreturned
    · exact Or.inr (Or.inl hgaveUp)

open TcpServer TcpListenerWitness in
/-- A failure is ahead of the session, and one more connection is accepted
before either is taken. -/
theorem tcp_listener_delivers_returned : ∃ state,
    (returned state).connects.length ≤ (delivered state).connects.length + 1 ∧
      ((returned state).phase = .returned (.ok (workerNo 0, state)) ∨
        entrance.GaveUp (delivered state) (returned state) ∨
        (returned state).phase.isReturned = false ∧ 3 < 3) := by
  obtain ⟨state, hreaches⟩ := delivered_reached
  have hresults : (delivered state).results =
      [(workerNo 1, .error .connectionClosed)] ++
        (workerNo 0, .ok state) :: [] := rfl
  have hfailed : ∀ entry ∈ [((workerNo 1, .error .connectionClosed) :
      TcpWorker × TcpOutcome)], entry.2.isOk = false := by
    intro entry hentry
    rw [List.mem_singleton.mp hentry]
    rfl
  have hran : entrance.Ran 3 (delivered state) (returned state) :=
    .listens (.listens (.listens (.refl _) (accepts_more state))
      (.turn false rfl)) (.turn false rfl)
  obtain ⟨hconnects, _, hcases⟩ :=
    tcp_listener_delivers entrance hreaches rfl hfailed hresults hran
  exact ⟨state, hconnects, hcases⟩

end Shph
