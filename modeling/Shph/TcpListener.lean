/-
The listener of the TCP handshakes.  It lets a peer in by its rate, hands every
connection to a worker thread of its own, and takes the results of the workers
from one channel until one of them is a session, its deadline comes or its
socket fails.  The workers, the listener and the cookie authority they share
take their steps in any order.
-/
import Shph.PeerRateLimiter
import Shph.TcpHandshakeSafety

namespace Shph

open ByteCodec Dialogue StatefulRun

def maxConcurrentTcpHandshakes : Nat := 16

abbrev TcpOutcome := Except ShphError HandshakeState

/-- What the listener hands to a worker thread: the connection, and whether it
has to ask for a cookie.  `cancelled` is what the shared flag was then. -/
structure TcpWorker where
  connect : Connect
  requiresCookie : Bool
  cancelled : Bool

/-- Where the listener is in its loop: at its head, about to accept, waiting
for a result, or done. -/
inductive ListenerPhase where
  | looping
  | accepting
  | waiting
  | returned (result : Except ShphError (TcpWorker × HandshakeState))

def ListenerPhase.isReturned : ListenerPhase → Bool
  | returned _ => true
  | _ => false

/-- What a call to `accept` finds.  A connection may fail to be set to
blocking. -/
inductive Incoming where
  | stream (connect : Connect) (setNonblocking : Except ShphError Unit)
  | wouldBlock
  | failed (message : String)

/-- The listener, the shared flag, the threads that still work, those that are
done and have not sent their result, and the channel.  `started` and `connects`
are all threads and all connections so far, `calls` all calls on the
authority. -/
structure TcpListener where
  rateLimiter : PeerRateLimiter
  cancellation : Bool
  activeWorkers : Nat
  lastErr : Option ShphError
  phase : ListenerPhase
  running : List TcpWorker
  finished : List (TcpWorker × TcpOutcome)
  results : List (TcpWorker × TcpOutcome)
  started : List TcpWorker
  connects : List Connect
  calls : List CookieCall

namespace TcpListener

def new : TcpListener :=
  { rateLimiter := .new, cancellation := false, activeWorkers := 0
    lastErr := none, phase := .looping, running := [], finished := []
    results := [], started := [], connects := [], calls := [] }

def finishTcpWorker (listener : TcpListener) (entry : TcpWorker × TcpOutcome) :
    TcpListener :=
  let listener :=
    { listener with activeWorkers := listener.activeWorkers - 1 }
  match entry.2 with
  | .ok state =>
      { listener with
        cancellation := true, phase := .returned (.ok (entry.1, state)) }
  | .error error =>
      { listener with lastErr := some error, phase := .looping }

/-- The head of the loop: the deadline, and a result if there is one. -/
def turn (listener : TcpListener) (expired : Bool) : TcpListener :=
  if expired then
    { listener with
      cancellation := true
      phase := .returned (.error (listener.lastErr.getD .timeout)) }
  else
    match listener.results with
    | [] => { listener with phase := .accepting }
    | entry :: rest => finishTcpWorker { listener with results := rest } entry

/-- A connection that may be served, and the thread for it. -/
def spawn (listener : TcpListener) (worker : TcpWorker) : TcpListener :=
  { listener with
    activeWorkers := listener.activeWorkers + 1
    running := listener.running ++ [worker]
    started := listener.started ++ [worker] }

/-- `display` is the text of an address. -/
def accept (display : IpAddr → String) (listener : TcpListener)
    (incoming : Incoming) : TcpListener :=
  if maxConcurrentTcpHandshakes ≤ listener.activeWorkers then
    { listener with phase := .waiting }
  else
    match incoming with
    | .failed message =>
        { listener with phase := .returned (.error (.transport message)) }
    | .wouldBlock => { listener with phase := .waiting }
    | .stream _ (.error error) =>
        { listener with phase := .returned (.error error) }
    | .stream connect (.ok ()) =>
        let (result, rateLimiter) :=
          listener.rateLimiter.checkAndRecord display connect
        let listener :=
          { listener with
            rateLimiter, phase := .looping
            connects := listener.connects ++ [connect] }
        match result with
        | .error error => { listener with lastErr := some error }
        | .ok () =>
            listener.spawn
              { connect
                requiresCookie :=
                  rateLimiter.requiresCookie display connect.addr
                cancelled := listener.cancellation }

/-- The threads that have not had their result taken from the channel. -/
def threads (listener : TcpListener) : List TcpWorker :=
  listener.running ++ (listener.finished ++ listener.results).map Prod.fst

section Finish

variable (listener : TcpListener) (entry : TcpWorker × TcpOutcome)

/-- A result that is taken from the channel ends the listener or is kept as
the last error. -/
theorem finishTcpWorker_cases :
    (∃ state, entry.2 = .ok state ∧ finishTcpWorker listener entry =
        { listener with
          activeWorkers := listener.activeWorkers - 1, cancellation := true
          phase := .returned (.ok (entry.1, state)) }) ∨
      ∃ error, entry.2 = .error error ∧ finishTcpWorker listener entry =
        { listener with
          activeWorkers := listener.activeWorkers - 1
          lastErr := some error, phase := .looping } := by
  obtain ⟨worker, error | state⟩ := entry
  · exact Or.inr ⟨error, rfl, rfl⟩
  · exact Or.inl ⟨state, rfl, rfl⟩

/-- Nothing else changes. -/
theorem finishTcpWorker_frame :
    (finishTcpWorker listener entry).running = listener.running ∧
      (finishTcpWorker listener entry).finished = listener.finished ∧
      (finishTcpWorker listener entry).results = listener.results ∧
      (finishTcpWorker listener entry).started = listener.started ∧
      (finishTcpWorker listener entry).connects = listener.connects ∧
      (finishTcpWorker listener entry).calls = listener.calls ∧
      (finishTcpWorker listener entry).rateLimiter = listener.rateLimiter := by
  rcases finishTcpWorker_cases listener entry with ⟨_, _, hnext⟩ |
    ⟨_, _, hnext⟩
  · rw [hnext]
    exact ⟨rfl, rfl, rfl, rfl, rfl, rfl, rfl⟩
  · rw [hnext]
    exact ⟨rfl, rfl, rfl, rfl, rfl, rfl, rfl⟩

end Finish

end TcpListener

/-- What a listener is started with, and the primitives of its authority. -/
structure TcpServer (prims : Primitives) where
  reader : HelloReader
  localIdentity : IdentityKeyPair
  policy : PeerPolicy
  profile : HandshakeProfile
  display : IpAddr → String
  hmac : Key → Bytes → FixedBytes 32
  authority : StatelessCookieAuthority

namespace TcpServer

variable {prims : Primitives} (server : TcpServer prims)

/-- The authority after these calls. -/
def authorityAfter (calls : List CookieCall) : StatelessCookieAuthority :=
  final (StatelessCookieAuthority.serve server.hmac) server.authority calls

def handshakeWorker (worker : TcpWorker) : TcpHandshakeWorker :=
  ⟨server.localIdentity, server.policy, server.profile, worker.requiresCookie⟩

/-- What a worker finds while it runs: the flag, which is never taken back, and
the authority after some of the calls. -/
structure Serves (worker : TcpWorker) (calls : List CookieCall)
    (env : TcpWorkerEnv) : Prop where
  cancelled : worker.cancelled = true → env.cancelled.1 = true
  issued : ∃ before clock, before <+: calls ∧
    env.issued = ((server.authorityAfter before).issue server.hmac
      worker.connect.addr clock).1
  verified : ∃ before clock, before <+: calls ∧
    ∀ response, env.verified response =
      ((server.authorityAfter before).verify server.hmac worker.connect.addr
        response clock).1

/-- The worker has read and written these bytes when it comes to its result. -/
def Ends (worker : TcpWorker) (calls : List CookieCall)
    (input output : Bytes) (result : TcpOutcome) : Prop :=
  ∃ env, server.Serves worker calls env ∧
    Faces ((server.handshakeWorker worker).run prims server.reader env) input
      output (.done result)

/-- A step of the listener.  Its clock does not go back. -/
inductive Listens : TcpListener → TcpListener → Prop
  | turn {listener : TcpListener} (expired : Bool)
      (hphase : listener.phase = .looping) :
      Listens listener (listener.turn expired)
  | accept {listener : TcpListener} (incoming : Incoming)
      (hphase : listener.phase = .accepting)
      (hclock : ∀ connect ready, incoming = .stream connect ready →
        ∀ earlier ∈ listener.connects, earlier.now ≤ connect.now) :
      Listens listener (listener.accept server.display incoming)
  | woken {listener : TcpListener} {entry : TcpWorker × TcpOutcome}
      {rest : List (TcpWorker × TcpOutcome)}
      (hphase : listener.phase = .waiting)
      (hresults : listener.results = entry :: rest) :
      Listens listener
        (TcpListener.finishTcpWorker { listener with results := rest } entry)
  | timedOut {listener : TcpListener} (hphase : listener.phase = .waiting)
      (hresults : listener.results = []) :
      Listens listener { listener with phase := .looping }

/-- A step of a worker.  It calls on the authority, it comes to its result and
sets the flag if that is a session, or it sends the result, which blocks while
the channel is full and is of no effect once the listener is gone. -/
inductive Works : TcpListener → TcpListener → Prop
  | calls {listener : TcpListener} (call : CookieCall) :
      Works listener { listener with calls := listener.calls ++ [call] }
  | ends {listener : TcpListener} {before after : List TcpWorker}
      {worker : TcpWorker} {input output : Bytes} {result : TcpOutcome}
      (hrunning : listener.running = before ++ worker :: after)
      (hends : server.Ends worker listener.calls input output result) :
      Works listener
        { listener with
          cancellation := listener.cancellation || result.isOk
          running := before ++ after
          finished := listener.finished ++ [(worker, result)] }
  | sends {listener : TcpListener}
      {before after : List (TcpWorker × TcpOutcome)}
      {entry : TcpWorker × TcpOutcome}
      (hfinished : listener.finished = before ++ entry :: after)
      (hthere : listener.phase.isReturned = false)
      (hroom : listener.results.length < maxConcurrentTcpHandshakes) :
      Works listener
        { listener with
          finished := before ++ after
          results := listener.results ++ [entry] }
  | dropped {listener : TcpListener}
      {before after : List (TcpWorker × TcpOutcome)}
      {entry : TcpWorker × TcpOutcome}
      (hfinished : listener.finished = before ++ entry :: after)
      (hgone : listener.phase.isReturned = true) :
      Works listener { listener with finished := before ++ after }

/-- All that a step of the listener can do. -/
inductive Effect (listener : TcpListener) : TcpListener → Prop
  | moves (phase : ListenerPhase) (hphase : phase.isReturned = false)
      (hidle : listener.phase = .accepting ∧ phase = .waiting ∨
        listener.results = []) :
      Effect listener { listener with phase }
  | expires (hphase : listener.phase = .looping) :
      Effect listener (listener.turn true)
  | fails (error : ShphError) (hphase : listener.phase = .accepting) :
      Effect listener { listener with phase := .returned (.error error) }
  | takes {entry : TcpWorker × TcpOutcome}
      {rest : List (TcpWorker × TcpOutcome)}
      (hresults : listener.results = entry :: rest)
      (hphase : listener.phase ≠ .accepting) :
      Effect listener
        (TcpListener.finishTcpWorker { listener with results := rest } entry)
  | refuses (connect : Connect) (error : ShphError)
      (hphase : listener.phase = .accepting)
      (hclock : ∀ earlier ∈ listener.connects, earlier.now ≤ connect.now)
      (hrefused : (listener.rateLimiter.checkAndRecord server.display
        connect).1 = .error error) :
      Effect listener
        { listener with
          rateLimiter :=
            (listener.rateLimiter.checkAndRecord server.display connect).2
          phase := .looping, connects := listener.connects ++ [connect]
          lastErr := some error }
  | admits (connect : Connect) (hphase : listener.phase = .accepting)
      (hclock : ∀ earlier ∈ listener.connects, earlier.now ≤ connect.now)
      (hadmitted : (listener.rateLimiter.checkAndRecord server.display
        connect).1 = .ok ())
      (hroom : listener.activeWorkers < maxConcurrentTcpHandshakes) :
      Effect listener (TcpListener.spawn
        { listener with
          rateLimiter :=
            (listener.rateLimiter.checkAndRecord server.display connect).2
          phase := .looping, connects := listener.connects ++ [connect] }
        { connect
          requiresCookie := (listener.rateLimiter.checkAndRecord server.display
            connect).2.requiresCookie server.display connect.addr
          cancelled := listener.cancellation })

theorem Listens.effect {listener next : TcpListener}
    (hlistens : server.Listens listener next) :
    listener.phase.isReturned = false ∧ server.Effect listener next := by
  cases hlistens with
  | turn expired hphase =>
      refine ⟨by rw [hphase]; rfl, ?_⟩
      cases expired with
      | true => exact .expires hphase
      | false =>
          cases hresults : listener.results with
          | nil =>
              have hturn : listener.turn false =
                  { listener with phase := .accepting } := by
                simp only [TcpListener.turn, hresults, Bool.false_eq_true,
                  if_false]
              rw [hturn]
              exact .moves .accepting rfl (Or.inr hresults)
          | cons entry rest =>
              have hturn : listener.turn false =
                  TcpListener.finishTcpWorker { listener with results := rest }
                    entry := by
                simp only [TcpListener.turn, hresults, Bool.false_eq_true,
                  if_false]
              rw [hturn]
              exact .takes hresults (by rw [hphase]; exact nofun)
  | accept incoming hphase hclock =>
      refine ⟨by rw [hphase]; rfl, ?_⟩
      unfold TcpListener.accept
      split
      · exact .moves .waiting rfl (Or.inl ⟨hphase, rfl⟩)
      · rename_i hroom
        cases incoming with
        | failed message => exact .fails _ hphase
        | wouldBlock => exact .moves .waiting rfl (Or.inl ⟨hphase, rfl⟩)
        | stream connect ready =>
            cases ready with
            | error error => exact .fails _ hphase
            | ok ready =>
                have hnow := hclock connect (.ok ready) rfl
                cases hcall : (listener.rateLimiter.checkAndRecord
                    server.display connect).1 with
                | error error =>
                    simp only [hcall]
                    exact .refuses connect error hphase hnow hcall
                | ok done =>
                    simp only [hcall]
                    exact .admits connect hphase hnow hcall
                      (Nat.lt_of_not_le hroom)
  | woken hphase hresults =>
      exact ⟨by rw [hphase]; rfl, .takes hresults (by rw [hphase]; exact nofun)⟩
  | timedOut hphase hresults =>
      exact ⟨by rw [hphase]; rfl, .moves .looping rfl (Or.inr hresults)⟩

def Step (listener next : TcpListener) : Prop :=
  server.Listens listener next ∨ server.Works listener next

/-- What the listener and its workers can come to. -/
def Reaches : TcpListener → TcpListener → Prop :=
  Relation.ReflTransGen server.Step

end TcpServer

end Shph
