/-
What a listener comes to over all runs, whatever its peers send and however
the listener, its workers and their results overtake each other.  Every thread
is accounted for, so that the channel never blocks one; a session that is
returned is one of a thread that was started, with a peer that is pinned; and
of one address no more than three connections go unchallenged in a window.
-/
import Shph.TcpAdmission
import Shph.TcpListener

namespace Shph

open ByteCodec Dialogue StatefulRun PeerRateLimiter CookieWitness
variable {prims : Primitives} {server : TcpServer prims}
  {listener next : TcpListener}

namespace TcpListener

/-- The counter of the listener is the number of threads whose results it has
not taken, each of them one that it started. -/
structure Counted (listener : TcpListener) : Prop where
  held_le : listener.threads.length ≤ listener.activeWorkers
  held_eq : listener.phase.isReturned = false →
    listener.threads.length = listener.activeWorkers
  active_le : listener.activeWorkers ≤ maxConcurrentTcpHandshakes
  accounted : listener.threads.Subperm listener.started

theorem counted_new : Counted new where
  held_le := Nat.le_refl _
  held_eq := fun _ => rfl
  active_le := Nat.zero_le _
  accounted := List.Subperm.refl _

/-- Threads that take their places otherwise, or leave when the listener has
gone, are still counted. -/
theorem Counted.rearrange (hcounted : listener.Counted)
    (hactive : next.activeWorkers = listener.activeWorkers)
    (hstarted : next.started = listener.started)
    (hsub : next.threads.Subperm listener.threads)
    (hthere : next.phase.isReturned = false →
      listener.phase.isReturned = false ∧
        next.threads.length = listener.threads.length) :
    next.Counted where
  held_le := by
    rw [hactive]
    exact hsub.length_le.trans hcounted.held_le
  held_eq := by
    intro hphase
    obtain ⟨hbefore, hlength⟩ := hthere hphase
    rw [hactive, hlength]
    exact hcounted.held_eq hbefore
  active_le := by
    rw [hactive]
    exact hcounted.active_le
  accounted := by
    rw [hstarted]
    exact hsub.trans hcounted.accounted

theorem Counted.effect (hcounted : listener.Counted)
    (hthere : listener.phase.isReturned = false)
    (heffect : server.Effect listener next) : next.Counted := by
  have hsame {next : TcpListener}
      (hactive : next.activeWorkers = listener.activeWorkers)
      (hstarted : next.started = listener.started)
      (hthreads : next.threads = listener.threads) : next.Counted := by
    apply hcounted.rearrange hactive hstarted
    · rw [hthreads]
    · exact fun _ => ⟨hthere, by rw [hthreads]⟩
  cases heffect with
  | moves phase _ _ => exact hsame rfl rfl rfl
  | expires _ => exact hsame rfl rfl rfl
  | fails error _ => exact hsame rfl rfl rfl
  | refuses connect error _ _ _ => exact hsame rfl rfl rfl
  | @takes entry rest hresults _ =>
      obtain ⟨hrunning, hfinished, htaken, hstarted, _⟩ :=
        finishTcpWorker_frame { listener with results := rest } entry
      have hactive : (finishTcpWorker { listener with results := rest }
          entry).activeWorkers = listener.activeWorkers - 1 := by
        rcases finishTcpWorker_cases { listener with results := rest } entry
          with ⟨_, _, hnext⟩ | ⟨_, _, hnext⟩ <;> rw [hnext]
      have hthreads : (finishTcpWorker { listener with results := rest }
          entry).threads =
            listener.running ++ (listener.finished ++ rest).map Prod.fst := by
        rw [threads, hrunning, hfinished, htaken]
      have hsub : (listener.running ++
          (listener.finished ++ rest).map Prod.fst).Sublist
            listener.threads := by
        rw [threads, hresults]
        exact (((List.sublist_cons_self _ _).append_left _).map _).append_left _
      have hlength : (listener.running ++
          (listener.finished ++ rest).map Prod.fst).length + 1 =
            listener.threads.length := by
        simp only [threads, hresults, List.length_append, List.length_map,
          List.length_cons]
        omega
      have hheld := hcounted.held_eq hthere
      have hlimit := hcounted.active_le
      constructor
      · rw [hthreads, hactive]
        omega
      · rw [hthreads, hactive]
        omega
      · omega
      · rw [hthreads, hstarted]
        exact hsub.subperm.trans hcounted.accounted
  | admits connect _ _ _ hroom =>
      have hheld := hcounted.held_eq hthere
      have hperm (worker : TcpWorker) : (listener.running ++ [worker] ++
          (listener.finished ++ listener.results).map Prod.fst).Perm
            (worker :: listener.threads) := by
        rw [List.append_assoc, List.singleton_append]
        exact List.perm_middle
      have hlength (worker : TcpWorker) := (hperm worker).length_eq
      rw [spawn]
      constructor
      · rw [threads, hlength, List.length_cons, hheld]
      · intro _
        rw [threads, hlength, List.length_cons, hheld]
      · exact hroom
      · refine (hperm _).subperm.trans ?_
        refine List.Subperm.trans ?_ (List.perm_append_singleton _ _).symm.subperm
        exact (List.subperm_cons _).mpr hcounted.accounted

theorem Counted.works (hcounted : listener.Counted)
    (hworks : server.Works listener next) : next.Counted := by
  cases hworks with
  | calls call =>
      exact hcounted.rearrange rfl rfl (List.Subperm.refl _)
        fun hphase => ⟨hphase, rfl⟩
  | @ends before after worker input output result hrunning hends =>
      have hperm : (before ++ after ++
          (listener.finished ++ [(worker, result)] ++ listener.results).map
            Prod.fst).Perm listener.threads := by
        rw [threads, hrunning]
        simp only [List.map_append, List.map_cons, List.append_assoc,
          List.cons_append, List.nil_append]
        refine List.Perm.append_left before ?_
        rw [← List.append_assoc after]
        exact List.perm_middle.trans (by rw [List.append_assoc])
      exact hcounted.rearrange rfl rfl hperm.subperm
        fun hphase => ⟨hphase, hperm.length_eq⟩
  | @sends before after entry hfinished hthere hroom =>
      have hperm : (listener.running ++ (before ++ after ++
          (listener.results ++ [entry])).map Prod.fst).Perm
            listener.threads := by
        rw [threads, hfinished]
        refine List.Perm.append_left _ (List.Perm.map _ ?_)
        rw [← List.append_assoc, List.append_assoc before]
        refine (List.perm_append_singleton entry _).trans ?_
        rw [List.append_assoc before, List.cons_append]
        exact List.perm_middle.symm
      exact hcounted.rearrange rfl rfl hperm.subperm
        fun hphase => ⟨hphase, hperm.length_eq⟩
  | @dropped before after entry hfinished hgone =>
      refine hcounted.rearrange rfl rfl ?_ ?_
      · apply List.Sublist.subperm
        rw [threads, threads, hfinished]
        exact ((((List.sublist_cons_self _ _).append_left _).append_right
          _).map _).append_left _
      · intro hphase
        rw [hgone] at hphase
        cases hphase

end TcpListener

namespace TcpServer

theorem Serves.mono {worker : TcpWorker} {calls later : List CookieCall}
    {env : TcpWorkerEnv} (hserves : server.Serves worker calls env)
    (hfront : calls <+: later) : server.Serves worker later env := by
  obtain ⟨issuedBefore, issuedAt, hissued, hissue⟩ := hserves.issued
  obtain ⟨verifiedBefore, verifiedAt, hverified, hverify⟩ := hserves.verified
  exact ⟨hserves.cancelled, ⟨issuedBefore, issuedAt, hissued.trans hfront,
    hissue⟩, ⟨verifiedBefore, verifiedAt, hverified.trans hfront, hverify⟩⟩

theorem Ends.mono {worker : TcpWorker} {calls later : List CookieCall}
    {input output : Bytes} {result : TcpOutcome}
    (hends : server.Ends worker calls input output result)
    (hfront : calls <+: later) :
    server.Ends worker later input output result := by
  obtain ⟨env, hserves, hfaces⟩ := hends
  exact ⟨env, hserves.mono hfront, hfaces⟩

/-- A result is what a worker can come to, and a session sets the flag before
anybody hears of it. -/
structure Outcome (server : TcpServer prims) (listener : TcpListener)
    (worker : TcpWorker) (result : TcpOutcome) : Prop where
  ends : ∃ input output, server.Ends worker listener.calls input output result
  flagged : result.isOk = true → listener.cancellation = true

theorem Outcome.mono {worker : TcpWorker} {result : TcpOutcome}
    (houtcome : server.Outcome listener worker result)
    (hcalls : listener.calls <+: next.calls)
    (hflag : listener.cancellation = true → next.cancellation = true) :
    server.Outcome next worker result := by
  obtain ⟨input, output, hends⟩ := houtcome.ends
  exact ⟨⟨input, output, hends.mono hcalls⟩,
    fun hok => hflag (houtcome.flagged hok)⟩

/-- Every result on its way and the session that is returned come from a
thread that was started. -/
structure Kept (server : TcpServer prims) (listener : TcpListener) :
    Prop where
  outcomes : ∀ entry ∈ listener.finished ++ listener.results,
    server.Outcome listener entry.1 entry.2
  returned : ∀ worker state,
    listener.phase = .returned (.ok (worker, state)) →
      worker ∈ listener.started ∧ server.Outcome listener worker (.ok state)

theorem kept_new : server.Kept .new :=
  ⟨fun _ hentry => absurd hentry List.not_mem_nil, fun _ _ hphase => nomatch hphase⟩

theorem Kept.pass (hkept : server.Kept listener)
    (hentries : next.finished ++ next.results ⊆
      listener.finished ++ listener.results)
    (hcalls : listener.calls <+: next.calls)
    (hflag : listener.cancellation = true → next.cancellation = true)
    (hstarted : listener.started ⊆ next.started)
    (hphase : ∀ worker state, next.phase = .returned (.ok (worker, state)) →
      listener.phase = .returned (.ok (worker, state))) :
    server.Kept next where
  outcomes := fun entry hentry =>
    (hkept.outcomes entry (hentries hentry)).mono hcalls hflag
  returned := by
    intro worker state hreturned
    obtain ⟨hmem, houtcome⟩ := hkept.returned worker state
      (hphase worker state hreturned)
    exact ⟨hstarted hmem, houtcome.mono hcalls hflag⟩

theorem Kept.effect (hkept : server.Kept listener)
    (hcounted : listener.Counted) (heffect : server.Effect listener next) :
    server.Kept next := by
  have hself : listener.finished ++ listener.results ⊆
      listener.finished ++ listener.results := List.Subset.refl _
  cases heffect with
  | moves phase hphase _ =>
      refine hkept.pass hself List.prefix_rfl id (List.Subset.refl _) ?_
      rintro worker state rfl
      cases hphase
  | expires _ =>
      exact hkept.pass hself List.prefix_rfl (fun _ => rfl)
        (List.Subset.refl _) fun _ _ hreturned => nomatch hreturned
  | fails error _ =>
      exact hkept.pass hself List.prefix_rfl id (List.Subset.refl _)
        fun _ _ hreturned => nomatch hreturned
  | refuses connect error _ _ _ =>
      exact hkept.pass hself List.prefix_rfl id (List.Subset.refl _)
        fun _ _ hreturned => nomatch hreturned
  | admits connect _ _ _ _ =>
      exact hkept.pass hself List.prefix_rfl id (List.subset_append_left _ _)
        fun _ _ hreturned => nomatch hreturned
  | @takes entry rest hresults _ =>
      have hentry : entry ∈ listener.finished ++ listener.results := by
        rw [hresults]
        simp
      have hrest : listener.finished ++ rest ⊆
          listener.finished ++ listener.results := by
        rw [hresults]
        exact ((List.sublist_cons_self _ _).append_left _).subset
      rcases TcpListener.finishTcpWorker_cases { listener with results := rest }
        entry with ⟨state, hok, hnext⟩ | ⟨error, _, hnext⟩
      · rw [hnext]
        constructor
        · intro other hother
          exact (hkept.outcomes other (hrest hother)).mono List.prefix_rfl
            fun _ => rfl
        · intro worker other hreturned
          simp only [ListenerPhase.returned.injEq, Except.ok.injEq,
            Prod.mk.injEq] at hreturned
          obtain ⟨rfl, rfl⟩ := hreturned
          have houtcome := hkept.outcomes entry hentry
          rw [hok] at houtcome
          refine ⟨hcounted.accounted.subset ?_, houtcome.mono List.prefix_rfl
            fun _ => rfl⟩
          exact List.mem_append_right _ (List.mem_map_of_mem hentry)
      · rw [hnext]
        exact hkept.pass hrest List.prefix_rfl id (List.Subset.refl _)
          fun _ _ hreturned => nomatch hreturned

theorem Kept.works (hkept : server.Kept listener)
    (hworks : server.Works listener next) : server.Kept next := by
  cases hworks with
  | calls call =>
      exact hkept.pass (List.Subset.refl _) (List.prefix_append _ _) id
        (List.Subset.refl _) fun _ _ hreturned => hreturned
  | @ends before after worker input output result hrunning hends =>
      have hflag : listener.cancellation = true →
          (listener.cancellation || result.isOk) = true := fun hset => by
        rw [hset, Bool.true_or]
      constructor
      · intro entry hentry
        simp only [List.mem_append, List.mem_singleton] at hentry
        rcases hentry with (hold | rfl) | hold
        · exact (hkept.outcomes entry (List.mem_append_left _ hold)).mono
            List.prefix_rfl hflag
        · exact ⟨⟨input, output, hends⟩, fun hok => by
            rw [hok, Bool.or_true]⟩
        · exact (hkept.outcomes entry (List.mem_append_right _ hold)).mono
            List.prefix_rfl hflag
      · intro other state hreturned
        obtain ⟨hmem, houtcome⟩ := hkept.returned other state hreturned
        exact ⟨hmem, houtcome.mono List.prefix_rfl hflag⟩
  | @sends before after entry hfinished hthere hroom =>
      refine hkept.pass ?_ List.prefix_rfl id (List.Subset.refl _)
        fun _ _ hreturned => hreturned
      rw [hfinished]
      intro other hother
      simp only [List.mem_append, List.mem_cons] at hother ⊢
      tauto
  | @dropped before after entry hfinished hgone =>
      refine hkept.pass ?_ List.prefix_rfl id (List.Subset.refl _)
        fun _ _ hreturned => hreturned
      rw [hfinished]
      intro other hother
      simp only [List.mem_append, List.mem_cons] at hother ⊢
      tauto

/-- The admission that led to a worker. -/
def admission (worker : TcpWorker) : PeerRateLimiter.Admission :=
  ⟨worker.connect, worker.requiresCookie⟩

/-- The limiter has screened the connections, and the threads are those that
it let in. -/
structure Screened (server : TcpServer prims) (listener : TcpListener) :
    Prop where
  limiter : listener.rateLimiter =
    after server.display listener.connects
  started : listener.started.map admission =
    admissions server.display listener.connects
  sorted : listener.connects.Pairwise fun first second =>
    first.now ≤ second.now

theorem screened_new : server.Screened .new := ⟨rfl, rfl, List.Pairwise.nil⟩

theorem Screened.pass (hscreened : server.Screened listener)
    (hlimiter : next.rateLimiter = listener.rateLimiter)
    (hstarted : next.started = listener.started)
    (hconnects : next.connects = listener.connects) :
    server.Screened next := by
  refine ⟨?_, ?_, ?_⟩
  · rw [hlimiter, hconnects]
    exact hscreened.limiter
  · rw [hstarted, hconnects]
    exact hscreened.started
  · rw [hconnects]
    exact hscreened.sorted

theorem Screened.effect (hscreened : server.Screened listener)
    (heffect : server.Effect listener next) : server.Screened next := by
  have hsorted {connect : Connect}
      (hclock : ∀ earlier ∈ listener.connects, earlier.now ≤ connect.now) :
      (listener.connects ++ [connect]).Pairwise fun first second =>
        first.now ≤ second.now := by
    rw [List.pairwise_append]
    refine ⟨hscreened.sorted, List.pairwise_singleton _ _, ?_⟩
    intro earlier hearlier other hother
    rw [List.mem_singleton.mp hother]
    exact hclock earlier hearlier
  cases heffect with
  | moves phase _ _ => exact hscreened.pass rfl rfl rfl
  | expires _ => exact hscreened.pass rfl rfl rfl
  | fails error _ => exact hscreened.pass rfl rfl rfl
  | @takes entry rest _ _ =>
      obtain ⟨_, _, _, hstarted, hconnects, _, hlimiter⟩ :=
        TcpListener.finishTcpWorker_frame { listener with results := rest }
          entry
      exact hscreened.pass hlimiter hstarted hconnects
  | refuses connect error _ hclock hrefused =>
      rw [hscreened.limiter] at hrefused
      have hnone : (screen server.display
          (after server.display listener.connects)
            connect).1 = none := by
        simp [screen, hrefused, Except.isOk, Except.toBool]
      refine ⟨?_, ?_, hsorted hclock⟩
      · rw [after_snoc, hscreened.limiter]
      · rw [admissions_snoc, hnone, Option.toList_none,
          List.append_nil]
        exact hscreened.started
  | admits connect _ hclock hadmitted _ =>
      rw [hscreened.limiter] at hadmitted
      have hsome : (screen server.display
          (after server.display listener.connects)
            connect).1 = some ⟨connect, ((after server.display
              listener.connects).checkAndRecord server.display
                connect).2.requiresCookie server.display connect.addr⟩ := by
        simp [screen, hadmitted, Except.isOk, Except.toBool]
      rw [TcpListener.spawn]
      refine ⟨?_, ?_, hsorted hclock⟩
      · rw [after_snoc, hscreened.limiter]
      · rw [admissions_snoc, hsome, List.map_append,
          hscreened.started, hscreened.limiter]
        rfl

theorem Screened.works (hscreened : server.Screened listener)
    (hworks : server.Works listener next) : server.Screened next := by
  cases hworks with
  | calls call => exact hscreened.pass rfl rfl rfl
  | ends hrunning hends => exact hscreened.pass rfl rfl rfl
  | sends hfinished hthere hroom => exact hscreened.pass rfl rfl rfl
  | dropped hfinished hgone => exact hscreened.pass rfl rfl rfl

/-- The run rule: all three hold of whatever a listener comes to. -/
theorem Reaches.invariant (hreaches : server.Reaches .new listener) :
    listener.Counted ∧ server.Kept listener ∧ server.Screened listener := by
  induction hreaches with
  | refl => exact ⟨TcpListener.counted_new, kept_new, screened_new⟩
  | tail _ hstep ih =>
      obtain ⟨hcounted, hkept, hscreened⟩ := ih
      rcases hstep with hlistens | hworks
      · obtain ⟨hthere, heffect⟩ := hlistens.effect
        exact ⟨hcounted.effect hthere heffect, hkept.effect hcounted heffect,
          hscreened.effect heffect⟩
      · exact ⟨hcounted.works hworks, hkept.works hworks,
          hscreened.works hworks⟩

/-- The peer has sent back, behind its hello, a tag of the authority for its
own address. -/
def BroughtBack (server : TcpServer prims) (calls : List CookieCall)
    (worker : TcpWorker) (input : Bytes) : Prop :=
  ∃ response before clock hello back rest, before <+: calls ∧
    input = hello ++ (back ++ rest) ∧ BringsCookie response back ∧
      IsTag server.hmac server.authority before worker.connect.addr clock
        response

theorem Ends.broughtBack {worker : TcpWorker} {calls : List CookieCall}
    {input output : Bytes} {state : HandshakeState}
    (hends : server.Ends worker calls input output (.ok state))
    (hcookie : worker.requiresCookie = true) :
    server.BroughtBack calls worker input := by
  obtain ⟨env, hserves, hfaces⟩ := hends
  obtain ⟨before, clock, hfront, hverified⟩ := hserves.verified
  obtain ⟨response, hello, back, rest, line, hinput, _, hback, hverify⟩ :=
    (keeps_run server.reader (server.handshakeWorker worker) env hcookie _ _ _
      hfaces).2 state rfl
  rw [hverified] at hverify
  exact ⟨response, before, clock, hello, back, rest, hfront, hinput, hback,
    verify_run_eq_true hverify⟩

theorem Ends.authenticated {worker : TcpWorker} {calls : List CookieCall}
    {input output : Bytes} {state : HandshakeState}
    (hends : server.Ends worker calls input output (.ok state)) :
    ∃ env, server.Serves worker calls env ∧
      Faces ((server.handshakeWorker worker).run prims server.reader env) input
        output (pure state) ∧
      Authenticated prims server.reader server.policy server.profile
        env.derivedAt.1 state input := by
  obtain ⟨env, hserves, hfaces⟩ := hends
  exact ⟨env, hserves, hfaces, ((TcpHandshakeWorker.keeps_run_responded
    (server.handshakeWorker worker) env _ _ _ hfaces).2 state
      rfl).authenticated⟩

end TcpServer

section Runs

open TcpServer

/-- In every state that a listener and its workers can come to, at most sixteen
threads hold a result that has not been taken, each of them once; while the
listener is there its counter is exact, so that it never has to saturate, and
no worker finds the channel full. -/
theorem tcp_listener_accounts (server : TcpServer prims)
    (hreaches : server.Reaches .new listener) :
    listener.threads.length ≤ maxConcurrentTcpHandshakes ∧
      listener.threads.Subperm listener.started ∧
      (listener.phase.isReturned = false →
        listener.activeWorkers = listener.threads.length ∧
          (listener.results ≠ [] → 0 < listener.activeWorkers) ∧
          (listener.finished ≠ [] →
            listener.results.length < maxConcurrentTcpHandshakes)) := by
  obtain ⟨hcounted, _, _⟩ := hreaches.invariant
  refine ⟨hcounted.held_le.trans hcounted.active_le, hcounted.accounted, ?_⟩
  intro hthere
  have hheld := hcounted.held_eq hthere
  have hlimit := hcounted.active_le
  have hlength : listener.threads.length = listener.running.length +
      (listener.finished.length + listener.results.length) := by
    rw [TcpListener.threads, List.length_append, List.length_map,
      List.length_append]
  refine ⟨hheld.symm, fun hresults => ?_, fun hfinished => ?_⟩
  · have hpos := List.length_pos_iff.mpr hresults
    omega
  · have hpos := List.length_pos_iff.mpr hfinished
    omega

/-- A session that a listener returns is the session of a connection that its
limiter let in.  Its peer is pinned and authentic, timely on the clock of the
worker; and if it connects often, it has sent back a cookie for its own
address. -/
theorem tcp_listener_session (server : TcpServer prims)
    (hreaches : server.Reaches .new listener) {worker : TcpWorker}
    {state : HandshakeState}
    (hphase : listener.phase = .returned (.ok (worker, state))) :
    admission worker ∈
        admissions server.display listener.connects ∧
      ∃ input output env, server.Serves worker listener.calls env ∧
        Faces ((server.handshakeWorker worker).run prims server.reader env)
          input output (pure state) ∧
        Authenticated prims server.reader server.policy server.profile
          env.derivedAt.1 state input ∧
        (worker.requiresCookie = true →
          server.BroughtBack listener.calls worker input) := by
  obtain ⟨_, hkept, hscreened⟩ := hreaches.invariant
  obtain ⟨hmem, houtcome⟩ := hkept.returned worker state hphase
  obtain ⟨input, output, hends⟩ := houtcome.ends
  obtain ⟨env, hserves, hfaces, hauthenticated⟩ := hends.authenticated
  refine ⟨?_, input, output, env, hserves, hfaces, hauthenticated,
    hends.broughtBack⟩
  rw [← hscreened.started]
  exact List.mem_map_of_mem hmem

/-- Of one address that is not evicted, no more than eight threads are started
in ten seconds, and no more than three of them without asking for a cookie. -/
theorem tcp_listener_challenges (server : TcpServer prims)
    (hreaches : server.Reaches .new listener) (ip : IpAddr) (since upto : Int)
    (hinterval : upto - since < peerRateWindow)
    (hkeeps : PeerRateLimiter.Keeps server.display listener.connects ip since
      upto) :
    listener.started.countP (fun worker =>
        (admission worker).within since upto ip) ≤
          maxConnectsPerPeerPerWindow ∧
      listener.started.countP (fun worker =>
        (admission worker).unchallenged since upto ip) <
          cookieChallengeThreshold := by
  obtain ⟨_, _, hscreened⟩ := hreaches.invariant
  have hcount (test : PeerRateLimiter.Admission → Bool) :
      listener.started.countP (fun worker => test (admission worker)) =
        (admissions server.display listener.connects).countP
          test := by
    rw [← hscreened.started, List.countP_map]
    rfl
  rw [hcount, hcount]
  exact admissions_within hscreened.sorted hinterval hkeeps

end Runs

namespace TcpListenerWitness

open HandshakeWitness TcpHandshakeWitness TcpServer

def entrance : TcpServer totalPrims where
  reader := reader
  localIdentity := identityB
  policy := policyB
  profile := .classicalLab
  display := PeerRateWitness.dotted
  hmac := hmac
  authority := CookieWitness.start

def connectNo (number : Nat) : Connect :=
  PeerRateWitness.connectAt peer.ip number

/-- From the fourth connection of its address on a worker asks for a cookie. -/
def workerNo (number : Nat) : TcpWorker :=
  ⟨connectNo number, 3 ≤ number, false⟩

def env : TcpWorkerEnv :=
  { TcpHandshakeWitness.server with
    issued := (CookieWitness.start.issue hmac (connectNo 0).addr
      issuing.env).1
    verified := fun response => (CookieWitness.start.verify hmac
      (connectNo 0).addr response issuing.env).1 }

theorem serves (number : Nat) : entrance.Serves (workerNo number) [] env where
  cancelled := nofun
  issued := ⟨[], issuing.env, List.nil_prefix, rfl⟩
  verified := ⟨[], issuing.env, List.nil_prefix, fun _ => rfl⟩

theorem honest : HonestEnds totalPrims identityA policyA client
    (entrance.handshakeWorker (workerNo 0)) env clientMaterial serverMaterial
    (valueOf _ (frame_isOk clientMaterial.localHello))
    (valueOf _ (frame_isOk serverMaterial.localHello)) :=
  { ends with
    running := rfl
    cookie := by rintro ⟨⟩ }

theorem worker_ends : ∃ input output state,
    entrance.Ends (workerNo 0) [] input output (.ok state) := by
  obtain ⟨_, serverState, _, hreaches⟩ := honest.reaches reader
  obtain ⟨_, _, serverRead, serverWrote, _, hserver, _, _⟩ := hreaches.faces
  exact ⟨serverRead, serverWrote, serverState, env, serves 0, hserver⟩

/-- The peer of another worker hangs up. -/
theorem worker_fails : entrance.Ends (workerNo 1) [] [] []
    (.error .connectionClosed) :=
  ⟨env, serves 1, .fault (by rintro _ ⟨⟩) _⟩

/-- The listener when so many connections of one address have come. -/
def crowd : Nat → TcpListener
  | 0 => .new
  | count + 1 => ((crowd count).turn false).accept entrance.display
      (.stream (connectNo count) (.ok ()))

theorem crowd_next (count : Nat) (hphase : (crowd count).phase = .looping)
    (hresults : (crowd count).results = [])
    (hclock : ∀ earlier ∈ (crowd count).connects, earlier.now ≤ count) :
    entrance.Reaches (crowd count) (crowd (count + 1)) := by
  have hturn : (crowd count).turn false =
      { crowd count with phase := .accepting } := by
    simp only [TcpListener.turn, hresults, Bool.false_eq_true, if_false]
  have hfirst : entrance.Step (crowd count) ((crowd count).turn false) :=
    Or.inl (.turn false hphase)
  refine (Relation.ReflTransGen.single hfirst).tail
    (Or.inl (Listens.accept _ ?_ ?_))
  · rw [hturn]
  · rintro _ _ ⟨⟩ earlier hearlier
    rw [hturn] at hearlier
    exact hclock earlier hearlier

theorem crowd_reached : entrance.Reaches .new (crowd 4) :=
  (((crowd_next 0 rfl rfl (by decide)).trans
    (crowd_next 1 rfl rfl (by decide))).trans
    (crowd_next 2 rfl rfl (by decide))).trans
    (crowd_next 3 rfl rfl (by decide))

/-- It is about to accept a fifth one. -/
def waiting : TcpListener := (crowd 4).turn false

/-- One worker has failed. -/
def afterFailure : TcpListener :=
  { waiting with
    running := [workerNo 0, workerNo 2, workerNo 3]
    finished := [(workerNo 1, .error .connectionClosed)] }

/-- Another one has come to its session. -/
def holding (finished results : List (TcpWorker × TcpOutcome)) : TcpListener :=
  { waiting with
    cancellation := true, running := [workerNo 2, workerNo 3]
    finished, results }

/-- Both results are in the channel. -/
def delivered (state : HandshakeState) : TcpListener :=
  holding [] [(workerNo 1, .error .connectionClosed), (workerNo 0, .ok state)]

theorem holding_sends (entry : TcpWorker × TcpOutcome)
    (finished results : List (TcpWorker × TcpOutcome))
    (hroom : results.length < maxConcurrentTcpHandshakes) :
    entrance.Step (holding (entry :: finished) results)
      (holding finished (results ++ [entry])) := by
  have hfinished : (holding (entry :: finished) results).finished =
      [] ++ entry :: finished := rfl
  exact Or.inr (.sends hfinished rfl hroom)

theorem delivered_reached : ∃ state, entrance.Reaches .new (delivered state) := by
  obtain ⟨input, output, state, hends⟩ := worker_ends
  have hturn : entrance.Step (crowd 4) waiting := Or.inl (.turn false rfl)
  have hrunning : waiting.running =
      [workerNo 0] ++ workerNo 1 :: [workerNo 2, workerNo 3] := rfl
  have hfails : entrance.Step waiting afterFailure :=
    Or.inr (.ends hrunning worker_fails)
  have hleft : afterFailure.running =
      [] ++ workerNo 0 :: [workerNo 2, workerNo 3] := rfl
  have hdone : entrance.Step afterFailure
      (holding [(workerNo 1, .error .connectionClosed), (workerNo 0, .ok state)]
        []) :=
    Or.inr (.ends hleft hends)
  have hdelivers : entrance.Reaches (crowd 4) (delivered state) :=
    ((((Relation.ReflTransGen.single hturn).tail hfails).tail hdone).tail
      (holding_sends _ _ _ (by decide))).tail
      (holding_sends _ _ _ (by decide))
  exact ⟨state, crowd_reached.trans hdelivers⟩

/-- The listener takes them from there. -/
def returned (state : HandshakeState) : TcpListener :=
  (((delivered state).accept entrance.display
    (.stream (connectNo 4) (.ok ()))).turn false).turn false

theorem accepts_more (state : HandshakeState) :
    entrance.Listens (delivered state) ((delivered state).accept
      entrance.display (.stream (connectNo 4) (.ok ()))) := by
  apply Listens.accept _ rfl
  rintro _ _ ⟨⟩
  change ∀ earlier ∈ (crowd 4).connects, earlier.now ≤ 4
  decide

theorem returned_reached : ∃ state, entrance.Reaches .new (returned state) := by
  obtain ⟨state, hreaches⟩ := delivered_reached
  exact ⟨state, ((hreaches.tail (Or.inl (accepts_more state))).tail
    (Or.inl (.turn false rfl))).tail (Or.inl (.turn false rfl))⟩

end TcpListenerWitness

open TcpListenerWitness in
theorem tcp_listener_accounts_delivered : ∃ state,
    (delivered state).threads.length ≤ maxConcurrentTcpHandshakes ∧
      (delivered state).threads.Subperm (delivered state).started ∧
      ((delivered state).phase.isReturned = false →
        (delivered state).activeWorkers = (delivered state).threads.length ∧
          ((delivered state).results ≠ [] →
            0 < (delivered state).activeWorkers) ∧
          ((delivered state).finished ≠ [] →
            (delivered state).results.length < maxConcurrentTcpHandshakes)) := by
  obtain ⟨state, hreaches⟩ := delivered_reached
  exact ⟨state, tcp_listener_accounts entrance hreaches⟩

open TcpListenerWitness HandshakeWitness TcpHandshakeWitness in
theorem tcp_listener_session_returned : ∃ state input now,
    Authenticated totalPrims reader policyB .classicalLab now state input := by
  obtain ⟨state, hreaches⟩ := returned_reached
  have hphase : (returned state).phase = .returned (.ok (workerNo 0, state)) :=
    rfl
  obtain ⟨_, input, _, env, _, _, hauthenticated, _⟩ :=
    tcp_listener_session entrance hreaches hphase
  exact ⟨state, input, env.derivedAt.1, hauthenticated⟩

open TcpListenerWitness TcpServer in
/-- The fourth connection of an address is the first to be asked for a
cookie. -/
theorem tcp_listener_challenges_delivered : ∃ state,
    (delivered state).started.map TcpWorker.requiresCookie =
        [false, false, false, true] ∧
      (delivered state).started.countP (fun worker =>
          (admission worker).unchallenged 0 5 peer.ip) <
        cookieChallengeThreshold := by
  obtain ⟨state, hreaches⟩ := delivered_reached
  have hkeeps : PeerRateLimiter.Keeps entrance.display
      (delivered state).connects peer.ip 0 5 := by
    have hconnects : (delivered state).connects =
        [connectNo 0, connectNo 1, connectNo 2, connectNo 3] := rfl
    rw [hconnects, PeerRateLimiter.Keeps]
    decide
  exact ⟨state, rfl, (tcp_listener_challenges entrance hreaches
    peer.ip 0 5 (by decide) hkeeps).2⟩

end Shph
