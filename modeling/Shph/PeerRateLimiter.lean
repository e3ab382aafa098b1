/-
The connection-rate limiter of the unauthenticated entry path.  It keeps the
instants of recent connects for each peer, prunes what has left the window,
and makes room for a new peer by dropping the one whose oldest connect lies
furthest back.
-/
import Shph.Cookie
import Shph.Library.Decimal
import Shph.Library.KeyTable

namespace Shph

open StatefulRun KeyTable
def maxQuicTrackedPeers : Nat := 1024

/-- Instants and durations are in nanoseconds. -/
def peerRateWindow : Int := 10 * 10 ^ 9

def maxConnectsPerPeerPerWindow : Nat := 8

def cookieChallengeThreshold : Nat := maxConnectsPerPeerPerWindow / 2

abbrev PeerTable := KeyTable String (List Int)

/-- The order in which a hash map is traversed. -/
structure IterationOrder where
  listing : List (String × List Int) → List (String × List Int)
  listing_perm : ∀ entries, (listing entries).Perm entries

structure PeerRateLimiter where
  window : Int
  max : Nat
  seen : PeerTable

/-- A connect: where it comes from, when, and in which order the table is
traversed then. -/
structure Connect where
  addr : SocketAddr
  now : Int
  order : IterationOrder

/-- The order of `Option<Instant>`: nothing comes first. -/
def instantLt : Option Int → Option Int → Bool
  | none, none => false
  | none, some _ => true
  | some _, none => false
  | some left, some right => left < right

/-- The first entry with the smallest first instant. -/
def minByFirst : List (String × List Int) → Option (String × List Int)
  | [] => none
  | entry :: rest =>
      some (rest.foldl (fun best entry =>
        if instantLt entry.2.head? best.2.head? then entry else best) entry)

namespace PeerRateLimiter

def new : PeerRateLimiter :=
  { window := peerRateWindow, max := maxConnectsPerPeerPerWindow
    seen := KeyTable.empty }

/-- Drop the instants up to the cutoff, and the peers that have none left. -/
def prune (seen : PeerTable) (cutoff : Int) : PeerTable :=
  seen.retain (fun entries => entries.filter fun instant => cutoff < instant)
    fun entries => !entries.isEmpty

/-- The peer a connect drops from the table, if it needs the room. -/
def evicted (display : IpAddr → String) (limiter : PeerRateLimiter)
    (connect : Connect) : Option String :=
  let key := display connect.addr.ip
  let seen := prune limiter.seen (connect.now - limiter.window)
  if seen.contains key = false ∧ maxQuicTrackedPeers ≤ seen.size then
    (minByFirst (connect.order.listing seen.entries)).map Prod.fst
  else none

/-- `display` is the text of an address. -/
def checkAndRecord (display : IpAddr → String) (limiter : PeerRateLimiter)
    (connect : Connect) : Except ShphError Unit × PeerRateLimiter :=
  let key := display connect.addr.ip
  let cutoff := connect.now - limiter.window
  let seen := prune limiter.seen cutoff
  let seen :=
    match evicted display limiter connect with
    | some oldestKey => seen.erase oldestKey
    | none => seen
  let entries := ((seen.get key).getD []).filter fun instant => cutoff < instant
  if limiter.max ≤ entries.length then
    (.error (.transport
        s!"peer {key} exceeded connection rate limit ({limiter.max} per 10s)"),
      { limiter with seen := seen.set key entries })
  else
    (.ok (),
      { limiter with seen := seen.set key (entries ++ [connect.now]) })

def requiresCookie (display : IpAddr → String) (limiter : PeerRateLimiter)
    (addr : SocketAddr) : Bool :=
  match limiter.seen.get (display addr.ip) with
  | some entries => cookieChallengeThreshold ≤ entries.length
  | none => false

/-- The table in which a connect is then recorded. -/
def makeRoom (display : IpAddr → String) (limiter : PeerRateLimiter)
    (connect : Connect) : PeerTable :=
  match evicted display limiter connect with
  | some oldestKey =>
      (prune limiter.seen (connect.now - limiter.window)).erase oldestKey
  | none => prune limiter.seen (connect.now - limiter.window)

/-- The instants of the connecting peer that still count. -/
def counted (display : IpAddr → String) (limiter : PeerRateLimiter)
    (connect : Connect) : List Int :=
  (((makeRoom display limiter connect).get (display connect.addr.ip)).getD
    []).filter fun instant => connect.now - limiter.window < instant

variable (display : IpAddr → String)

theorem checkAndRecord_cases (limiter : PeerRateLimiter) (connect : Connect) :
    limiter.max ≤ (counted display limiter connect).length ∧
        (∃ error, (checkAndRecord display limiter connect).1 = .error error) ∧
        (checkAndRecord display limiter connect).2 =
          { limiter with
            seen := (makeRoom display limiter connect).set
              (display connect.addr.ip) (counted display limiter connect) } ∨
      (counted display limiter connect).length < limiter.max ∧
        checkAndRecord display limiter connect =
          (.ok (), { limiter with
            seen := (makeRoom display limiter connect).set
              (display connect.addr.ip)
              (counted display limiter connect ++ [connect.now]) }) := by
  by_cases hfull : limiter.max ≤ (counted display limiter connect).length
  · refine Or.inl ⟨hfull, ?_⟩
    have hcall : checkAndRecord display limiter connect =
        (.error (.transport s!"peer {display connect.addr.ip} exceeded connection rate limit ({limiter.max} per 10s)"),
          { limiter with
            seen := (makeRoom display limiter connect).set
              (display connect.addr.ip)
              (counted display limiter connect) }) := if_pos hfull
    rw [hcall]
    exact ⟨⟨_, rfl⟩, rfl⟩
  · exact Or.inr ⟨Nat.lt_of_not_le hfull, if_neg hfull⟩

/-- The configuration of a limiter never changes. -/
theorem checkAndRecord_config (limiter : PeerRateLimiter) (connect : Connect) :
    (checkAndRecord display limiter connect).2.window = limiter.window ∧
      (checkAndRecord display limiter connect).2.max = limiter.max := by
  rcases checkAndRecord_cases display limiter connect with
    ⟨_, _, hnext⟩ | ⟨_, hcall⟩
  · rw [hnext]
    exact ⟨rfl, rfl⟩
  · rw [hcall]
    exact ⟨rfl, rfl⟩

theorem minByFirst_mem {entries : List (String × List Int)}
    {entry : String × List Int} (hmin : minByFirst entries = some entry) :
    entry ∈ entries := by
  have hfold (rest : List (String × List Int)) (best : String × List Int) :
      rest.foldl (fun best entry =>
        if instantLt entry.2.head? best.2.head? then entry else best) best ∈
          best :: rest := by
    induction rest generalizing best with
    | nil => simp
    | cons next rest ih =>
        rw [List.foldl_cons]
        split
        · exact List.mem_cons_of_mem best (ih next)
        · rcases List.mem_cons.mp (ih best) with heq | hmem
          · rw [heq]
            exact List.mem_cons_self
          · exact List.mem_cons_of_mem _ (List.mem_cons_of_mem _ hmem)
  cases entries with
  | nil => simp [minByFirst] at hmin
  | cons first rest =>
      rw [minByFirst, Option.some.injEq] at hmin
      rw [← hmin]
      exact hfold rest first

theorem evicted_mem {limiter : PeerRateLimiter} {connect : Connect}
    {key : String} (hevicted : evicted display limiter connect = some key) :
    key ∈ (prune limiter.seen (connect.now - limiter.window)).entries.map
      Prod.fst := by
  unfold evicted at hevicted
  dsimp only at hevicted
  split at hevicted
  · obtain ⟨entry, hentry, rfl⟩ := Option.map_eq_some_iff.mp hevicted
    apply List.mem_map_of_mem
    exact (connect.order.listing_perm _).mem_iff.mp (minByFirst_mem hentry)
  · cases hevicted

/-- After a connect has made its room, its peer is tracked or there is a place
left for it. -/
theorem makeRoom_size {limiter : PeerRateLimiter}
    (hsize : limiter.seen.size ≤ maxQuicTrackedPeers) (connect : Connect) :
    (makeRoom display limiter connect).size +
        (if (makeRoom display limiter connect).contains
          (display connect.addr.ip) then 0 else 1) ≤ maxQuicTrackedPeers := by
  have hpruned : (prune limiter.seen (connect.now - limiter.window)).size ≤
      maxQuicTrackedPeers := (size_retain_le _ _).trans hsize
  unfold makeRoom
  cases hevicted : evicted display limiter connect with
  | some oldest =>
      have hlt := size_erase_lt (evicted_mem display hevicted)
      dsimp only
      split <;> omega
  | none =>
      dsimp only
      unfold evicted at hevicted
      dsimp only at hevicted
      split at hevicted
      · rename_i hfull
        rw [Option.map_eq_none_iff] at hevicted
        cases hlisting : connect.order.listing (prune limiter.seen
            (connect.now - limiter.window)).entries with
        | nil =>
            have hlength := (connect.order.listing_perm (prune limiter.seen
              (connect.now - limiter.window)).entries).length_eq
            rw [hlisting, List.length_nil] at hlength
            have hzero := hfull.2
            rw [KeyTable.size, ← hlength] at hzero
            exact absurd hzero (by decide)
        | cons entry rest => simp [hlisting, minByFirst] at hevicted
      · rename_i hroom
        split
        · omega
        · rename_i hnew
          rw [not_and] at hroom
          have hsmall := hroom (Bool.eq_false_of_not_eq_true hnew)
          omega

theorem checkAndRecord_size {limiter : PeerRateLimiter}
    (hsize : limiter.seen.size ≤ maxQuicTrackedPeers) (connect : Connect) :
    (checkAndRecord display limiter connect).2.seen.size ≤
      maxQuicTrackedPeers := by
  have hroom := makeRoom_size display hsize connect
  rcases checkAndRecord_cases display limiter connect with
    ⟨_, _, hnext⟩ | ⟨_, hcall⟩
  · rw [hnext, size_set]
    exact hroom
  · rw [hcall, size_set]
    exact hroom

/-- The number of tracked peers stays bounded along every run. -/
theorem checkAndRecord_run_size (connects : List Connect) :
    (final (checkAndRecord display) new connects).seen.size ≤
      maxQuicTrackedPeers := by
  apply @history_invariant _ _ _ (checkAndRecord display) new
    (fun _ limiter => limiter.seen.size ≤ maxQuicTrackedPeers)
  · exact Nat.zero_le _
  · intro _ limiter connect hsize
    exact checkAndRecord_size display hsize connect

/-- How many instants of a peer, from a given one on, are in a table. -/
def recent (seen : PeerTable) (key : String) (since : Int) : Nat :=
  ((seen.get key).getD []).countP fun instant => since ≤ instant

/-- No peer has more instants than the limit. -/
def Bounded (limiter : PeerRateLimiter) : Prop :=
  ∀ key, ((limiter.seen.get key).getD []).length ≤ limiter.max

theorem get_prune (seen : PeerTable) (cutoff : Int) (key : String) :
    ((prune seen cutoff).get key).getD [] =
      ((seen.get key).getD []).filter fun instant => cutoff < instant := by
  rw [prune, get_retain]
  cases seen.get key with
  | none => rfl
  | some entries =>
      rw [Option.map_some, Option.filter_some, Option.getD_some]
      cases entries.filter fun instant => decide (cutoff < instant) with
      | nil => rfl
      | cons instant rest => rfl

theorem get_makeRoom {limiter : PeerRateLimiter} {connect : Connect}
    {key : String} (hkeep : evicted display limiter connect ≠ some key) :
    ((makeRoom display limiter connect).get key).getD [] =
      ((limiter.seen.get key).getD []).filter fun instant =>
        connect.now - limiter.window < instant := by
  rw [← get_prune]
  unfold makeRoom
  cases hevicted : evicted display limiter connect with
  | none => rfl
  | some oldest =>
      have hne : key ≠ oldest := fun heq => hkeep (heq ▸ hevicted)
      dsimp only
      rw [get_erase_of_ne hne]

theorem get_makeRoom_length_le {limiter : PeerRateLimiter}
    (hbounded : limiter.Bounded) (connect : Connect) (key : String) :
    (((makeRoom display limiter connect).get key).getD []).length ≤
      limiter.max := by
  by_cases hkeep : evicted display limiter connect = some key
  · have hgone : (makeRoom display limiter connect).get key = none := by
      rw [makeRoom, hkeep, get_eq_none_iff]
      simp [erase]
    rw [hgone]
    exact Nat.zero_le _
  · rw [get_makeRoom display hkeep]
    exact (List.length_filter_le _ _).trans (hbounded key)

theorem checkAndRecord_bounded {limiter : PeerRateLimiter}
    (hbounded : limiter.Bounded) (connect : Connect) :
    (checkAndRecord display limiter connect).2.Bounded := by
  have hset (entries : List Int) (hentries : entries.length ≤ limiter.max) :
      Bounded { limiter with
        seen := (makeRoom display limiter connect).set
          (display connect.addr.ip) entries } := by
    intro key
    dsimp only
    by_cases hkey : key = display connect.addr.ip
    · rw [hkey, get_set_self]
      exact hentries
    · rw [get_set_of_ne hkey]
      exact get_makeRoom_length_le display hbounded connect key
  rcases checkAndRecord_cases display limiter connect with
    ⟨_, _, hnext⟩ | ⟨hroom, hcall⟩
  · rw [hnext]
    apply hset
    exact (List.length_filter_le _ _).trans
      (get_makeRoom_length_le display hbounded connect _)
  · rw [hcall]
    apply hset
    rw [List.length_append, List.length_singleton]
    exact hroom

theorem recent_le {limiter : PeerRateLimiter} (hbounded : limiter.Bounded)
    (key : String) (since : Int) :
    recent limiter.seen key since ≤ limiter.max :=
  List.countP_le_length.trans (hbounded key)

/-- The connect comes from this peer and was let in. -/
def admits (key : String) (entry : Connect × Except ShphError Unit) : Bool :=
  decide (display entry.1.addr.ip = key) && entry.2.isOk

/-- While the window reaches back to an instant and the peer is not evicted,
every admission since then is in the table. -/
theorem checkAndRecord_recent {limiter : PeerRateLimiter} {connect : Connect}
    {key : String} {since : Int}
    (hkeep : evicted display limiter connect ≠ some key)
    (hsince : since ≤ connect.now)
    (hwindow : connect.now - limiter.window < since) :
    recent (checkAndRecord display limiter connect).2.seen key since =
      recent limiter.seen key since +
        if admits display key
            (connect, (checkAndRecord display limiter connect).1) then 1
        else 0 := by
  have hcount (entries : List Int) :
      (entries.filter fun instant =>
          connect.now - limiter.window < instant).countP
            (fun instant => since ≤ instant) =
        entries.countP fun instant => since ≤ instant := by
    rw [List.countP_filter]
    apply List.countP_congr
    intro instant _
    simp only [Bool.and_eq_true, decide_eq_true_eq]
    omega
  have hroom : recent (makeRoom display limiter connect) key since =
      recent limiter.seen key since := by
    rw [recent, get_makeRoom display hkeep, hcount, recent]
  have hcounted (hkey : display connect.addr.ip = key) :
      (counted display limiter connect).countP
          (fun instant => since ≤ instant) =
        recent limiter.seen key since := by
    rw [counted, hcount, hkey, ← hroom, recent]
  rcases checkAndRecord_cases display limiter connect with
    ⟨_, ⟨error, herror⟩, hnext⟩ | ⟨_, hcall⟩
  · have hnot : admits display key
        (connect, (checkAndRecord display limiter connect).1) = false := by
      simp [admits, herror, Except.isOk, Except.toBool]
    rw [hnot, hnext, if_neg (by decide), Nat.add_zero]
    by_cases hkey : display connect.addr.ip = key
    · rw [← hcounted hkey, recent, hkey, get_set_self]
      rfl
    · rw [recent, get_set_of_ne (Ne.symm hkey), ← hroom, recent]
  · rw [hcall]
    by_cases hkey : display connect.addr.ip = key
    · have hyes : admits display key (connect, .ok ()) = true := by
        simp [admits, hkey, Except.isOk, Except.toBool]
      rw [if_pos hyes, ← hcounted hkey, recent, hkey, get_set_self,
        Option.getD_some, List.countP_append, List.countP_singleton,
        if_pos (decide_eq_true hsince)]
    · have hnot : admits display key (connect, .ok ()) = false := by
        simp [admits, hkey]
      rw [hnot, if_neg (by decide), Nat.add_zero, recent,
        get_set_of_ne (Ne.symm hkey), ← hroom, recent]

/-- A connect, told by the peer it evicts. -/
def evicting (limiter : PeerRateLimiter) (connect : Connect) :
    Option String × PeerRateLimiter :=
  (evicted display limiter connect, (checkAndRecord display limiter connect).2)

/-- A connect of this address inside an interval that was let in. -/
def admitsWithin (since upto : Int) (ip : IpAddr)
    (entry : Connect × Except ShphError Unit) : Bool :=
  decide (since ≤ entry.1.now ∧ entry.1.now ≤ upto ∧ entry.1.addr.ip = ip) &&
    entry.2.isOk

theorem admits_of_within {since upto : Int} {ip : IpAddr}
    {entry : Connect × Except ShphError Unit}
    (hwithin : admitsWithin since upto ip entry = true) :
    admits display (display ip) entry = true := by
  simp only [admitsWithin, Bool.and_eq_true, decide_eq_true_eq] at hwithin
  simp [admits, hwithin.1.2.2, hwithin.2]

theorem countP_late (since : Int) {upto : Int} (ip : IpAddr)
    (limiter : PeerRateLimiter) {connects : List Connect}
    (hlate : ∀ connect ∈ connects, upto < connect.now) :
    (trace (checkAndRecord display) limiter connects).countP
      (admitsWithin since upto ip) = 0 := by
  rw [List.countP_eq_zero]
  intro entry hentry
  have hmem : entry.1 ∈ connects := by
    rw [← trace_map_fst (checkAndRecord display) limiter connects]
    exact List.mem_map_of_mem hentry
  have hlt := hlate entry.1 hmem
  simp only [admitsWithin, Bool.and_eq_true, decide_eq_true_eq]
  omega

/-- From the start of the interval on, the admissions of a peer and those
before them that still count stay below the limit. -/
theorem admitted_since {since upto : Int} {ip : IpAddr}
    {limiter : PeerRateLimiter} (hbounded : limiter.Bounded)
    (hinterval : upto - since < limiter.window) (connects : List Connect)
    (hclock : connects.Pairwise fun first second => first.now ≤ second.now)
    (hsince : ∀ connect ∈ connects, since ≤ connect.now)
    (hkeep : ∀ entry ∈ trace (evicting display) limiter connects,
      entry.1.now ≤ upto → entry.2 ≠ some (display ip)) :
    (trace (checkAndRecord display) limiter connects).countP
        (admitsWithin since upto ip) +
      recent limiter.seen (display ip) since ≤ limiter.max := by
  induction connects generalizing limiter with
  | nil =>
      rw [trace_nil, List.countP_nil, Nat.zero_add]
      exact recent_le hbounded _ _
  | cons connect connects ih =>
      rw [List.pairwise_cons] at hclock
      have hfirst := hsince connect (by simp)
      by_cases hlate : upto < connect.now
      · have hall : ∀ other ∈ connect :: connects, upto < other.now := by
          intro other hother
          rcases List.mem_cons.mp hother with rfl | hother
          · exact hlate
          · exact hlate.trans_le (hclock.1 other hother)
        rw [countP_late display since ip limiter hall, Nat.zero_add]
        exact recent_le hbounded _ _
      · rw [trace_cons] at hkeep
        have hevicted : evicted display limiter connect ≠ some (display ip) :=
          hkeep (connect, evicted display limiter connect) (by simp [evicting])
            (Int.not_lt.mp hlate)
        have hconfig := checkAndRecord_config display limiter connect
        have hrest := @ih (checkAndRecord display limiter connect).2
          (checkAndRecord_bounded display hbounded connect)
          (by rw [hconfig.1]; exact hinterval) hclock.2
          (fun other hother => hsince other (by simp [hother]))
          (fun entry hentry => hkeep entry
            (List.mem_cons_of_mem _ hentry))
        have hstep := checkAndRecord_recent display hevicted hfirst
          (show connect.now - limiter.window < since by omega)
        rw [hconfig.2, hstep] at hrest
        rw [trace_cons, List.countP_cons]
        have hone : (if admitsWithin since upto ip
              (connect, (checkAndRecord display limiter connect).1) then 1
            else 0) ≤
            if admits display (display ip)
              (connect, (checkAndRecord display limiter connect).1) then 1
            else 0 := by
          split
          · rename_i hwithin
            rw [if_pos (admits_of_within display hwithin)]
          · exact Nat.zero_le _
        omega

theorem admitted_within {since upto : Int} {ip : IpAddr}
    {limiter : PeerRateLimiter} (hbounded : limiter.Bounded)
    (hinterval : upto - since < limiter.window) (connects : List Connect)
    (hclock : connects.Pairwise fun first second => first.now ≤ second.now)
    (hkeep : ∀ entry ∈ trace (evicting display) limiter connects,
      since ≤ entry.1.now → entry.1.now ≤ upto → entry.2 ≠ some (display ip)) :
    (trace (checkAndRecord display) limiter connects).countP
      (admitsWithin since upto ip) ≤ limiter.max := by
  induction connects generalizing limiter with
  | nil => exact Nat.zero_le _
  | cons connect connects ih =>
      by_cases hearly : connect.now < since
      · rw [List.pairwise_cons] at hclock
        have hconfig := checkAndRecord_config display limiter connect
        have hrest := @ih (checkAndRecord display limiter connect).2
          (checkAndRecord_bounded display hbounded connect)
          (by rw [hconfig.1]; exact hinterval) hclock.2
          (fun entry hentry => hkeep entry (List.mem_cons_of_mem _ hentry))
        have hout : admitsWithin since upto ip
            (connect, (checkAndRecord display limiter connect).1) = false := by
          simp [admitsWithin, hearly]
        rw [trace_cons, List.countP_cons, if_neg (by simp [hout]),
          Nat.add_zero, ← hconfig.2]
        exact hrest
      · have hsince : ∀ other ∈ connect :: connects, since ≤ other.now := by
          intro other hother
          rcases List.mem_cons.mp hother with rfl | hother
          · exact Int.not_lt.mp hearly
          · exact (Int.not_lt.mp hearly).trans
              ((List.pairwise_cons.mp hclock).1 other hother)
        have hentry : ∀ entry ∈ trace (evicting display) limiter
            (connect :: connects), entry.1.now ≤ upto →
              entry.2 ≠ some (display ip) := by
          intro entry hentry
          apply hkeep entry hentry
          apply hsince
          rw [← trace_map_fst (evicting display) limiter (connect :: connects)]
          exact List.mem_map_of_mem hentry
        have hsum := admitted_since display hbounded hinterval
          (connect :: connects) hclock hsince hentry
        omega

/-- The rate limit over whole runs.  In an interval shorter than the window in
which it is not evicted, no address is let in more often than the limit, and
the number of tracked peers never exceeds its bound. -/
theorem checkAndRecord_rate (connects : List Connect)
    (hclock : connects.Pairwise fun first second => first.now ≤ second.now)
    (ip : IpAddr) (since upto : Int) (hinterval : upto - since < peerRateWindow)
    (hkeep : ∀ entry ∈ trace (evicting display) new connects,
      since ≤ entry.1.now → entry.1.now ≤ upto →
        entry.2 ≠ some (display ip)) :
    (trace (checkAndRecord display) new connects).countP
        (admitsWithin since upto ip) ≤ maxConnectsPerPeerPerWindow ∧
      ∀ done ≤ connects.length,
        (final (checkAndRecord display) new
          (connects.take done)).seen.size ≤ maxQuicTrackedPeers := by
  refine ⟨?_, fun done _ => checkAndRecord_run_size display _⟩
  exact admitted_within display (fun _ => Nat.zero_le _) hinterval connects
    hclock hkeep

/-- Nothing leaves the table at a cutoff before all its instants. -/
theorem prune_eq_self {seen : PeerTable} {cutoff : Int}
    (hrecent : ∀ entry ∈ seen.entries,
      entry.2 ≠ [] ∧ ∀ instant ∈ entry.2, cutoff < instant) :
    prune seen cutoff = seen := by
  obtain ⟨entries, hnodup⟩ := seen
  simp only [prune, retain, KeyTable.mk.injEq]
  have hmap : (entries.map fun entry => (entry.1,
      entry.2.filter fun instant => decide (cutoff < instant))) = entries := by
    conv_rhs => rw [← List.map_id entries]
    apply List.map_congr_left
    intro entry hentry
    have hall : (entry.2.filter fun instant => decide (cutoff < instant)) =
        entry.2 := by
      rw [List.filter_eq_self]
      intro instant hinstant
      exact decide_eq_true ((hrecent entry hentry).2 instant hinstant)
    rw [hall]
    rfl
  rw [hmap, List.filter_eq_self]
  intro entry hentry
  simpa using (hrecent entry hentry).1

/-- A peer that is not tracked is let in. -/
theorem checkAndRecord_new_peer {limiter : PeerRateLimiter} {connect : Connect}
    (hmax : 0 < limiter.max)
    (hnew : display connect.addr.ip ∉
      (makeRoom display limiter connect).entries.map Prod.fst) :
    checkAndRecord display limiter connect =
      (.ok (), { limiter with
        seen := (makeRoom display limiter connect).set
          (display connect.addr.ip) [connect.now] }) := by
  have hcounted : counted display limiter connect = [] := by
    rw [counted, get_eq_none_iff.mpr hnew]
    rfl
  rcases checkAndRecord_cases display limiter connect with
    ⟨hfull, _⟩ | ⟨_, hcall⟩
  · rw [hcounted, List.length_nil] at hfull
    omega
  · rw [hcall, hcounted]
    rfl

/-- Making room brings no peer back. -/
theorem makeRoom_get_none {limiter : PeerRateLimiter} {key : String}
    (hnone : limiter.seen.get key = none) (connect : Connect) :
    (makeRoom display limiter connect).get key = none := by
  have hpruned : (prune limiter.seen (connect.now - limiter.window)).get key =
      none := by
    rw [prune, get_retain, hnone]
    rfl
  unfold makeRoom
  cases evicted display limiter connect with
  | none => exact hpruned
  | some oldest =>
      rw [get_eq_none_iff] at hpruned ⊢
      intro hmem
      exact hpruned ((List.filter_sublist.map Prod.fst).subset hmem)

/-- As long as there is room, new peers are added one after the other. -/
theorem newPeers_run {limiter : PeerRateLimiter} {now : Int}
    (connects : List Connect) (hmax : 0 < limiter.max)
    (hwindow : 0 < limiter.window)
    (hnow : ∀ connect ∈ connects, connect.now = now)
    (hrecent : ∀ entry ∈ limiter.seen.entries,
      entry.2 ≠ [] ∧ ∀ instant ∈ entry.2, now - limiter.window < instant)
    (hnodup : (limiter.seen.entries.map Prod.fst ++
      connects.map fun connect => display connect.addr.ip).Nodup)
    (hroom : limiter.seen.size + connects.length ≤ maxQuicTrackedPeers) :
    (final (checkAndRecord display) limiter connects).seen.entries =
        limiter.seen.entries ++ connects.map (fun connect =>
          (display connect.addr.ip, [now])) ∧
      (final (checkAndRecord display) limiter connects).window =
        limiter.window ∧
      (final (checkAndRecord display) limiter connects).max = limiter.max := by
  induction connects generalizing limiter with
  | nil => simp
  | cons connect connects ih =>
      have hinstant : connect.now = now := hnow connect (by simp)
      have hprune : prune limiter.seen (connect.now - limiter.window) =
          limiter.seen := by
        rw [hinstant]
        exact prune_eq_self hrecent
      rw [List.length_cons] at hroom
      have hstay : evicted display limiter connect = none := by
        rw [evicted, hprune, if_neg]
        omega
      have hplace : makeRoom display limiter connect = limiter.seen := by
        rw [makeRoom, hstay]
        exact hprune
      rw [List.map_cons, List.nodup_middle, List.nodup_cons] at hnodup
      have hnew : display connect.addr.ip ∉
          limiter.seen.entries.map Prod.fst := fun hmem =>
        hnodup.1 (List.mem_append_left _ hmem)
      have hcall := checkAndRecord_new_peer display hmax
        (by rw [hplace]; exact hnew)
      rw [hplace, hinstant] at hcall
      have hentries := @entries_set_of_new String (List Int) _
        limiter.seen _ [now] hnew
      rw [final_cons, hcall]
      obtain ⟨hfinal, hsame⟩ := @ih { limiter with
          seen := limiter.seen.set (display connect.addr.ip) [now] } hmax
        hwindow (fun other hother => hnow other (by simp [hother])) (by
          intro entry hentry
          rw [hentries] at hentry
          rcases List.mem_append.mp hentry with hentry | hentry
          · exact hrecent entry hentry
          · rw [List.mem_singleton.mp hentry]
            simp [hwindow]) (by
          rw [hentries, List.map_append, List.append_assoc,
            List.map_singleton, List.singleton_append, List.nodup_middle,
            List.nodup_cons]
          exact hnodup) (by
          have hsize : (limiter.seen.set (display connect.addr.ip)
              [now]).size = limiter.seen.size + 1 := by
            rw [KeyTable.size, hentries, List.length_append]
            rfl
          dsimp only
          omega)
      refine ⟨?_, hsame⟩
      rw [hfinal]
      dsimp only
      rw [hentries, List.append_assoc]
      rfl

/-- The first entry of a table is the one to go, if its first instant comes
before that of every other entry. -/
theorem minByFirst_cons {entry : String × List Int}
    {rest : List (String × List Int)}
    (hfirst : ∀ other ∈ rest,
      instantLt other.2.head? entry.2.head? = false) :
    minByFirst (entry :: rest) = some entry := by
  rw [minByFirst, Option.some.injEq]
  induction rest with
  | nil => rfl
  | cons other rest ih =>
      rw [List.foldl_cons, hfirst other (by simp)]
      exact ih fun next hnext => hfirst next (by simp [hnext])

end PeerRateLimiter

namespace PeerRateWitness

open Decimal PeerRateLimiter

/-- IPv4 addresses as they are printed; an IPv6 address is printed in full. -/
def dotted : IpAddr → String
  | .v4 octets =>
      match octets.val with
      | [a, b, c, d] => s!"{a.toNat}.{b.toNat}.{c.toNat}.{d.toNat}"
      | _ => ""
  | .v6 octets => hexEncode octets.val

def addressOf (a b c d : UInt8) : IpAddr := .ofOctets a b c d

def identityOrder : IterationOrder := ⟨id, fun _ => List.Perm.refl _⟩

def connectAt (ip : IpAddr) (now : Int) : Connect :=
  { addr := ⟨ip, 7000⟩, now := now, order := identityOrder }

theorem dotted_inj {a b c d a' b' c' d' : UInt8}
    (heq : dotted (addressOf a b c d) = dotted (addressOf a' b' c' d')) :
    a = a' ∧ b = b' ∧ c = c' ∧ d = d' := by
  have hlist (a b c d : UInt8) : (dotted (addressOf a b c d)).toList =
      Nat.toDigits 10 a.toNat ++ '.' :: (Nat.toDigits 10 b.toNat ++
        '.' :: (Nat.toDigits 10 c.toNat ++
          '.' :: Nat.toDigits 10 d.toNat)) := by
    simp [dotted, addressOf, IpAddr.ofOctets, ToString.toString]
  have htext := congrArg String.toList heq
  rw [hlist, hlist] at htext
  obtain ⟨ha, hrest⟩ := toDigits_append_inj (by decide) (by decide) htext
  rw [List.cons.injEq] at hrest
  obtain ⟨hb, hrest⟩ := toDigits_append_inj (by decide) (by decide) hrest.2
  rw [List.cons.injEq] at hrest
  obtain ⟨hc, hrest⟩ := toDigits_append_inj (by decide) (by decide) hrest.2
  rw [List.cons.injEq] at hrest
  have hd := congrArg (fun digits => Nat.ofDigitChars 10 digits 0) hrest.2
  simp only [Nat.ofDigitChars_ten_toDigits] at hd
  exact ⟨UInt8.toNat_inj.mp ha, UInt8.toNat_inj.mp hb, UInt8.toNat_inj.mp hc,
    UInt8.toNat_inj.mp hd⟩

def victim : IpAddr := addressOf 10 0 0 1

/-- Eight connects at once. -/
def burst : List Connect := List.replicate 8 (connectAt victim 0)

theorem burst_admitted :
    (trace (checkAndRecord dotted) new burst).countP (admitsWithin 0 2 victim) =
        8 ∧
      (final (checkAndRecord dotted) new burst).seen.entries =
        [(dotted victim, List.replicate 8 0)] := by
  decide

/-- As many other peers as the table can hold, a moment later. -/
def crowd (count : Nat) : List Connect :=
  (List.range count).map fun index => connectAt (addressOf 11 0
    (UInt8.ofNat (index / 256)) (UInt8.ofNat (index % 256))) 1

theorem crowd_names_nodup {count : Nat} (hcount : count ≤ 65536) :
    (dotted victim :: (crowd count).map fun connect =>
      dotted connect.addr.ip).Nodup := by
  rw [crowd, List.map_map, List.nodup_cons]
  constructor
  · rw [List.mem_map]
    rintro ⟨index, _, heq⟩
    exact absurd (dotted_inj heq).1 (by decide)
  · apply List.nodup_range.map_on
    intro left hleft right hright heq
    rw [List.mem_range] at hleft hright
    obtain ⟨_, _, hhigh, hlow⟩ := dotted_inj heq
    have hhigh := congrArg UInt8.toNat hhigh
    have hlow := congrArg UInt8.toNat hlow
    rw [UInt8.toNat_ofNat', UInt8.toNat_ofNat'] at hhigh hlow
    omega

/-- The table once it is full: the first peer comes first. -/
theorem crowd_fills :
    let limiter := final (checkAndRecord dotted)
      (final (checkAndRecord dotted) new burst) (crowd 1023)
    limiter.seen.entries = (dotted victim, List.replicate 8 0) ::
        (crowd 1023).map (fun connect => (dotted connect.addr.ip, [1])) ∧
      limiter.window = peerRateWindow ∧
      limiter.max = maxConnectsPerPeerPerWindow := by
  have hstart := burst_admitted.2
  have hconfig : (final (checkAndRecord dotted) new burst).window =
        peerRateWindow ∧
      (final (checkAndRecord dotted) new burst).max =
        maxConnectsPerPeerPerWindow := by decide
  generalize final (checkAndRecord dotted) new burst = limiter
    at hstart hconfig ⊢
  have hsize : limiter.seen.size = 1 := by
    rw [KeyTable.size, hstart]
    rfl
  have hnodup := crowd_names_nodup (show 1023 ≤ 65536 by decide)
  obtain ⟨hentries, hwindow, hmax⟩ := @newPeers_run dotted limiter 1
    (crowd 1023) (by rw [hconfig.2]; decide) (by rw [hconfig.1]; decide)
    (by
      intro connect hmem
      obtain ⟨_, _, rfl⟩ := List.mem_map.mp hmem
      rfl)
    (by
      rw [hstart, hconfig.1]
      decide)
    (by
      rw [hstart, List.map_singleton, List.singleton_append]
      exact hnodup)
    (by
      rw [hsize, crowd, List.length_map, List.length_range]
      decide)
  rw [hstart, List.singleton_append] at hentries
  exact ⟨hentries, hwindow.trans hconfig.1, hmax.trans hconfig.2⟩

/-- One more peer evicts the first one, which is let in again at once. -/
theorem crowd_evicts {limiter : PeerRateLimiter}
    (hentries : limiter.seen.entries =
      (dotted victim, List.replicate 8 0) ::
        (crowd 1023).map (fun connect => (dotted connect.addr.ip, [1])))
    (hwindow : limiter.window = peerRateWindow)
    (hmax : limiter.max = maxConnectsPerPeerPerWindow) :
    (checkAndRecord dotted (checkAndRecord dotted limiter
        (connectAt (addressOf 11 0 3 255) 1)).2 (connectAt victim 2)).1 =
      .ok () := by
  have hlast : crowd 1024 =
      crowd 1023 ++ [connectAt (addressOf 11 0 3 255) 1] := by
    rw [crowd, List.range_succ, List.map_append]
    rfl
  have hnames := crowd_names_nodup (show 1024 ≤ 65536 by decide)
  rw [hlast, List.map_append, List.map_singleton, ← List.cons_append,
    List.nodup_append] at hnames
  have hkeys : limiter.seen.entries.map Prod.fst = dotted victim ::
      (crowd 1023).map (fun connect => dotted connect.addr.ip) := by
    rw [hentries, List.map_cons, List.map_map]
    rfl
  have hfresh : dotted (addressOf 11 0 3 255) ∉
      limiter.seen.entries.map Prod.fst := by
    rw [hkeys]
    intro hmem
    exact hnames.2.2 _ hmem _ (by simp [connectAt]) rfl
  have hcrowd : ∀ entry ∈ (crowd 1023).map (fun connect =>
      (dotted connect.addr.ip, ([1] : List Int))), entry.2 = [1] := by
    intro entry hentry
    obtain ⟨connect, _, rfl⟩ := List.mem_map.mp hentry
    rfl
  have hprune : prune limiter.seen (1 - limiter.window) = limiter.seen := by
    apply prune_eq_self
    rw [hentries, hwindow, List.forall_mem_cons]
    refine ⟨by decide, ?_⟩
    intro entry hentry
    rw [hcrowd entry hentry]
    decide
  have hsize : maxQuicTrackedPeers ≤ limiter.seen.size := by
    rw [KeyTable.size, hentries, List.length_cons, List.length_map, crowd,
      List.length_map, List.length_range]
    decide
  have hevicted : evicted dotted limiter
      (connectAt (addressOf 11 0 3 255) 1) = some (dotted victim) := by
    have hcontains : limiter.seen.contains (dotted (addressOf 11 0 3 255)) =
        false := by
      rw [Bool.eq_false_iff, ne_eq, contains_iff]
      exact hfresh
    have hmin : minByFirst limiter.seen.entries =
        some (dotted victim, List.replicate 8 0) := by
      rw [hentries]
      apply minByFirst_cons
      intro entry hentry
      rw [hcrowd entry hentry]
      decide
    simp only [evicted, connectAt, hprune, hcontains, hsize, and_self, if_true]
    exact congrArg (Option.map Prod.fst) hmin
  have hroom : makeRoom dotted limiter
      (connectAt (addressOf 11 0 3 255) 1) =
        limiter.seen.erase (dotted victim) := by
    rw [makeRoom, hevicted]
    exact congrArg (erase · (dotted victim)) hprune
  have hcall := @checkAndRecord_new_peer dotted limiter
    (connectAt (addressOf 11 0 3 255) 1) (by rw [hmax]; decide) (by
      rw [hroom]
      intro hmem
      exact hfresh ((List.filter_sublist.map Prod.fst).subset hmem))
  rw [hcall, hroom]
  have hgone : ((limiter.seen.erase (dotted victim)).set
      (dotted (addressOf 11 0 3 255)) [1]).get (dotted victim) = none := by
    have hother : dotted victim ≠ dotted (addressOf 11 0 3 255) := fun heq =>
      absurd (dotted_inj heq).1 (by decide)
    rw [get_set_of_ne hother, get_eq_none_iff]
    simp [erase]
  have hagain := @checkAndRecord_new_peer dotted
    ⟨limiter.window, limiter.max, (limiter.seen.erase (dotted victim)).set
        (dotted (addressOf 11 0 3 255)) [1]⟩ (connectAt victim 2)
    (by rw [hmax]; decide)
    (get_eq_none_iff.mp (makeRoom_get_none dotted hgone _))
  exact congrArg Prod.fst hagain

def flood : List Connect :=
  burst ++ (crowd 1023 ++
    [connectAt (addressOf 11 0 3 255) 1, connectAt victim 2])

theorem flood_admitted :
    (trace (checkAndRecord dotted) new flood).countP
      (admitsWithin 0 2 victim) ≥ 9 := by
  obtain ⟨hentries, hwindow, hmax⟩ := crowd_fills
  have hok := crowd_evicts hentries hwindow hmax
  rw [flood, trace_append, trace_append, List.countP_append,
    burst_admitted.1, List.countP_append, trace_cons, trace_cons, trace_nil,
    hok, List.countP_cons, List.countP_cons, List.countP_nil]
  have hlast : admitsWithin 0 2 victim (connectAt victim 2, .ok ()) = true := by
    decide
  rw [if_pos hlast]
  omega

theorem flood_sorted :
    flood.Pairwise fun first second => first.now ≤ second.now := by
  have hburst : ∀ connect ∈ burst, connect.now = 0 := by decide
  have hcrowd : ∀ connect ∈ crowd 1023, connect.now = 1 := by
    intro connect hmem
    obtain ⟨_, _, rfl⟩ := List.mem_map.mp hmem
    rfl
  rw [flood, List.pairwise_append, List.pairwise_append]
  refine ⟨by decide, ⟨?_, by decide, ?_⟩, ?_⟩
  · apply List.pairwise_iff_forall_sublist.mpr
    intro first second hsublist
    have hfirst := hcrowd first (hsublist.subset (by simp))
    have hsecond := hcrowd second (hsublist.subset (by simp))
    omega
  · intro first hfirst second hsecond
    rw [hcrowd first hfirst]
    revert second
    decide
  · intro first hfirst second hsecond
    rw [hburst first hfirst]
    have htail : ∀ second ∈ [connectAt (addressOf 11 0 3 255) 1,
        connectAt victim 2], 0 ≤ second.now := by decide
    rcases List.mem_append.mp hsecond with hsecond | hsecond
    · rw [hcrowd second hsecond]
      decide
    · exact htail second hsecond

end PeerRateWitness

open PeerRateLimiter PeerRateWitness in
/-- A flood of other peers resets the budget of a peer: it is let in nine times
within two nanoseconds. -/
theorem checkAndRecord_admits_ninth :
    (flood.Pairwise fun first second => first.now ≤ second.now) ∧
      2 - 0 < peerRateWindow ∧
      ¬ (trace (checkAndRecord dotted) new flood).countP
        (admitsWithin 0 2 victim) ≤ maxConnectsPerPeerPerWindow := by
  refine ⟨flood_sorted, by decide, ?_⟩
  have hnine := flood_admitted
  rw [maxConnectsPerPeerPerWindow]
  omega

open PeerRateLimiter PeerRateWitness in
/-- Nine connects of one peer: the ninth is refused. -/
theorem checkAndRecord_rate_burst :
    (trace (checkAndRecord dotted) new
        (burst ++ [connectAt victim 2])).countP (admitsWithin 0 2 victim) ≤
      maxConnectsPerPeerPerWindow :=
  (checkAndRecord_rate dotted (burst ++ [connectAt victim 2]) (by decide) _ 0 2
    (by decide) (by decide)).1

end Shph
