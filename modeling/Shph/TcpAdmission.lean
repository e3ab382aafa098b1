/-
How a listener screens its connections: a peer that connects too often is
turned away, and one that connects often has to bring a cookie back.
-/
import Shph.PeerRateLimiter

namespace Shph

open StatefulRun

namespace PeerRateLimiter

variable (display : IpAddr → String)

/-- A connection that is let in, and whether it is asked for a cookie. -/
structure Admission where
  connect : Connect
  requiresCookie : Bool

/-- A connect, told by the admission it leads to. -/
def screen (limiter : PeerRateLimiter) (connect : Connect) :
    Option Admission × PeerRateLimiter :=
  let next := (limiter.checkAndRecord display connect).2
  (if (limiter.checkAndRecord display connect).1.isOk then
      some ⟨connect, next.requiresCookie display connect.addr⟩ else none, next)

/-- All admissions of a run. -/
def admissions (connects : List Connect) : List Admission :=
  (trace (screen display) new connects).filterMap Prod.snd

theorem final_screen (limiter : PeerRateLimiter) (connects : List Connect) :
    final (screen display) limiter connects =
      final (checkAndRecord display) limiter connects := by
  induction connects generalizing limiter with
  | nil => rfl
  | cons connect connects ih => exact ih _

/-- The table of a limiter at work. -/
abbrev after (connects : List Connect) : PeerRateLimiter :=
  final (checkAndRecord display) new connects

theorem admissions_snoc (connects : List Connect) (connect : Connect) :
    admissions display (connects ++ [connect]) =
      admissions display connects ++
        (screen display (after display connects) connect).1.toList := by
  rw [admissions, trace_snoc, List.filterMap_append, final_screen]
  cases (screen display (after display connects) connect).1 <;> rfl

/-- An admission of this address inside an interval. -/
def Admission.within (since upto : Int) (ip : IpAddr) (admission : Admission) :
    Bool :=
  decide (since ≤ admission.connect.now ∧ admission.connect.now ≤ upto ∧
    admission.connect.addr.ip = ip)

/-- One that is let in without a cookie. -/
def Admission.unchallenged (since upto : Int) (ip : IpAddr)
    (admission : Admission) : Bool :=
  admission.within since upto ip && !admission.requiresCookie

variable {display}

theorem after_snoc (connects : List Connect) (connect : Connect) :
    after display (connects ++ [connect]) =
      ((after display connects).checkAndRecord display connect).2 :=
  final_snoc _ _ _ _

theorem after_window (connects : List Connect) :
    (after display connects).window = peerRateWindow ∧
      (after display connects).max = maxConnectsPerPeerPerWindow := by
  apply @history_invariant _ _ _ (checkAndRecord display) new
    (fun _ limiter => limiter.window = peerRateWindow ∧
      limiter.max = maxConnectsPerPeerPerWindow) ⟨rfl, rfl⟩
  intro _ limiter connect hconfig
  obtain ⟨hwindow, hmax⟩ := checkAndRecord_config display limiter connect
  exact ⟨hwindow.trans hconfig.1, hmax.trans hconfig.2⟩

/-- The peer of an address keeps its place in the table while it connects
inside the interval. -/
def Keeps (display : IpAddr → String) (connects : List Connect)
    (ip : IpAddr) (since upto : Int) : Prop :=
  ∀ entry ∈ trace (evicting display) new connects, since ≤ entry.1.now →
    entry.1.now ≤ upto → entry.2 ≠ some (display ip)

theorem final_evicting (connects : List Connect) :
    final (evicting display) new connects = after display connects := by
  rw [after]
  generalize new = limiter
  induction connects generalizing limiter with
  | nil => rfl
  | cons connect connects ih => exact ih _

theorem Keeps.snoc {connects : List Connect} {connect : Connect} {ip : IpAddr}
    {since upto : Int}
    (hkeeps : Keeps display (connects ++ [connect]) ip since upto) :
    Keeps display connects ip since upto ∧
      (since ≤ connect.now → connect.now ≤ upto →
        evicted display (after display connects) connect ≠
          some (display ip)) := by
  rw [Keeps, trace_snoc, final_evicting] at hkeeps
  constructor
  · intro entry hentry
    exact hkeeps entry (List.mem_append_left _ hentry)
  · exact hkeeps _ (List.mem_append_right _ (List.mem_singleton.mpr rfl))

theorem screen_eq_some {limiter : PeerRateLimiter} {connect : Connect}
    {admission : Admission}
    (hscreen : (screen display limiter connect).1 = some admission) :
    (limiter.checkAndRecord display connect).1.isOk = true ∧
      admission = ⟨connect, (limiter.checkAndRecord display
        connect).2.requiresCookie display connect.addr⟩ := by
  unfold screen at hscreen
  dsimp only at hscreen
  split at hscreen
  · rename_i hok
    exact ⟨hok, (Option.some.inj hscreen).symm⟩
  · cases hscreen

theorem connect_mem_of_mem_admissions {connects : List Connect}
    {admission : Admission}
    (hmem : admission ∈ admissions display connects) :
    admission.connect ∈ connects := by
  induction connects using List.reverseRecOn with
  | nil => exact absurd hmem List.not_mem_nil
  | append_singleton connects connect ih =>
      rw [admissions_snoc, List.mem_append] at hmem
      rcases hmem with hold | hnew
      · exact List.mem_append_left _ (ih hold)
      · obtain ⟨_, rfl⟩ := screen_eq_some (Option.mem_toList.mp hnew)
        simp

section Interval

variable {since upto : Int} {ip : IpAddr} {connects : List Connect}

/-- Up to the end of the interval the table remembers every admission in it:
by induction on the connects, the newest last. -/
theorem countP_within_le_recent
    (hclock : connects.Pairwise fun first second => first.now ≤ second.now)
    (hinterval : upto - since < peerRateWindow)
    (hkeeps : Keeps display connects ip since upto)
    (hupto : ∀ connect ∈ connects, connect.now ≤ upto) :
    (admissions display connects).countP (Admission.within since upto ip) ≤
      recent (after display connects).seen (display ip) since := by
  induction connects using List.reverseRecOn with
  | nil => exact Nat.zero_le _
  | append_singleton connects connect ih =>
      by_cases hsince : since ≤ connect.now
      · obtain ⟨hbefore, hstays⟩ := hkeeps.snoc
        have hnow : connect.now ≤ upto := hupto connect (by simp)
        have hrest := ih (List.pairwise_append.mp hclock).1 hbefore
          fun other hother => hupto other (List.mem_append_left _ hother)
        have hconfig := @after_window display connects
        have hrecent := checkAndRecord_recent display (hstays hsince hnow)
          hsince (show connect.now - (after display connects).window < since by
            rw [hconfig.1]
            omega)
        rw [admissions_snoc, List.countP_append, after_snoc, hrecent]
        apply Nat.add_le_add hrest
        cases hscreen : (screen display (after display connects) connect).1 with
        | none => exact Nat.zero_le _
        | some admission =>
            obtain ⟨hok, rfl⟩ := screen_eq_some hscreen
            rw [Option.toList_some, List.countP_singleton]
            split
            · rename_i hwithin
              have haddr := (of_decide_eq_true hwithin).2.2
              have hadmits : admits display (display ip) (connect,
                  (checkAndRecord display (after display connects)
                    connect).1) = true := by
                rw [admits, hok, Bool.and_true, decide_eq_true_eq, ← haddr]
              rw [if_pos hadmits]
            · exact Nat.zero_le _
      · have hearly : ∀ admission ∈ admissions display (connects ++ [connect]),
            ¬ admission.within since upto ip = true := by
          intro admission hadmission hwithin
          have hmem := connect_mem_of_mem_admissions hadmission
          have hafter := (of_decide_eq_true hwithin).1
          rcases List.mem_append.mp hmem with hold | hnew
          · have hle := (List.pairwise_append.mp hclock).2.2 _ hold connect
              (List.mem_singleton.mpr rfl)
            omega
          · rw [List.mem_singleton.mp hnew] at hafter
            exact hsince hafter
        rw [List.countP_eq_zero.mpr hearly]
        exact Nat.zero_le _

/-- Admissions of a kind that is let in only while the table holds few of the
address are few. -/
theorem countP_admissions_le {test : Admission → Bool} {bound : Nat}
    (hclock : connects.Pairwise fun first second => first.now ≤ second.now)
    (hinterval : upto - since < peerRateWindow)
    (hkeeps : Keeps display connects ip since upto)
    (htest : ∀ admission, test admission = true →
      admission.within since upto ip = true)
    (hbound : ∀ before connect admission,
      (screen display (after display before) connect).1 = some admission →
        test admission = true →
          recent (after display (before ++ [connect])).seen (display ip) since ≤
            bound) :
    (admissions display connects).countP test ≤ bound := by
  induction connects using List.reverseRecOn with
  | nil => exact Nat.zero_le _
  | append_singleton connects connect ih =>
      have hrest := ih (List.pairwise_append.mp hclock).1 hkeeps.snoc.1
      cases hscreen : (screen display (after display connects) connect).1 with
      | none =>
          rw [admissions_snoc, hscreen, Option.toList_none, List.append_nil]
          exact hrest
      | some admission =>
          by_cases hpasses : test admission = true
          · have hwithin := of_decide_eq_true (htest admission hpasses)
            obtain ⟨_, hadmission⟩ := screen_eq_some hscreen
            have hupto : ∀ other ∈ connects ++ [connect],
                other.now ≤ upto := by
              intro other hother
              have hnow : connect.now ≤ upto := by
                rw [hadmission] at hwithin
                exact hwithin.2.1
              rcases List.mem_append.mp hother with hold | hnew
              · have hle := (List.pairwise_append.mp hclock).2.2 other hold
                  connect (List.mem_singleton.mpr rfl)
                omega
              · rw [List.mem_singleton.mp hnew]
                exact hnow
            calc (admissions display (connects ++ [connect])).countP test
                ≤ (admissions display (connects ++ [connect])).countP
                    (Admission.within since upto ip) :=
                  List.countP_mono_left fun other _ => htest other
              _ ≤ recent (after display (connects ++ [connect])).seen
                    (display ip) since :=
                  countP_within_le_recent hclock hinterval hkeeps hupto
              _ ≤ bound := hbound connects connect admission hscreen hpasses
          · rw [admissions_snoc, hscreen, Option.toList_some,
              List.countP_append, List.countP_singleton, if_neg hpasses]
            exact hrest

theorem after_bounded (connects : List Connect) :
    (after display connects).Bounded := by
  apply @history_invariant _ _ _ (checkAndRecord display) new
    (fun _ limiter => limiter.Bounded)
  · exact fun _ => Nat.zero_le _
  · intro _ limiter connect hbounded
    exact checkAndRecord_bounded display hbounded connect

/-- In an interval shorter than the window, no address that keeps its place in
the table is let in more often than the limit allows, nor more than three times
without being asked for a cookie. -/
theorem admissions_within
    (hclock : connects.Pairwise fun first second => first.now ≤ second.now)
    (hinterval : upto - since < peerRateWindow)
    (hkeeps : Keeps display connects ip since upto) :
    (admissions display connects).countP (Admission.within since upto ip) ≤
        maxConnectsPerPeerPerWindow ∧
      (admissions display connects).countP
        (Admission.unchallenged since upto ip) < cookieChallengeThreshold := by
  constructor
  · apply countP_admissions_le hclock hinterval hkeeps (fun _ hpass => hpass)
    intro before connect _ _ _
    have hle := recent_le (@after_bounded display (before ++ [connect]))
      (display ip) since
    rwa [(after_window _).2] at hle
  · suffices hle : (admissions display connects).countP
        (Admission.unchallenged since upto ip) ≤ 3 from
      hle.trans_lt (by decide)
    apply countP_admissions_le hclock hinterval hkeeps
    · intro admission hunchallenged
      exact (Bool.and_eq_true _ _ ▸ hunchallenged).1
    · intro before connect admission hscreen hunchallenged
      simp only [Admission.unchallenged, Bool.and_eq_true,
        Bool.not_eq_eq_eq_not, Bool.not_true] at hunchallenged
      obtain ⟨_, rfl⟩ := screen_eq_some hscreen
      have haddr := (of_decide_eq_true hunchallenged.1).2.2
      have hcookie := hunchallenged.2
      dsimp only at haddr hcookie
      rw [after_snoc, recent, ← haddr]
      rw [requiresCookie] at hcookie
      cases hentries : ((after display before).checkAndRecord display
          connect).2.seen.get (display connect.addr.ip) with
      | none => exact Nat.zero_le _
      | some entries =>
          rw [hentries] at hcookie
          have hfew := of_decide_eq_false hcookie
          rw [cookieChallengeThreshold, maxConnectsPerPeerPerWindow] at hfew
          exact List.countP_le_length.trans (by
            rw [Option.getD_some]
            omega)

end Interval

end PeerRateLimiter

end Shph
