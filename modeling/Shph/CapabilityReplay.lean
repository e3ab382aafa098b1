/-
Single use of capability tokens, over every order in which requests are
prepared and committed.  An accepted token stays in the replay cache until it
has expired, and an expired token is not accepted any more.
-/
import Shph.CapabilitySpec
import Shph.FrontDoor

namespace Shph.Edge

open ByteCodec Checked StatefulRun ReplayCache

/-- The wall clock in seconds, as a preparation reads it. -/
def System.now (system : System) : Nat := system.wall.toNat / 10 ^ 9

/-- The part of a front door that no request changes. -/
structure SameSettings (left right : FrontDoor) : Prop where
  verifier : left.verifier = right.verifier
  limit : left.verificationRateLimiter.limit =
    right.verificationRateLimiter.limit
  replayCapacity : left.replayCapacity = right.replayCapacity

theorem SameSettings.refl (door : FrontDoor) : SameSettings door door :=
  ⟨rfl, rfl, rfl⟩

theorem SameSettings.trans {first second third : FrontDoor}
    (hfirst : SameSettings first second)
    (hsecond : SameSettings second third) : SameSettings first third :=
  ⟨hfirst.verifier.trans hsecond.verifier, hfirst.limit.trans hsecond.limit,
    hfirst.replayCapacity.trans hsecond.replayCapacity⟩

theorem SameSettings.setCache (system : System) (cache : ReplayCache) :
    SameSettings (system.setCache cache).door system.door :=
  ⟨rfl, rfl, rfl⟩

namespace FrontDoor

variable {door : FrontDoor}

theorem screen_eq_ok {request : Request} {raw : String}
    (hscreen : door.screen request = .ok raw) :
    some raw ∈ request.capabilities := by
  simp only [screen, bind_eq_ok, require_eq_ok_iff, valueOr_eq_ok_iff,
    exists_and_left, exists_const, pure_eq_ok]
    at hscreen
  obtain ⟨_, _, token, htoken, _, rfl⟩ := hscreen
  split at htoken
  · rename_i capability hlist
    rw [hlist, htoken]
    exact List.mem_singleton_self _
  · simp at htoken

theorem verifyAdmitted_eq_verified_iff {ed : Ed25519} {raw : String}
    {wall : Int} {capability : VerifiedCapability} :
    door.verifyAdmitted ed raw wall = .verified capability ↔
      door.verifier.verifyForReplay ed raw (wall.toNat / 10 ^ 9) =
        .ok capability := by
  rw [verifyAdmitted]
  split
  · rename_i verified hok
    rw [hok]
    simp
  · rename_i error herror
    rw [herror]
    simp [fallback]

end FrontDoor

namespace System

variable {ed : Ed25519} {system : System}

/-- What a commit does: it spends the token of a waiting request, refuses it,
or finds no waiting request. -/
theorem commitRequest_cases (hcache : system.door.replayCache.Consistent)
    (index : Nat) :
    (∃ capability, system.requests[index]? = some (.verified capability) ∧
      0 ≤ system.wall ∧ OpenAt capability system.now ∧
      system.door.replayCache.Takes capability.claims.nonce
        capability.replayExpiresAt system.now ∧
      system.commitRequest index = (.accepted capability system.now,
        (system.setCache (system.door.replayCache.insert
          capability.claims.nonce capability.replayExpiresAt
            system.now).2).setRequest index (.answered .relay))) ∨
    (∃ capability cache response,
      system.requests[index]? = some (.verified capability) ∧
      ¬ (0 ≤ system.wall ∧ OpenAt capability system.now ∧
        system.door.replayCache.Takes capability.claims.nonce
          capability.replayExpiresAt system.now) ∧
      cache.Consistent ∧
      PrunedAt system.now system.door.replayCache cache ∧
      system.commitRequest index = (.refused capability,
        (system.setCache cache).setRequest index
          (.answered (.fallback response)))) ∨
    ((∀ capability, system.requests[index]? ≠ some (.verified capability)) ∧
      system.commitRequest index = (.quiet, system)) := by
  rw [commitRequest]
  split
  · rename_i capability hrequest
    by_cases hwall : 0 ≤ system.wall
    · have hclock : unixNow system.wall = .ok system.now := if_pos hwall
      by_cases htakes : OpenAt capability system.now ∧
          system.door.replayCache.Takes capability.claims.nonce
            capability.replayExpiresAt system.now
      · obtain ⟨hok, hnext⟩ := consume_of_takes hcache htakes.1 htakes.2
        have hcommit : system.door.commitVerified capability system.wall
            system.door.replayCache = (.relay,
              (system.door.replayCache.insert capability.claims.nonce
                capability.replayExpiresAt system.now).2) := by
          simp only [FrontDoor.commitVerified, hclock]
          rw [← hnext]
          generalize system.door.replayCache.consume capability system.now =
            consumed at hok ⊢
          obtain ⟨result, cache⟩ := consumed
          subst hok
          rfl
        rw [hcommit]
        exact Or.inl ⟨capability, hrequest, hwall, htakes.1, htakes.2, rfl⟩
      · obtain ⟨⟨error, herror⟩, hnext, hpruned⟩ :=
          consume_of_not_takes hcache htakes
        have hcommit : ∃ response, system.door.commitVerified capability
            system.wall system.door.replayCache = (.fallback response,
              (system.door.replayCache.consume capability
                system.now).2) := by
          simp only [FrontDoor.commitVerified, hclock]
          generalize system.door.replayCache.consume capability system.now =
            consumed at herror ⊢
          obtain ⟨result, cache⟩ := consumed
          subst herror
          exact ⟨_, rfl⟩
        obtain ⟨response, hcommit⟩ := hcommit
        rw [hcommit]
        exact Or.inr (Or.inl ⟨capability, _, response, hrequest,
          fun hall => htakes hall.2, hnext, hpruned, rfl⟩)
    · have hclock : unixNow system.wall = .error .malformed := if_neg hwall
      have hcommit : ∃ response, system.door.commitVerified capability
          system.wall system.door.replayCache = (.fallback response,
            system.door.replayCache) := by
        simp only [FrontDoor.commitVerified, hclock]
        exact ⟨_, rfl⟩
      obtain ⟨response, hcommit⟩ := hcommit
      rw [hcommit]
      exact Or.inr (Or.inl ⟨capability, _, response, hrequest,
        fun hall => hwall hall.1, hcache, Or.inl rfl, rfl⟩)
  · rename_i hnone
    exact Or.inr (Or.inr ⟨fun capability hsome => hnone capability hsome,
      rfl⟩)

end System

/-- A token that was accepted, with the second of its commit. -/
structure Acceptance where
  index : Nat
  capability : VerifiedCapability
  now : Nat

def acceptance : Action × Event → Option Acceptance
  | (.commit index, .accepted capability now) => some ⟨index, capability, now⟩
  | _ => none

def acceptances (history : List (Action × Event)) : List Acceptance :=
  history.filterMap acceptance

theorem acceptances_snoc (history : List (Action × Event))
    (entry : Action × Event) :
    acceptances (history ++ [entry]) =
      acceptances history ++ (acceptance entry).toList := by
  rw [acceptances, List.filterMap_append, List.filterMap_cons,
    List.filterMap_nil, acceptances]
  cases acceptance entry <;> rfl

/-- What every step but a commit leaves alone. -/
structure StepFrame (system : System) (action : Action) (event : Event)
    (next : System) : Prop where
  settings : SameSettings next.door system.door
  cache : next.door.replayCache = system.door.replayCache
  event : acceptance (action, event) = none
  wall : (∀ elapsed wall, action ≠ .tick elapsed wall) →
    next.wall = system.wall

theorem StepFrame.acceptances_eq {system next : System} {action : Action}
    {event : Event} (hframe : StepFrame system action event next)
    (history : List (Action × Event)) :
    acceptances (history ++ [(action, event)]) = acceptances history := by
  rw [acceptances_snoc, hframe.event, Option.toList_none, List.append_nil]

theorem System.step_frame (ed : Ed25519) (system : System) {action : Action}
    (hcommit : ∀ index, action ≠ .commit index) :
    StepFrame system action (system.step ed action).1
      (system.step ed action).2 := by
  cases action with
  | tick elapsed wall =>
      exact ⟨.refl _, rfl, rfl, fun hnot => absurd rfl (hnot elapsed wall)⟩
  | arrive request => exact ⟨.refl _, rfl, rfl, fun _ => rfl⟩
  | start index age =>
      rw [step, startRequest]
      split
      · split <;> exact ⟨.refl _, rfl, rfl, fun _ => rfl⟩
      · exact ⟨.refl _, rfl, rfl, fun _ => rfl⟩
  | exchange index spurious age =>
      rw [step, exchangeWord]
      split
      · split
        · exact ⟨.refl _, rfl, rfl, fun _ => rfl⟩
        · split
          · exact ⟨⟨rfl, rfl, rfl⟩, rfl, rfl, fun _ => rfl⟩
          · split <;> exact ⟨.refl _, rfl, rfl, fun _ => rfl⟩
      · exact ⟨.refl _, rfl, rfl, fun _ => rfl⟩
  | commit index => exact absurd rfl (hcommit index)
  | cancel index =>
      rw [step, cancelRequest]
      split <;> exact ⟨.refl _, rfl, rfl, fun _ => rfl⟩

/-- A tick that does not put the wall clock back. -/
def Action.Forward : Action → Prop
  | .tick _ wall => 0 ≤ wall
  | _ => True

theorem System.now_step_le (ed : Ed25519) (system : System) {action : Action}
    (hcommit : ∀ index, action ≠ .commit index)
    (hforward : action.Forward) :
    system.now ≤ (system.step ed action).2.now := by
  apply Nat.div_le_div_right
  cases action with
  | tick elapsed wall =>
      have hwall : 0 ≤ wall := hforward
      change system.wall.toNat ≤ (system.wall + wall).toNat
      omega
  | arrive request => exact Nat.le_refl _
  | start index age =>
      exact Nat.le_of_eq (congrArg Int.toNat
        ((step_frame ed system hcommit).wall nofun).symm)
  | exchange index spurious age =>
      exact Nat.le_of_eq (congrArg Int.toNat
        ((step_frame ed system hcommit).wall nofun).symm)
  | commit index => exact absurd rfl (hcommit index)
  | cancel index =>
      exact Nat.le_of_eq (congrArg Int.toNat
        ((step_frame ed system hcommit).wall nofun).symm)

/-- The tokens that requests of a run bring along. -/
def presented (actions : List Action) : List String :=
  actions.flatMap fun
    | .arrive request => request.capabilities.filterMap id
    | _ => []

theorem mem_presented {actions : List Action} {request : Request}
    {raw : String} (haction : .arrive request ∈ actions)
    (hraw : some raw ∈ request.capabilities) : raw ∈ presented actions := by
  rw [presented, List.mem_flatMap]
  exact ⟨_, haction, List.mem_filterMap.mpr ⟨_, hraw, rfl⟩⟩

section Served

variable (ed : Ed25519) (verifier : CapabilityVerifier) (tokens : List String)

/-- A capability that the verifier made of one of the tokens. -/
def Granted (capability : VerifiedCapability) : Prop :=
  ∃ token ∈ tokens, ∃ now,
    verifier.verifyForReplay ed token now = .ok capability

/-- What is known of the token a request works with. -/
def Traced : Progress → Prop
  | .arrived request => ∀ raw, some raw ∈ request.capabilities → raw ∈ tokens
  | .acquiring raw _ _ => raw ∈ tokens
  | .verified capability => Granted ed verifier tokens capability
  | .answered _ => True

end Served

/-- What holds after any run, whatever the clocks do. -/
structure Served (ed : Ed25519) (door : FrontDoor) (tokens : List String)
    (history : List (Action × Event)) (system : System) : Prop where
  settings : SameSettings system.door door
  consistent : system.door.replayCache.Consistent
  capacity : system.door.replayCache.capacity = door.replayCache.capacity
  requests : ∀ progress ∈ system.requests,
    Traced ed door.verifier tokens progress
  accepted : ∀ entry ∈ acceptances history,
    Granted ed door.verifier tokens entry.capability ∧
      OpenAt entry.capability entry.now

namespace Served

variable {ed : Ed25519} {door : FrontDoor} {tokens : List String}
  {history : List (Action × Event)} {system : System}

theorem start (hcache : door.replayCache.Consistent) (wall : Int) :
    Served ed door tokens [] (System.new door wall) where
  settings := .refl door
  consistent := hcache
  capacity := rfl
  requests := by simp [System.new]
  accepted := by simp [acceptances]

theorem traced (hserved : Served ed door tokens history system) {index : Nat}
    {progress : Progress} (hrequest : system.requests[index]? = some progress) :
    Traced ed door.verifier tokens progress :=
  hserved.requests progress (List.mem_of_getElem? hrequest)

theorem traced_set (hserved : Served ed door tokens history system)
    (index : Nat) {progress : Progress}
    (htraced : Traced ed door.verifier tokens progress) :
    ∀ other ∈ system.requests.set index progress,
      Traced ed door.verifier tokens other := by
  intro other hother
  rcases List.mem_or_eq_of_mem_set hother with hold | rfl
  · exact hserved.requests other hold
  · exact htraced

theorem traced_startRequest (hserved : Served ed door tokens history system)
    (index age : Nat) : ∀ progress ∈ (system.startRequest index age).requests,
      Traced ed door.verifier tokens progress := by
  rw [System.startRequest]
  split
  · rename_i request observed hrequest _
    split
    · rename_i raw hscreen
      have hraw : raw ∈ tokens :=
        hserved.traced hrequest raw (FrontDoor.screen_eq_ok hscreen)
      exact hserved.traced_set index hraw
    · exact hserved.traced_set index trivial
    · exact hserved.requests
  · exact hserved.requests

theorem traced_exchangeWord (hserved : Served ed door tokens history system)
    (index : Nat) (spurious : Bool) (age : Nat) :
    ∀ progress ∈ (system.exchangeWord ed index spurious age).2.requests,
      Traced ed door.verifier tokens progress := by
  rw [System.exchangeWord]
  split
  · rename_i raw startedAt observed hrequest
    have hraw : raw ∈ tokens := hserved.traced hrequest
    split
    · exact hserved.traced_set index trivial
    · split
      · apply hserved.traced_set index
        rcases hprepared : system.door.verifyAdmitted ed raw system.wall with
          capability | decision
        · have hverified := FrontDoor.verifyAdmitted_eq_verified_iff.mp
            hprepared
          rw [hserved.settings.verifier] at hverified
          exact ⟨raw, hraw, _, hverified⟩
        · exact trivial
      · split
        · exact hserved.traced_set index hraw
        · exact hserved.requests
  · exact hserved.requests

theorem traced_cancelRequest (hserved : Served ed door tokens history system)
    (index : Nat) : ∀ progress ∈ (system.cancelRequest index).requests,
      Traced ed door.verifier tokens progress := by
  rw [System.cancelRequest]
  split
  · exact hserved.traced_set index trivial
  · exact hserved.traced_set index trivial
  · exact hserved.requests

/-- Every request goes on with a token that some request brought. -/
theorem traced_step (hserved : Served ed door tokens history system)
    {action : Action} (hcommit : ∀ index, action ≠ .commit index)
    (harrive : ∀ request, action = .arrive request →
      ∀ raw, some raw ∈ request.capabilities → raw ∈ tokens) :
    ∀ progress ∈ (system.step ed action).2.requests,
      Traced ed door.verifier tokens progress := by
  cases action with
  | tick elapsed wall => exact hserved.requests
  | arrive request =>
      intro progress hprogress
      rcases List.mem_append.mp hprogress with hold | hnew
      · exact hserved.requests progress hold
      · rw [List.mem_singleton.mp hnew]
        exact harrive request rfl
  | start index age => exact hserved.traced_startRequest index age
  | exchange index spurious age =>
      exact hserved.traced_exchangeWord index spurious age
  | commit index => exact absurd rfl (hcommit index)
  | cancel index => exact hserved.traced_cancelRequest index

theorem commitRequest (hserved : Served ed door tokens history system)
    (index : Nat) :
    Served ed door tokens
      (history ++ [(.commit index, (system.commitRequest index).1)])
      (system.commitRequest index).2 := by
  rcases System.commitRequest_cases hserved.consistent index with
    ⟨capability, hrequest, _, hopen, htakes, hcommit⟩ |
      ⟨capability, cache, response, _, _, hcache, hpruned, hcommit⟩ |
        ⟨_, hcommit⟩
  · obtain ⟨_, hnext, _, hcapacity⟩ :=
      insert_of_takes hserved.consistent htakes
    rw [hcommit]
    refine ⟨(SameSettings.setCache system _).trans hserved.settings, hnext,
      hcapacity.trans hserved.capacity, hserved.traced_set index trivial, ?_⟩
    intro entry hentry
    rw [acceptances_snoc, List.mem_append] at hentry
    rcases hentry with hold | hnew
    · exact hserved.accepted entry hold
    · have heq : entry = ⟨index, capability, system.now⟩ :=
        List.mem_singleton.mp hnew
      rw [heq]
      exact ⟨hserved.traced hrequest, hopen⟩
  · rw [hcommit]
    refine ⟨(SameSettings.setCache system _).trans hserved.settings, hcache,
      (hpruned.capacity_eq hserved.consistent).trans hserved.capacity,
      hserved.traced_set index trivial, ?_⟩
    intro entry hentry
    rw [acceptances_snoc, List.mem_append] at hentry
    exact hentry.elim (hserved.accepted entry) (absurd · List.not_mem_nil)
  · rw [hcommit]
    refine ⟨hserved.settings, hserved.consistent, hserved.capacity,
      hserved.requests, fun entry hentry => ?_⟩
    rw [acceptances_snoc, List.mem_append] at hentry
    exact hentry.elim (hserved.accepted entry) (absurd · List.not_mem_nil)

theorem step (hserved : Served ed door tokens history system)
    {action : Action}
    (harrive : ∀ request, action = .arrive request →
      ∀ raw, some raw ∈ request.capabilities → raw ∈ tokens) :
    Served ed door tokens (history ++ [(action, (system.step ed action).1)])
      (system.step ed action).2 := by
  by_cases hcommit : ∃ index, action = .commit index
  · obtain ⟨index, rfl⟩ := hcommit
    exact hserved.commitRequest index
  · rw [not_exists] at hcommit
    have hframe := System.step_frame ed system hcommit
    refine ⟨hframe.settings.trans hserved.settings,
      hframe.cache ▸ hserved.consistent, hframe.cache ▸ hserved.capacity,
      hserved.traced_step hcommit harrive, ?_⟩
    rw [hframe.acceptances_eq history]
    exact hserved.accepted

/-- Whatever is scheduled, whatever the clocks show. -/
theorem run (hcache : door.replayCache.Consistent) (wall : Int)
    (actions : List Action) :
    Served ed door (presented actions)
      (trace (System.step ed) (System.new door wall) actions)
      (final (System.step ed) (System.new door wall) actions) := by
  apply history_invariant_of_mem actions (Served.start hcache wall)
  intro history system action haction hserved
  apply hserved.step
  rintro request rfl raw hraw
  exact mem_presented haction hraw

end Served

/-- How long an accepted token is remembered. -/
structure Remembered (history : List (Action × Event)) (system : System) :
    Prop where
  past : ∀ entry ∈ acceptances history, entry.now ≤ system.now
  kept : ∀ entry ∈ acceptances history,
    system.now < entry.capability.replayExpiresAt →
      (entry.capability.claims.nonce, entry.capability.replayExpiresAt) ∈
        system.door.replayCache.entries.entries
  separated : (acceptances history).Pairwise fun earlier later =>
    earlier.capability.claims.nonce = later.capability.claims.nonce →
      earlier.capability.replayExpiresAt ≤ later.now

namespace Remembered

variable {ed : Ed25519} {history : List (Action × Event)} {system : System}

theorem commitRequest (hremembered : Remembered history system)
    (hcache : system.door.replayCache.Consistent) (index : Nat) :
    Remembered (history ++ [(.commit index, (system.commitRequest index).1)])
      (system.commitRequest index).2 := by
  have hlive : ∀ entry ∈ acceptances history,
      system.now < entry.capability.replayExpiresAt →
        (entry.capability.claims.nonce, entry.capability.replayExpiresAt) ∈
          system.door.replayCache.live system.now :=
    fun entry hentry hfresh =>
      mem_live_iff.mpr ⟨hremembered.kept entry hentry hfresh, hfresh⟩
  rcases System.commitRequest_cases hcache index with
    ⟨capability, _, _, _, htakes, hcommit⟩ |
      ⟨capability, cache, response, _, _, _, hpruned, hcommit⟩ |
        ⟨_, hcommit⟩
  · obtain ⟨_, _, hentries, _⟩ := insert_of_takes hcache htakes
    have hsnoc : acceptances (history ++
        [(.commit index, .accepted capability system.now)]) =
          acceptances history ++ [⟨index, capability, system.now⟩] :=
      acceptances_snoc history _
    rw [hcommit]
    constructor
    · intro entry hentry
      rw [hsnoc, List.mem_append, List.mem_singleton] at hentry
      rcases hentry with hold | rfl
      · exact hremembered.past entry hold
      · exact Nat.le_refl _
    · intro entry hentry hfresh
      rw [hsnoc, List.mem_append, List.mem_singleton] at hentry
      change _ ∈ (system.door.replayCache.insert capability.claims.nonce
        capability.replayExpiresAt system.now).2.entries.entries
      rw [hentries, List.mem_append]
      rcases hentry with hold | rfl
      · exact Or.inl (hlive entry hold hfresh)
      · exact Or.inr (List.mem_singleton_self _)
    · rw [hsnoc, List.pairwise_append]
      refine ⟨hremembered.separated, List.pairwise_singleton _ _, ?_⟩
      intro earlier hearlier later hlater hnonce
      rw [List.mem_singleton] at hlater
      subst hlater
      -- an earlier token with this nonce that had not expired would be live
      by_contra hfresh
      have hmem := hlive earlier hearlier (Nat.lt_of_not_le hfresh)
      rw [hnonce] at hmem
      exact htakes.1 (List.mem_map.mpr ⟨_, hmem, rfl⟩)
  · rw [hcommit]
    have hsnoc : acceptances (history ++
        [(.commit index, .refused capability)]) = acceptances history :=
      (acceptances_snoc history _).trans (List.append_nil _)
    refine ⟨hsnoc ▸ hremembered.past, ?_, hsnoc ▸ hremembered.separated⟩
    intro entry hentry hfresh
    rw [hsnoc] at hentry
    have hmem := hlive entry hentry hfresh
    rw [← hpruned.live_eq hcache (Nat.le_refl _)] at hmem
    exact (mem_live_iff.mp hmem).1
  · rw [hcommit]
    have hsnoc : acceptances (history ++ [(.commit index, .quiet)]) =
        acceptances history :=
      (acceptances_snoc history _).trans (List.append_nil _)
    exact ⟨hsnoc ▸ hremembered.past, hsnoc ▸ hremembered.kept,
      hsnoc ▸ hremembered.separated⟩

theorem step (hremembered : Remembered history system)
    (hcache : system.door.replayCache.Consistent) {action : Action}
    (hforward : action.Forward) :
    Remembered (history ++ [(action, (system.step ed action).1)])
      (system.step ed action).2 := by
  by_cases hcommit : ∃ index, action = .commit index
  · obtain ⟨index, rfl⟩ := hcommit
    exact hremembered.commitRequest hcache index
  · rw [not_exists] at hcommit
    have hframe := System.step_frame ed system hcommit
    have hnow := System.now_step_le ed system hcommit hforward
    have hsnoc := hframe.acceptances_eq history
    refine ⟨?_, ?_, hsnoc ▸ hremembered.separated⟩
    · intro entry hentry
      rw [hsnoc] at hentry
      exact Nat.le_trans (hremembered.past entry hentry) hnow
    · intro entry hentry hfresh
      rw [hsnoc] at hentry
      rw [hframe.cache]
      exact hremembered.kept entry hentry (Nat.lt_of_le_of_lt hnow hfresh)

/-- Whatever is scheduled, while the wall clock is not put back. -/
theorem run {door : FrontDoor} (hcache : door.replayCache.Consistent)
    (wall : Int) {actions : List Action}
    (hforward : ∀ action ∈ actions, action.Forward) :
    Remembered (trace (System.step ed) (System.new door wall) actions)
      (final (System.step ed) (System.new door wall) actions) := by
  have hboth : Served ed door (presented actions)
      (trace (System.step ed) (System.new door wall) actions)
      (final (System.step ed) (System.new door wall) actions) ∧
      Remembered (trace (System.step ed) (System.new door wall) actions)
        (final (System.step ed) (System.new door wall) actions) := by
    refine history_invariant_of_mem (P := fun history system =>
      Served ed door (presented actions) history system ∧
        Remembered history system) actions ⟨Served.start hcache wall,
          by simp [acceptances], by simp [acceptances],
          by simp [acceptances]⟩ ?_
    rintro history system action haction ⟨hserved, hremembered⟩
    refine ⟨hserved.step ?_, hremembered.step hserved.consistent
      (hforward action haction)⟩
    rintro request rfl raw hraw
    exact mem_presented haction hraw
  exact hboth.2

end Remembered

theorem newCache_eq_ok {capacity : Nat} {cache : ReplayCache}
    (hnew : newCache capacity = .ok cache) :
    cache.capacity = capacity ∧ cache.Consistent ∧ capacity ≤ 1000000 ∧
      cache.entries.entries = [] := by
  rw [newCache] at hnew
  split at hnew
  · rename_i made hmade
    simp only [ReplayCache.new, bind_eq_ok, require_eq_ok_iff, exists_and_left,
      exists_const, pure_eq_ok]
      at hmade
    rw [Except.ok.injEq] at hnew
    subst hnew
    obtain ⟨⟨_, hle⟩, rfl⟩ := hmade
    exact ⟨rfl, List.Perm.refl _, hle, rfl⟩
  · simp at hnew

/-- Only what the issuer has signed verifies, among the tokens at hand. -/
def OnlyIssuerSigns (ed : Ed25519) (verifier : CapabilityVerifier)
    (issued : List CapabilityClaims) (tokens : List String) : Prop :=
  ∀ token ∈ tokens, ∀ payload signature,
    CapabilityVerifier.parseToken token = .ok (payload, signature) →
    ed.verify verifier.publicKey (signingInput payload) signature = true →
    ∃ claims ∈ issued, claims.encode = .ok payload

/-- Tokens that were all issued are no forgeries. -/
theorem onlyIssuerSigns_of_issued {ed : Ed25519} {issuer : CapabilityIssuer}
    {verifier : CapabilityVerifier} {issued : List CapabilityClaims}
    {tokens : List String}
    (htokens : ∀ token ∈ tokens, ∃ claims ∈ issued,
      issuer.issue ed claims = .ok token) :
    OnlyIssuerSigns ed verifier issued tokens := by
  intro token htoken payload signature hparse _
  obtain ⟨claims, hclaims, hissue⟩ := htokens token htoken
  obtain ⟨original, hencode, hcarried⟩ := parseToken_of_issue hissue
  rw [hcarried, Except.ok.injEq, Prod.mk.injEq] at hparse
  exact ⟨claims, hclaims, hparse.1 ▸ hencode⟩

/-- The seconds at which a token may be committed: its lifetime, widened by
the skew at both ends, inside the range of a 64-bit word. -/
def CommitInterval (verifier : CapabilityVerifier) (claims : CapabilityClaims)
    (now : Nat) : Prop :=
  claims.issuedAt.toNat - verifier.clockSkew.asSecs ≤ now ∧
    now < saturatingAdd claims.expiresAt.toNat verifier.clockSkew.asSecs

/-- A granted capability stands for claims the issuer has signed. -/
theorem Granted.issued {ed : Ed25519} {issuer : CapabilityIssuer}
    {verifier : CapabilityVerifier} {issued : List CapabilityClaims}
    {tokens : List String} {capability : VerifiedCapability}
    (hgranted : Granted ed verifier tokens capability)
    (hissued : ∀ claims ∈ issued, ∃ token,
      issuer.issue ed claims = .ok token)
    (honly : OnlyIssuerSigns ed verifier issued tokens) :
    capability.claims ∈ issued ∧
      capability = grant verifier capability.claims := by
  obtain ⟨token, htoken, now, hverify⟩ := hgranted
  obtain ⟨payload, signature, claims, hparse, hsigned, hdecode, _, rfl⟩ :=
    verifyForReplay_eq_ok_iff.mp hverify
  obtain ⟨original, horiginal, hencode⟩ :=
    honly token htoken payload signature hparse hsigned
  obtain ⟨_, hissue⟩ := hissued original horiginal
  have hsame := decode_of_encode (issue_wellFormed hissue) hencode
  rw [hdecode, Except.ok.injEq] at hsame
  subst hsame
  exact ⟨horiginal, rfl⟩

/-- Two acceptances of the same claims would have to be in one interval. -/
theorem Remembered.nodup_claims {history : List (Action × Event)}
    {system : System} (hremembered : Remembered history system)
    {verifier : CapabilityVerifier}
    (haccepted : ∀ entry ∈ acceptances history,
      entry.capability = grant verifier entry.capability.claims ∧
        OpenAt entry.capability entry.now) :
    ((acceptances history).map fun entry =>
      entry.capability.claims).Nodup := by
  rw [List.nodup_iff_pairwise_ne, List.pairwise_map]
  apply hremembered.separated.imp_of_mem
  intro earlier later hearlier hlater hseparated hclaims
  have hexpired := hseparated (congrArg CapabilityClaims.nonce hclaims)
  have hsame : earlier.capability = later.capability := by
    rw [(haccepted earlier hearlier).1, (haccepted later hlater).1, hclaims]
  rw [hsame] at hexpired
  exact Nat.not_le.mpr (haccepted later hlater).2.2 hexpired

/-- A refusal has one of three reasons, and it leaves the cache without
anything but expired entries. -/
theorem Served.refused {ed : Ed25519} {door : FrontDoor}
    {tokens : List String} {history : List (Action × Event)}
    {system next : System} (hserved : Served ed door tokens history system)
    {index : Nat} {capability : VerifiedCapability}
    (hrefused : system.step ed (.commit index) = (.refused capability, next)) :
    Granted ed door.verifier tokens capability ∧
      (¬ (0 ≤ system.wall ∧ OpenAt capability system.now) ∨
        capability.claims.nonce ∈
          (system.door.replayCache.live system.now).map Prod.fst ∨
        door.replayCache.capacity ≤
          (system.door.replayCache.live system.now).length) ∧
      PrunedAt system.now system.door.replayCache next.door.replayCache := by
  have hcommit : system.commitRequest index = (.refused capability, next) :=
    hrefused
  rcases System.commitRequest_cases hserved.consistent index with
    ⟨_, _, _, _, _, haccept⟩ |
      ⟨waiting, cache, response, hrequest, hnot, _, hpruned, hrefuse⟩ |
        ⟨_, hquiet⟩
  · rw [haccept, Prod.mk.injEq] at hcommit
    exact Event.noConfusion hcommit.1
  · rw [hrefuse, Prod.mk.injEq, Event.refused.injEq] at hcommit
    obtain ⟨rfl, rfl⟩ := hcommit
    refine ⟨hserved.traced hrequest, ?_, hpruned⟩
    by_contra hnone
    rw [not_or, not_or, not_not, Nat.not_le, ← hserved.capacity] at hnone
    obtain ⟨⟨hwall, hopen⟩, hunused, hroom⟩ := hnone
    exact hnot ⟨hwall, hopen, hunused, hopen.2, hroom⟩
  · rw [hquiet, Prod.mk.injEq] at hcommit
    exact Event.noConfusion hcommit.1

/-- Every run of the front door: each token is accepted at most once and only
inside its interval; a token is refused only outside it, for a live nonce or
for want of room, and is not spent by that; the heap and the map of the cache
agree whatever the clocks do; and the verifier reads an issued token's claims
back. -/
theorem capability_single_use {ed : Ed25519} {issuer : CapabilityIssuer}
    {issued : List CapabilityClaims} {door : FrontDoor}
    {actions : List Action} (wall : Int)
    (hkey : door.verifier.publicKey = issuer.publicKey ed)
    (hissued : ∀ claims ∈ issued, ∃ token,
      issuer.issue ed claims = .ok token)
    (honly : OnlyIssuerSigns ed door.verifier issued (presented actions))
    (hnew : newCache door.replayCapacity = .ok door.replayCache) :
    let history := trace (System.step ed) (System.new door wall) actions
    let system := final (System.step ed) (System.new door wall) actions
    ((∀ action ∈ actions, action.Forward) →
      ((acceptances history).map fun entry =>
        entry.capability.claims).Nodup ∧
      ((∀ left ∈ issued, ∀ right ∈ issued, left.nonce = right.nonce →
        left = right) →
        ((acceptances history).map fun entry =>
          entry.capability.claims.nonce).Nodup)) ∧
    (∀ entry ∈ acceptances history, entry.capability.claims ∈ issued ∧
      CommitInterval door.verifier entry.capability.claims entry.now) ∧
    (∀ index capability next,
      system.step ed (.commit index) = (.refused capability, next) →
        (¬ (0 ≤ system.wall ∧ CommitInterval door.verifier capability.claims
            system.now) ∨
          capability.claims.nonce ∈
            (system.door.replayCache.live system.now).map Prod.fst ∨
          door.replayCapacity ≤
            (system.door.replayCache.live system.now).length) ∧
        next.door.replayCache.entries.entries.Sublist
          system.door.replayCache.entries.entries ∧
        ∀ later, system.now ≤ later → next.door.replayCache.live later =
          system.door.replayCache.live later) ∧
    system.door.replayCache.expirations.items.Perm
      (system.door.replayCache.entries.entries.map Prod.swap) ∧
    (∀ claims token now, issuer.issue ed claims = .ok token →
      claims.audience = door.verifier.audience →
      claims.expiresAt.toNat - claims.issuedAt.toNat ≤
        door.verifier.maxLifetime.asSecs →
      claims.issuedAt.toNat ≤ now → now < claims.expiresAt.toNat →
      ∃ verified, door.verifier.verifyForReplay ed token now = .ok verified ∧
        verified.claims = claims) := by
  intro history system
  obtain ⟨hcapacity, hcache, -⟩ := newCache_eq_ok hnew
  have hserved : Served ed door (presented actions) history system :=
    Served.run hcache wall actions
  have haccepted : ∀ entry ∈ acceptances history,
      entry.capability.claims ∈ issued ∧
      entry.capability = grant door.verifier entry.capability.claims ∧
        OpenAt entry.capability entry.now := by
    intro entry hentry
    obtain ⟨hgranted, hopen⟩ := hserved.accepted entry hentry
    obtain ⟨hmem, hgrant⟩ := hgranted.issued hissued honly
    exact ⟨hmem, hgrant, hopen⟩
  refine ⟨fun hforward => ?_, ?_, ?_, hserved.consistent, ?_⟩
  · have hremembered : Remembered history system :=
      Remembered.run hcache wall hforward
    have hclaims := hremembered.nodup_claims fun entry hentry =>
      (haccepted entry hentry).2
    refine ⟨hclaims, fun hunique => ?_⟩
    rw [List.nodup_iff_pairwise_ne, List.pairwise_map] at hclaims ⊢
    apply hclaims.imp_of_mem
    intro earlier later hearlier hlater hne hnonce
    exact hne (hunique _ (haccepted earlier hearlier).1 _
      (haccepted later hlater).1 hnonce)
  · intro entry hentry
    obtain ⟨hmem, hgrant, hopen⟩ := haccepted entry hentry
    rw [hgrant] at hopen
    exact ⟨hmem, hopen⟩
  · intro index capability next hrefused
    obtain ⟨hgranted, hreason, hpruned⟩ := hserved.refused hrefused
    obtain ⟨_, hgrant⟩ := hgranted.issued hissued honly
    refine ⟨?_, hpruned.subset hserved.consistent, fun later hlater =>
      hpruned.live_eq hserved.consistent hlater⟩
    rw [hcapacity] at hreason
    rw [hgrant] at hreason
    exact hreason
  · intro claims token now hissue haudience hlifetime hstarted hunexpired
    have hbound := claims.issuedAt.toNat_lt
    have hadmits : Admits door.verifier claims now := by
      refine ⟨haudience, ?_, by omega, by omega, hlifetime⟩
      unfold saturatingAdd u64Max
      omega
    refine ⟨grant door.verifier claims, ?_, rfl⟩
    rw [verifyForReplay_of_issue hissue hkey]
    exact checkClaims_eq_ok_iff.mpr ⟨hadmits, rfl⟩

namespace CapabilityWitness

/-- A key of the number it is written as. -/
def key (number : Nat) : Key := .ofNat 32 number

def seed : Key := FixedBytes.replicate 32 7

def publicOfSeed : Key :=
  key 0xea4a6c63e29c520abef5507b132ec5f9954776aebebe7b92421eea691446d22c

def signature (left right : Nat) : FixedBytes 64 :=
  ⟨bigEndian 32 left ++ bigEndian 32 right, by simp⟩

/-- Ed25519 for one key and the signatures of some messages. -/
def ed25519 (signatures : List (Bytes × FixedBytes 64)) : Ed25519 :=
  let publicKey := fun secret => if secret = seed then publicOfSeed
    else if secret = publicOfSeed then seed else secret
  let sign := fun secret message => if secret = seed then
    (signatures.lookup message).getD (signature 0 0) else signature 0 0
  { publicKey
    sign
    verify := fun signer message raw =>
      raw == (sign (publicKey signer) message).val
    verify_sign := by
      intro secret message
      have hback : publicKey (publicKey secret) = secret := by
        have hne : publicOfSeed ≠ seed := by decide
        dsimp only [publicKey]
        grind
      rw [hback]
      exact beq_self_eq_true _ }

def nonce (byte : UInt8) : Nonce := FixedBytes.replicate 16 byte

def edgeClaims : CapabilityClaims := ⟨"edge-a", 100, 120, nonce 1⟩

/-- A later token with the nonce of the first. -/
def laterClaims : CapabilityClaims := ⟨"edge-a", 200, 220, nonce 1⟩

def otherClaims : CapabilityClaims := ⟨"other", 100, 120, nonce 3⟩

def longClaims : CapabilityClaims := ⟨"edge-a", 100, 220, nonce 5⟩

/-- The bytes that are signed for some claims. -/
def message (claims : CapabilityClaims) : Bytes :=
  match claims.encode with
  | .ok payload => signingInput payload
  | .error _ => []

def ed : Ed25519 := ed25519
  [(message edgeClaims, signature
      0x1d7848b388bd90e5ccca2439968b4423cd6ea8f3aefb7b7e4ce093384720160a
      0x9254559696808fff474c2b85b3696118ecb21fa2b44fa85a11d2a2b02a5c1d0c),
    (message laterClaims, signature
      0x25869e1e5ab66fb43740ab2044be6f0caafe439c483abf60b5419b6aaaa9c44f
      0xe4cd4f072a6ea475ec072f818ad725d714b95e8cf03d681fd64b9d9a9b2cb30b),
    (message otherClaims, signature
      0x0c9c491f6e3b7db246c5c7cf04cf4b0d85c8e756d478871274be575ff41f84dc
      0xd5b827b81183f655def115c6db6ce03a6b9fd728a99e53c0ce0f843eb8aa3609),
    (message longClaims, signature
      0x43d511a20ae407b1fed87283223f0dce37d21ad9c3ce514b76ce6a7bfce63e54
      0xfd2137acb543d21e87e06c5f9fdf494e677885988d0971c3f0e92b3cfb2e7009)]

def issuer : CapabilityIssuer := ⟨seed, 120 * 10 ^ 9⟩

def verifier : CapabilityVerifier :=
  ⟨publicOfSeed, "edge-a", 60 * 10 ^ 9, 5 * 10 ^ 9⟩

def tokenOf (ed : Ed25519) (issuer : CapabilityIssuer)
    (claims : CapabilityClaims) : String :=
  match issuer.issue ed claims with
  | .ok token => token
  | .error _ => ""

def door : FrontDoor :=
  ⟨verifier, 4096, defaultRelayPath, false, ⟨256, 0⟩, 2,
    ⟨2, KeyTable.empty, MinQueue.empty⟩⟩

def requestOf (token : String) : Request :=
  ⟨.post, defaultRelayPath, none, [some token]⟩

/-- Two requests with one token are both verified before either commits. -/
def twice : List Action :=
  [.arrive (requestOf (tokenOf ed issuer edgeClaims)),
    .arrive (requestOf (tokenOf ed issuer edgeClaims)),
    .start 0 0, .start 1 0, .exchange 1 false 0, .exchange 0 false 0,
    .exchange 0 false 0, .tick (2 * 10 ^ 9) (2 * 10 ^ 9), .commit 0, .commit 1]

theorem issue_tokenOf {ed : Ed25519} {issuer : CapabilityIssuer}
    {claims : CapabilityClaims}
    (hissue : (issuer.issue ed claims).toBool = true) :
    issuer.issue ed claims = .ok (tokenOf ed issuer claims) := by
  rw [tokenOf]
  split
  · assumption
  · rename_i error herror
    rw [herror] at hissue
    exact absurd hissue Bool.false_ne_true

theorem capability_single_use_twice :
    let history := trace (System.step ed) (System.new door (110 * 10 ^ 9))
      twice
    (acceptances history).length = 1 ∧
      ((acceptances history).map fun entry =>
        entry.capability.claims.nonce).Nodup := by
  have honly : OnlyIssuerSigns ed door.verifier [edgeClaims]
      (presented twice) := by
    apply onlyIssuerSigns_of_issued
    have hpresented : presented twice = [tokenOf ed issuer edgeClaims,
      tokenOf ed issuer edgeClaims] := rfl
    intro token htoken
    rw [hpresented] at htoken
    refine ⟨edgeClaims, List.mem_singleton_self _, ?_⟩
    rcases List.mem_pair.mp htoken with rfl | rfl <;> exact
      issue_tokenOf (by decide)
  have hissued : ∀ claims ∈ [edgeClaims], ∃ token,
      issuer.issue ed claims = .ok token := by
    intro claims hclaims
    rw [List.mem_singleton.mp hclaims]
    exact ⟨_, issue_tokenOf (by decide)⟩
  have hkey : door.verifier.publicKey = issuer.publicKey ed := by
    decide
  have hnew : newCache door.replayCapacity = .ok door.replayCache := rfl
  have hforward : ∀ action ∈ twice, action.Forward := by
    simp [twice, Action.Forward]
  have hrun := (capability_single_use (110 * 10 ^ 9) hkey hissued honly
    hnew).1 hforward
  refine ⟨by decide +kernel, hrun.2 ?_⟩
  intro left hleft right hright _
  rw [List.mem_singleton.mp hleft, List.mem_singleton.mp hright]

/-- One nonce in two tokens, one after the other. -/
def reissued : List Action :=
  [.arrive (requestOf (tokenOf ed issuer edgeClaims)), .start 0 0,
    .exchange 0 false 0, .commit 0, .tick (100 * 10 ^ 9) (100 * 10 ^ 9),
    .arrive (requestOf (tokenOf ed issuer laterClaims)), .start 1 0,
    .exchange 1 false 0, .commit 1]

/-- An issued token for another edge, or with a lifetime longer than the
verifier allows, is not verified inside its lifetime; and the issuer may put
one nonce into two tokens, which are then both accepted. -/
theorem issued_tokens_refused_or_accepted_twice :
    verifier.publicKey = issuer.publicKey ed ∧
    issuer.issue ed otherClaims = .ok (tokenOf ed issuer otherClaims) ∧
    verifier.verifyForReplay ed (tokenOf ed issuer otherClaims) 110 =
      .error .audienceMismatch ∧
    issuer.issue ed longClaims = .ok (tokenOf ed issuer longClaims) ∧
    verifier.verifyForReplay ed (tokenOf ed issuer longClaims) 110 =
      .error .lifetimeTooLong ∧
    issuer.issue ed edgeClaims = .ok (tokenOf ed issuer edgeClaims) ∧
    issuer.issue ed laterClaims = .ok (tokenOf ed issuer laterClaims) ∧
    (acceptances (trace (System.step ed) (System.new door (110 * 10 ^ 9))
      reissued)).map (fun entry => entry.capability.claims.nonce) =
        [nonce 1, nonce 1] := by
  have hkey : verifier.publicKey = issuer.publicKey ed := by decide
  refine ⟨hkey, issue_tokenOf (by decide), ?_, issue_tokenOf (by decide), ?_,
    issue_tokenOf (by decide), issue_tokenOf (by decide), ?_⟩
  · rw [verifyForReplay_of_issue (issue_tokenOf (by decide)) hkey]
    decide
  · rw [verifyForReplay_of_issue (issue_tokenOf (by decide)) hkey]
    decide
  · decide +kernel

end CapabilityWitness

end Shph.Edge
