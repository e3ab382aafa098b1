/-
The replay cache is large enough for everything the rate limiter lets in.  The
limiter admits a bounded number of requests in each window; an entry of the
cache that is still live belongs to a request admitted in one of the last
windows, as many as the retention has seconds.
-/
import Shph.CapabilityReplay
import Shph.Library.WindowCount

namespace Shph.Edge

open ByteCodec Checked StatefulRun ReplayCache Edge.System
/-- The front doors that can be built. -/
inductive Built (parseUri : UriParser) : FrontDoor → Prop
  | withPath {verifier : CapabilityVerifier} {maxTokenBytes : Nat}
      {relayPath : String} {door : FrontDoor} :
      FrontDoor.withPath parseUri verifier maxTokenBytes relayPath =
        .ok door → Built parseUri door
  | withReplayCapacity {door next : FrontDoor} {capacity : Nat} :
      Built parseUri door → door.withReplayCapacity capacity = .ok next →
        Built parseUri next
  | withMaxVerifications {door next : FrontDoor} {rate : Nat} :
      Built parseUri door →
        door.withMaxVerificationsPerSecond rate = .ok next →
          Built parseUri next
  | withUniformFallback {door : FrontDoor} (enabled : Bool) :
      Built parseUri door → Built parseUri (door.withUniformFallback enabled)

/-- The front doors whose capacity and rate one of the two checks accepted. -/
inductive LimitsAccepted (parseUri : UriParser) : FrontDoor → Prop
  | withReplayCapacity {door next : FrontDoor} {capacity : Nat} :
      Built parseUri door → door.withReplayCapacity capacity = .ok next →
        LimitsAccepted parseUri next
  | withMaxVerifications {door next : FrontDoor} {rate : Nat} :
      Built parseUri door →
        door.withMaxVerificationsPerSecond rate = .ok next →
          LimitsAccepted parseUri next
  | withUniformFallback {door : FrontDoor} (enabled : Bool) :
      LimitsAccepted parseUri door →
        LimitsAccepted parseUri (door.withUniformFallback enabled)

/-- A front door nobody has used yet. -/
structure Fresh (door : FrontDoor) : Prop where
  word : door.verificationRateLimiter.state = 0
  limit_pos : 0 < door.verificationRateLimiter.limit
  limit_le : door.verificationRateLimiter.limit ≤ maxVerificationRate
  cache : newCache door.replayCapacity = .ok door.replayCache
  entries : door.replayCache.entries.entries = []

theorem limiter_new_eq_some {limit : Nat} {limiter : VerificationRateLimiter}
    (hnew : VerificationRateLimiter.new limit = some limiter) :
    limiter = ⟨limit, 0⟩ ∧ 0 < limit ∧ limit ≤ maxVerificationRate := by
  rw [VerificationRateLimiter.new] at hnew
  split at hnew
  · rename_i hbounds
    exact ⟨(Option.some.inj hnew).symm, hbounds⟩
  · simp at hnew

theorem withReplayCapacity_eq_ok_iff {door next : FrontDoor}
    {capacity : Nat} :
    door.withReplayCapacity capacity = .ok next ↔
      saturatingMul door.verificationRateLimiter.limit
        door.verifier.replayRetentionSecs ≤ capacity ∧
      ∃ cache, newCache capacity = .ok cache ∧
        { door with replayCapacity := capacity, replayCache := cache } =
          next := by
  simp only [FrontDoor.withReplayCapacity, bind_eq_ok, require_eq_ok_iff,
    exists_and_left, exists_const, pure_eq_ok]

theorem withMaxVerifications_eq_ok_iff {door next : FrontDoor} {rate : Nat} :
    door.withMaxVerificationsPerSecond rate = .ok next ↔
      saturatingMul rate door.verifier.replayRetentionSecs ≤
        door.replayCapacity ∧
      ∃ limiter, VerificationRateLimiter.new rate = some limiter ∧
        { door with verificationRateLimiter := limiter } = next := by
  simp only [FrontDoor.withMaxVerificationsPerSecond, bind_eq_ok,
    require_eq_ok_iff, valueOr_eq_ok_iff, exists_and_left, exists_const,
    pure_eq_ok]

theorem Built.fresh {parseUri : UriParser} {door : FrontDoor}
    (hbuilt : Built parseUri door) : Fresh door := by
  induction hbuilt with
  | withPath hpath =>
      simp only [FrontDoor.withPath, bind_eq_ok, valueOr_eq_ok_iff, pure_eq_ok]
        at hpath
      obtain ⟨_, _, cache, hcache, limiter, hlimiter, rfl⟩ := hpath
      obtain ⟨rfl, hpos, hle⟩ := limiter_new_eq_some hlimiter
      exact ⟨rfl, hpos, hle, hcache, (newCache_eq_ok hcache).2.2.2⟩
  | withReplayCapacity _ hcapacity ih =>
      obtain ⟨_, cache, hcache, rfl⟩ :=
        withReplayCapacity_eq_ok_iff.mp hcapacity
      exact ⟨ih.word, ih.limit_pos, ih.limit_le, hcache,
        (newCache_eq_ok hcache).2.2.2⟩
  | withMaxVerifications _ hrate ih =>
      obtain ⟨_, limiter, hlimiter, rfl⟩ :=
        withMaxVerifications_eq_ok_iff.mp hrate
      obtain ⟨rfl, hpos, hle⟩ := limiter_new_eq_some hlimiter
      exact ⟨rfl, hpos, hle, ih.cache, ih.entries⟩
  | withUniformFallback enabled _ ih =>
      exact ⟨ih.word, ih.limit_pos, ih.limit_le, ih.cache, ih.entries⟩

theorem LimitsAccepted.built {parseUri : UriParser} {door : FrontDoor}
    (haccepted : LimitsAccepted parseUri door) : Built parseUri door := by
  induction haccepted with
  | withReplayCapacity hbuilt hcapacity =>
      exact .withReplayCapacity hbuilt hcapacity
  | withMaxVerifications hbuilt hrate =>
      exact .withMaxVerifications hbuilt hrate
  | withUniformFallback enabled _ ih => exact ih.withUniformFallback enabled

/-- The seconds for which a token can stay in the cache, and one more. -/
def retention (verifier : CapabilityVerifier) : Nat :=
  verifier.maxLifetime.asSecs + 2 * verifier.clockSkew.asSecs + 1

/-- Below the largest capacity nothing in the check saturates. -/
theorem mul_retention_le {limit capacity : Nat}
    {verifier : CapabilityVerifier} (hlimit : 0 < limit)
    (hcapacity : capacity ≤ 1000000)
    (hcheck : saturatingMul limit verifier.replayRetentionSecs ≤ capacity) :
    limit * retention verifier ≤ capacity := by
  unfold saturatingMul at hcheck
  have hprod : limit * verifier.replayRetentionSecs ≤ capacity := by
    unfold u64Max at hcheck
    omega
  have hsecs : verifier.replayRetentionSecs ≤ 1000000 :=
    Nat.le_trans (Nat.le_mul_of_pos_left _ hlimit)
      (Nat.le_trans hprod hcapacity)
  have hexact : verifier.replayRetentionSecs = retention verifier := by
    unfold CapabilityVerifier.replayRetentionSecs saturatingAdd saturatingMul
      u64Max at hsecs ⊢
    unfold retention
    omega
  rwa [hexact] at hprod

/-- What the two checks establish. -/
theorem LimitsAccepted.capacity_le {parseUri : UriParser} {door : FrontDoor}
    (haccepted : LimitsAccepted parseUri door) :
    door.verificationRateLimiter.limit * retention door.verifier ≤
      door.replayCapacity := by
  induction haccepted with
  | withReplayCapacity hbuilt hcapacity =>
      obtain ⟨hcheck, cache, hcache, rfl⟩ :=
        withReplayCapacity_eq_ok_iff.mp hcapacity
      exact mul_retention_le hbuilt.fresh.limit_pos
        (newCache_eq_ok hcache).2.2.1
        hcheck
  | withMaxVerifications hbuilt hrate =>
      obtain ⟨hcheck, limiter, hlimiter, rfl⟩ :=
        withMaxVerifications_eq_ok_iff.mp hrate
      obtain ⟨rfl, hpos, _⟩ := limiter_new_eq_some hlimiter
      exact mul_retention_le hpos (newCache_eq_ok hbuilt.fresh.cache).2.2.1
        hcheck
  | withUniformFallback enabled _ ih => exact ih

/-- A slot of the limiter: the request and the instant it started at. -/
def admission : Action × Event → Option (Nat × Nat)
  | (.exchange index _ _, .admitted startedAt) => some (index, startedAt)
  | _ => none

def admissions (history : List (Action × Event)) : List (Nat × Nat) :=
  history.filterMap admission

theorem admissions_snoc (history : List (Action × Event))
    (entry : Action × Event) :
    admissions (history ++ [entry]) =
      admissions history ++ (admission entry).toList := by
  rw [admissions, List.filterMap_append, List.filterMap_cons,
    List.filterMap_nil, admissions]
  cases admission entry <;> rfl

theorem admission_eq_none {index age : Nat} {spurious : Bool} {event : Event}
    (hevent : ∀ startedAt, event ≠ .admitted startedAt) :
    admission (.exchange index spurious age, event) = none := by
  cases event with
  | admitted startedAt => exact absurd rfl (hevent startedAt)
  | quiet => rfl
  | turnedAway => rfl
  | accepted capability now => rfl
  | refused capability => rfl

/-- The windows in which requests were admitted. -/
def windows (history : List (Action × Event)) : List Nat :=
  (admissions history).map fun entry => windowOf entry.2

/-- The words the limiter stores, while the window fits beside the count. -/
theorem nextWord_tracks {limit window word next : Nat} {stamps : List Nat}
    (htracks : WindowCount.Tracks rateCountBits limit word stamps)
    (hpos : 0 < limit) (hmax : limit ≤ maxVerificationRate)
    (hwindow : window < 2 ^ 44)
    (hnext : VerificationRateLimiter.nextWord limit window word =
      some next) :
    WindowCount.Tracks rateCountBits limit next (stamps ++ [window]) := by
  have hmask : word &&& rateCountMask = word % 2 ^ rateCountBits :=
    Nat.and_two_pow_sub_one_eq_mod _ _
  rw [VerificationRateLimiter.nextWord, Nat.shiftRight_eq_div_pow,
    hmask] at hnext
  split at hnext
  · rename_i hlater
    rw [Option.some.injEq] at hnext
    have hshift : (window <<< rateCountBits) % 2 ^ 64 =
        window <<< rateCountBits := by
      apply Nat.mod_eq_of_lt
      rw [Nat.shiftLeft_eq, rateCountBits]
      omega
    have hword : (window <<< rateCountBits) % 2 ^ 64 ||| 1 =
        window * 2 ^ rateCountBits + 1 := by
      rw [hshift, ← Nat.shiftLeft_add_eq_or_of_lt (by decide),
        Nat.shiftLeft_eq]
    rw [← hnext, hword]
    exact htracks.advance hlater (by decide) hpos
  · split at hnext
    · simp at hnext
    · rename_i hnot hopen
      rw [Option.some.injEq] at hnext
      have hsame : window = word / 2 ^ rateCountBits := by
        omega
      rw [← hnext, hsame]
      apply htracks.again (by omega)
      have hfits : maxVerificationRate < 2 ^ rateCountBits := by decide
      omega

/-- A step that moves at most one request on, without admitting it. -/
inductive PlainStep (system : System) : System → Prop
  | same : PlainStep system system
  | move {index : Nat} {old progress : Progress}
      (hold : system.requests[index]? = some old)
      (hopen : ∀ decision, old ≠ .answered decision)
      (hplain : ∀ capability, progress ≠ .verified capability)
      (hprepared : ∀ capability, old = .verified capability →
        ∃ decision, progress = .answered decision) :
      PlainStep system (system.setRequest index progress)

namespace System

variable {system : System}

theorem startRequest_plain (index age : Nat) :
    PlainStep system (system.startRequest index age) := by
  rw [startRequest]
  split
  · rename_i request observed hrequest _
    split
    · exact .move hrequest (by simp) (by simp) (by simp)
    · exact .move hrequest (by simp) (by simp) (by simp)
    · exact .same
  · exact .same

theorem cancelRequest_plain (index : Nat) :
    PlainStep system (system.cancelRequest index) := by
  rw [cancelRequest]
  split
  · rename_i capability hrequest
    exact .move hrequest (by simp) (by simp) fun _ _ => ⟨_, rfl⟩
  · rename_i request hrequest
    exact .move hrequest (by simp) (by simp) (by simp)
  · exact .same

/-- A turn of the limiter's loop takes a slot or does nothing of note. -/
theorem exchangeWord_cases (ed : Ed25519) (system : System) (index : Nat)
    (spurious : Bool) (age : Nat) :
    (∃ raw startedAt observed next,
      system.requests[index]? = some (.acquiring raw startedAt observed) ∧
      VerificationRateLimiter.nextWord
        system.door.verificationRateLimiter.limit (windowOf startedAt)
        system.door.verificationRateLimiter.state = some next ∧
      system.exchangeWord ed index spurious age = (.admitted startedAt,
        (system.setWord next).setRequest index (progressOf
          (system.door.verifyAdmitted ed raw system.wall)))) ∨
    ((∀ startedAt, (system.exchangeWord ed index spurious age).1 ≠
      .admitted startedAt) ∧
      PlainStep system (system.exchangeWord ed index spurious age).2) := by
  rw [exchangeWord]
  split
  · rename_i raw startedAt observed hrequest
    split
    · exact Or.inr ⟨by simp,
        .move hrequest (by simp) (by rintro _ ⟨⟩) (by simp)⟩
    · rename_i next hnext
      split
      · rename_i hcurrent
        rw [hcurrent.1] at hnext
        exact Or.inl ⟨raw, startedAt, observed, next, hrequest, hnext, rfl⟩
      · split
        · exact Or.inr ⟨by simp, .move hrequest (by simp) (by simp) (by simp)⟩
        · exact Or.inr ⟨by simp, .same⟩
  · exact Or.inr ⟨by simp, .same⟩

end System

/-- The wall clock in seconds at an instant of the monotonic clock, when both
advance together. -/
def secondAt (offset : Int) (instant : Nat) : Nat :=
  (offset + instant).toNat / 10 ^ 9

/-- The slot a capability was verified on. -/
def Ticket (verifier : CapabilityVerifier) (offset : Int)
    (slots : List (Nat × Nat)) (index : Nat)
    (capability : VerifiedCapability) : Prop :=
  ∃ startedAt, (index, startedAt) ∈ slots ∧
    Admits verifier capability.claims (secondAt offset startedAt) ∧
      capability = grant verifier capability.claims

/-- Every capability at hand or in the cache has a slot of its own. -/
structure Tickets (verifier : CapabilityVerifier) (offset : Int)
    (slots : List (Nat × Nat)) (spent : List Acceptance) (system : System) :
    Prop where
  verifier_eq : system.door.verifier = verifier
  clocks : system.wall = offset + system.elapsed
  past : ∀ slot ∈ slots, slot.2 ≤ system.elapsed
  distinct : (slots.map Prod.fst).Nodup
  prepared : ∀ slot ∈ slots,
    (∃ capability, system.requests[slot.1]? = some (.verified capability)) ∨
      ∃ decision, system.requests[slot.1]? = some (.answered decision)
  verified : ∀ index capability,
    system.requests[index]? = some (.verified capability) →
      Ticket verifier offset slots index capability
  accepted : ∀ entry ∈ spent,
    Ticket verifier offset slots entry.index entry.capability
  answered : ∀ entry ∈ spent, ∃ decision,
    system.requests[entry.index]? = some (.answered decision)
  once : (spent.map Acceptance.index).Nodup
  entries : ∀ pair ∈ system.door.replayCache.entries.entries,
    ∃ entry ∈ spent, pair =
      (entry.capability.claims.nonce, entry.capability.replayExpiresAt)

theorem Ticket.mono {verifier : CapabilityVerifier} {offset : Int}
    {slots more : List (Nat × Nat)} {index : Nat}
    {capability : VerifiedCapability}
    (hticket : Ticket verifier offset slots index capability) :
    Ticket verifier offset (slots ++ more) index capability := by
  obtain ⟨startedAt, hslot, hrest⟩ := hticket
  exact ⟨startedAt, List.mem_append_left _ hslot, hrest⟩

theorem getElem?_append_of_some {requests more : List Progress} {index : Nat}
    {progress : Progress} (hsome : requests[index]? = some progress) :
    (requests ++ more)[index]? = some progress := by
  rw [List.getElem?_append_left (List.getElem?_eq_some_iff.mp hsome).1]
  exact hsome

theorem getElem?_setRequest {system : System} {index : Nat} {old : Progress}
    (hold : system.requests[index]? = some old) (progress : Progress)
    (other : Nat) :
    (system.setRequest index progress).requests[other]? =
      if index = other then some progress else system.requests[other]? := by
  have hlength : index < system.requests.length :=
    (List.getElem?_eq_some_iff.mp hold).1
  rw [setRequest, List.getElem?_set, if_pos hlength]

namespace Tickets

variable {ed : Ed25519} {verifier : CapabilityVerifier} {offset : Int}
  {slots : List (Nat × Nat)} {spent : List Acceptance} {system : System}

theorem start {door : FrontDoor}
    (hempty : door.replayCache.entries.entries = []) (wall : Int) :
    Tickets door.verifier wall [] [] (System.new door wall) := by
  constructor <;> simp [System.new, hempty]

theorem tick (htickets : Tickets verifier offset slots spent system)
    (elapsed : Nat) :
    Tickets verifier offset slots spent { system with
      elapsed := system.elapsed + elapsed, wall := system.wall + elapsed } :=
  { htickets with
    clocks := by
      dsimp only
      rw [htickets.clocks, Nat.cast_add, Int.add_assoc]
    past := fun slot hslot =>
      Nat.le_add_right_of_le (htickets.past slot hslot) }

theorem arrive (htickets : Tickets verifier offset slots spent system)
    (request : Request) :
    Tickets verifier offset slots spent { system with
      requests := system.requests ++ [.arrived request] } :=
  { htickets with
    prepared := by
      intro slot hslot
      rcases htickets.prepared slot hslot with ⟨capability, hsome⟩ |
        ⟨decision, hsome⟩
      · exact Or.inl ⟨capability, getElem?_append_of_some hsome⟩
      · exact Or.inr ⟨decision, getElem?_append_of_some hsome⟩
    verified := by
      intro index capability hsome
      dsimp only at hsome
      rw [List.getElem?_append] at hsome
      split at hsome
      · exact htickets.verified index capability hsome
      · rw [List.getElem?_singleton] at hsome
        split at hsome <;> simp at hsome
    answered := by
      intro entry hentry
      obtain ⟨decision, hsome⟩ := htickets.answered entry hentry
      exact ⟨decision, getElem?_append_of_some hsome⟩ }

theorem plain (htickets : Tickets verifier offset slots spent system)
    {next : System} (hstep : PlainStep system next) :
    Tickets verifier offset slots spent next := by
  cases hstep with
  | same => exact htickets
  | move hold hopen hplain hmoved =>
      rename_i index old progress
      have hget := getElem?_setRequest hold progress
      refine ⟨htickets.verifier_eq, htickets.clocks, htickets.past,
        htickets.distinct, ?_, ?_, htickets.accepted, ?_, htickets.once,
        htickets.entries⟩
      · intro slot hslot
        rw [hget]
        by_cases heq : index = slot.1
        · rw [if_pos heq]
          rcases htickets.prepared slot hslot with ⟨capability, hsome⟩ |
            ⟨decision, hsome⟩
          · rw [← heq, hold, Option.some.injEq] at hsome
            obtain ⟨decision, rfl⟩ := hmoved capability hsome
            exact Or.inr ⟨decision, rfl⟩
          · rw [← heq, hold, Option.some.injEq] at hsome
            exact absurd hsome (hopen decision)
        · rw [if_neg heq]
          exact htickets.prepared slot hslot
      · intro other capability hother
        rw [hget] at hother
        split at hother
        · rw [Option.some.injEq] at hother
          exact absurd hother (hplain capability)
        · exact htickets.verified other capability hother
      · intro entry hentry
        obtain ⟨decision, hsome⟩ := htickets.answered entry hentry
        refine ⟨decision, ?_⟩
        rw [hget, if_neg, hsome]
        rintro rfl
        rw [hold, Option.some.injEq] at hsome
        exact hopen decision hsome

/-- A request that takes a slot at the instant it started is verified against
the wall clock of that instant. -/
theorem admitted (htickets : Tickets verifier offset slots spent system)
    {index startedAt observed next : Nat} {raw : String}
    (hrequest : system.requests[index]? =
      some (.acquiring raw startedAt observed))
    (hinstant : startedAt = system.elapsed) :
    Tickets verifier offset (slots ++ [(index, startedAt)]) spent
      ((system.setWord next).setRequest index (progressOf
        (system.door.verifyAdmitted ed raw system.wall))) := by
  have hword : (system.setWord next).requests[index]? =
      some (.acquiring raw startedAt observed) := hrequest
  have hget := getElem?_setRequest hword
    (progressOf (system.door.verifyAdmitted ed raw system.wall))
  have hnew : index ∉ slots.map Prod.fst := by
    intro hmem
    obtain ⟨slot, hslot, rfl⟩ := List.mem_map.mp hmem
    rcases htickets.prepared slot hslot with ⟨_, hsome⟩ | ⟨_, hsome⟩
    · rw [hrequest] at hsome
      simp at hsome
    · rw [hrequest] at hsome
      simp at hsome
  refine ⟨htickets.verifier_eq, htickets.clocks, ?_, ?_, ?_, ?_,
    fun entry hentry => (htickets.accepted entry hentry).mono, ?_,
    htickets.once, htickets.entries⟩
  · intro slot hslot
    rw [List.mem_append, List.mem_singleton] at hslot
    rcases hslot with hold | rfl
    · exact htickets.past slot hold
    · exact Nat.le_of_eq hinstant
  · rw [List.map_append, List.nodup_append]
    refine ⟨htickets.distinct, List.nodup_singleton _, ?_⟩
    intro old hold last hlast heq
    rw [List.map_singleton, List.mem_singleton] at hlast
    rw [heq, hlast] at hold
    exact hnew hold
  · intro slot hslot
    rw [hget]
    split
    · rcases system.door.verifyAdmitted ed raw system.wall with
        capability | decision
      · exact Or.inl ⟨capability, rfl⟩
      · exact Or.inr ⟨decision, rfl⟩
    · rename_i hne
      rw [List.mem_append, List.mem_singleton] at hslot
      rcases hslot with hold | rfl
      · exact htickets.prepared slot hold
      · exact absurd rfl hne
  · intro other capability hother
    rw [hget] at hother
    split at hother
    · rename_i heq
      subst heq
      rcases hprepared : system.door.verifyAdmitted ed raw system.wall with
        verified | decision
      · rw [hprepared, progressOf, Option.some.injEq,
          Progress.verified.injEq] at hother
        subst hother
        have hverify := FrontDoor.verifyAdmitted_eq_verified_iff.mp hprepared
        obtain ⟨_, _, claims, _, _, _, hadmits, rfl⟩ :=
          verifyForReplay_eq_ok_iff.mp hverify
        rw [htickets.verifier_eq, htickets.clocks, ← hinstant] at hadmits
        rw [htickets.verifier_eq]
        exact ⟨startedAt, List.mem_append_right _
          (List.mem_singleton_self _), hadmits, rfl⟩
      · rw [hprepared, progressOf] at hother
        simp at hother
    · exact (htickets.verified other capability hother).mono
  · intro entry hentry
    obtain ⟨decision, hsome⟩ := htickets.answered entry hentry
    refine ⟨decision, ?_⟩
    rw [hget, if_neg]
    · exact hsome
    · rintro rfl
      rw [hrequest] at hsome
      simp at hsome

/-- The request that commits has not committed before. -/
theorem not_mem_once (htickets : Tickets verifier offset slots spent system)
    {index : Nat} {capability : VerifiedCapability}
    (hrequest : system.requests[index]? = some (.verified capability)) :
    index ∉ spent.map Acceptance.index := by
  intro hmem
  obtain ⟨entry, hentry, rfl⟩ := List.mem_map.mp hmem
  obtain ⟨decision, hsome⟩ := htickets.answered entry hentry
  rw [hrequest] at hsome
  simp at hsome

/-- A commit answers its request; what it leaves in the cache was there or is
its own pair. -/
theorem answer (htickets : Tickets verifier offset slots spent system)
    {index : Nat} {capability : VerifiedCapability} {cache : ReplayCache}
    {decision : FrontDoorDecision} {more : List Acceptance}
    (hrequest : system.requests[index]? = some (.verified capability))
    (hmore : more = [] ∨ ∃ now, more = [⟨index, capability, now⟩])
    (hentries : ∀ pair ∈ cache.entries.entries,
      ∃ entry ∈ spent ++ more, pair =
        (entry.capability.claims.nonce, entry.capability.replayExpiresAt)) :
    Tickets verifier offset slots (spent ++ more)
      ((system.setCache cache).setRequest index (.answered decision)) := by
  have hcache : (system.setCache cache).requests[index]? =
      some (.verified capability) := hrequest
  have hget := getElem?_setRequest hcache (.answered decision)
  have hown : ∀ entry ∈ more, entry.index = index ∧
      entry.capability = capability := by
    rintro entry hentry
    rcases hmore with rfl | ⟨now, rfl⟩
    · simp at hentry
    · rw [List.mem_singleton.mp hentry]
      exact ⟨rfl, rfl⟩
  refine ⟨htickets.verifier_eq, htickets.clocks, htickets.past,
    htickets.distinct, ?_, ?_, ?_, ?_, ?_, hentries⟩
  · intro slot hslot
    rw [hget]
    split
    · exact Or.inr ⟨decision, rfl⟩
    · exact htickets.prepared slot hslot
  · intro other waiting hother
    rw [hget] at hother
    split at hother
    · simp at hother
    · exact htickets.verified other waiting hother
  · intro entry hentry
    rcases List.mem_append.mp hentry with hold | hnew
    · exact htickets.accepted entry hold
    · obtain ⟨hindex, hcapability⟩ := hown entry hnew
      rw [hindex, hcapability]
      exact htickets.verified index capability hrequest
  · intro entry hentry
    rw [hget]
    split
    · exact ⟨decision, rfl⟩
    · rename_i hne
      rcases List.mem_append.mp hentry with hold | hnew
      · exact htickets.answered entry hold
      · exact absurd (hown entry hnew).1.symm hne
  · rcases hmore with rfl | ⟨now, rfl⟩
    · rw [List.append_nil]
      exact htickets.once
    · rw [List.map_append, List.nodup_append]
      refine ⟨htickets.once, List.nodup_singleton _, ?_⟩
      intro old hold last hlast heq
      rw [List.map_singleton, List.mem_singleton] at hlast
      rw [heq, hlast] at hold
      exact htickets.not_mem_once hrequest hold

theorem commit (htickets : Tickets verifier offset slots spent system)
    (hcache : system.door.replayCache.Consistent) (index : Nat) :
    Tickets verifier offset slots (spent ++ (acceptance
      (.commit index, (system.commitRequest index).1)).toList)
      (system.commitRequest index).2 := by
  rcases commitRequest_cases hcache index with
    ⟨capability, hrequest, _, _, htakes, hcommit⟩ |
      ⟨capability, cache, response, hrequest, _, _, hpruned, hcommit⟩ |
        ⟨_, hcommit⟩
  · obtain ⟨_, _, hinserted, _⟩ := insert_of_takes hcache htakes
    rw [hcommit]
    apply htickets.answer hrequest (Or.inr ⟨system.now, rfl⟩)
    intro pair hpair
    rw [hinserted, List.mem_append] at hpair
    rcases hpair with hlive | hnew
    · obtain ⟨entry, hentry, heq⟩ :=
        htickets.entries pair (mem_live_iff.mp hlive).1
      exact ⟨entry, List.mem_append_left _ hentry, heq⟩
    · exact ⟨⟨index, capability, system.now⟩,
        List.mem_append_right _ (List.mem_singleton_self _),
        List.mem_singleton.mp hnew⟩
  · rw [hcommit]
    apply htickets.answer hrequest (Or.inl rfl)
    intro pair hpair
    obtain ⟨entry, hentry, heq⟩ :=
      htickets.entries pair ((hpruned.subset hcache).subset hpair)
    exact ⟨entry, List.mem_append_left _ hentry, heq⟩
  · rw [hcommit]
    change Tickets verifier offset slots (spent ++ []) system
    rw [List.append_nil]
    exact htickets

end Tickets

/-- A tick by which both clocks advance together. -/
def Action.Together : Action → Prop
  | .tick elapsed wall => wall = elapsed
  | _ => True

/-- The slot, if the event is one, was taken at the instant the request had
read from the monotonic clock. -/
def SlotAt (elapsed : Nat) : Event → Prop
  | .admitted startedAt => startedAt = elapsed
  | _ => True

instance (elapsed : Nat) : DecidablePred (SlotAt elapsed)
  | .admitted startedAt => inferInstanceAs (Decidable (startedAt = elapsed))
  | .quiet => inferInstanceAs (Decidable True)
  | .turnedAway => inferInstanceAs (Decidable True)
  | .accepted _ _ => inferInstanceAs (Decidable True)
  | .refused _ => inferInstanceAs (Decidable True)

/-- Every request takes its slot, and reads the wall clock, at the instant at
which it read the monotonic clock. -/
def OneInstant (ed : Ed25519) : System → List Action → Prop
  | _, [] => True
  | system, action :: rest =>
      SlotAt system.elapsed (system.step ed action).1 ∧
        OneInstant ed (system.step ed action).2 rest

instance decidableOneInstant (ed : Ed25519) :
    (system : System) → (actions : List Action) →
      Decidable (OneInstant ed system actions)
  | _, [] => inferInstanceAs (Decidable True)
  | system, action :: rest =>
      have := decidableOneInstant ed (system.step ed action).2 rest
      inferInstanceAs (Decidable (SlotAt system.elapsed
        (system.step ed action).1 ∧ OneInstant ed _ rest))

theorem oneInstant_snoc {ed : Ed25519} {start : System}
    {actions : List Action} {last : Action} :
    OneInstant ed start (actions ++ [last]) ↔
      OneInstant ed start actions ∧
        SlotAt (final (System.step ed) start actions).elapsed
          ((final (System.step ed) start actions).step ed last).1 := by
  induction actions generalizing start with
  | nil => simp [OneInstant]
  | cons action rest ih =>
      rw [List.cons_append, OneInstant, ih, OneInstant, final_cons, and_assoc]

theorem PlainStep.frame {system next : System}
    (hstep : PlainStep system next) :
    next.door = system.door ∧ next.elapsed = system.elapsed := by
  cases hstep with
  | same => exact ⟨rfl, rfl⟩
  | move => exact ⟨rfl, rfl⟩

theorem commitRequest_frame (system : System) (index : Nat) :
    (system.commitRequest index).2.door.verificationRateLimiter =
      system.door.verificationRateLimiter ∧
      (system.commitRequest index).2.elapsed = system.elapsed := by
  rw [commitRequest]
  split
  · split <;> exact ⟨rfl, rfl⟩
  · exact ⟨rfl, rfl⟩

theorem Tickets.step {ed : Ed25519} {verifier : CapabilityVerifier}
    {offset : Int} {slots : List (Nat × Nat)} {spent : List Acceptance}
    {system : System}
    (htickets : Tickets verifier offset slots spent system)
    (hcache : system.door.replayCache.Consistent) {action : Action}
    (htogether : action.Together)
    (hinstant : SlotAt system.elapsed (system.step ed action).1) :
    Tickets verifier offset
      (slots ++ (admission (action, (system.step ed action).1)).toList)
      (spent ++ (acceptance (action, (system.step ed action).1)).toList)
      (system.step ed action).2 := by
  have hplain : ∀ {next : System}, PlainStep system next →
      Tickets verifier offset (slots ++ []) (spent ++ []) next := by
    intro next hstep
    rw [List.append_nil, List.append_nil]
    exact htickets.plain hstep
  cases action with
  | tick elapsed wall =>
      obtain rfl : wall = elapsed := htogether
      change Tickets verifier offset (slots ++ []) (spent ++ []) _
      rw [List.append_nil, List.append_nil]
      exact htickets.tick elapsed
  | arrive request =>
      change Tickets verifier offset (slots ++ []) (spent ++ []) _
      rw [List.append_nil, List.append_nil]
      exact htickets.arrive request
  | start index age => exact hplain (startRequest_plain index age)
  | exchange index spurious age =>
      rcases exchangeWord_cases ed system index spurious age with
        ⟨raw, startedAt, observed, next, hrequest, _, hstep⟩ |
          ⟨hquiet, hstep⟩
      · rw [System.step, hstep] at hinstant ⊢
        change Tickets verifier offset (slots ++ [(index, startedAt)])
          (spent ++ []) _
        rw [List.append_nil]
        exact htickets.admitted hrequest hinstant
      · have hnone : admission (.exchange index spurious age,
            (system.step ed (.exchange index spurious age)).1) = none :=
          admission_eq_none hquiet
        rw [hnone]
        exact hplain hstep
  | commit index =>
      change Tickets verifier offset (slots ++ []) _ _
      rw [List.append_nil]
      exact htickets.commit hcache index
  | cancel index => exact hplain (cancelRequest_plain index)

/-- The limiter's word after a step counts the slots taken so far. -/
theorem tracks_step {ed : Ed25519} {system : System} {stamps : List Nat}
    (htracks : WindowCount.Tracks rateCountBits
      system.door.verificationRateLimiter.limit
      system.door.verificationRateLimiter.state stamps)
    (hpos : 0 < system.door.verificationRateLimiter.limit)
    (hmax : system.door.verificationRateLimiter.limit ≤ maxVerificationRate)
    {action : Action}
    (hwindow : ∀ startedAt, (system.step ed action).1 =
      .admitted startedAt → windowOf startedAt < 2 ^ 44) :
    WindowCount.Tracks rateCountBits
      (system.step ed action).2.door.verificationRateLimiter.limit
      (system.step ed action).2.door.verificationRateLimiter.state
      (stamps ++ (admission (action, (system.step ed action).1)).toList.map
        fun slot => windowOf slot.2) := by
  have hplain : ∀ {next : System}, PlainStep system next →
      WindowCount.Tracks rateCountBits next.door.verificationRateLimiter.limit
        next.door.verificationRateLimiter.state (stamps ++ []) := by
    intro next hstep
    rw [hstep.frame.1, List.append_nil]
    exact htracks
  cases action with
  | tick elapsed wall =>
      change WindowCount.Tracks _ _ _ (stamps ++ [])
      rw [List.append_nil]
      exact htracks
  | arrive request =>
      change WindowCount.Tracks _ _ _ (stamps ++ [])
      rw [List.append_nil]
      exact htracks
  | start index age => exact hplain (startRequest_plain index age)
  | exchange index spurious age =>
      rcases exchangeWord_cases ed system index spurious age with
        ⟨raw, startedAt, observed, next, _, hnext, hstep⟩ | ⟨hquiet, hstep⟩
      · rw [System.step, hstep] at hwindow ⊢
        exact nextWord_tracks htracks hpos hmax (hwindow startedAt rfl) hnext
      · have hnone : admission (.exchange index spurious age,
            (system.step ed (.exchange index spurious age)).1) = none :=
          admission_eq_none hquiet
        rw [hnone]
        exact hplain hstep
  | commit index =>
      change WindowCount.Tracks _ _ _ (stamps ++ [])
      rw [List.append_nil]
      change WindowCount.Tracks rateCountBits
        (system.commitRequest index).2.door.verificationRateLimiter.limit
        (system.commitRequest index).2.door.verificationRateLimiter.state _
      rw [(commitRequest_frame system index).1]
      exact htracks
  | cancel index => exact hplain (cancelRequest_plain index)

theorem elapsed_le_step (ed : Ed25519) (system : System) (action : Action) :
    system.elapsed ≤ (system.step ed action).2.elapsed := by
  cases action with
  | tick elapsed wall => exact Nat.le_add_right _ _
  | arrive request => exact Nat.le_refl _
  | start index age =>
      exact Nat.le_of_eq (startRequest_plain index age).frame.2.symm
  | exchange index spurious age =>
      rcases exchangeWord_cases ed system index spurious age with
        ⟨_, _, _, _, _, _, hstep⟩ | ⟨_, hstep⟩
      · rw [System.step, hstep]
        exact Nat.le_refl _
      · exact Nat.le_of_eq hstep.frame.2.symm
  | commit index =>
      exact Nat.le_of_eq (commitRequest_frame system index).2.symm
  | cancel index =>
      exact Nat.le_of_eq (cancelRequest_plain index).frame.2.symm

theorem Fresh.served {door : FrontDoor} (hfresh : Fresh door) (ed : Ed25519)
    (wall : Int) (actions : List Action) :
    Served ed door (presented actions)
      (trace (System.step ed) (System.new door wall) actions)
      (final (System.step ed) (System.new door wall) actions) :=
  Served.run (newCache_eq_ok hfresh.cache).2.1 wall actions

section Runs

variable {ed : Ed25519} {door : FrontDoor} {wall : Int}
  {actions : List Action}

/-- Along every run each capability has its own slot. -/
theorem Tickets.run (hfresh : Fresh door)
    (htogether : ∀ action ∈ actions, action.Together)
    (hone : OneInstant ed (System.new door wall) actions) :
    Tickets door.verifier wall
      (admissions (trace (System.step ed) (System.new door wall) actions))
      (acceptances (trace (System.step ed) (System.new door wall) actions))
      (final (System.step ed) (System.new door wall) actions) := by
  induction actions using List.reverseRecOn with
  | nil => exact Tickets.start hfresh.entries wall
  | append_singleton actions action ih =>
      have hbefore := ih (fun other hother => htogether other
        (List.mem_append_left _ hother)) (oneInstant_snoc.mp hone).1
      have hserved := hfresh.served ed wall actions
      rw [trace_snoc, final_snoc, admissions_snoc, acceptances_snoc]
      exact hbefore.step hserved.consistent (htogether action (by simp))
        (oneInstant_snoc.mp hone).2

/-- Along every run shorter than the range of the limiter's word, the word
counts the slots of its window and no window has too many. -/
theorem tracks_run (hfresh : Fresh door)
    (hone : OneInstant ed (System.new door wall) actions)
    (helapsed : (final (System.step ed) (System.new door wall)
      actions).elapsed < 2 ^ 44 * 10 ^ 9) :
    WindowCount.Tracks rateCountBits door.verificationRateLimiter.limit
      (final (System.step ed) (System.new door wall)
        actions).door.verificationRateLimiter.state
      (windows (trace (System.step ed) (System.new door wall) actions)) := by
  induction actions using List.reverseRecOn with
  | nil =>
      have hzero := WindowCount.tracks_zero rateCountBits
        door.verificationRateLimiter.limit
      rw [← hfresh.word] at hzero
      exact hzero
  | append_singleton actions action ih =>
      have hsettings := (hfresh.served ed wall actions).settings.limit
      have hafter := (hfresh.served ed wall (actions ++
        [action])).settings.limit
      rw [final_snoc] at helapsed hafter ⊢
      have hbefore := Nat.lt_of_le_of_lt (elapsed_le_step ed _ action)
        helapsed
      obtain ⟨hinit, hlast⟩ := oneInstant_snoc.mp hone
      have htracks := ih hinit hbefore
      rw [← hsettings] at htracks
      rw [windows, trace_snoc, admissions_snoc, List.map_append, ← hafter]
      apply tracks_step htracks (hsettings ▸ hfresh.limit_pos)
        (hsettings ▸ hfresh.limit_le)
      intro startedAt hadmitted
      rw [hadmitted] at hlast
      rw [show startedAt = _ from hlast, windowOf]
      omega

/-- A capability that has not expired was verified in one of the last
windows. -/
theorem Admits.recent {verifier : CapabilityVerifier}
    {claims : CapabilityClaims} {startedAt instant : Nat}
    (hoffset : 0 ≤ wall) (hpast : startedAt ≤ instant)
    (hadmits : Admits verifier claims (secondAt wall startedAt))
    (hfresh : secondAt wall instant <
      (grant verifier claims).replayExpiresAt) :
    windowOf startedAt ≤ windowOf instant ∧
      windowOf instant <
        windowOf startedAt + retention verifier := by
  refine ⟨Nat.div_le_div_right hpast, ?_⟩
  have hstarted := hadmits.started
  have hbounded := hadmits.bounded
  have hpositive := hadmits.positive
  unfold grant saturatingAdd at hfresh
  unfold saturatingAdd at hstarted
  dsimp only at hfresh
  have hseconds : secondAt wall instant < secondAt wall startedAt +
      (verifier.maxLifetime.asSecs + 2 * verifier.clockSkew.asSecs) := by
    omega
  unfold retention
  generalize verifier.maxLifetime.asSecs + 2 * verifier.clockSkew.asSecs =
    span at hseconds ⊢
  clear hstarted hbounded hpositive hfresh hadmits
  obtain ⟨offset, rfl⟩ := Int.eq_ofNat_of_zero_le hoffset
  unfold secondAt at hseconds
  unfold windowOf
  omega

/-- The live entries and one more waiting request fit into the cache. -/
theorem Tickets.live_lt {verifier : CapabilityVerifier} {limit : Nat}
    {slots : List (Nat × Nat)} {spent : List Acceptance} {system : System}
    (htickets : Tickets verifier wall slots spent system)
    (hoffset : 0 ≤ wall)
    (hbounded : ∀ window, (slots.map fun slot =>
      windowOf slot.2).count window ≤ limit)
    {index : Nat} {capability : VerifiedCapability}
    (hrequest : system.requests[index]? = some (.verified capability))
    (hfresh : system.now < capability.replayExpiresAt) :
    (system.door.replayCache.live system.now).length <
      retention verifier * limit := by
  have hnow : system.now = secondAt wall system.elapsed := by
    rw [now, htickets.clocks, secondAt]
  let recent := fun slot : Nat × Nat =>
    decide (windowOf slot.2 ≤ windowOf system.elapsed ∧
      windowOf system.elapsed <
        windowOf slot.2 + retention verifier)
  let unexpired := spent.filter fun entry =>
    decide (system.now < entry.capability.replayExpiresAt)
  have hslot : ∀ other granted,
      Ticket verifier wall slots other granted →
      system.now < granted.replayExpiresAt →
        other ∈ (slots.filter recent).map Prod.fst := by
    rintro other granted ⟨startedAt, hmem, hadmits, hgrant⟩ hlater
    rw [hgrant, hnow] at hlater
    refine List.mem_map.mpr ⟨(other, startedAt), List.mem_filter.mpr
      ⟨hmem, ?_⟩, rfl⟩
    exact decide_eq_true (hadmits.recent hoffset (htickets.past _ hmem)
      hlater)
  have hlive : (system.door.replayCache.live system.now).length ≤
      unexpired.length := by
    have hnodup : (system.door.replayCache.live system.now).Nodup :=
      (List.Nodup.of_map _ system.door.replayCache.entries.nodup).filter _
    have hsubset : system.door.replayCache.live system.now ⊆
        unexpired.map fun entry => (entry.capability.claims.nonce,
          entry.capability.replayExpiresAt) := by
      intro pair hpair
      obtain ⟨hentry, hlater⟩ := mem_live_iff.mp hpair
      obtain ⟨entry, hspent, rfl⟩ := htickets.entries pair hentry
      exact List.mem_map.mpr ⟨entry, List.mem_filter.mpr
        ⟨hspent, decide_eq_true hlater⟩, rfl⟩
    have hle := (List.subperm_of_subset hnodup hsubset).length_le
    rwa [List.length_map] at hle
  have hindices : (unexpired.map Acceptance.index ++ [index]).length ≤
      ((slots.filter recent).map Prod.fst).length := by
    have hnodup : (unexpired.map Acceptance.index ++ [index]).Nodup := by
      rw [List.nodup_append]
      refine ⟨htickets.once.sublist (List.filter_sublist.map _),
        List.nodup_singleton _, ?_⟩
      rintro other hother last hlast rfl
      rw [List.mem_singleton] at hlast
      subst hlast
      exact htickets.not_mem_once hrequest
        ((List.filter_sublist.map _).subset hother)
    apply (List.subperm_of_subset hnodup ?_).length_le
    intro other hother
    rcases List.mem_append.mp hother with hold | hnew
    · obtain ⟨entry, hentry, rfl⟩ := List.mem_map.mp hold
      obtain ⟨hspent, hlater⟩ := List.mem_filter.mp hentry
      exact hslot _ _ (htickets.accepted entry hspent)
        (of_decide_eq_true hlater)
    · rw [List.mem_singleton.mp hnew]
      exact hslot _ _ (htickets.verified index capability hrequest) hfresh
  have hcount : (slots.filter recent).length ≤ retention verifier * limit := by
    have hle := WindowCount.countP_recent_le hbounded
      (windowOf system.elapsed) (retention verifier)
    rw [List.countP_map, List.countP_eq_length_filter] at hle
    exact hle
  rw [List.length_append, List.length_map, List.length_map,
    List.length_singleton] at hindices
  omega

/-- A verified token's interval is open by the time of its commit. -/
theorem Tickets.validFrom_le {verifier : CapabilityVerifier}
    {slots : List (Nat × Nat)} {spent : List Acceptance} {system : System}
    (htickets : Tickets verifier wall slots spent system) {index : Nat}
    {capability : VerifiedCapability}
    (hrequest : system.requests[index]? = some (.verified capability)) :
    capability.validFrom ≤ system.now := by
  obtain ⟨startedAt, hslot, hadmits, hgrant⟩ :=
    htickets.verified index capability hrequest
  have hseconds : secondAt wall startedAt ≤ system.now := by
    rw [now, htickets.clocks]
    apply Nat.div_le_div_right
    have hpast : startedAt ≤ system.elapsed := htickets.past _ hslot
    omega
  have hstarted := hadmits.started
  rw [hgrant]
  unfold saturatingAdd at hstarted
  dsimp only [grant]
  omega

/-- A commit that finds its token open, unused and with room is accepted. -/
theorem accepted_of_takes {system : System}
    (hcache : system.door.replayCache.Consistent) {index : Nat}
    {capability : VerifiedCapability}
    (hrequest : system.requests[index]? = some (.verified capability))
    (hwall : 0 ≤ system.wall) (hopen : OpenAt capability system.now)
    (htakes : system.door.replayCache.Takes capability.claims.nonce
      capability.replayExpiresAt system.now) :
    (system.step ed (.commit index)).1 =
      .accepted capability system.now := by
  change (system.commitRequest index).1 = _
  rcases commitRequest_cases hcache index with
    ⟨waiting, hwaiting, _, _, _, hcommit⟩ |
      ⟨waiting, _, _, hwaiting, hnot, _, _, _⟩ | ⟨hnone, _⟩
  · rw [hrequest, Option.some.injEq, Progress.verified.injEq] at hwaiting
    rw [hcommit, hwaiting]
  · rw [hrequest, Option.some.injEq, Progress.verified.injEq] at hwaiting
    rw [← hwaiting] at hnot
    exact absurd ⟨hwall, hopen, htakes⟩ hnot
  · exact absurd hrequest (hnone capability)

/-- For every front door whose limits were accepted, every run of less than
2^44 seconds with the clocks in step and past the epoch: no window admits more
requests than the limit, and a verified token that is unused and unexpired is
accepted when it commits. -/
theorem replay_capacity_suffices {parseUri : UriParser}
    (haccepted : LimitsAccepted parseUri door) (hepoch : 0 ≤ wall)
    (htogether : ∀ action ∈ actions, action.Together)
    (hone : OneInstant ed (System.new door wall) actions)
    (helapsed : (final (System.step ed) (System.new door wall)
      actions).elapsed < 2 ^ 44 * 10 ^ 9) :
    let history := trace (System.step ed) (System.new door wall) actions
    let system := final (System.step ed) (System.new door wall) actions
    (∀ window, (windows history).count window ≤
      door.verificationRateLimiter.limit) ∧
    ∀ index capability,
      system.requests[index]? = some (.verified capability) →
      system.now < capability.replayExpiresAt →
      capability.claims.nonce ∉
        (system.door.replayCache.live system.now).map Prod.fst →
      (system.door.replayCache.live system.now).length <
        door.replayCapacity ∧
      (system.step ed (.commit index)).1 =
        .accepted capability system.now := by
  intro history system
  have hfresh := haccepted.built.fresh
  have htracks := tracks_run hfresh hone helapsed
  have htickets : Tickets door.verifier wall (admissions history)
      (acceptances history) system :=
    Tickets.run hfresh htogether hone
  refine ⟨htracks.bounded, ?_⟩
  intro index capability hrequest hunexpired hunused
  have hserved : Served ed door (presented actions) history system :=
    hfresh.served ed wall actions
  have hroom : (system.door.replayCache.live system.now).length <
      door.replayCapacity := by
    have hlive := htickets.live_lt hepoch htracks.bounded hrequest hunexpired
    rw [Nat.mul_comm] at hlive
    exact Nat.lt_of_lt_of_le hlive haccepted.capacity_le
  have hwall : 0 ≤ system.wall := by
    rw [htickets.clocks]
    omega
  refine ⟨hroom, accepted_of_takes hserved.consistent hrequest hwall
    ⟨htickets.validFrom_le hrequest, hunexpired⟩ ⟨hunused, hunexpired, ?_⟩⟩
  rw [hserved.capacity, (newCache_eq_ok hfresh.cache).1]
  exact hroom

end Runs

namespace CapacityWitness

open CapabilityWitness

/-- Claims for the first second of the epoch. -/
def firstClaims (byte : UInt8) : CapabilityClaims :=
  ⟨"edge-a", 0, 1, nonce byte⟩

def ed : Ed25519 := ed25519
  [(message (firstClaims 1), signature
      0xbef2911e0873947325d8f6611281e23f7470acdc3752d9f44d92d44b888cf9a3
      0xf8eddee0c35a7e5a9046db5f0c76bf2bc1dbac24fb3ee97991ae1e9128f5cd0c),
    (message (firstClaims 2), signature
      0xadd5375a2a167f35cf0da6b4e2ca4c2fd264814c11ef7701b407ad3adea63235
      0x01a831ff205b07fcc5bb14301b704307657706d740fb335fbd9aa4373f6c0b09),
    (message (firstClaims 3), signature
      0xd57c754a8b1553d8fa89cd669df8a900a9762718e59f392745892b77ee3a5cb6
      0xec31d92c6654e5e22c476d8b1798914c504266b68c4d06573811aa5ee2def209)]

def issuer : CapabilityIssuer := ⟨seed, 10 ^ 9⟩

def verifier : CapabilityVerifier := ⟨publicOfSeed, "edge-a", 10 ^ 9, 0⟩

/-- A parser that takes every text for a path. -/
def parseUri : UriParser := fun path => some (path, none)

/-- The smallest front door: one verification per second, for tokens that live
for one second. -/
def door : FrontDoor :=
  ⟨verifier, 4096, defaultRelayPath, false, ⟨1, 0⟩, 2,
    ⟨2, KeyTable.empty, MinQueue.empty⟩⟩

theorem limitsAccepted_door : LimitsAccepted parseUri door := by
  have hpath : FrontDoor.withPath parseUri verifier 4096 defaultRelayPath =
      .ok ⟨verifier, 4096, defaultRelayPath, false, ⟨256, 0⟩, 128 * 1024,
        ⟨128 * 1024, KeyTable.empty, MinQueue.empty⟩⟩ := rfl
  have hrate : FrontDoor.withMaxVerificationsPerSecond
      ⟨verifier, 4096, defaultRelayPath, false, ⟨256, 0⟩, 128 * 1024,
        ⟨128 * 1024, KeyTable.empty, MinQueue.empty⟩⟩ 1 =
      .ok ⟨verifier, 4096, defaultRelayPath, false, ⟨1, 0⟩, 128 * 1024,
        ⟨128 * 1024, KeyTable.empty, MinQueue.empty⟩⟩ := rfl
  have hcapacity : FrontDoor.withReplayCapacity
      ⟨verifier, 4096, defaultRelayPath, false, ⟨1, 0⟩, 128 * 1024,
        ⟨128 * 1024, KeyTable.empty, MinQueue.empty⟩⟩ 2 = .ok door := rfl
  exact .withReplayCapacity (.withMaxVerifications (.withPath hpath) hrate)
    hcapacity

/-- A request that is prepared as soon as it arrives, given how many came
before it. -/
def served (index : Nat) (token : String) : List Action :=
  [.arrive (requestOf token), .start index 0, .exchange index false 0]

def firstToken (byte : UInt8) : String :=
  tokenOf ed issuer (firstClaims byte)

theorem replay_capacity_suffices_first :
    let system := final (System.step ed) (System.new door 0)
      (served 0 (firstToken 1))
    system.requests[0]? = some (.verified (grant verifier (firstClaims 1))) ∧
      (system.step ed (.commit 0)).1 =
        .accepted (grant verifier (firstClaims 1)) system.now := by
  have hstate :
      let system := final (System.step ed) (System.new door 0)
        (served 0 (firstToken 1))
      system.requests[0]? =
        some (.verified (grant verifier (firstClaims 1))) ∧
      system.now < (grant verifier (firstClaims 1)).replayExpiresAt ∧
      (grant verifier (firstClaims 1)).claims.nonce ∉
        (system.door.replayCache.live system.now).map Prod.fst ∧
      system.elapsed < 2 ^ 44 * 10 ^ 9 ∧
      OneInstant ed (System.new door 0) (served 0 (firstToken 1)) := by
    decide +kernel
  obtain ⟨hrequest, hunexpired, hunused, helapsed, hone⟩ := hstate
  have hrun := replay_capacity_suffices limitsAccepted_door (Int.le_refl 0)
    (by simp [served, Action.Together]) hone helapsed
  generalize final (System.step ed) (System.new door 0)
    (served 0 (firstToken 1)) = system at hrequest hunexpired hunused hrun ⊢
  exact ⟨hrequest, (hrun.2 0 _ hrequest hunexpired hunused).2⟩

/-- Two requests in the window whose number no longer fits into the word. -/
def lateWindow : List Action :=
  [.tick (2 ^ 44 * 10 ^ 9) (2 ^ 44 * 10 ^ 9), .arrive (requestOf "x"),
    .arrive (requestOf "y"), .start 0 0, .start 1 0, .exchange 0 false 0,
    .exchange 1 false 0, .exchange 1 false 0]

/-- Three seconds before the epoch, in each of which a token is verified. -/
def beforeEpoch : List Action :=
  served 0 (firstToken 1) ++ .tick (10 ^ 9) (10 ^ 9) ::
    served 1 (firstToken 2) ++ .tick (10 ^ 9) (10 ^ 9) ::
    served 2 (firstToken 3) ++ [.tick (10 ^ 9) (10 ^ 9), .commit 0, .commit 1]

/-- After 2^44 seconds the limiter forgets its window, and a clock before the
epoch reads zero for as long as it likes; both let in more requests than the
cache has room for. -/
theorem limits_exceeded :
    LimitsAccepted parseUri door ∧
    (∀ action ∈ lateWindow, action.Together) ∧
    OneInstant ed (System.new door 0) lateWindow ∧
    (windows (trace (System.step ed) (System.new door 0) lateWindow)).count
      (2 ^ 44) = 2 ∧
    door.verificationRateLimiter.limit = 1 ∧
    (∀ action ∈ beforeEpoch, action.Together) ∧
    OneInstant ed (System.new door (-3 * 10 ^ 9)) beforeEpoch ∧
    let system := final (System.step ed) (System.new door (-3 * 10 ^ 9))
      beforeEpoch
    system.requests[2]? = some (.verified (grant verifier (firstClaims 3))) ∧
      system.now < (grant verifier (firstClaims 3)).replayExpiresAt ∧
      (firstClaims 3).nonce ∉
        (system.door.replayCache.live system.now).map Prod.fst ∧
      (system.step ed (.commit 2)).1 =
        .refused (grant verifier (firstClaims 3)) := by
  refine ⟨limitsAccepted_door, by simp [lateWindow, Action.Together], ?_⟩
  refine ⟨by decide, by decide, rfl, ?_⟩
  refine ⟨by simp [beforeEpoch, served, Action.Together], ?_⟩
  decide +kernel

end CapacityWitness

end Shph.Edge
