/-
The order of a plan and of its rounds.  A plan has the entries that its mode
enables, sorted; a round has the candidates of the plan in some order, and a
seeded shuffle is Python's.
-/
import Shph.SnapPlanning
import Shph.SnapShuffle

namespace Shph.SnapPath

open Checked SeededShuffle SortOrder

/-- What a candidate comes from. -/
inductive PlanEntry where
  | peer
  | endpoint (endpoint : DirectEndpoint)
  | bridge (bridge : Bridge)

namespace PlanEntry

def kind : PlanEntry → CandidateKind
  | .peer => .direct
  | .endpoint _ => .direct
  | .bridge _ => .bridge

def adapter : PlanEntry → String
  | .peer => "direct-tcp"
  | .endpoint item => item.adapter
  | .bridge item => item.adapter

def transport : PlanEntry → String
  | .peer => "tcp"
  | .endpoint item => item.transport
  | .bridge item => item.transport

def source : PlanEntry → String
  | .peer => "profile_direct_endpoint"
  | .endpoint _ => "profile_direct_endpoint"
  | .bridge item => "bridge:" ++ item.label

def priority : PlanEntry → UInt16
  | .peer => 100
  | .endpoint item => item.priority
  | .bridge item => item.priority

def weight : PlanEntry → UInt16
  | .peer => 100
  | .endpoint item => item.weight
  | .bridge item => item.weight

def timeoutSec : PlanEntry → Option Binary64
  | .peer => none
  | .endpoint item => item.timeoutSec
  | .bridge item => item.timeoutSec

def allowedFallback : PlanEntry → List String
  | .peer => []
  | .endpoint item => item.allowedFallback
  | .bridge item => item.allowedFallback

end PlanEntry

namespace SnapProfile

/-- The entries that the mode enables, numbered in the order of the profile.
The peer, which stands for direct endpoints where there are none, takes no
number from the bridges. -/
def enabledEntries (profile : SnapProfile) : List (PlanEntry × Nat) :=
  let direct :=
    if profile.directEndpoints = [] then [(.peer, 0)]
    else (profile.directEndpoints.map .endpoint).zipIdx 1
  let bridges (start : Nat) :=
    (profile.bridges.map PlanEntry.bridge).zipIdx start
  match profile.mode with
  | .auto => direct ++ bridges (profile.directEndpoints.length + 1)
  | .directOnly => direct
  | .bridgesOnly => bridges 1
  | .onionOnly => bridges 1

def entryCandidate (profile : SnapProfile) (peerHost : String)
    (peerPort : UInt16) : PlanEntry × Nat → SnapCandidate
  | (.peer, _) => peerCandidate peerHost peerPort
  | (.endpoint endpoint, number) => directCandidate endpoint number
  | (.bridge bridge, number) =>
      profile.bridgeCandidate peerHost peerPort bridge number

def entryTarget (profile : SnapProfile) (peerHost : String)
    (peerPort : UInt16) : PlanEntry → String × UInt16
  | .peer => (peerHost, peerPort)
  | .endpoint endpoint => (endpoint.ip, endpoint.port)
  | .bridge bridge => profile.bridgeTarget peerHost peerPort bridge

/-- By priority, then by the rank of the adapter, then by weight from the
largest on, then by the order of the profile. -/
def entryKey (profile : SnapProfile) (entry : PlanEntry × Nat) :
    Nat ×ₗ Nat ×ₗ Natᵒᵈ ×ₗ Nat :=
  toLex (entry.1.priority.toNat,
    toLex (profile.adapterRank entry.1.adapter,
      toLex (OrderDual.toDual entry.1.weight.toNat, entry.2)))

/-- The same of a candidate. -/
def sortKey (profile : SnapProfile) (candidate : SnapCandidate) :
    Nat ×ₗ Nat ×ₗ Natᵒᵈ ×ₗ Nat :=
  toLex (candidate.priority.toNat,
    toLex (profile.adapterRank candidate.adapter,
      toLex (OrderDual.toDual candidate.weight.toNat,
        candidate.insertionIndex)))

end SnapProfile

/-- The candidate is made from the entry. -/
structure Describes (profile : SnapProfile) (peerHost : String)
    (peerPort : UInt16) (entry : PlanEntry × Nat)
    (candidate : SnapCandidate) : Prop where
  kind : candidate.kind = entry.1.kind
  adapter : candidate.adapter = entry.1.adapter
  transport : candidate.transport = entry.1.transport
  target : (candidate.targetHost, candidate.targetPort) =
    profile.entryTarget peerHost peerPort entry.1
  source : candidate.source = entry.1.source
  priority : candidate.priority = entry.1.priority
  weight : candidate.weight = entry.1.weight
  timeout : candidate.timeoutSec = entry.1.timeoutSec
  fallback : candidate.allowedFallback = entry.1.allowedFallback
  number : candidate.insertionIndex = entry.2

/-- The candidates are the enabled entries, each once, and sorted. -/
def SnapPlan.Ordered (text : SnapText) (profile : SnapProfile)
    (peerHost : String) (peerPort : UInt16) (plan : SnapPlan) : Prop :=
  (∃ entries : List (PlanEntry × Nat),
    entries.Perm profile.enabledEntries ∧
      (entries.Pairwise fun before after =>
        profile.entryKey before < profile.entryKey after) ∧
      List.Forall₂ (Describes profile peerHost peerPort) entries
        plan.candidates ∧
      plan.candidates = entries.map fun entry =>
        let candidate := profile.entryCandidate peerHost peerPort entry
        { candidate with candidateId := candidate.computeId text }) ∧
    plan.candidates.Pairwise fun before after =>
      profile.sortKey before < profile.sortKey after

/-- With enough fuel the round comes out in this order. -/
def RetryPolicy.Orders {α : Type} (policy : RetryPolicy) (drawn : UInt64)
    (candidates : List α) (roundIndex : UInt32) (ordered : List α) : Prop :=
  ∃ enough, ∀ fuel, enough ≤ fuel →
    policy.orderedRound fuel drawn candidates roundIndex = some ordered

section Round

variable {α : Type} {policy : RetryPolicy} {candidates : List α}

/-- A round ends and has the candidates of the plan. -/
theorem orders_perm (hcount : candidates.length < 2 ^ 32) (drawn : UInt64)
    (roundIndex : UInt32) :
    ∃ ordered, ordered.Perm candidates ∧
      policy.Orders drawn candidates roundIndex ordered := by
  by_cases hfew : candidates.length ≤ 1
  · exact ⟨candidates, List.Perm.refl _, 0, fun fuel _ => if_pos hfew⟩
  · cases horder : policy.roundOrder with
    | stable =>
        refine ⟨candidates, List.Perm.refl _, 0, fun fuel _ => ?_⟩
        rw [RetryPolicy.orderedRound, if_neg hfew, horder]
    | rotate =>
        let offset := (roundIndex.toNat - 1) % candidates.length
        refine ⟨candidates.drop offset ++ candidates.take offset, ?_, 0,
          fun fuel _ => ?_⟩
        · exact List.perm_append_comm.trans
            (List.Perm.of_eq (List.take_append_drop _ _))
        · rw [RetryPolicy.orderedRound, if_neg hfew, horder]
    | shuffle =>
        let seed := policy.shuffleSeed.getD drawn + roundIndex.toUInt64
        obtain ⟨enough, henough⟩ := pythonSeededShuffle_eq hcount seed
        refine ⟨pythonShuffle seed.toNat candidates,
          pythonShuffle_perm _ candidates, enough, fun fuel hfuel => ?_⟩
        rw [RetryPolicy.orderedRound, if_neg hfew, horder]
        exact henough fuel hfuel

/-- A round that is shuffled with a seed is shuffled by Python's generator for
the seed and the round. -/
theorem orders_shuffle (hcount : candidates.length < 2 ^ 32)
    (horder : policy.roundOrder = .shuffle) {seed : UInt64}
    (hseed : policy.shuffleSeed = some seed) (drawn : UInt64)
    (roundIndex : UInt32) :
    policy.Orders drawn candidates roundIndex
      (pythonShuffle ((seed.toNat + roundIndex.toNat) % 2 ^ 64)
        candidates) := by
  have hsum : (seed + roundIndex.toUInt64).toNat =
      (seed.toNat + roundIndex.toNat) % 2 ^ 64 := by
    rw [UInt64.toNat_add, UInt32.toNat_toUInt64]
  by_cases hfew : candidates.length ≤ 1
  · have hnone : candidates.length - 1 = 0 := by omega
    refine ⟨0, fun fuel _ => ?_⟩
    rw [RetryPolicy.orderedRound, if_pos hfew, pythonShuffle, shuffle, hnone,
      shuffleFrom]
  · obtain ⟨enough, henough⟩ := pythonSeededShuffle_eq hcount
      (seed + roundIndex.toUInt64)
    refine ⟨enough, fun fuel hfuel => ?_⟩
    rw [RetryPolicy.orderedRound, if_neg hfew, horder, hseed, ← hsum]
    exact henough fuel hfuel

end Round

section Plan

variable {text : SnapText} {profile : SnapProfile} {peerHost : String}
  {peerPort : UInt16} {plan : SnapPlan}

theorem totalPreorder_candidateLe (profile : SnapProfile) :
    TotalPreorder profile.candidateLe := by
  have hnat : TotalPreorder SnapProfile.natLe := totalPreorder_nat
  have hweight : TotalPreorder fun left right : SnapCandidate =>
      SnapProfile.natLe right.weight.toNat left.weight.toNat :=
    ⟨fun a b c hab hbc => hnat.trans _ _ _ hbc hab,
      fun a b => hnat.total _ _⟩
  exact (hnat.byPart _).andThen ((hnat.byPart _).andThen
    (hweight.andThen (hnat.byPart _)))

/-- Candidates with different numbers are never equal in the order. -/
theorem sortKey_lt {before after : SnapCandidate}
    (hle : profile.candidateLe before after = true)
    (hne : before.insertionIndex ≠ after.insertionIndex) :
    profile.sortKey before < profile.sortKey after := by
  simp only [SnapProfile.candidateLe, andThen, byPart, SnapProfile.natLe,
    Bool.and_eq_true, Bool.or_eq_true, Bool.not_eq_true',
    decide_eq_true_eq, decide_eq_false_iff_not] at hle
  simp only [SnapProfile.sortKey, Prod.Lex.toLex_lt_toLex,
    OrderDual.toDual_lt_toDual, OrderDual.toDual_inj]
  omega

/-- Entries of one kind, numbered, are the candidates of that kind. -/
theorem map_zipIdx_entryCandidate {A : Type} (items : List A)
    {entry : A → PlanEntry} {make : A → Nat → SnapCandidate}
    (hmake : ∀ item number,
      profile.entryCandidate peerHost peerPort (entry item, number) =
        make item number) (start : Nat) :
    ((items.map entry).zipIdx start).map
        (profile.entryCandidate peerHost peerPort) =
      items.mapIdx fun index item => make item (start + index) := by
  apply List.ext_getElem (by simp)
  intro index hleft hright
  simp [hmake]

theorem numbered_bridges (start : Nat) :
    ((profile.bridges.map PlanEntry.bridge).zipIdx (start + 1)).map
        (profile.entryCandidate peerHost peerPort) =
      profile.bridges.mapIdx fun index bridge =>
        profile.bridgeCandidate peerHost peerPort bridge
          (start + index + 1) := by
  rw [map_zipIdx_entryCandidate profile.bridges (fun _ _ => rfl)]
  simp only [Nat.add_right_comm start 1]
  rfl

theorem numbered_endpoints :
    ((profile.directEndpoints.map PlanEntry.endpoint).zipIdx 1).map
        (profile.entryCandidate peerHost peerPort) =
      profile.directEndpoints.mapIdx fun index endpoint =>
        SnapProfile.directCandidate endpoint (index + 1) := by
  rw [map_zipIdx_entryCandidate profile.directEndpoints (fun _ _ => rfl)]
  simp only [Nat.add_comm 1]
  rfl

theorem candidates_eq_enabled (profile : SnapProfile) (peerHost : String)
    (peerPort : UInt16) :
    profile.directCandidates peerHost peerPort ++
        profile.bridgeCandidates peerHost peerPort =
      profile.enabledEntries.map
        (profile.entryCandidate peerHost peerPort) := by
  have hendpoints := @numbered_endpoints profile peerHost peerPort
  have hbridges := @numbered_bridges profile peerHost peerPort
  have hdirect : (if profile.directEndpoints = [] then [(.peer, 0)]
      else (profile.directEndpoints.map PlanEntry.endpoint).zipIdx 1).map
        (profile.entryCandidate peerHost peerPort) =
      if profile.directEndpoints = [] then
        [SnapProfile.peerCandidate peerHost peerPort]
      else profile.directEndpoints.mapIdx fun index endpoint =>
        SnapProfile.directCandidate endpoint (index + 1) := by
    split
    · rfl
    · exact hendpoints
  unfold SnapProfile.directCandidates SnapProfile.bridgeCandidates
    SnapProfile.enabledEntries SnapProfile.includeDirect
    SnapProfile.includeBridges
  cases hmode : profile.mode with
  | auto => simp [hdirect, hbridges]
  | directOnly => simp [hdirect]
  | bridgesOnly => simpa using (hbridges 0).symm
  | onionOnly => simpa using (hbridges 0).symm

theorem peer_number {number : Nat}
    (hpeer : (.peer, number) ∈ profile.enabledEntries) : number = 0 := by
  have hendpoint : (.peer, number) ∉
      (profile.directEndpoints.map PlanEntry.endpoint).zipIdx 1 :=
    fun hmem => by simpa using List.fst_mem_of_mem_zipIdx hmem
  have hbridge : ∀ start, (.peer, number) ∉
      (profile.bridges.map PlanEntry.bridge).zipIdx start :=
    fun start hmem => by simpa using List.fst_mem_of_mem_zipIdx hmem
  have hdirect : (.peer, number) ∈ (if profile.directEndpoints = [] then
      [(.peer, 0)]
      else (profile.directEndpoints.map PlanEntry.endpoint).zipIdx 1) →
        number = 0 := by
    intro hmem
    split at hmem
    · exact (Prod.mk.inj (List.mem_singleton.mp hmem)).2
    · exact absurd hmem hendpoint
  unfold SnapProfile.enabledEntries at hpeer
  cases hmode : profile.mode with
  | auto =>
      rw [hmode] at hpeer
      rcases List.mem_append.mp hpeer with hmem | hmem
      · exact hdirect hmem
      · exact absurd hmem (hbridge _)
  | directOnly =>
      rw [hmode] at hpeer
      exact hdirect hpeer
  | bridgesOnly =>
      rw [hmode] at hpeer
      exact absurd hpeer (hbridge 1)
  | onionOnly =>
      rw [hmode] at hpeer
      exact absurd hpeer (hbridge 1)

theorem insertionIndex_entryCandidate {entry : PlanEntry × Nat}
    (hentry : entry ∈ profile.enabledEntries) :
    (profile.entryCandidate peerHost peerPort entry).insertionIndex =
      entry.2 := by
  obtain ⟨entry, number⟩ := entry
  cases entry with
  | peer => exact (peer_number hentry).symm
  | endpoint endpoint => rfl
  | bridge bridge => rfl

theorem sortKey_entryCandidate {entry : PlanEntry × Nat}
    (hentry : entry ∈ profile.enabledEntries) :
    profile.sortKey (profile.entryCandidate peerHost peerPort entry) =
      profile.entryKey entry := by
  rw [SnapProfile.sortKey, insertionIndex_entryCandidate hentry]
  obtain ⟨entry, number⟩ := entry
  cases entry with
  | peer => rfl
  | endpoint endpoint => rfl
  | bridge bridge => rfl

/-- Whatever its id is. -/
theorem describes_entryCandidate {entry : PlanEntry × Nat}
    (hentry : entry ∈ profile.enabledEntries) (candidateId : String) :
    Describes profile peerHost peerPort entry
      { profile.entryCandidate peerHost peerPort entry with
        candidateId := candidateId } := by
  have hnumber := @insertionIndex_entryCandidate profile peerHost peerPort
    entry hentry
  obtain ⟨entry, number⟩ := entry
  cases entry with
  | peer => exact ⟨rfl, rfl, rfl, rfl, rfl, rfl, rfl, rfl, rfl, hnumber⟩
  | endpoint endpoint =>
      exact ⟨rfl, rfl, rfl, rfl, rfl, rfl, rfl, rfl, rfl, hnumber⟩
  | bridge bridge =>
      exact ⟨rfl, rfl, rfl, rfl, rfl, rfl, rfl, rfl, rfl, hnumber⟩

/-- No two entries have the same number. -/
theorem enabledEntries_nodup :
    (profile.enabledEntries.map Prod.snd).Nodup := by
  have hbridges : ∀ start,
      (((profile.bridges.map PlanEntry.bridge).zipIdx start).map
        Prod.snd).Nodup := by
    intro start
    rw [List.zipIdx_map_snd]
    exact List.nodup_range' _
  have hdirect : ((if profile.directEndpoints = [] then [(.peer, 0)]
      else (profile.directEndpoints.map PlanEntry.endpoint).zipIdx 1).map
        Prod.snd).Nodup := by
    split
    · exact List.nodup_singleton 0
    · rw [List.zipIdx_map_snd]
      exact List.nodup_range' _
  unfold SnapProfile.enabledEntries
  cases profile.mode with
  | auto =>
      dsimp only
      rw [List.map_append]
      refine List.Nodup.append hdirect (hbridges _) ?_
      intro number hleft hright
      rw [List.zipIdx_map_snd, List.mem_range'_1] at hright
      split at hleft
      · rw [List.map_singleton, List.mem_singleton] at hleft
        omega
      · rw [List.zipIdx_map_snd, List.mem_range'_1, List.length_map] at hleft
        omega
  | directOnly => exact hdirect
  | bridgesOnly => exact hbridges 1
  | onionOnly => exact hbridges 1

theorem enabledEntries_length_le (profile : SnapProfile) :
    profile.enabledEntries.length ≤
      profile.directEndpoints.length + profile.bridges.length + 1 := by
  have hdirect : (if profile.directEndpoints = [] then [(.peer, 0)]
      else (profile.directEndpoints.map PlanEntry.endpoint).zipIdx 1).length ≤
        profile.directEndpoints.length + 1 := by
    split
    · simp
    · simp
  unfold SnapProfile.enabledEntries
  cases profile.mode with
  | auto =>
      dsimp only
      rw [List.length_append, List.length_zipIdx, List.length_map]
      omega
  | directOnly => exact hdirect.trans (by omega)
  | bridgesOnly =>
      rw [List.length_zipIdx, List.length_map]
      omega
  | onionOnly =>
      rw [List.length_zipIdx, List.length_map]
      omega

/-- A plan that is made has the candidates in order. -/
theorem plan_ordered
    (hplan : profile.plan text peerHost peerPort = .ok plan) :
    plan.Ordered text profile peerHost peerPort := by
  simp only [SnapProfile.plan, then_eq_ok] at hplan
  obtain ⟨-, -, -, hrest⟩ := hplan
  cases hrest
  let make := profile.entryCandidate peerHost peerPort
  let entries := profile.enabledEntries.mergeSort
    fun left right => profile.candidateLe (make left) (make right)
  have hperm : entries.Perm profile.enabledEntries :=
    List.mergeSort_perm _ _
  have hsorted : (profile.directCandidates peerHost peerPort ++
      profile.bridgeCandidates peerHost peerPort).mergeSort
        profile.candidateLe = entries.map make := by
    rw [candidates_eq_enabled]
    exact (@List.map_mergeSort _ _
      (fun left right => profile.candidateLe (make left) (make right))
      profile.candidateLe make profile.enabledEntries
      fun _ _ _ _ => rfl).symm
  have hle := List.pairwise_mergeSort
    (totalPreorder_candidateLe profile).trans
    (totalPreorder_candidateLe profile).total
    (profile.directCandidates peerHost peerPort ++
      profile.bridgeCandidates peerHost peerPort)
  have hdistinct : (entries.map Prod.snd).Nodup :=
    (hperm.map Prod.snd).nodup_iff.mpr enabledEntries_nodup
  have hordered : entries.Pairwise fun before after =>
      profile.entryKey before < profile.entryKey after := by
    rw [hsorted, List.pairwise_map] at hle
    rw [List.Nodup, List.pairwise_map] at hdistinct
    refine (hle.and hdistinct).imp_of_mem ?_
    rintro before after hbefore hafter ⟨hkeys, hne⟩
    have henabled := hperm.mem_iff.mp hbefore
    have hother := hperm.mem_iff.mp hafter
    rw [← sortKey_entryCandidate henabled, ← sortKey_entryCandidate hother]
    apply sortKey_lt hkeys
    rwa [insertionIndex_entryCandidate henabled,
      insertionIndex_entryCandidate hother]
  constructor
  · refine ⟨entries, hperm, hordered, ?_, ?_⟩
    · rw [hsorted, List.map_map, List.forall₂_map_right_iff,
        List.forall₂_same]
      intro entry hentry
      exact describes_entryCandidate (hperm.mem_iff.mp hentry) _
    · rw [hsorted, List.map_map]
      rfl
  · rw [hsorted, List.map_map, List.pairwise_map]
    refine hordered.imp_of_mem ?_
    intro before after hbefore hafter hlt
    rw [← sortKey_entryCandidate (hperm.mem_iff.mp hbefore),
      ← sortKey_entryCandidate (hperm.mem_iff.mp hafter)] at hlt
    exact hlt

theorem plan_length_lt
    (hplan : profile.plan text peerHost peerPort = .ok plan) :
    plan.candidates.length < 2 ^ 32 := by
  obtain ⟨⟨entries, hperm, -, -, hcandidates⟩, -⟩ := plan_ordered hplan
  simp only [SnapProfile.plan, then_eq_ok] at hplan
  obtain ⟨hvalid, -⟩ := hplan
  have hprofile := validate_eq_ok_iff.mp hvalid
  have hdirect := hprofile.directCount
  have hbridge := hprofile.bridgeCount
  have hcount := enabledEntries_length_le profile
  rw [hcandidates, List.length_map, hperm.length_eq]
  unfold maxDirectEndpoints at hdirect
  unfold maxBridges at hbridge
  omega

end Plan

/-- A plan has the entries that the mode of its profile enables, sorted.  Every
round of it has its candidates, in whatever order rounds have; and a seeded
shuffle, of these or other candidates, is Python's shuffle for the seed and the
round. -/
theorem plan_and_rounds_ordered {text : SnapText} {profile : SnapProfile}
    {peerHost : String} {peerPort : UInt16} {plan : SnapPlan}
    (hplan : profile.plan text peerHost peerPort = .ok plan) :
    plan.Ordered text profile peerHost peerPort ∧
      (∀ (policy : RetryPolicy) (drawn : UInt64) (roundIndex : UInt32),
        ∃ ordered, ordered.Perm plan.candidates ∧
          policy.Orders drawn plan.candidates roundIndex ordered) ∧
      ∀ (α : Type) (candidates : List α) (policy : RetryPolicy)
        (seed drawn : UInt64) (roundIndex : UInt32),
        candidates.length < 2 ^ 32 → policy.roundOrder = .shuffle →
          policy.shuffleSeed = some seed →
            policy.Orders drawn candidates roundIndex
              (pythonShuffle ((seed.toNat + roundIndex.toNat) % 2 ^ 64)
                candidates) := by
  refine ⟨plan_ordered hplan, ?_, ?_⟩
  · intro policy drawn roundIndex
    exact orders_perm (plan_length_lt hplan) drawn roundIndex
  · intro α candidates policy seed drawn roundIndex hcount horder hseed
    exact orders_shuffle hcount horder hseed drawn roundIndex

namespace SnapWitness

/-- The second round of a policy whose seed is 42. -/
def seeded : RetryPolicy :=
  { directOnly.retryPolicy with
    roundOrder := .shuffle
    shuffleSeed := some 42 }

/-- The entries in the order of the plan: the bridge with the smaller priority,
the endpoint, and the bridge whose adapter has no rank. -/
def autoEntries : List (PlanEntry × Nat) :=
  [(.bridge (relayBridge "relay" 7001 50 100), 2),
    (.endpoint ⟨"127.0.0.1", 7000, "tcp", "direct-tcp", false, none, none,
      100, 100, none, ["quic"]⟩, 1),
    (.bridge (relayBridge "spare" 7002 100 200), 3)]

theorem autoEntries_perm : autoEntries.Perm auto.enabledEntries :=
  List.Perm.swap _ _ _

theorem autoEntries_ordered : autoEntries.Pairwise fun before after =>
    auto.entryKey before < auto.entryKey after := by
  simp only [autoEntries, List.pairwise_cons, SnapProfile.entryKey,
    Prod.Lex.toLex_lt_toLex]
  decide

theorem plan_and_rounds_ordered_auto : ∃ plan,
    auto.plan writers "127.0.0.1" 7000 = .ok plan ∧
      plan.Ordered writers auto "127.0.0.1" 7000 ∧
      List.Forall₂ (Describes auto "127.0.0.1" 7000) autoEntries
        plan.candidates ∧
      (∃ ordered, ordered.Perm plan.candidates ∧
        seeded.Orders 0 plan.candidates 2 ordered) ∧
      seeded.Orders 0 ["a", "b", "c", "d"] 2
        (pythonShuffle 44 ["a", "b", "c", "d"]) := by
  obtain ⟨plan, hplan⟩ := plan_auto
  obtain ⟨hordered, hrounds, hshuffles⟩ := plan_and_rounds_ordered hplan
  have ⟨⟨entries, hperm, hsorted, hdescribed, _⟩, _⟩ := hordered
  have hentries : entries = autoEntries :=
    (hperm.trans autoEntries_perm.symm).eq_of_pairwise
      (fun left right _ _ hlt hgt => absurd hlt (lt_asymm hgt))
      hsorted autoEntries_ordered
  refine ⟨plan, hplan, hordered, ?_, hrounds seeded 0 2, ?_⟩
  · rw [← hentries]
    exact hdescribed
  · exact hshuffles String ["a", "b", "c", "d"] seeded 42 0 2 (by decide)
      rfl rfl

end SnapWitness

end Shph.SnapPath
