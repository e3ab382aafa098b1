/-
The state file as a ledger: every change SHPH made to the host and has not
taken back is listed in it, after each operation and while a session of `up`
runs.  One plan escapes it: `up` does not keep a guard that lists underlay
bypass routes and nothing else.
-/
import Shph.ControlPlaneCleanup

namespace Shph.ControlPlane

open Rollback

/-- What a state file lists. -/
def PersistedControlPlaneState.Lists (state : PersistedControlPlaneState) :
    Mutation → Prop
  | .address cidr name =>
      name = state.interfaceName ∧ state.interfaceCidr = some cidr
  | .route cidr name => name = state.interfaceName ∧ cidr ∈ state.routes
  | .bypass cidr => cidr ∈ state.underlayBypassRoutes
  | .dns server name =>
      name = state.interfaceName ∧ server ∈ state.dnsServers

/-- Everything in place is listed in the state file. -/
def Machine.Recorded (machine : Machine) : Prop :=
  ∀ change ∈ machine.host, ∃ state, machine.stateFile = some state ∧
    state.Lists change

/-- The ledger is complete unless it could not be written. -/
def Machine.Sound (machine : Machine) : Prop :=
  machine.stateWriteFailed = false → machine.Recorded

/-- A guard that is kept through a live operation: everything in place is in
it, on one interface. -/
structure Tracked (name : String) (guard : ControlPlaneGuard)
    (machine : Machine) : Prop where
  covers : Covers guard machine
  scope : guard.On name
  live : guard.dryRun = false

theorem Undoes.tracked {name : String} {guard after : ControlPlaneGuard}
    {machine next : Machine} (hundoes : Undoes guard machine after next)
    (htracked : Tracked name guard machine) : Tracked name after next where
  covers := hundoes.covers htracked.covers
  scope := hundoes.scope name htracked.scope
  live := hundoes.dryRun.trans htracked.live

section StateFile

variable (env : Environment)

theorem stateFromGuard_lists {name : String} {guard : ControlPlaneGuard}
    (hscope : guard.On name) {change : Mutation}
    (hlists : guard.Lists change) :
    (stateFromGuard name guard).Lists change := by
  cases change with
  | address cidr owner =>
      refine ⟨hscope.address (cidr, owner) hlists, ?_⟩
      rw [stateFromGuard, hlists]
      rfl
  | route cidr owner =>
      exact ⟨hscope.routes (cidr, owner) hlists,
        List.mem_map.mpr ⟨(cidr, owner), hlists, rfl⟩⟩
  | bypass cidr => exact hlists
  | dns server owner => exact ⟨hscope.dns owner hlists.1, hlists.2⟩

theorem guardFromState_lists {state : PersistedControlPlaneState}
    {change : Mutation} (hlists : state.Lists change) :
    (guardFromState state).Lists change := by
  cases change with
  | address cidr owner =>
      obtain ⟨rfl, hcidr⟩ := hlists
      rw [ControlPlaneGuard.Lists, guardFromState, hcidr]
      rfl
  | route cidr owner =>
      obtain ⟨rfl, hcidr⟩ := hlists
      exact List.mem_map.mpr ⟨cidr, hcidr, rfl⟩
  | bypass cidr => exact hlists
  | dns server owner =>
      obtain ⟨rfl, hserver⟩ := hlists
      refine ⟨?_, hserver⟩
      rw [guardFromState, if_neg (List.ne_nil_of_mem hserver)]

theorem not_lists_of_isEmpty {name : String} {guard : ControlPlaneGuard}
    (hscope : guard.On name)
    (hempty : (stateFromGuard name guard).isEmpty = true)
    (change : Mutation) : ¬ guard.Lists change := by
  intro hlists
  have hstate := stateFromGuard_lists hscope hlists
  simp only [PersistedControlPlaneState.isEmpty, Bool.and_eq_true,
    Option.isNone_iff_eq_none, List.isEmpty_iff] at hempty
  obtain ⟨⟨⟨haddress, hroutes⟩, hbypass⟩, hdns⟩ := hempty
  cases change with
  | address cidr owner => simp [PersistedControlPlaneState.Lists, haddress]
      at hstate
  | route cidr owner => simp [PersistedControlPlaneState.Lists, hroutes]
      at hstate
  | bypass cidr => simp [PersistedControlPlaneState.Lists, hbypass] at hstate
  | dns server owner => simp [PersistedControlPlaneState.Lists, hdns]
      at hstate

theorem sound_of_host_nil {machine : Machine}
    (hnil : machine.stateWriteFailed = false → machine.host = []) :
    machine.Sound := by
  intro hwritten change hchange
  rw [hnil hwritten] at hchange
  exact absurd hchange List.not_mem_nil

/-- What only takes back changes keeps the ledger complete. -/
theorem Machine.Sound.of_shrinks {machine next : Machine}
    (hsound : machine.Sound) (hfile : SameFile machine next)
    (hshrinks : next.host ⊆ machine.host) : next.Sound := by
  intro hwritten change hchange
  rw [hfile.stateWriteFailed] at hwritten
  obtain ⟨state, hstate, hlists⟩ :=
    hsound hwritten change (hshrinks hchange)
  exact ⟨state, hfile.stateFile.trans hstate, hlists⟩

theorem removeControlPlaneState_sound {machine : Machine}
    (hnil : machine.stateWriteFailed = false → machine.host = []) :
    (removeControlPlaneState env machine).2.Sound := by
  apply sound_of_host_nil
  unfold removeControlPlaneState
  dsimp only
  split <;> exact hnil

/-- A write that succeeds lists what the guard lists. -/
theorem saveControlPlaneState_sound {name : String}
    {guard : ControlPlaneGuard} {machine : Machine}
    (htracked : Tracked name guard machine) :
    (saveControlPlaneState env (stateFromGuard name guard)
      machine).2.Sound := by
  unfold saveControlPlaneState
  dsimp only
  split
  · intro hwritten change hchange
    exact ⟨_, rfl, stateFromGuard_lists htracked.scope
      (htracked.covers hwritten change hchange)⟩
  · exact fun hwritten => absurd hwritten (by simp)
  · exact fun hwritten => absurd hwritten (by simp)

theorem saveRemaining_sound {name : String} {guard : ControlPlaneGuard}
    {machine : Machine} (htracked : Tracked name guard machine) :
    (saveRemainingControlPlaneState env name true guard machine).2.Sound := by
  unfold saveRemainingControlPlaneState
  rw [if_pos rfl]
  dsimp only
  split
  · rename_i hempty
    apply removeControlPlaneState_sound
    intro hwritten
    apply List.eq_nil_iff_forall_not_mem.mpr
    intro change hchange
    exact not_lists_of_isEmpty htracked.scope hempty change
      (htracked.covers hwritten change hchange)
  · exact saveControlPlaneState_sound env htracked

end StateFile

section Apply

variable (env : Environment)

/-- A step of an apply that starts in `P` succeeds in `Q` or fails in `R`. -/
def Step.Ensures (P Q R : ControlPlaneGuard → Machine → Prop) (step : Step) :
    Prop :=
  ∀ guard machine, P guard machine →
    match (step guard machine).1.1 with
    | .ok _ => Q (step guard machine).1.2 (step guard machine).2
    | .error _ => R (step guard machine).1.2 (step guard machine).2

theorem Step.Ensures.andThen {P Q R T : ControlPlaneGuard → Machine → Prop}
    {first second : Step} (hfirst : Step.Ensures P Q T first)
    (hsecond : Step.Ensures Q R T second) :
    Step.Ensures P R T (Step.andThen first second) := by
  intro guard machine hbefore
  have hbetween := hfirst guard machine hbefore
  rcases hdone : first guard machine with ⟨⟨error | result, after⟩, next⟩
  · rw [hdone] at hbetween
    simp only [Step.andThen, hdone]
    exact hbetween
  · rw [hdone] at hbetween
    simp only [Step.andThen, hdone]
    exact hsecond after next hbetween

variable (plan : ControlPlanePlan) (name : String)

/-- How far an apply has come: whether the address is in place, and whether
the routes are. -/
structure Reached (address routes : Bool) (guard : ControlPlaneGuard)
    (machine : Machine) : Prop extends Tracked name guard machine where
  bypassRoutes : guard.addedUnderlayBypassRoutes ⊆ plan.underlayBypassRoutes
  interfaceCidr : guard.interfaceCidr =
    if address then plan.interfaceCidr.map (·, name) else none
  addedRoutes : guard.addedRoutes =
    if routes then plan.routes.map (·, name) else []
  dnsServers : guard.appliedDnsServers = []
  dnsInterfaceName : guard.dnsInterfaceName = none

/-- An apply that got through. -/
structure Applied (guard : ControlPlaneGuard) (machine : Machine) : Prop
    extends Tracked name guard machine where
  bypassRoutes : guard.addedUnderlayBypassRoutes ⊆ plan.underlayBypassRoutes
  interfaceCidr : guard.interfaceCidr = plan.interfaceCidr.map (·, name)
  addedRoutes : guard.addedRoutes = plan.routes.map (·, name)
  dnsServers : guard.appliedDnsServers =
    if plan.applyDns then plan.dnsServers else []

theorem applyBypassRoutes_ensures :
    Step.Ensures (Reached plan name false false)
      (Reached plan name false false) (Tracked name)
      (applyBypassRoutes env plan) := by
  intro guard machine hbefore
  have hfile : SameFile machine
      (addEach (addUnderlayBypassRoute env) plan.underlayBypassRoutes
        machine).2 := by
    apply addEach_invariant _ (SameFile.refl machine)
    intro cidr _ between hbetween
    exact hbetween.trans (addUnderlayBypassRoute_sameFile cidr between)
  have hadded := addEach_present (addUnderlayBypassRoute_adds env)
    plan.underlayBypassRoutes machine
  have htracked : Tracked name (applyBypassRoutes env plan guard machine).1.2
      (applyBypassRoutes env plan guard machine).2 := by
    refine ⟨?_, ⟨hbefore.scope.address, hbefore.scope.routes,
      hbefore.scope.dns⟩, hbefore.live⟩
    intro hwritten change hchange
    have hwrittenBefore : machine.stateWriteFailed = false :=
      hfile.stateWriteFailed.symm.trans hwritten
    rcases hadded change hchange with hold | hnew
    · have hlists := hbefore.covers hwrittenBefore change hold
      cases change with
      | bypass cidr => exact List.mem_append_left _ hlists
      | address cidr owner => exact hlists
      | route cidr owner => exact hlists
      | dns server owner => exact hlists
    · obtain ⟨cidr, hcidr, rfl⟩ := List.mem_map.mp hnew
      exact List.mem_append_right _ hcidr
  have hbypass : guard.addedUnderlayBypassRoutes ++
      (addEach (addUnderlayBypassRoute env) plan.underlayBypassRoutes
        machine).1.2 ⊆ plan.underlayBypassRoutes :=
    List.append_subset.mpr ⟨hbefore.bypassRoutes, addEach_subset _ _⟩
  split
  · exact ⟨htracked, hbypass, hbefore.interfaceCidr, hbefore.addedRoutes,
      hbefore.dnsServers, hbefore.dnsInterfaceName⟩
  · exact htracked

theorem applyAddress_ensures :
    Step.Ensures (Reached plan name false false)
      (Reached plan name true false) (Tracked name)
      (applyAddress env plan name) := by
  intro guard machine hbefore
  unfold applyAddress
  cases hplan : plan.interfaceCidr with
  | none =>
      refine ⟨hbefore.toTracked, hbefore.bypassRoutes, ?_,
        hbefore.addedRoutes, hbefore.dnsServers, hbefore.dnsInterfaceName⟩
      rw [hbefore.interfaceCidr, hplan]
      rfl
  | some cidr =>
      have hfile : SameFile machine
          (addInterfaceAddress env cidr name machine).2 :=
        runBuilt_sameFile _ machine
      have hadds : ∀ entry ∈ (addInterfaceAddress env cidr name machine).2.host,
          entry ∈ machine.host ∨
            (addInterfaceAddress env cidr name machine).1 = .ok () ∧
              entry = .address cidr name :=
        runBuilt_adds addressAdd_effect machine
      dsimp only
      rcases hadd : addInterfaceAddress env cidr name machine with
        ⟨error | result, next⟩
      · rw [hadd] at hfile hadds
        refine ⟨?_, hbefore.scope, hbefore.live⟩
        intro hwritten change hchange
        rcases hadds change hchange with hold | ⟨hok, -⟩
        · exact hbefore.covers (hfile.stateWriteFailed.symm.trans hwritten)
            change hold
        · cases hok
      · rw [hadd] at hfile hadds
        refine ⟨⟨?_, ⟨?_, hbefore.scope.routes, hbefore.scope.dns⟩,
          hbefore.live⟩, hbefore.bypassRoutes, ?_, hbefore.addedRoutes,
          hbefore.dnsServers, hbefore.dnsInterfaceName⟩
        · intro hwritten change hchange
          rcases hadds change hchange with hold | ⟨-, rfl⟩
          · have hlists := hbefore.covers
              (hfile.stateWriteFailed.symm.trans hwritten) change hold
            cases change with
            | address other owner =>
                -- The guard had no address before.
                rw [ControlPlaneGuard.Lists, hbefore.interfaceCidr] at hlists
                cases hlists
            | route other owner => exact hlists
            | bypass other => exact hlists
            | dns server owner => exact hlists
          · rfl
        · intro entry hentry
          rw [← Option.mem_some.mp hentry]
        · rw [hplan]
          rfl

theorem applyRoutes_ensures :
    Step.Ensures (Reached plan name true false)
      (Reached plan name true true) (Tracked name)
      (applyRoutes env plan name) := by
  intro guard machine hbefore
  let add (route : String) := always (addRoute env route name)
  have hfile : SameFile machine (addEach add plan.routes machine).2 := by
    apply addEach_invariant _ (SameFile.refl machine)
    intro route _ between hbetween
    exact hbetween.trans (runBuilt_sameFile _ between)
  have hadd : ∀ route between, ∀ entry ∈ (add route between).2.host,
      entry ∈ between.host ∨
        (add route between).1 = .ok true ∧ entry = .route route name := by
    intro route between entry hentry
    rcases runBuilt_adds routeAdd_effect between entry hentry with
      hold | ⟨hok, hnew⟩
    · exact .inl hold
    · exact .inr ⟨congrArg (Except.map fun _ => true) hok, hnew⟩
  have hadded := addEach_present hadd plan.routes machine
  have htracked : Tracked name (applyRoutes env plan name guard machine).1.2
      (applyRoutes env plan name guard machine).2 := by
    refine ⟨?_, ⟨hbefore.scope.address, ?_, hbefore.scope.dns⟩,
      hbefore.live⟩
    · intro hwritten change hchange
      rcases hadded change hchange with hold | hnew
      · have hlists := hbefore.covers
          (hfile.stateWriteFailed.symm.trans hwritten) change hold
        cases change with
        | route cidr owner => exact List.mem_append_left _ hlists
        | address cidr owner => exact hlists
        | bypass cidr => exact hlists
        | dns server owner => exact hlists
      · obtain ⟨route, hroute, rfl⟩ := List.mem_map.mp hnew
        exact List.mem_append_right _
          (List.mem_map.mpr ⟨route, hroute, rfl⟩)
    · intro entry hentry
      rcases List.mem_append.mp hentry with hold | hnew
      · exact hbefore.scope.routes entry hold
      · obtain ⟨route, -, rfl⟩ := List.mem_map.mp hnew
        rfl
  have hanswers : ∀ route between, (add route between).1 ≠ .ok false := by
    intro route between hfalse
    have hmap : (addRoute env route name between).1.map (fun _ => true) =
      .ok false := hfalse
    cases hcall : (addRoute env route name between).1 with
    | error error => simp [hcall, Except.map] at hmap
    | ok result => simp [hcall, Except.map] at hmap
  split
  · rename_i hok
    have hall := addEach_all hanswers hok
    refine ⟨htracked, hbefore.bypassRoutes, hbefore.interfaceCidr, ?_,
      hbefore.dnsServers, hbefore.dnsInterfaceName⟩
    change guard.addedRoutes ++
      (addEach add plan.routes machine).1.2.map (·, name) = _
    rw [hall, hbefore.addedRoutes]
    rfl
  · exact htracked

theorem applyDns_ensures :
    Step.Ensures (Reached plan name true true) (Applied plan name)
      (Tracked name) (applyDns env plan name) := by
  intro guard machine hbefore
  unfold applyDns
  cases happly : plan.applyDns with
  | false =>
      exact ⟨hbefore.toTracked, hbefore.bypassRoutes, hbefore.interfaceCidr,
        hbefore.addedRoutes, by rw [happly]; exact hbefore.dnsServers⟩
  | true =>
      rw [if_pos rfl]
      dsimp only
      have hfile : SameFile machine
          (applyDnsServers env plan.dnsServers name machine).2 :=
        applyDnsServers_sameFile plan.dnsServers name machine
      have htracked : Tracked name
          { guard with
            appliedDnsServers := plan.dnsServers
            dnsInterfaceName := some name }
          (applyDnsServers env plan.dnsServers name machine).2 := by
        refine ⟨?_, ⟨hbefore.scope.address, hbefore.scope.routes, ?_⟩,
          hbefore.live⟩
        · intro hwritten change hchange
          rcases applyDnsServers_adds plan.dnsServers name machine change
            hchange with hold | ⟨server, hserver, rfl⟩
          · have hlists := hbefore.covers
              (hfile.stateWriteFailed.symm.trans hwritten) change hold
            cases change with
            | dns server owner =>
                rw [ControlPlaneGuard.Lists, hbefore.dnsInterfaceName]
                  at hlists
                cases hlists.1
            | address cidr owner => exact hlists
            | route cidr owner => exact hlists
            | bypass cidr => exact hlists
          · exact ⟨rfl, hserver⟩
        · exact fun entry hentry => (Option.mem_some.mp hentry).symm
      split
      · exact ⟨htracked, hbefore.bypassRoutes, hbefore.interfaceCidr,
          hbefore.addedRoutes, by rw [happly]; rfl⟩
      · exact htracked

/-- A live apply from a host without changes: it gets through with all of the
plan, or stops with a guard that lists what is in place. -/
theorem applyPlan_ensures :
    Step.Ensures (Reached plan name false false) (Applied plan name)
      (Tracked name) (applyPlan env plan name) := by
  intro guard machine hbefore
  unfold applyPlan
  rw [hbefore.live]
  exact (applyBypassRoutes_ensures env plan name).andThen
    ((applyAddress_ensures env plan name).andThen
      ((applyRoutes_ensures env plan name).andThen
        (applyDns_ensures env plan name))) guard machine hbefore

variable {plan name}

theorem reached_start {machine : Machine}
    (hnil : machine.stateWriteFailed = false → machine.host = []) :
    Reached plan name false false {} machine where
  covers hwritten change hchange := by
    rw [hnil hwritten] at hchange
    exact absurd hchange List.not_mem_nil
  scope := ⟨by simp, by simp, by simp⟩
  live := rfl
  bypassRoutes := List.nil_subset _
  interfaceCidr := rfl
  addedRoutes := rfl
  dnsServers := rfl
  dnsInterfaceName := rfl

/-- A rollback after a failed apply leaves the rest in the state file. -/
theorem abandonApply_sound {guard : ControlPlaneGuard} {machine : Machine}
    (htracked : Tracked name guard machine) (error : ShphError) :
    (abandonApply env name error guard machine).2.Sound := by
  have hremaining := (cleanup_undoes env guard machine).tracked htracked
  unfold abandonApply
  dsimp only
  split
  · rename_i hok
    exact sound_of_host_nil fun hwritten =>
      cleanup_host_nil htracked.covers hok hwritten
  · dsimp only
    split
    · exact saveRemaining_sound env hremaining
    · rename_i hcondition
      -- Nothing is left in the guard, so nothing is left on the host.
      apply sound_of_host_nil
      intro hwritten
      apply List.eq_nil_iff_forall_not_mem.mpr
      intro change hchange
      have hlists := hremaining.covers hwritten change hchange
      apply not_lists_of_isEmpty hremaining.scope _ change hlists
      simp only [hremaining.live, Bool.not_false, Bool.true_and,
        Bool.or_eq_true, Bool.not_eq_true', not_or, Bool.not_eq_true,
        Option.isSome_eq_false_iff, Option.isNone_iff_eq_none,
        Bool.not_eq_false, List.isEmpty_iff] at hcondition
      obtain ⟨⟨⟨haddress, hroutes⟩, hbypass⟩, hdns⟩ := hcondition
      simp [PersistedControlPlaneState.isEmpty, stateFromGuard, haddress,
        hroutes, hbypass, hdns]

/-- What an apply returns when it gets through: a guard without changes, or
one that lists all of a live plan. -/
theorem applyControlPlane_ok {config : Config}
    {underlayOverride : Option TcpUnderlay} {machine : Machine}
    {guard : ControlPlaneGuard}
    (hnil : machine.stateWriteFailed = false → machine.host = [])
    (hok : (applyControlPlaneWithUnderlay env config name underlayOverride
      machine).1 = .ok guard) :
    ((applyControlPlaneWithUnderlay env config name underlayOverride
        machine).2 = machine ∧ controlStateRecorded guard = false ∧
      ∀ control ∈ config.controlPlane, control.dryRun.getD true = true) ∨
    ∃ control plan, config.controlPlane = some control ∧
      control.dryRun.getD true = false ∧
      buildControlPlanePlan env.text env.platform control name = .ok plan ∧
      Applied plan name guard (applyControlPlaneWithUnderlay env config name
        underlayOverride machine).2 := by
  unfold applyControlPlaneWithUnderlay at hok ⊢
  cases hcontrol : config.controlPlane with
  | none =>
      rw [hcontrol] at hok
      cases hok
      exact .inl ⟨rfl, rfl, by simp⟩
  | some control =>
      rw [hcontrol] at hok
      dsimp only at hok ⊢
      cases hpreflight : preflight env config control name
          underlayOverride with
      | error error =>
          rw [hpreflight] at hok
          cases hok
      | ok plan =>
          rw [hpreflight] at hok
          dsimp only at hok ⊢
          cases hdry : control.dryRun.getD true with
          | true =>
              rw [hdry] at hok
              cases hok
              refine .inl ⟨rfl, rfl, ?_⟩
              intro other hother
              rw [← Option.mem_some.mp hother, hdry]
          | false =>
              rw [hdry] at hok
              have happlied := applyPlan_ensures env plan name _ machine
                (reached_start hnil)
              refine .inr ⟨control, plan, rfl, hdry, ?_, ?_⟩
              · obtain ⟨built, hbuild, hrest⟩ :=
                  bind_eq_ok_iff.mp hpreflight
                obtain ⟨-, -, hplan⟩ := bind_eq_ok_iff.mp hrest
                cases hplan
                exact hbuild
              · split at hok
                · rename_i hresult
                  rw [hresult] at happlied
                  cases hok
                  exact happlied
                · cases hok

/-- An apply that fails leaves a complete ledger. -/
theorem applyControlPlane_error {config : Config}
    {underlayOverride : Option TcpUnderlay} {machine : Machine}
    {error : ShphError}
    (hnil : machine.stateWriteFailed = false → machine.host = [])
    (herror : (applyControlPlaneWithUnderlay env config name underlayOverride
      machine).1 = .error error) :
    (applyControlPlaneWithUnderlay env config name underlayOverride
      machine).2.Sound := by
  unfold applyControlPlaneWithUnderlay at herror ⊢
  cases hcontrol : config.controlPlane with
  | none =>
      rw [hcontrol] at herror
      cases herror
  | some control =>
      rw [hcontrol] at herror
      dsimp only at herror ⊢
      cases hpreflight : preflight env config control name
          underlayOverride with
      | error reason => exact sound_of_host_nil hnil
      | ok plan =>
          rw [hpreflight] at herror
          dsimp only at herror ⊢
          cases hdry : control.dryRun.getD true with
          | true =>
              rw [hdry] at herror
              cases herror
          | false =>
              rw [hdry] at herror
              have happlied := applyPlan_ensures env plan name _ machine
                (reached_start hnil)
              split at herror
              · cases herror
              · rename_i reason hresult
                rw [hresult] at happlied
                exact abandonApply_sound env happlied reason

end Apply

section Operations

variable (env : Environment)

theorem host_nil_of_sound {machine : Machine} (hsound : machine.Sound)
    (hfile : machine.stateFile = none) :
    machine.stateWriteFailed = false → machine.host = [] := by
  intro hwritten
  apply List.eq_nil_iff_forall_not_mem.mpr
  intro change hchange
  obtain ⟨state, hstate, -⟩ := hsound hwritten change hchange
  rw [hfile] at hstate
  cases hstate

theorem covers_of_sound {machine : Machine} (hsound : machine.Sound)
    {state : PersistedControlPlaneState}
    (hfile : machine.stateFile = some state) :
    Covers (guardFromState state) machine := by
  intro hwritten change hchange
  obtain ⟨listed, hlisted, hlists⟩ := hsound hwritten change hchange
  rw [hfile] at hlisted
  cases hlisted
  exact guardFromState_lists hlists

/-- A write that fails leaves the guard as good as it was. -/
theorem save_tracked {name : String} {guard : ControlPlaneGuard}
    {machine : Machine} (htracked : Tracked name guard machine)
    (state : PersistedControlPlaneState) :
    Tracked name guard (saveControlPlaneState env state machine).2 := by
  refine ⟨?_, htracked.scope, htracked.live⟩
  unfold saveControlPlaneState
  dsimp only
  split
  · exact htracked.covers
  · exact fun hwritten => absurd hwritten (by simp)
  · exact fun hwritten => absurd hwritten (by simp)

theorem recordApply_sound {name : String} {guard : ControlPlaneGuard}
    {machine : Machine} (htracked : Tracked name guard machine) :
    (recordApply env name guard machine).2.Sound := by
  have hsaved := save_tracked env htracked (stateFromGuard name guard)
  unfold recordApply
  dsimp only
  split
  · exact saveControlPlaneState_sound env htracked
  · split
    · rename_i hok
      exact sound_of_host_nil (cleanup_host_nil hsaved.covers hok)
    · exact saveControlPlaneState_sound env
        ((cleanup_undoes env guard _).tracked hsaved)

theorem loadControlPlaneState_sameFile (state : PersistedControlPlaneState)
    (machine : Machine) :
    SameFile machine (loadControlPlaneState env state machine).2 := by
  unfold loadControlPlaneState
  dsimp only
  split <;> exact ⟨rfl, rfl⟩

theorem loadControlPlaneState_host (state : PersistedControlPlaneState)
    (machine : Machine) :
    (loadControlPlaneState env state machine).2.host = machine.host := by
  unfold loadControlPlaneState
  dsimp only
  split <;> rfl

theorem loadControlPlaneState_sound {machine : Machine}
    (hsound : machine.Sound) (state : PersistedControlPlaneState) :
    (loadControlPlaneState env state machine).2.Sound := by
  apply hsound.of_shrinks (loadControlPlaneState_sameFile env state machine)
  rw [loadControlPlaneState_host]
  exact List.Subset.refl _

theorem compareRecorded_sound {machine : Machine} (hsound : machine.Sound)
    (desired existing : PersistedControlPlaneState) :
    (compareRecorded env desired existing machine).2.Sound := by
  have hloaded := loadControlPlaneState_sound env hsound existing
  unfold compareRecorded
  dsimp only
  split
  · exact hloaded
  · split <;> exact hloaded

theorem applyFresh_sound {config : Config} {control : ControlPlaneConfig}
    {name : String} {machine : Machine}
    (hcontrol : config.controlPlane = some control)
    (hnil : machine.stateWriteFailed = false → machine.host = []) :
    (applyFresh env config control name machine).2.Sound := by
  unfold applyFresh applyControlPlane
  dsimp only
  split
  · rename_i error herror
    exact applyControlPlane_error env hnil herror
  · rename_i guard hok
    rcases applyControlPlane_ok env hnil hok with
      ⟨hsame, -, hdry⟩ | ⟨other, plan, hother, hlive, -, happlied⟩
    · rw [if_pos (hdry control hcontrol), hsame]
      exact sound_of_host_nil hnil
    · rw [hcontrol] at hother
      cases hother
      rw [hlive]
      exact recordApply_sound env happlied.toTracked

theorem handleControlPlaneApply_sound {machine : Machine}
    (hsound : machine.Sound) (loaded : Except ShphError Config) :
    (handleControlPlaneApply env loaded machine).2.Sound := by
  unfold handleControlPlaneApply
  split
  · exact hsound
  · split
    · exact hsound
    · rename_i control hcontrol
      dsimp only
      split
      · exact hsound
      · split
        · exact hsound
        · split
          · exact compareRecorded_sound env hsound _ _
          · rename_i hfile
            exact applyFresh_sound env hcontrol
              (host_nil_of_sound hsound hfile)

theorem undoRecorded_sound {machine : Machine} (hsound : machine.Sound)
    {existing : PersistedControlPlaneState}
    (hfile : machine.stateFile = some existing) :
    (undoRecorded env existing machine).2.Sound := by
  have hloaded := loadControlPlaneState_sound env hsound existing
  have hloadedFile :=
    (loadControlPlaneState_sameFile env existing machine).stateFile.trans hfile
  unfold undoRecorded
  dsimp only
  split
  · exact hloaded
  · rename_i state hstate
    have hsame : state = existing := by
      unfold loadControlPlaneState at hstate
      dsimp only at hstate
      split at hstate <;> cases hstate
      rfl
    subst hsame
    have hcovers := covers_of_sound hloaded hloadedFile
    split
    · -- What could not be taken back is still in the file.
      have hundoes := cleanup_undoes env (guardFromState state)
        (loadControlPlaneState env state machine).2
      exact hloaded.of_shrinks hundoes.file hundoes.shrinks
    · rename_i hok
      exact removeControlPlaneState_sound env (cleanup_host_nil hcovers hok)

theorem handleControlPlaneUndo_sound {machine : Machine}
    (hsound : machine.Sound) :
    (handleControlPlaneUndo env machine).2.Sound := by
  unfold handleControlPlaneUndo
  split
  · exact hsound
  · rename_i existing hfile
    exact undoRecorded_sound env hsound hfile

theorem handleControlPlaneReconcile_sound {machine : Machine}
    (hsound : machine.Sound) (loaded : Except ShphError Config) :
    (handleControlPlaneReconcile env loaded machine).2.Sound := by
  unfold handleControlPlaneReconcile
  split
  · exact handleControlPlaneApply_sound env hsound loaded
  · rename_i existing hfile
    have hundone := undoRecorded_sound env hsound hfile
    dsimp only
    split
    · exact hundone
    · exact handleControlPlaneApply_sound env hundone loaded

/-- The clean-up of a session whose guard was kept. -/
theorem finishControlPlane_sound {name : String} {guard : ControlPlaneGuard}
    {machine : Machine} (htracked : Tracked name guard machine) :
    (finishControlPlane env name true guard machine).2.Sound := by
  unfold finishControlPlane
  dsimp only
  split
  · rename_i hok
    exact removeControlPlaneState_sound env
      (cleanup_host_nil htracked.covers hok)
  · exact saveRemaining_sound env
      ((cleanup_undoes env guard machine).tracked htracked)

/-- The clean-up of a session that had nothing to keep. -/
theorem finishControlPlane_unrecorded_sound {name : String}
    {guard : ControlPlaneGuard} {machine : Machine}
    (hnil : machine.stateWriteFailed = false → machine.host = []) :
    (finishControlPlane env name false guard machine).2.Sound := by
  have hundoes := cleanup_undoes env guard machine
  have hcleaned : (cleanup env guard machine).2.Sound :=
    (sound_of_host_nil hnil).of_shrinks hundoes.file hundoes.shrinks
  unfold finishControlPlane
  dsimp only
  split <;> exact hcleaned

theorem finishUpCleanup_machine (options : UpOptions) (recorded : Bool)
    (guard : ControlPlaneGuard) (primary : Option (String × ShphError))
    (machine : Machine) :
    (finishUpCleanup env options recorded guard primary machine).2 =
      (finishControlPlane env options.tunName recorded guard machine).2 := by
  unfold finishUpCleanup
  dsimp only
  split <;> rfl

/-- All machines an operation shows. -/
def Shown (done : Outcome × Machine) (machine : Machine) : Prop :=
  done.1.running = some machine ∨ machine = done.2

theorem upWithGuard_sound {options : UpOptions} {guard : ControlPlaneGuard}
    {machine : Machine}
    (hkept : controlStateRecorded guard = true →
      Tracked options.tunName guard machine)
    (hother : controlStateRecorded guard = false →
      machine.stateWriteFailed = false → machine.host = []) :
    ∀ shown, Shown (upWithGuard env options guard machine) shown →
      shown.Sound := by
  unfold upWithGuard
  cases hrecorded : controlStateRecorded guard with
  | false =>
      rintro shown (hrunning | hafter)
      · cases hrunning
        exact sound_of_host_nil (hother hrecorded)
      · rw [hafter, if_neg (by simp), runSession]
        dsimp only
        rw [finishUpCleanup_machine, hrecorded]
        exact finishControlPlane_unrecorded_sound env (hother hrecorded)
  | true =>
      have htracked := hkept hrecorded
      have hsaved := save_tracked env htracked
        (stateFromGuard options.tunName guard)
      rw [if_pos rfl]
      dsimp only
      split
      · rintro shown (hrunning | hafter)
        · cases hrunning
          exact saveControlPlaneState_sound env htracked
        · rw [hafter, runSession]
          dsimp only
          rw [finishUpCleanup_machine, hrecorded]
          exact finishControlPlane_sound env hsaved
      · rintro shown (hrunning | hafter)
        · cases hrunning
        · rw [hafter]
          dsimp only
          rw [finishUpCleanup_machine]
          exact finishControlPlane_sound env hsaved

/-- The configuration `up` does not keep a guard for: a live one that asks for
underlay bypass routes, and for no address, route or DNS server. -/
def ControlPlaneConfig.BypassOnly (control : ControlPlaneConfig) : Prop :=
  control.dryRun.getD true = false ∧
    control.applyRoutes.getD false = true ∧
    control.underlayBypassCidrs.getD [] ≠ [] ∧
    control.routeCidrs.getD [] = [] ∧
    control.applyInterfaceAddress.getD false = false ∧
    (control.applyDns.getD false = false ∨ control.dnsServers.getD [] = [])

/-- `up` is not called with such a configuration. -/
def Operation.KeepsGuard : Operation → Prop
  | .up options => ∀ control ∈ options.config.controlPlane,
      ¬ control.BypassOnly
  | _ => True

/-- An apply that got through and is not kept, for another configuration, has
changed nothing. -/
theorem not_lists_of_unrecorded {control : ControlPlaneConfig}
    {name : String} {plan : ControlPlanePlan} {guard : ControlPlaneGuard}
    {machine : Machine} (hlive : control.dryRun.getD true = false)
    (hbuild : buildControlPlanePlan env.text env.platform control name =
      .ok plan) (happlied : Applied plan name guard machine)
    (hkeeps : ¬ control.BypassOnly)
    (hrecorded : controlStateRecorded guard = false) (change : Mutation) :
    ¬ guard.Lists change := by
  obtain ⟨haddress, hroutes, hdns, happly⟩ :=
    buildControlPlanePlan_parts hbuild
  rw [controlStateRecorded, happlied.live, happlied.interfaceCidr,
    happlied.addedRoutes, happlied.dnsServers] at hrecorded
  simp only [Bool.not_false, Bool.true_and, Option.isSome_map,
    List.isEmpty_map, Bool.or_eq_false_iff, Bool.not_eq_false',
    List.isEmpty_iff] at hrecorded
  obtain ⟨⟨hnoAddress, hnoRoutes⟩, hnoDns⟩ := hrecorded
  have hservers : plan.dnsServers = [] := by
    rw [happly] at hnoDns
    cases hlist : plan.dnsServers with
    | nil => rfl
    | cons server rest => simp [hlist] at hnoDns
  -- The plan asks for nothing but bypass routes, so it asks for none.
  have hbypass : plan.underlayBypassRoutes = [] := by
    by_contra hsome
    rcases planRoutes_eq hroutes with
      ⟨happly, hcidrs, hbypassCidrs⟩ | ⟨-, -, hnone⟩
    · apply hkeeps
      refine ⟨hlive, happly, hbypassCidrs ▸ hsome, hcidrs ▸ hnoRoutes, ?_, ?_⟩
      · rw [← planAddress_isSome haddress]
        exact hnoAddress
      · have hdnsEq := planDns_eq hdns
        rw [hservers] at hdnsEq
        cases happlyDns : control.applyDns.getD false with
        | false => exact .inl rfl
        | true =>
            rw [happlyDns, if_pos rfl] at hdnsEq
            exact .inr hdnsEq.symm
    · exact hsome hnone
  intro hlists
  cases change with
  | address cidr owner =>
      rw [ControlPlaneGuard.Lists, happlied.interfaceCidr] at hlists
      rw [Option.isSome_eq_false_iff, Option.isNone_iff_eq_none] at hnoAddress
      rw [hnoAddress] at hlists
      cases hlists
  | route cidr owner =>
      rw [ControlPlaneGuard.Lists, happlied.addedRoutes, hnoRoutes] at hlists
      exact absurd hlists List.not_mem_nil
  | bypass cidr =>
      have hmem := happlied.bypassRoutes hlists
      rw [hbypass] at hmem
      exact absurd hmem List.not_mem_nil
  | dns server owner =>
      have hserver := hlists.2
      rw [happlied.dnsServers, hnoDns] at hserver
      exact absurd hserver List.not_mem_nil

theorem handleUp_sound {machine : Machine} (hsound : machine.Sound)
    {options : UpOptions}
    (hkeeps : ∀ control ∈ options.config.controlPlane,
      ¬ control.BypassOnly) :
    ∀ shown, Shown (handleUp env options machine) shown → shown.Sound := by
  have hstop : ∀ (error : ShphError) (next : Machine), next.Sound →
      ∀ shown, Shown ({ result := .error error, running := none }, next)
        shown → shown.Sound := by
    rintro error next hnext shown (hrunning | rfl)
    · cases hrunning
    · exact hnext
  unfold handleUp
  dsimp only
  split
  · exact hstop _ _ hsound
  · split
    · exact hstop _ _ hsound
    · rename_i hfile
      have hnil := host_nil_of_sound hsound
        (Option.not_isSome_iff_eq_none.mp hfile)
      split
      · exact hstop _ _ hsound
      · split
        · rename_i guard hok
          rcases applyControlPlane_ok env hnil hok with
            ⟨hsame, hunrecorded, -⟩ |
            ⟨control, plan, hcontrol, hlive, hbuild, happlied⟩
          · rw [hsame]
            apply upWithGuard_sound env
            · intro hrecorded
              rw [hunrecorded] at hrecorded
              cases hrecorded
            · exact fun _ => hnil
          · apply upWithGuard_sound env
            · exact fun _ => happlied.toTracked
            · intro hunrecorded hwritten
              apply List.eq_nil_iff_forall_not_mem.mpr
              intro change hchange
              exact not_lists_of_unrecorded env hlive hbuild happlied
                (hkeeps control hcontrol) hunrecorded change
                (happlied.covers hwritten change hchange)
        · rename_i error herror
          exact hstop _ _ (applyControlPlane_error env hnil herror)

/-- One operation keeps the ledger complete, and shows it complete. -/
theorem perform_sound {machine : Machine} (hsound : machine.Sound)
    {operation : Operation} (hkeeps : operation.KeepsGuard) :
    ∀ shown, Shown (perform env machine operation) shown → shown.Sound := by
  cases operation with
  | apply config =>
      rintro shown (hrunning | rfl)
      · cases hrunning
      · exact handleControlPlaneApply_sound env hsound config
  | reconcile config =>
      rintro shown (hrunning | rfl)
      · cases hrunning
      · exact handleControlPlaneReconcile_sound env hsound config
  | undo =>
      rintro shown (hrunning | rfl)
      · cases hrunning
      · exact handleControlPlaneUndo_sound env hsound
  | up options => exact handleUp_sound env hsound hkeeps

theorem visited_sound {start : Machine} (hstart : start.Sound)
    {operations : List Operation}
    (hkeeps : ∀ operation ∈ operations, operation.KeepsGuard) :
    ∀ machine ∈ visited env start operations, machine.Sound := by
  induction operations generalizing start with
  | nil => exact fun machine hmachine => absurd hmachine List.not_mem_nil
  | cons operation rest ih =>
      rw [List.forall_mem_cons] at hkeeps
      have hshown := perform_sound env hstart hkeeps.1
      intro machine hmachine
      rw [visited] at hmachine
      rcases List.mem_append.mp hmachine with hrunning | hlater
      · exact hshown machine (.inl (Option.mem_toList.mp hrunning))
      · rcases List.mem_cons.mp hlater with hafter | hrest
        · exact hshown machine (.inr hafter)
        · exact ih (hshown _ (.inr rfl)) hkeeps.2 machine hrest

end Operations

/-- In every run in which `up` keeps its guard, whatever the commands do, each
change SHPH made and has not taken back is listed in the state file: after
every operation and while a session runs, unless a write of the file
failed. -/
theorem changes_recorded (env : Environment) (start : Machine)
    (hstart : start.Recorded) (operations : List Operation)
    (hkeeps : ∀ operation ∈ operations, operation.KeepsGuard) :
    ∀ machine ∈ visited env start operations,
      machine.stateWriteFailed = false → machine.Recorded :=
  visited_sound env (fun _ => hstart) hkeeps

section BypassOnly

variable (env : Environment)

/-- A bypass that passes its check is added where the command works. -/
theorem addUnderlayBypassRoute_works {cidr : String}
    (hvalid : validateUnderlayBypassCidr env.text cidr = .ok ())
    (hplatform : env.platform ≠ .other)
    (hcommands : ∀ moment, env.command moment = .succeeds false)
    (machine : Machine) :
    addUnderlayBypassRoute env cidr machine =
      (.ok true, { machine with
        clock := machine.clock + 1
        host := machine.host ++ [.bypass cidr] }) := by
  have hbuild : buildUnderlayBypassRouteAddCommand env.text env.platform
      cidr = .ok (.bypassAdd cidr) := by
    rw [buildUnderlayBypassRouteAddCommand, hvalid]
    cases hname : env.platform with
    | linux => rfl
    | windows => rfl
    | other => exact absurd hname hplatform
  unfold addUnderlayBypassRoute runShellCommandCapture
  rw [hbuild]
  dsimp only
  rw [hcommands]
  rfl

theorem addEach_bypass_works (hplatform : env.platform ≠ .other)
    (hcommands : ∀ moment, env.command moment = .succeeds false)
    {routes : List String}
    (hvalid : ∀ route ∈ routes,
      validateUnderlayBypassCidr env.text route = .ok ())
    (machine : Machine) :
    (addEach (addUnderlayBypassRoute env) routes machine).1 =
        (.ok (), routes) ∧
      (addEach (addUnderlayBypassRoute env) routes machine).2.host =
        machine.host ++ routes.map .bypass := by
  induction routes generalizing machine with
  | nil => exact ⟨rfl, (List.append_nil _).symm⟩
  | cons route rest ih =>
      rw [List.forall_mem_cons] at hvalid
      rw [addEach_cons_ok (addUnderlayBypassRoute_works env hvalid.1
        hplatform hcommands machine)]
      obtain ⟨hresult, hhost⟩ := ih hvalid.2 { machine with
        clock := machine.clock + 1
        host := machine.host ++ [.bypass route] }
      rw [hresult, hhost]
      exact ⟨rfl, by simp⟩

/-- The condition is sharp: where the commands work, `up` with such a
configuration runs its session with bypass routes in place and no state
file. -/
theorem up_bypassOnly_unrecorded {options : UpOptions} {machine : Machine}
    {control : ControlPlaneConfig} {plan : ControlPlanePlan}
    (hchecks : options.checks = .ok ()) (hsetup : options.setup = .ok ())
    (hfile : machine.stateFile = none)
    (hcontrol : options.config.controlPlane = some control)
    (honly : control.BypassOnly)
    (hplan : preflight env options.config control options.tunName
      (some options.underlay) = .ok plan)
    (hplatform : env.platform ≠ .other)
    (hcommands : ∀ moment, env.command moment = .succeeds false) :
    ∃ running, (handleUp env options machine).1.running = some running ∧
      running.stateWriteFailed = machine.stateWriteFailed ∧
      ¬ running.Recorded := by
  obtain ⟨hlive, happlyRoutes, hsome, hnoRoutes, hnoAddress, hnoDns⟩ := honly
  obtain ⟨built, hbuild, hrest⟩ := bind_eq_ok_iff.mp hplan
  obtain ⟨-, -, hbuilt⟩ := bind_eq_ok_iff.mp hrest
  cases hbuilt
  obtain ⟨haddress, hroutes, hdns, happlyDns⟩ :=
    buildControlPlanePlan_parts hbuild
  have hplanAddress : plan.interfaceCidr = none := by
    rw [← Option.isNone_iff_eq_none, ← Option.isSome_eq_false_iff,
      planAddress_isSome haddress, hnoAddress]
  obtain ⟨hplanRoutes, hplanBypass⟩ : plan.routes = [] ∧
      plan.underlayBypassRoutes ≠ [] := by
    rcases planRoutes_eq hroutes with ⟨-, hcidrs, hbypass⟩ | ⟨hoff, -, -⟩
    · rw [hcidrs, hbypass]
      exact ⟨hnoRoutes, hsome⟩
    · rw [happlyRoutes] at hoff
      cases hoff
  have hplanDns : plan.applyDns = false := by
    have hservers := planDns_eq hdns
    rw [happlyDns, hservers]
    rcases hnoDns with hoff | hempty
    · rw [hoff]
      rfl
    · rw [hempty, ite_self]
      rfl
  obtain ⟨hadded, hhost⟩ := addEach_bypass_works env hplatform hcommands
    (planRoutes_bypass hroutes) machine
  have hkept : SameFile machine (addEach (addUnderlayBypassRoute env)
      plan.underlayBypassRoutes machine).2 := by
    apply addEach_invariant _ (SameFile.refl machine)
    intro cidr _ between hbetween
    exact hbetween.trans (addUnderlayBypassRoute_sameFile cidr between)
  have happlied : applyControlPlaneWithUnderlay env options.config
      options.tunName (some options.underlay) machine =
      (.ok { addedUnderlayBypassRoutes := plan.underlayBypassRoutes },
        (addEach (addUnderlayBypassRoute env) plan.underlayBypassRoutes
          machine).2) := by
    simp [applyControlPlaneWithUnderlay, hcontrol, hplan, hlive, applyPlan,
      Step.andThen, applyBypassRoutes, applyAddress, applyRoutes, applyDns,
      hadded, hplanAddress, hplanRoutes, hplanDns, addEach]
  refine ⟨_, ?_, hkept.stateWriteFailed, ?_⟩
  · simp only [handleUp, hchecks, hsetup, hfile, happlied]
    rfl
  · intro hrecorded
    obtain ⟨route, hroute⟩ := List.exists_mem_of_ne_nil _ hplanBypass
    obtain ⟨state, hstate, -⟩ := hrecorded (.bypass route) (by
      rw [hhost]
      exact List.mem_append_right _ (List.mem_map.mpr ⟨route, hroute, rfl⟩))
    rw [hkept.stateFile, hfile] at hstate
    cases hstate

end BypassOnly

end Shph.ControlPlane

namespace Shph.ControlPlaneWitness

open ByteCodec ControlPlane

/-- One number of a dotted address: no more than three digits and no leading
zero. -/
def parseOctet (text : String) : Option UInt8 :=
  let digits := text.toList
  let value := Nat.ofDigitChars 10 digits 0
  if digits ≠ [] ∧ digits.all Char.isDigit ∧ digits.length ≤ 3 ∧
      (digits.head? = some '0' → digits.length = 1) ∧ value ≤ 255 then
    some (UInt8.ofNat value)
  else none

/-- IPv4 addresses as the standard library reads them. -/
def parseDotted (text : String) : Option IpAddr := do
  let (first, rest) ← splitOnce '.' text
  let (second, rest) ← splitOnce '.' rest
  let (third, fourth) ← splitOnce '.' rest
  let a ← parseOctet first
  let b ← parseOctet second
  let c ← parseOctet third
  let d ← parseOctet fourth
  return .ofOctets a b c d

def showDotted : IpAddr → String
  | .v4 octets =>
      ".".intercalate (octets.val.map fun byte => toString byte.toNat)
  | .v6 octets => hexEncode octets.val

def parseSocket (text : String) : Option SocketAddr := do
  let (host, port) ← splitOnce ':' text
  let ip ← parseDotted host
  let value := Nat.ofDigitChars 10 port.toList 0
  if port ≠ "" ∧ port.toList.all Char.isDigit ∧ value < 65536 then
    return ⟨ip, UInt16.ofNat value⟩
  else none

/-- A Linux host whose commands work up to a moment and fail from then on. -/
def hostUntil (moment : Nat) : Environment where
  text := ⟨parseDotted, showDotted, parseSocket⟩
  platform := .linux
  showIo _ := "operation failed"
  command now :=
    if now < moment then .succeeds false
    else .fails (.internal "command 'ip' failed with status exit status: 2")
  save _ := .saved
  remove _ := none
  load _ := none

def fresh : Machine := ⟨[], none, false, 0⟩

def bypassOnly : ControlPlaneConfig where
  applyInterfaceAddress := none
  interfaceCidr := none
  applyRoutes := some true
  routeCidrs := none
  underlayBypassCidrs := some ["203.0.113.10/32"]
  applyDns := none
  dnsServers := none
  dryRun := some false

def upWith (control : ControlPlaneConfig) : UpOptions where
  config := ⟨"shph0", some control, .ok .direct⟩
  tunName := "shph0"
  underlay := .direct
  checks := .ok ()
  setup := .ok ()
  session := .ok ()
  mssCleanup := .ok ()
  natCleanup := .ok ()
  killswitchCleanup := .ok ()
  tunCleanup := .ok ()

/-- The bypass is added, and cannot be deleted after the session. -/
theorem bypassOnly_visited :
    visited (hostUntil 1) fresh [.up (upWith bypassOnly)] =
      [⟨[.bypass "203.0.113.10/32"], none, false, 1⟩,
        ⟨[.bypass "203.0.113.10/32"], none, false, 2⟩] := by
  decide

theorem fresh_recorded : fresh.Recorded :=
  fun _ hchange => absurd hchange List.not_mem_nil

theorem not_recorded_of_unlisted {machine : Machine} {change : Mutation}
    (hchange : change ∈ machine.host) (hfile : machine.stateFile = none) :
    ¬ machine.Recorded := by
  intro hrecorded
  obtain ⟨state, hstate, -⟩ := hrecorded change hchange
  rw [hfile] at hstate
  cases hstate

/-- The bypass is in place and in no state file, both while the session runs
and after `up` has returned, and no write of the file failed. -/
theorem bypass_unrecorded :
    fresh.Recorded ∧ ∃ running after,
      visited (hostUntil 1) fresh [.up (upWith bypassOnly)] =
        [running, after] ∧
      (running.stateWriteFailed = false ∧ ¬ running.Recorded) ∧
      (after.stateWriteFailed = false ∧ ¬ after.Recorded) :=
  ⟨fresh_recorded, _, _, bypassOnly_visited,
    ⟨rfl, not_recorded_of_unlisted List.mem_cons_self rfl⟩,
    ⟨rfl, not_recorded_of_unlisted List.mem_cons_self rfl⟩⟩

/-- A full tunnel: a default route beside the bypass. -/
def fullTunnel : ControlPlaneConfig :=
  { bypassOnly with routeCidrs := some ["0.0.0.0/0"] }

/-- Both changes are made, and every attempt to take them back fails. -/
def stuckRun : List Operation :=
  [.up (upWith fullTunnel), .undo, .reconcile (.ok (upWith fullTunnel).config)]

theorem stuckRun_keepsGuard :
    ∀ operation ∈ stuckRun, operation.KeepsGuard := by
  simp [stuckRun, Operation.KeepsGuard, upWith, fullTunnel, bypassOnly,
    ControlPlaneConfig.BypassOnly]

theorem stuckRun_recorded :
    (∀ machine ∈ visited (hostUntil 2) fresh stuckRun,
      machine.host = [.bypass "203.0.113.10/32",
        .route "0.0.0.0/0" "shph0"]) ∧
    ∀ machine ∈ visited (hostUntil 2) fresh stuckRun,
      machine.stateWriteFailed = false → machine.Recorded :=
  ⟨by decide,
    changes_recorded (hostUntil 2) fresh fresh_recorded stuckRun
      stuckRun_keepsGuard⟩

end Shph.ControlPlaneWitness
