/-
Applying a configuration twice.  The state file lists what the first apply
changed, and the second compares that list with everything the configuration
asks for.
-/
import Shph.ControlPlaneLedger
import Shph.Library.JsonLayout

namespace Shph.ControlPlane

open FlatJson JsonLayout Rollback

def maxControlPlaneStateBytes : Nat := 64 * 1024

/-- `serde_json::to_vec_pretty` of the state. -/
def PersistedControlPlaneState.fileText (state : PersistedControlPlaneState) :
    List Char :=
  let texts (values : List String) :=
    array .pretty 1 (values.map fun value => quote value.toList)
  object .pretty 0
    (("interface_name", quote state.interfaceName.toList) ::
      (state.interfaceCidr.toList.map fun cidr =>
        ("interface_cidr", quote cidr.toList)) ++
      [("routes", texts state.routes),
        ("underlay_bypass_routes", texts state.underlayBypassRoutes),
        ("dns_servers", texts state.dnsServers)])

def PersistedControlPlaneState.fileBytes (state : PersistedControlPlaneState) :
    Nat :=
  String.utf8Len state.fileText

/-- Why a state file that can be read is not loaded.  A save has no such
bound. -/
def loadRefusal (state : PersistedControlPlaneState) : Option ShphError :=
  if maxControlPlaneStateBytes < state.fileBytes then
    some (.protocol ("control-plane state exceeds " ++
      toString maxControlPlaneStateBytes ++ " bytes"))
  else none

theorem loadRefusal_eq_none_iff {state : PersistedControlPlaneState} :
    loadRefusal state = none ↔
      state.fileBytes ≤ maxControlPlaneStateBytes := by
  unfold loadRefusal
  split
  · rename_i hlarge
    exact ⟨nofun, fun hsmall => absurd hlarge (Nat.not_lt.mpr hsmall)⟩
  · rename_i hsmall
    exact ⟨fun _ => Nat.not_lt.mp hsmall, fun _ => rfl⟩

/-- The state file can be read on this machine: its size is the only reason
not to load it. -/
def Environment.Reads (env : Environment) (machine : Machine) : Prop :=
  ∀ state ∈ machine.stateFile, env.load machine.clock = loadRefusal state

/-- An apply that gets through, asks nothing of the host and leaves the state
file. -/
structure Settled (env : Environment) (loaded : Except ShphError Config)
    (machine : Machine) : Prop where
  ok : (handleControlPlaneApply env loaded machine).1 = .ok ()
  quiet : ∀ command : Nat → CommandOutcome,
    handleControlPlaneApply { env with command := command } loaded machine =
      handleControlPlaneApply env loaded machine
  host : (handleControlPlaneApply env loaded machine).2.host = machine.host
  stateFile : (handleControlPlaneApply env loaded machine).2.stateFile =
    machine.stateFile

section Fresh

variable {env : Environment}

/-- A bypass that gets through ran one command, and was added unless that
command found it there. -/
theorem addUnderlayBypassRoute_ok {cidr : String} {machine next : Machine}
    {added : Bool}
    (hcall : addUnderlayBypassRoute env cidr machine = (.ok added, next)) :
    env.command machine.clock = .succeeds (!added) ∧
      next.clock = machine.clock + 1 := by
  unfold addUnderlayBypassRoute at hcall
  split at hcall
  · cases hcall
  · rename_i command hbuild
    unfold runShellCommandCapture at hcall
    cases hanswer : env.command machine.clock with
    | fails error =>
        rw [hanswer] at hcall
        cases hcall
    | succeeds reused =>
        rw [hanswer] at hcall
        cases hcall
        exact ⟨by rw [Bool.not_not], rfl⟩

/-- The loop over the bypass routes lists all of them when the host had none
of them before. -/
theorem addBypassRoutes_all_iff {routes : List String} {machine : Machine}
    (hok : (addEach (addUnderlayBypassRoute env) routes machine).1.1 =
      .ok ()) :
    (addEach (addUnderlayBypassRoute env) routes machine).1.2 = routes ↔
      ∀ index < routes.length,
        env.command (machine.clock + index) ≠ .succeeds true := by
  induction routes generalizing machine with
  | nil =>
      exact ⟨fun _ index hindex => absurd hindex (Nat.not_lt_zero index),
        fun _ => rfl⟩
  | cons route rest ih =>
      rcases hcall : addUnderlayBypassRoute env route machine with
        ⟨error | added, next⟩
      · rw [addEach_cons_error hcall] at hok
        cases hok
      · obtain ⟨hanswer, hclock⟩ := addUnderlayBypassRoute_ok hcall
        rw [addEach_cons_ok hcall] at hok ⊢
        have hrest := ih hok
        rw [List.length_cons, Nat.forall_lt_succ_left, Nat.add_zero, hanswer]
        cases added with
        | false =>
            constructor
            · intro hall
              have hkept := (@addEach_sublist _ _ _
                (addUnderlayBypassRoute env) rest next).length_le
              rw [if_neg Bool.false_ne_true] at hall
              rw [hall, List.length_cons] at hkept
              exact absurd hkept (Nat.not_succ_le_self _)
            · exact fun hfound => absurd rfl hfound.1
        | true =>
            rw [if_pos rfl, List.cons.injEq, hrest, hclock]
            simp only [Nat.add_right_comm machine.clock 1, Nat.add_assoc]
            simp

theorem Step.andThen_ok {first second : Step} {guard : ControlPlaneGuard}
    {machine : Machine}
    (hok : (Step.andThen first second guard machine).1.1 = .ok ()) :
    (first guard machine).1.1 = .ok () ∧
      Step.andThen first second guard machine =
        second (first guard machine).1.2 (first guard machine).2 := by
  unfold Step.andThen at hok ⊢
  dsimp only at hok ⊢
  cases hfirst : (first guard machine).1.1 with
  | ok done => exact ⟨rfl, rfl⟩
  | error error =>
      rw [hfirst] at hok
      dsimp only at hok
      rw [hfirst] at hok
      cases hok

variable {plan : ControlPlanePlan} {name : String}
  {guard : ControlPlaneGuard} {machine : Machine}

/-- An address that the plan asks for is listed once it is added. -/
theorem applyAddress_ok (hnone : guard.interfaceCidr = none)
    (hok : (applyAddress env plan name guard machine).1.1 = .ok ()) :
    (applyAddress env plan name guard machine).1.2 =
      { guard with interfaceCidr := plan.interfaceCidr.map (·, name) } := by
  unfold applyAddress at hok ⊢
  cases hcidr : plan.interfaceCidr with
  | none => rw [Option.map_none, ← hnone]
  | some cidr =>
      rw [hcidr] at hok
      dsimp only at hok ⊢
      split
      · rename_i error next hcall
        rw [hcall] at hok
        cases hok
      · rfl

theorem applyRoutes_ok
    (hok : (applyRoutes env plan name guard machine).1.1 = .ok ()) :
    (applyRoutes env plan name guard machine).1.2 =
      { guard with
        addedRoutes := guard.addedRoutes ++ plan.routes.map (·, name) } := by
  have hadds : ∀ (route : String) (between : Machine),
      (always (addRoute env route name) between).1 ≠ .ok false := by
    intro route between hanswer
    unfold always at hanswer
    cases hcall : (addRoute env route name between).1 with
    | error error =>
        rw [hcall] at hanswer
        cases hanswer
    | ok added =>
        rw [hcall] at hanswer
        cases hanswer
  rw [applyRoutes, addEach_all hadds hok]

theorem applyDns_guard :
    (applyDns env plan name guard machine).1.2 =
      if plan.applyDns then
        { guard with
          appliedDnsServers := plan.dnsServers
          dnsInterfaceName := some name }
      else guard := by
  unfold applyDns
  split <;> rfl

/-- A live apply that gets through records everything it was asked for, but of
the bypass routes only those it added. -/
theorem stateFromGuard_applyPlan
    (hdns : plan.applyDns = !plan.dnsServers.isEmpty)
    (hok : (applyPlan env plan name { dryRun := false } machine).1.1 =
      .ok ()) :
    (addEach (addUnderlayBypassRoute env) plan.underlayBypassRoutes
        machine).1.1 = .ok () ∧
      stateFromGuard name
          (applyPlan env plan name { dryRun := false } machine).1.2 =
        { desiredState name plan with
          underlayBypassRoutes := (addEach (addUnderlayBypassRoute env)
            plan.underlayBypassRoutes machine).1.2 } := by
  rw [applyPlan, if_neg Bool.false_ne_true] at hok ⊢
  obtain ⟨hbypass, hafterBypass⟩ := Step.andThen_ok hok
  rw [hafterBypass] at hok ⊢
  obtain ⟨haddress, hafterAddress⟩ := Step.andThen_ok hok
  rw [hafterAddress] at hok ⊢
  obtain ⟨hroutes, hafterRoutes⟩ := Step.andThen_ok hok
  rw [hafterRoutes, applyDns_guard, applyRoutes_ok hroutes,
    applyAddress_ok rfl haddress, hdns]
  refine ⟨hbypass, ?_⟩
  cases hservers : plan.dnsServers with
  | nil =>
      simp [stateFromGuard, desiredState, applyBypassRoutes, hservers,
        Function.comp_def]
  | cons server servers =>
      simp [stateFromGuard, desiredState, applyBypassRoutes, hservers,
        Function.comp_def]

theorem recordApply_ok
    (hok : (recordApply env name guard machine).1 = .ok ()) :
    (recordApply env name guard machine).2.stateFile =
      some (stateFromGuard name guard) := by
  unfold recordApply at hok ⊢
  dsimp only at hok ⊢
  cases hsaved : (saveControlPlaneState env (stateFromGuard name guard)
      machine).1 with
  | error error =>
      rw [hsaved] at hok
      dsimp only at hok
      split at hok <;> cases hok
  | ok saved =>
      dsimp only
      unfold saveControlPlaneState at hsaved ⊢
      cases hanswer : env.save machine.clock with
      | saved => rfl
      | refused error =>
          rw [hanswer] at hsaved
          cases hsaved
      | replacedUnsynced error => rfl

variable {config : Config} {control : ControlPlaneConfig}

/-- What the state file holds after a first live apply. -/
theorem applyFresh_ok (hcontrol : config.controlPlane = some control)
    (hlive : control.dryRun = some false)
    (hplan : preflight env config control name none = .ok plan)
    (hok : (applyFresh env config control name machine).1 = .ok ()) :
    (addEach (addUnderlayBypassRoute env) plan.underlayBypassRoutes
        machine).1.1 = .ok () ∧
      (applyFresh env config control name machine).2.stateFile =
        some { desiredState name plan with
          underlayBypassRoutes := (addEach (addUnderlayBypassRoute env)
            plan.underlayBypassRoutes machine).1.2 } := by
  obtain ⟨built, hbuild, hrest⟩ := bind_eq_ok_iff.mp hplan
  obtain ⟨-, -, hbuilt⟩ := bind_eq_ok_iff.mp hrest
  cases hbuilt
  have hdns := (buildControlPlanePlan_parts hbuild).2.2.2
  unfold applyFresh applyControlPlane applyControlPlaneWithUnderlay at hok ⊢
  simp only [hcontrol, hplan, hlive, Option.getD_some] at hok ⊢
  cases happlied : (applyPlan env plan name { dryRun := false }
      machine).1.1 with
  | error error =>
      rw [happlied] at hok
      cases hok
  | ok applied =>
      rw [happlied] at hok
      obtain ⟨hbypass, hstate⟩ := stateFromGuard_applyPlan hdns happlied
      rw [← hstate]
      exact ⟨hbypass, recordApply_ok hok⟩

end Fresh

section Again

variable {env : Environment} {config : Config} {control : ControlPlaneConfig}
  {plan : ControlPlanePlan} {machine : Machine}

/-- A plan is only made for an interface with a name. -/
theorem name_ne_empty {name : String}
    (hplan : preflight env config control name none = .ok plan) :
    name ≠ "" := by
  obtain ⟨built, hbuild, -⟩ := bind_eq_ok_iff.mp hplan
  obtain ⟨⟨⟩, hname, -⟩ := bind_eq_ok_iff.mp hbuild
  obtain ⟨⟨⟩, hempty, -⟩ := bind_eq_ok_iff.mp hname
  exact ensure_eq_ok_iff.mp hempty

/-- Without a state file the apply proper runs. -/
theorem handleControlPlaneApply_fresh
    (hcontrol : config.controlPlane = some control)
    (hplan : preflight env config control (trim config.interfaceName) none =
      .ok plan) (hfile : machine.stateFile = none) :
    handleControlPlaneApply env (.ok config) machine =
      applyFresh env config control (trim config.interfaceName) machine := by
  simp only [handleControlPlaneApply, hcontrol, if_neg (name_ne_empty hplan),
    hplan, hfile]

/-- With a state file it is only compared. -/
theorem handleControlPlaneApply_recorded
    {existing : PersistedControlPlaneState}
    (hcontrol : config.controlPlane = some control)
    (hplan : preflight env config control (trim config.interfaceName) none =
      .ok plan) (hfile : machine.stateFile = some existing) :
    handleControlPlaneApply env (.ok config) machine =
      compareRecorded env (desiredState (trim config.interfaceName) plan)
        existing machine := by
  simp only [handleControlPlaneApply, hcontrol, if_neg (name_ne_empty hplan),
    hplan, hfile]

theorem compareRecorded_ok {desired existing : PersistedControlPlaneState}
    (hok : (compareRecorded env desired existing machine).1 = .ok ()) :
    env.load machine.clock = none ∧ existing = desired := by
  unfold compareRecorded loadControlPlaneState at hok
  cases hload : env.load machine.clock with
  | some error =>
      rw [hload] at hok
      cases hok
  | none =>
      rw [hload] at hok
      dsimp only at hok
      split at hok
      · rename_i hsame
        exact ⟨rfl, hsame⟩
      · cases hok

theorem compareRecorded_eq {desired existing : PersistedControlPlaneState}
    (hload : env.load machine.clock = none) (hsame : existing = desired) :
    compareRecorded env desired existing machine =
      (.ok (), { machine with clock := machine.clock + 1 }) := by
  simp only [compareRecorded, loadControlPlaneState, hload, if_pos hsame]

/-- With a state file an apply only loads and compares. -/
theorem settled_iff {existing : PersistedControlPlaneState}
    (hcontrol : config.controlPlane = some control)
    (hplan : preflight env config control (trim config.interfaceName) none =
      .ok plan)
    (hfile : machine.stateFile = some existing) :
    Settled env (.ok config) machine ↔
      env.load machine.clock = none ∧
        existing = desiredState (trim config.interfaceName) plan := by
  have hrun : ∀ command : Nat → CommandOutcome,
      handleControlPlaneApply { env with command := command } (.ok config)
        machine = compareRecorded env
          (desiredState (trim config.interfaceName) plan) existing
          machine := by
    intro command
    exact @handleControlPlaneApply_recorded { env with command := command } _
      _ plan _ _ hcontrol hplan hfile
  have hself := hrun env.command
  constructor
  · intro hsettled
    have hok := hsettled.ok
    rw [hself] at hok
    exact compareRecorded_ok hok
  · rintro ⟨hload, hsame⟩
    have hcompared := compareRecorded_eq hload hsame
    exact {
      ok := by rw [hself, hcompared]
      quiet := fun command => (hrun command).trans hself.symm
      host := by rw [hself, hcompared]
      stateFile := by rw [hself, hcompared] }

end Again

/-- Whether a live apply that got through can be repeated.  Nothing is in the
way where the first one found its state file.  Otherwise the host must have had
none of the bypass routes, which would not be recorded as added, and the state
must fit in a file that is loaded again. -/
theorem apply_idempotent_iff {env : Environment} {config : Config}
    {control : ControlPlaneConfig} {plan : ControlPlanePlan}
    {machine : Machine} (hcontrol : config.controlPlane = some control)
    (hlive : control.dryRun = some false)
    (hplan : preflight env config control (trim config.interfaceName) none =
      .ok plan)
    (hok : (handleControlPlaneApply env (.ok config) machine).1 = .ok ())
    (hbefore : env.Reads machine)
    (hafter : env.Reads
      (handleControlPlaneApply env (.ok config) machine).2) :
    Settled env (.ok config)
        (handleControlPlaneApply env (.ok config) machine).2 ↔
      machine.stateFile.isSome ∨
        (∀ index < plan.underlayBypassRoutes.length,
          env.command (machine.clock + index) ≠ .succeeds true) ∧
        (desiredState (trim config.interfaceName) plan).fileBytes ≤
          maxControlPlaneStateBytes := by
  cases hfile : machine.stateFile with
  | some existing =>
      rw [handleControlPlaneApply_recorded hcontrol hplan hfile] at hok hafter ⊢
      obtain ⟨hload, hsame⟩ := compareRecorded_ok hok
      rw [compareRecorded_eq hload hsame] at hafter ⊢
      rw [@settled_iff _ _ _ plan { machine with clock := machine.clock + 1 }
        existing hcontrol hplan hfile, hafter existing hfile,
        ← hbefore existing hfile]
      exact iff_of_true ⟨hload, hsame⟩ (.inl rfl)
  | none =>
      rw [handleControlPlaneApply_fresh hcontrol hplan hfile] at hok hafter ⊢
      obtain ⟨hbypass, hrecorded⟩ := applyFresh_ok hcontrol hlive hplan hok
      rw [settled_iff hcontrol hplan hrecorded, hafter _ hrecorded,
        loadRefusal_eq_none_iff, ← addBypassRoutes_all_iff hbypass]
      constructor
      · rintro ⟨hsize, hsame⟩
        rw [hsame] at hsize
        exact .inr ⟨congrArg
          PersistedControlPlaneState.underlayBypassRoutes hsame, hsize⟩
      · rintro (hsome | ⟨hall, hsize⟩)
        · cases hsome
        · rw [hall]
          exact ⟨hsize, rfl⟩

end Shph.ControlPlane

namespace Shph.ControlPlane.ApplyWitness

open ControlPlaneWitness

def tunnelConfig : Config := (upWith fullTunnel).config

def tunnelPlan : ControlPlanePlan :=
  ⟨none, ["0.0.0.0/0"], ["203.0.113.10/32"], false, []⟩

/-- A host that has the route to the proxy before the first apply. -/
def routedHost : Environment :=
  { hostUntil 9 with command := fun now => .succeeds (now == 0) }

theorem preflight_tunnel :
    preflight (hostUntil 9) tunnelConfig fullTunnel "shph0" none =
      .ok tunnelPlan := by
  decide +kernel

/-- Without a state file there is nothing to read. -/
theorem reads_fresh (env : Environment) : env.Reads fresh :=
  fun _ hstate => nomatch hstate

theorem reads_after : (hostUntil 9).Reads
    (handleControlPlaneApply (hostUntil 9) (.ok tunnelConfig) fresh).2 := by
  have hfile : (handleControlPlaneApply (hostUntil 9) (.ok tunnelConfig)
      fresh).2.stateFile = some (desiredState "shph0" tunnelPlan) := by
    decide +kernel
  intro state hstate
  rw [hfile] at hstate
  cases hstate
  decide +kernel

theorem apply_idempotent_full_tunnel :
    Settled (hostUntil 9) (.ok tunnelConfig)
      (handleControlPlaneApply (hostUntil 9) (.ok tunnelConfig) fresh).2 :=
  (apply_idempotent_iff rfl rfl preflight_tunnel (by decide +kernel)
    (reads_fresh _) reads_after).mpr
      (.inr ⟨by decide +kernel, by decide +kernel⟩)

/-- The route that was there is not recorded, and missed by the second
apply. -/
theorem reused_bypass_differs :
    fullTunnel.dryRun = some false ∧
      (handleControlPlaneApply routedHost (.ok tunnelConfig) fresh).1 =
        .ok () ∧
      routedHost.Reads fresh ∧
      routedHost.Reads
        (handleControlPlaneApply routedHost (.ok tunnelConfig) fresh).2 ∧
      ¬ Settled routedHost (.ok tunnelConfig)
        (handleControlPlaneApply routedHost (.ok tunnelConfig) fresh).2 := by
  have hfile : (handleControlPlaneApply routedHost (.ok tunnelConfig)
      fresh).2.stateFile =
        some ⟨"shph0", none, ["0.0.0.0/0"], [], []⟩ := by
    decide +kernel
  refine ⟨rfl, by decide +kernel, reads_fresh _, ?_, fun hsettled => ?_⟩
  · intro state hstate
    rw [hfile] at hstate
    cases hstate
    decide +kernel
  · have hsecond : (handleControlPlaneApply routedHost (.ok tunnelConfig)
        (handleControlPlaneApply routedHost (.ok tunnelConfig)
          fresh).2).1 = .error (.config
            "recorded control-plane state differs; run reconcile") := by
      decide +kernel
    rw [hsettled.ok] at hsecond
    cases hsecond

end Shph.ControlPlane.ApplyWitness
