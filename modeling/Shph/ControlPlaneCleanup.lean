/-
What the commands of the control plane do to the host, and what a rollback
leaves: whatever is still in place is still listed in its guard.
-/
import Shph.ControlPlane

namespace Shph.ControlPlane

open Rollback

/-- What a guard lists. -/
def ControlPlaneGuard.Lists (guard : ControlPlaneGuard) : Mutation → Prop
  | .address cidr name => guard.interfaceCidr = some (cidr, name)
  | .route cidr name => (cidr, name) ∈ guard.addedRoutes
  | .bypass cidr => cidr ∈ guard.addedUnderlayBypassRoutes
  | .dns server name =>
      guard.dnsInterfaceName = some name ∧ server ∈ guard.appliedDnsServers

/-- Everything in place is in the guard, unless the state file could not be
written. -/
def Covers (guard : ControlPlaneGuard) (machine : Machine) : Prop :=
  machine.stateWriteFailed = false →
    ∀ change ∈ machine.host, guard.Lists change

/-- All changes of a guard are on one interface. -/
structure ControlPlaneGuard.On (guard : ControlPlaneGuard) (name : String) :
    Prop where
  address : ∀ entry ∈ guard.interfaceCidr, entry.2 = name
  routes : ∀ entry ∈ guard.addedRoutes, entry.2 = name
  dns : ∀ entry ∈ guard.dnsInterfaceName, entry = name

/-- A command does not touch the state file. -/
structure SameFile (before after : Machine) : Prop where
  stateFile : after.stateFile = before.stateFile
  stateWriteFailed : after.stateWriteFailed = before.stateWriteFailed

namespace SameFile

theorem refl (machine : Machine) : SameFile machine machine := ⟨rfl, rfl⟩

theorem trans {first second third : Machine} (hfirst : SameFile first second)
    (hsecond : SameFile second third) : SameFile first third :=
  ⟨hsecond.stateFile.trans hfirst.stateFile,
    hsecond.stateWriteFailed.trans hfirst.stateWriteFailed⟩

end SameFile

section Commands

variable {env : Environment}

theorem runShellCommandCapture_sameFile (command : HostCommand)
    (machine : Machine) :
    SameFile machine (runShellCommandCapture env command machine).2 := by
  unfold runShellCommandCapture
  dsimp only
  split <;> exact ⟨rfl, rfl⟩

/-- A command fails without effect or takes effect. -/
theorem runShellCommandCapture_cases (command : HostCommand)
    (machine : Machine) :
    ((∃ error, (runShellCommandCapture env command machine).1 =
        .error error) ∧
      (runShellCommandCapture env command machine).2.host = machine.host) ∨
    (∃ reused, (runShellCommandCapture env command machine).1 = .ok reused ∧
      (runShellCommandCapture env command machine).2.host =
        command.effect reused machine.host) := by
  unfold runShellCommandCapture
  dsimp only
  split
  · exact .inl ⟨⟨_, rfl⟩, rfl⟩
  · exact .inr ⟨_, rfl, rfl⟩

theorem runShellCommand_cases (command : HostCommand) (machine : Machine) :
    ((∃ error, (runShellCommand env command machine).1 = .error error) ∧
      (runShellCommand env command machine).2.host = machine.host) ∨
    ((runShellCommand env command machine).1 = .ok () ∧
      ∃ reused, (runShellCommand env command machine).2.host =
        command.effect reused machine.host) := by
  unfold runShellCommand
  dsimp only
  rcases runShellCommandCapture_cases command machine with
    ⟨⟨error, herror⟩, hhost⟩ | ⟨reused, hok, hhost⟩
  · exact .inl ⟨⟨error, by rw [herror]; rfl⟩, hhost⟩
  · exact .inr ⟨by rw [hok]; rfl, reused, hhost⟩

theorem runBuilt_sameFile (built : Except ShphError HostCommand)
    (machine : Machine) : SameFile machine (runBuilt env built machine).2 := by
  cases built with
  | error error => exact SameFile.refl machine
  | ok command => exact runShellCommandCapture_sameFile command machine

/-- A call that adds one change. -/
theorem runBuilt_adds {built : Except ShphError HostCommand}
    {change : Mutation}
    (hbuilt : ∀ command, built = .ok command → ∀ reused host,
      command.effect reused host = host ++ [change]) (machine : Machine) :
    ∀ entry ∈ (runBuilt env built machine).2.host,
      entry ∈ machine.host ∨
        (runBuilt env built machine).1 = .ok () ∧ entry = change := by
  intro entry hentry
  cases built with
  | error error => exact .inl hentry
  | ok command =>
      rcases runShellCommand_cases command machine with
        ⟨-, hhost⟩ | ⟨hok, reused, hhost⟩
      · exact .inl (hhost ▸ hentry)
      · have hmem : entry ∈ machine.host ++ [change] := by
          rw [← hbuilt command rfl reused, ← hhost]
          exact hentry
        rcases List.mem_append.mp hmem with hold | hnew
        · exact .inl hold
        · exact .inr ⟨hok, List.mem_singleton.mp hnew⟩

section Removes

variable {built : Except ShphError HostCommand} {change : Mutation}
  (hbuilt : ∀ command, built = .ok command → ∀ reused host,
    command.effect reused host = host.filter (· ≠ change))
include hbuilt

/-- A call that removes one change adds nothing. -/
theorem runBuilt_shrinks (machine : Machine) :
    (runBuilt env built machine).2.host ⊆ machine.host := by
  cases built with
  | error error => exact List.Subset.refl _
  | ok command =>
      rcases runShellCommand_cases command machine with
        ⟨-, hhost⟩ | ⟨-, reused, hhost⟩
      · rw [runBuilt, hhost]
        exact List.Subset.refl _
      · rw [hbuilt command rfl] at hhost
        rw [runBuilt, hhost]
        exact List.filter_subset_self _

theorem runBuilt_removes {machine : Machine}
    (hok : (runBuilt env built machine).1 = .ok ()) :
    change ∉ (runBuilt env built machine).2.host := by
  cases built with
  | error error => cases hok
  | ok command =>
      rcases runShellCommand_cases command machine with
        ⟨⟨error, herror⟩, -⟩ | ⟨-, reused, hhost⟩
      · rw [runBuilt, herror] at hok
        cases hok
      · rw [hbuilt command rfl] at hhost
        rw [runBuilt, hhost]
        simp

end Removes

theorem onPlatform_eq {α : Type} {platform : Platform} {command built : α}
    {message : String}
    (hok : onPlatform platform command command message = .ok built) :
    built = command := by
  cases platform <;> cases hok <;> rfl

/-- The builders check two things before they name the command. -/
theorem eq_of_checked {first second : Except ShphError Unit}
    {platform : Platform} {command built : HostCommand} {message : String}
    (hok : (do first; second; onPlatform platform command command message) =
      .ok built) : built = command := by
  obtain ⟨-, -, hok⟩ := bind_eq_ok_iff.mp hok
  obtain ⟨-, -, hok⟩ := bind_eq_ok_iff.mp hok
  exact onPlatform_eq hok

theorem routeAdd_effect {cidr name : String} :
    ∀ command, buildRouteAddCommand env.text env.platform cidr name =
      .ok command → ∀ reused host,
      command.effect reused host = host ++ [.route cidr name] := by
  intro command hbuild reused host
  rw [eq_of_checked hbuild]
  rfl

theorem routeDelete_effect {cidr name : String} :
    ∀ command, buildRouteDeleteCommand env.text env.platform cidr name =
      .ok command → ∀ reused host,
      command.effect reused host = host.filter (· ≠ .route cidr name) := by
  intro command hbuild reused host
  rw [eq_of_checked hbuild]
  rfl

theorem addressAdd_effect {cidr name : String} :
    ∀ command, buildInterfaceAddressAddCommand env.text env.platform cidr
      name = .ok command → ∀ reused host,
      command.effect reused host = host ++ [.address cidr name] := by
  intro command hbuild reused host
  rw [eq_of_checked hbuild]
  rfl

theorem addressDelete_effect {cidr name : String} :
    ∀ command, buildInterfaceAddressDeleteCommand env.text env.platform cidr
      name = .ok command → ∀ reused host,
      command.effect reused host = host.filter (· ≠ .address cidr name) := by
  intro command hbuild reused host
  rw [eq_of_checked hbuild]
  rfl

theorem bypassDelete_effect {cidr : String} :
    ∀ command, buildUnderlayBypassRouteDeleteCommand env.text env.platform
      cidr = .ok command → ∀ reused host,
      command.effect reused host = host.filter (· ≠ .bypass cidr) := by
  intro command hbuild reused host
  obtain ⟨-, -, hbuild⟩ := bind_eq_ok_iff.mp hbuild
  rw [onPlatform_eq hbuild]
  rfl

theorem addUnderlayBypassRoute_sameFile (cidr : String) (machine : Machine) :
    SameFile machine (addUnderlayBypassRoute env cidr machine).2 := by
  unfold addUnderlayBypassRoute
  split
  · exact SameFile.refl machine
  · exact runShellCommandCapture_sameFile _ machine

/-- A bypass that was there already is answered with `false`. -/
theorem addUnderlayBypassRoute_adds (env : Environment) (cidr : String)
    (machine : Machine) :
    ∀ entry ∈ (addUnderlayBypassRoute env cidr machine).2.host,
      entry ∈ machine.host ∨
        (addUnderlayBypassRoute env cidr machine).1 = .ok true ∧
          entry = .bypass cidr := by
  intro entry hentry
  unfold addUnderlayBypassRoute at hentry ⊢
  split at hentry
  · exact .inl hentry
  · rename_i command hbuild
    obtain ⟨-, -, hplatform⟩ := bind_eq_ok_iff.mp hbuild
    have hcommand := onPlatform_eq hplatform
    subst hcommand
    dsimp only at hentry ⊢
    rcases runShellCommandCapture_cases (.bypassAdd cidr) machine with
      ⟨-, hhost⟩ | ⟨reused, hok, hhost⟩
    · exact .inl (hhost ▸ hentry)
    · rw [hhost] at hentry
      cases reused with
      | true => exact .inl hentry
      | false =>
          rcases List.mem_append.mp hentry with hold | hnew
          · exact .inl hold
          · exact .inr ⟨by rw [hok]; rfl, List.mem_singleton.mp hnew⟩

end Commands

section Dns

variable {env : Environment}

/-- A DNS command of `up` or `apply` adds servers of its list only. -/
def AddsServers (servers : List String) (name : String)
    (command : HostCommand) : Prop :=
  ∀ reused host, ∀ entry ∈ command.effect reused host,
    entry ∈ host ∨ ∃ server ∈ servers, entry = .dns server name

theorem addsServers_windows (name : String) (servers : List String)
    (family : Family) :
    ∀ command ∈ windowsDnsCommands name servers family,
      AddsServers servers name command := by
  intro command hcommand reused host entry hentry
  obtain ⟨⟨server, index⟩, hindexed, rfl⟩ := List.mem_map.mp hcommand
  have hserver : server ∈ servers :=
    (List.mem_filter.mp (List.fst_mem_of_mem_zipIdx hindexed)).1
  dsimp only at hentry
  split at hentry
  · rcases List.mem_append.mp hentry with hold | hnew
    · exact .inl (List.mem_filter.mp hold).1
    · exact .inr ⟨server, hserver, List.mem_singleton.mp hnew⟩
  · rcases List.mem_append.mp hentry with hold | hnew
    · exact .inl hold
    · exact .inr ⟨server, hserver, List.mem_singleton.mp hnew⟩

theorem addsServers_of_build {text : AddressText} {platform : Platform}
    {servers : List String} {name : String} {commands : List HostCommand}
    (hbuild : buildDnsApplyCommands text platform servers name =
      .ok commands) :
    ∀ command ∈ commands, AddsServers servers name command := by
  unfold buildDnsApplyCommands at hbuild
  split at hbuild
  · cases hbuild
    exact fun command hcommand => absurd hcommand List.not_mem_nil
  · obtain ⟨-, -, hbuild⟩ := bind_eq_ok_iff.mp hbuild
    obtain ⟨-, -, hbuild⟩ := bind_eq_ok_iff.mp hbuild
    cases platform with
    | linux =>
        cases hbuild
        intro command hcommand reused host entry hentry
        rw [List.mem_singleton.mp hcommand] at hentry
        rcases List.mem_append.mp hentry with hold | hnew
        · exact .inl (List.mem_filter.mp hold).1
        · obtain ⟨server, hserver, rfl⟩ := List.mem_map.mp hnew
          exact .inr ⟨server, hserver, rfl⟩
    | windows =>
        cases hbuild
        intro command hcommand
        rcases List.mem_append.mp hcommand with hipv4 | hipv6
        · exact addsServers_windows name servers .ipv4 command hipv4
        · exact addsServers_windows name servers .ipv6 command hipv6
    | other => cases hbuild

theorem applyDnsServers_sameFile (servers : List String) (name : String)
    (machine : Machine) :
    SameFile machine (applyDnsServers env servers name machine).2 := by
  unfold applyDnsServers
  split
  · exact SameFile.refl machine
  · split
    · exact SameFile.refl machine
    · apply addEach_invariant _ (SameFile.refl machine)
      intro command _ between hbetween
      exact hbetween.trans (runShellCommandCapture_sameFile command between)

theorem applyDnsServers_adds (servers : List String) (name : String)
    (machine : Machine) :
    ∀ entry ∈ (applyDnsServers env servers name machine).2.host,
      entry ∈ machine.host ∨ ∃ server ∈ servers, entry = .dns server name := by
  unfold applyDnsServers
  split
  · exact fun entry hentry => .inl hentry
  · split
    · exact fun entry hentry => .inl hentry
    · rename_i commands hbuild
      have hadds := addsServers_of_build hbuild
      -- Every command keeps what is in place within the two lists.
      let Within (between : Machine) : Prop :=
        ∀ entry ∈ between.host,
          entry ∈ machine.host ∨ ∃ server ∈ servers, entry = .dns server name
      have hkeep : ∀ command ∈ commands, ∀ between, Within between →
          Within (always (runShellCommand env command) between).2 := by
        intro command hcommand between hbetween entry hentry
        change entry ∈ (runShellCommand env command between).2.host at hentry
        rcases runShellCommand_cases command between with
          ⟨-, hhost⟩ | ⟨-, reused, hhost⟩
        · exact hbetween entry (hhost ▸ hentry)
        · rw [hhost] at hentry
          rcases hadds command hcommand reused _ entry hentry with
            hold | hnew
          · exact hbetween entry hold
          · exact .inr hnew
      exact addEach_invariant hkeep fun entry hentry => .inl hentry

theorem isDnsOn_of_isDnsOfFamily {family : Family} {name : String}
    {change : Mutation} (hfamily : isDnsOfFamily family name change = true) :
    isDnsOn name change = true := by
  cases change with
  | dns server owner =>
      simp only [isDnsOfFamily, Bool.and_eq_true] at hfamily
      exact hfamily.1
  | address cidr owner => cases hfamily
  | route cidr owner => cases hfamily
  | bypass cidr => cases hfamily

/-- The command that restores a family removes its servers and adds none. -/
theorem dnsRestore_effect {platform : Platform} {name : String}
    {family : Family} {command : HostCommand}
    (hbuild : buildDnsRestoreCommand platform name family = .ok command)
    (reused : Bool) (host : List Mutation) :
    ∀ entry ∈ command.effect reused host,
      entry ∈ host ∧ isDnsOfFamily family name entry = false := by
  intro entry hentry
  obtain ⟨-, -, hbuild⟩ := bind_eq_ok_iff.mp hbuild
  cases platform with
  | linux =>
      cases hbuild
      obtain ⟨hhost, hother⟩ := List.mem_filter.mp hentry
      refine ⟨hhost, Bool.eq_false_iff.mpr fun hfamily => ?_⟩
      rw [isDnsOn_of_isDnsOfFamily hfamily] at hother
      cases hother
  | windows =>
      cases hbuild
      obtain ⟨hhost, hother⟩ := List.mem_filter.mp hentry
      exact ⟨hhost, by simpa using hother⟩
  | other => cases hbuild

theorem restoreDnsFamily_sameFile (name : String) (family : Family)
    (machine : Machine) :
    SameFile machine (restoreDnsFamily env name family machine).2 := by
  unfold restoreDnsFamily
  split
  · exact SameFile.refl machine
  · exact runShellCommandCapture_sameFile _ machine

theorem restoreDnsFamily_shrinks (name : String) (family : Family)
    (machine : Machine) :
    (restoreDnsFamily env name family machine).2.host ⊆ machine.host := by
  unfold restoreDnsFamily
  split
  · exact List.Subset.refl _
  · rename_i command hbuild
    intro entry hentry
    change entry ∈ (runShellCommand env command machine).2.host at hentry
    rcases runShellCommand_cases command machine with
      ⟨-, hhost⟩ | ⟨-, reused, hhost⟩
    · exact hhost ▸ hentry
    · rw [hhost] at hentry
      exact (dnsRestore_effect hbuild reused _ entry hentry).1

theorem restoreDnsFamily_removes {name : String} {family : Family}
    {machine : Machine}
    (hok : (restoreDnsFamily env name family machine).1 = .ok ()) :
    ∀ entry ∈ (restoreDnsFamily env name family machine).2.host,
      isDnsOfFamily family name entry = false := by
  unfold restoreDnsFamily at hok ⊢
  split
  · rename_i error hbuild
    rw [hbuild] at hok
    cases hok
  · rename_i command hbuild
    rw [hbuild] at hok
    dsimp only at hok ⊢
    rcases runShellCommand_cases command machine with
      ⟨⟨error, herror⟩, -⟩ | ⟨-, reused, hhost⟩
    · rw [herror] at hok
      cases hok
    · rw [hhost]
      exact fun entry hentry =>
        (dnsRestore_effect hbuild reused _ entry hentry).2

theorem restoreDns_sameFile (env : Environment)
    (interfaceName : Option String) (machine : Machine) :
    SameFile machine (restoreDns env interfaceName machine).2 := by
  unfold restoreDns
  split
  · exact SameFile.refl machine
  · rename_i name _
    have hboth : SameFile machine (restoreDnsFamily env name .ipv6
        (restoreDnsFamily env name .ipv4 machine).2).2 :=
      (restoreDnsFamily_sameFile name .ipv4 machine).trans
        (restoreDnsFamily_sameFile name .ipv6 _)
    dsimp only
    split <;> exact hboth

theorem restoreDns_shrinks (env : Environment)
    (interfaceName : Option String) (machine : Machine) :
    (restoreDns env interfaceName machine).2.host ⊆ machine.host := by
  unfold restoreDns
  split
  · exact List.Subset.refl _
  · rename_i name _
    have hboth : (restoreDnsFamily env name .ipv6
        (restoreDnsFamily env name .ipv4 machine).2).2.host ⊆ machine.host :=
      List.Subset.trans (restoreDnsFamily_shrinks name .ipv6 _)
        (restoreDnsFamily_shrinks name .ipv4 machine)
    dsimp only
    split <;> exact hboth

/-- No server of either family is left on the interface. -/
theorem restoreDns_removes {name server : String} {machine : Machine}
    (hok : (restoreDns env (some name) machine).1 = .ok ()) :
    .dns server name ∉ (restoreDns env (some name) machine).2.host := by
  unfold restoreDns at hok ⊢
  split
  · rename_i hfilter
    rw [hfilter] at hok
    cases hok
  · rename_i kept hfilter
    obtain ⟨hname, -⟩ := Option.filter_eq_some_iff.mp hfilter
    cases hname
    rw [hfilter] at hok
    dsimp only at hok ⊢
    split at hok
    · cases hok
    · rename_i hipv4
      intro hentry
      have hfirst := restoreDnsFamily_removes hipv4 _
        (restoreDnsFamily_shrinks _ _ _ hentry)
      have hsecond := restoreDnsFamily_removes hok _ hentry
      cases hfamily : Family.ofServer server with
      | ipv4 => simp [isDnsOfFamily, hfamily] at hfirst
      | ipv6 => simp [isDnsOfFamily, hfamily] at hsecond

end Dns

/-- What a step of a rollback does: it takes back changes that its guard
lists, and whatever is still in place is still listed. -/
structure Undoes (guard : ControlPlaneGuard) (machine : Machine)
    (after : ControlPlaneGuard) (next : Machine) : Prop where
  file : SameFile machine next
  shrinks : next.host ⊆ machine.host
  fewer : ∀ change, after.Lists change → guard.Lists change
  stays : ∀ change ∈ next.host, guard.Lists change → after.Lists change
  scope : ∀ name, guard.On name → after.On name
  dryRun : after.dryRun = guard.dryRun

namespace Undoes

theorem refl (guard : ControlPlaneGuard) (machine : Machine) :
    Undoes guard machine guard machine where
  file := SameFile.refl machine
  shrinks := List.Subset.refl _
  fewer _ hlists := hlists
  stays _ _ hlists := hlists
  scope _ hscope := hscope
  dryRun := rfl

theorem trans {first second third : ControlPlaneGuard}
    {before between after : Machine}
    (hfirst : Undoes first before second between)
    (hsecond : Undoes second between third after) :
    Undoes first before third after where
  file := hfirst.file.trans hsecond.file
  shrinks := List.Subset.trans hsecond.shrinks hfirst.shrinks
  fewer change hlists := hfirst.fewer change (hsecond.fewer change hlists)
  stays change hhost hlists :=
    hsecond.stays change hhost
      (hfirst.stays change (hsecond.shrinks hhost) hlists)
  scope name hscope := hsecond.scope name (hfirst.scope name hscope)
  dryRun := hsecond.dryRun.trans hfirst.dryRun

theorem covers {guard after : ControlPlaneGuard} {machine next : Machine}
    (hundoes : Undoes guard machine after next)
    (hcovers : Covers guard machine) : Covers after next := by
  intro hwritten change hchange
  rw [hundoes.file.stateWriteFailed] at hwritten
  exact hundoes.stays change hchange
    (hcovers hwritten change (hundoes.shrinks hchange))

end Undoes

section Cleanup

variable {env : Environment}

theorem cleanupDns_undoes (env : Environment) (guard : ControlPlaneGuard)
    (machine : Machine) :
    Undoes guard machine (cleanupDns env guard machine).1.2
      (cleanupDns env guard machine).2 := by
  unfold cleanupDns
  split
  · exact Undoes.refl guard machine
  · have hfile := restoreDns_sameFile env guard.dnsInterfaceName machine
    have hshrinks := restoreDns_shrinks env guard.dnsInterfaceName machine
    rcases hrestore : restoreDns env guard.dnsInterfaceName machine with
      ⟨error | result, next⟩
    · rw [hrestore] at hfile hshrinks
      exact ⟨hfile, hshrinks, fun _ hlists => hlists,
        fun _ _ hlists => hlists, fun _ hscope => hscope, rfl⟩
    · rw [hrestore] at hfile hshrinks
      refine ⟨hfile, hshrinks, ?_, ?_, ?_, rfl⟩
      · intro change hlists
        cases change with
        | dns server name => cases hlists.1
        | address cidr name => exact hlists
        | route cidr name => exact hlists
        | bypass cidr => exact hlists
      · intro change hhost hlists
        cases change with
        | dns server name =>
            rw [hlists.1] at hrestore
            have hgone : .dns server name ∉
                (restoreDns env (some name) machine).2.host :=
              restoreDns_removes (congrArg Prod.fst hrestore)
            rw [hrestore] at hgone
            exact absurd hhost hgone
        | address cidr name => exact hlists
        | route cidr name => exact hlists
        | bypass cidr => exact hlists
      · exact fun name hscope =>
          ⟨hscope.address, hscope.routes, by simp⟩

theorem cleanupDns_done {guard : ControlPlaneGuard} {machine : Machine}
    (herrors : (cleanupDns env guard machine).1.1 = []) :
    (cleanupDns env guard machine).1.2.appliedDnsServers = [] := by
  unfold cleanupDns at herrors ⊢
  split at herrors
  · rename_i hservers
    rwa [if_pos hservers]
  · rename_i hservers
    rw [if_neg hservers]
    split at herrors
    · cases herrors
    · rfl

theorem cleanupRoutes_undoes (env : Environment) (guard : ControlPlaneGuard)
    (machine : Machine) :
    Undoes guard machine (cleanupRoutes env guard machine).1.2
      (cleanupRoutes env guard machine).2 := by
  let delete (route : String × String) := deleteRoute env route.1 route.2
  have hkept : (undoEach delete guard.addedRoutes machine).1.2 ⊆
      guard.addedRoutes := undoEach_subset _ _
  have hshrink : ∀ route between,
      (delete route between).2.host ⊆ between.host := fun route between =>
    runBuilt_shrinks routeDelete_effect between
  refine ⟨?_, ?_, ?_, ?_, ?_, rfl⟩
  · exact undoEach_invariant (fun route between hbetween =>
      hbetween.trans (runBuilt_sameFile _ between)) guard.addedRoutes
      (SameFile.refl machine)
  · exact undoEach_shrinks hshrink _ machine
  · intro change hlists
    cases change with
    | route cidr name => exact hkept hlists
    | dns server name => exact hlists
    | address cidr name => exact hlists
    | bypass cidr => exact hlists
  · intro change hhost hlists
    cases change with
    | route cidr name =>
        have hremoves : ∀ route between, (delete route between).1 = .ok () →
            .route route.1 route.2 ∉ (delete route between).2.host :=
          fun route between hok => runBuilt_removes routeDelete_effect hok
        have hlabel := undoEach_present hshrink hremoves guard.addedRoutes
          machine (cidr, name) hlists hhost
        obtain ⟨route, hroute, heq⟩ := List.mem_map.mp hlabel
        cases heq
        exact hroute
    | dns server name => exact hlists
    | address cidr name => exact hlists
    | bypass cidr => exact hlists
  · exact fun name hscope =>
      ⟨hscope.address, fun route hroute => hscope.routes route (hkept hroute),
        hscope.dns⟩

theorem cleanupBypassRoutes_undoes (env : Environment)
    (guard : ControlPlaneGuard) (machine : Machine) :
    Undoes guard machine (cleanupBypassRoutes env guard machine).1.2
      (cleanupBypassRoutes env guard machine).2 := by
  have hshrink : ∀ cidr between,
      (deleteUnderlayBypassRoute env cidr between).2.host ⊆ between.host :=
    fun cidr between => runBuilt_shrinks bypassDelete_effect between
  refine ⟨?_, ?_, ?_, ?_, ?_, rfl⟩
  · exact undoEach_invariant (fun route between hbetween =>
      hbetween.trans (runBuilt_sameFile _ between))
      guard.addedUnderlayBypassRoutes (SameFile.refl machine)
  · exact undoEach_shrinks hshrink _ machine
  · intro change hlists
    cases change with
    | bypass cidr => exact undoEach_subset _ _ hlists
    | dns server name => exact hlists
    | address cidr name => exact hlists
    | route cidr name => exact hlists
  · intro change hhost hlists
    cases change with
    | bypass cidr =>
        have hremoves : ∀ route between,
            (deleteUnderlayBypassRoute env route between).1 = .ok () →
            .bypass route ∉
              (deleteUnderlayBypassRoute env route between).2.host :=
          fun route between hok => runBuilt_removes bypassDelete_effect hok
        have hlabel := undoEach_present hshrink hremoves
          guard.addedUnderlayBypassRoutes machine cidr hlists hhost
        obtain ⟨route, hroute, heq⟩ := List.mem_map.mp hlabel
        cases heq
        exact hroute
    | dns server name => exact hlists
    | address cidr name => exact hlists
    | route cidr name => exact hlists
  · exact fun name hscope => ⟨hscope.address, hscope.routes, hscope.dns⟩

theorem cleanupAddress_undoes (env : Environment)
    (guard : ControlPlaneGuard) (machine : Machine) :
    Undoes guard machine (cleanupAddress env guard machine).1.2
      (cleanupAddress env guard machine).2 := by
  unfold cleanupAddress
  split
  · exact Undoes.refl guard machine
  · rename_i cidr name haddress
    have hfile : SameFile machine
        (deleteInterfaceAddress env cidr name machine).2 :=
      runBuilt_sameFile _ machine
    have hshrinks : (deleteInterfaceAddress env cidr name machine).2.host ⊆
        machine.host := runBuilt_shrinks addressDelete_effect machine
    rcases hdelete : deleteInterfaceAddress env cidr name machine with
      ⟨error | result, next⟩
    · rw [hdelete] at hfile hshrinks
      exact ⟨hfile, hshrinks, fun _ hlists => hlists,
        fun _ _ hlists => hlists, fun _ hscope => hscope, rfl⟩
    · have hgone : .address cidr name ∉
          (deleteInterfaceAddress env cidr name machine).2.host :=
        runBuilt_removes addressDelete_effect (congrArg Prod.fst hdelete)
      rw [hdelete] at hfile hshrinks hgone
      refine ⟨hfile, hshrinks, ?_, ?_, ?_, rfl⟩
      · intro change hlists
        cases change with
        | address cidr name => cases hlists
        | dns server name => exact hlists
        | route cidr name => exact hlists
        | bypass cidr => exact hlists
      · intro change hhost hlists
        cases change with
        | address other owner =>
            rw [ControlPlaneGuard.Lists, haddress] at hlists
            cases hlists
            exact absurd hhost hgone
        | dns server name => exact hlists
        | route cidr name => exact hlists
        | bypass cidr => exact hlists
      · exact fun name hscope => ⟨by simp, hscope.routes, hscope.dns⟩

theorem cleanupAddress_done {guard : ControlPlaneGuard} {machine : Machine}
    (herrors : (cleanupAddress env guard machine).1.1 = []) :
    (cleanupAddress env guard machine).1.2.interfaceCidr = none := by
  unfold cleanupAddress at herrors ⊢
  split at herrors
  · assumption
  · split at herrors
    · cases herrors
    · rfl

/-- The whole rollback. -/
theorem cleanup_undoes (env : Environment) (guard : ControlPlaneGuard)
    (machine : Machine) :
    Undoes guard machine (cleanup env guard machine).1.2
      (cleanup env guard machine).2 :=
  (((cleanupDns_undoes env guard machine).trans
    (cleanupRoutes_undoes env _ _)).trans
    (cleanupBypassRoutes_undoes env _ _)).trans
    (cleanupAddress_undoes env _ _)

/-- A rollback without an error leaves nothing in the guard. -/
theorem cleanup_done {guard : ControlPlaneGuard} {machine : Machine}
    (hok : (cleanup env guard machine).1.1 = .ok ()) (change : Mutation) :
    ¬ (cleanup env guard machine).1.2.Lists change := by
  let dns := cleanupDns env guard machine
  let routes := cleanupRoutes env dns.1.2 dns.2
  let bypass := cleanupBypassRoutes env routes.1.2 routes.2
  have herrors : dns.1.1 = [] ∧ routes.1.1 = [] ∧ bypass.1.1 = [] ∧
      (cleanupAddress env bypass.1.2 bypass.2).1.1 = [] := by
    unfold cleanup at hok
    dsimp only at hok
    split at hok
    · rename_i hnil
      simpa [List.append_eq_nil_iff, and_assoc] using hnil
    · cases hok
  obtain ⟨hdns, hroutes, hbypass, haddress⟩ := herrors
  have hlast := cleanupAddress_undoes env bypass.1.2 bypass.2
  have hthird := cleanupBypassRoutes_undoes env routes.1.2 routes.2
  have hsecond := cleanupRoutes_undoes env dns.1.2 dns.2
  intro hlists
  cases change with
  | address cidr name =>
      have hnone := cleanupAddress_done haddress
      rw [ControlPlaneGuard.Lists] at hlists
      exact absurd (hlists.symm.trans hnone) (by simp)
  | bypass cidr =>
      have hkept : cidr ∈ bypass.1.2.addedUnderlayBypassRoutes :=
        hlast.fewer _ hlists
      have hnil : bypass.1.2.addedUnderlayBypassRoutes = [] :=
        undoEach_kept_nil hbypass
      rw [hnil] at hkept
      exact absurd hkept List.not_mem_nil
  | route cidr name =>
      have hkept : (cidr, name) ∈ routes.1.2.addedRoutes :=
        hthird.fewer (.route cidr name) (hlast.fewer _ hlists)
      have hnil : routes.1.2.addedRoutes = [] := undoEach_kept_nil hroutes
      rw [hnil] at hkept
      exact absurd hkept List.not_mem_nil
  | dns server name =>
      have hkept : server ∈ dns.1.2.appliedDnsServers :=
        (hsecond.fewer (.dns server name)
          (hthird.fewer _ (hlast.fewer _ hlists))).2
      have hnil : dns.1.2.appliedDnsServers = [] := cleanupDns_done hdns
      rw [hnil] at hkept
      exact absurd hkept List.not_mem_nil

/-- Once the rollback is through, nothing is left of what was listed. -/
theorem cleanup_host_nil {guard : ControlPlaneGuard} {machine : Machine}
    (hcovers : Covers guard machine)
    (hok : (cleanup env guard machine).1.1 = .ok ())
    (hwritten : (cleanup env guard machine).2.stateWriteFailed = false) :
    (cleanup env guard machine).2.host = [] := by
  have hafter := (cleanup_undoes env guard machine).covers hcovers
  apply List.eq_nil_iff_forall_not_mem.mpr
  intro change hchange
  exact cleanup_done hok change (hafter hwritten change hchange)

end Cleanup

end Shph.ControlPlane
