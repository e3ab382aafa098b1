/-
The control plane: the commands that change the host, the guard that lists
the changes made so far, the state file the list is kept in, and the
operations `apply`, `reconcile`, `undo` and `up`.
-/
import Shph.ControlPlanePlan
import Shph.Library.Rollback

namespace Shph.ControlPlane

open Rollback

/-- A change to the host. -/
inductive Mutation where
  | address (cidr interfaceName : String)
  | route (cidr interfaceName : String)
  | bypass (cidr : String)
  | dns (server interfaceName : String)
deriving Repr, DecidableEq

inductive Family where
  | ipv4
  | ipv6
deriving Repr, DecidableEq

namespace Family

def name : Family → String
  | ipv4 => "ipv4"
  | ipv6 => "ipv6"

def ofServer (server : String) : Family :=
  if ':' ∈ server.toList then ipv6 else ipv4

end Family

/-- The commands the builders return.  Linux sets and reverts the DNS servers
of an interface at once, Windows family by family. -/
inductive HostCommand where
  | addressAdd (cidr interfaceName : String)
  | addressDelete (cidr interfaceName : String)
  | routeAdd (cidr interfaceName : String)
  | routeDelete (cidr interfaceName : String)
  | bypassAdd (cidr : String)
  | bypassDelete (cidr : String)
  | dnsSet (servers : List String) (interfaceName : String)
  | dnsStatic (family : Family) (server interfaceName : String)
  | dnsAppend (family : Family) (server interfaceName : String) (index : Nat)
  | dnsRevert (interfaceName : String)
  | dnsDhcp (family : Family) (interfaceName : String)
deriving Repr, DecidableEq

def isDnsOn (interfaceName : String) : Mutation → Bool
  | .dns _ name => name == interfaceName
  | _ => false

def isDnsOfFamily (family : Family) (interfaceName : String) :
    Mutation → Bool
  | .dns server name =>
      name == interfaceName && Family.ofServer server == family
  | _ => false

/-- What a command that succeeds makes of the changes in place.  The script
for a bypass reports a route it found there already and leaves it alone. -/
def HostCommand.effect (reused : Bool) (host : List Mutation) :
    HostCommand → List Mutation
  | addressAdd cidr name => host ++ [.address cidr name]
  | addressDelete cidr name => host.filter (· ≠ .address cidr name)
  | routeAdd cidr name => host ++ [.route cidr name]
  | routeDelete cidr name => host.filter (· ≠ .route cidr name)
  | bypassAdd cidr => if reused then host else host ++ [.bypass cidr]
  | bypassDelete cidr => host.filter (· ≠ .bypass cidr)
  | dnsSet servers name =>
      host.filter (!isDnsOn name ·) ++ servers.map (.dns · name)
  | dnsStatic family server name =>
      host.filter (!isDnsOfFamily family name ·) ++ [.dns server name]
  | dnsAppend _ server name _ => host ++ [.dns server name]
  | dnsRevert name => host.filter (!isDnsOn name ·)
  | dnsDhcp family name => host.filter (!isDnsOfFamily family name ·)

structure PersistedControlPlaneState where
  interfaceName : String
  interfaceCidr : Option String
  routes : List String
  underlayBypassRoutes : List String
  dnsServers : List String
deriving Repr, DecidableEq

def PersistedControlPlaneState.isEmpty (state : PersistedControlPlaneState) :
    Bool :=
  state.interfaceCidr.isNone && state.routes.isEmpty &&
    state.underlayBypassRoutes.isEmpty && state.dnsServers.isEmpty

inductive CommandOutcome where
  | succeeds (reused : Bool)
  | fails (error : ShphError)
deriving Repr, DecidableEq

/-- A write of the state file replaces it or leaves it.  `replacedUnsynced` is
a failure after the rename, when the directory is flushed. -/
inductive SaveOutcome where
  | saved
  | refused (error : ShphError)
  | replacedUnsynced (error : ShphError)
deriving Repr, DecidableEq

/-- What the program runs on, and how the host answers the call it gets at
each moment. -/
structure Environment where
  text : AddressText
  platform : Platform
  showIo : IoErrorKind → String
  command : Nat → CommandOutcome
  save : Nat → SaveOutcome
  remove : Nat → Option ShphError
  load : Nat → Option ShphError

/-- The host: the changes SHPH made and has not taken back, the state file,
whether a write of that file ever failed, and the calls made so far. -/
structure Machine where
  host : List Mutation
  stateFile : Option PersistedControlPlaneState
  stateWriteFailed : Bool
  clock : Nat
deriving Repr, DecidableEq

/-- Tracks control-plane mutations so they can be rolled back. -/
structure ControlPlaneGuard where
  interfaceCidr : Option (String × String) := none
  addedRoutes : List (String × String) := []
  addedUnderlayBypassRoutes : List String := []
  appliedDnsServers : List String := []
  dnsInterfaceName : Option String := none
  dryRun : Bool := false
deriving Repr, DecidableEq

def displayError (showIo : IoErrorKind → String) : ShphError → String
  | .io kind => "I/O error: " ++ showIo kind
  | .config message => "Configuration error: " ++ message
  | .crypto message => "Cryptographic error: " ++ message
  | .protocol message => "Protocol error: " ++ message
  | .handshake message => "Handshake failed: " ++ message
  | .auth message => "Authentication failed: " ++ message
  | .keyStore message => "Key management error: " ++ message
  | .tun message => "TUN device error: " ++ message
  | .transport message => "Transport error: " ++ message
  | .obfuscation message => "Obfuscation error: " ++ message
  | .stealth message => "Stealth/profile error: " ++ message
  | .serialization message => "Serialization error: " ++ message
  | .invalidArgument message => "Invalid argument: " ++ message
  | .notConnected => "Not connected"
  | .alreadyConnected => "Already connected"
  | .connectionClosed => "Connection closed"
  | .timeout => "Timeout"
  | .resourceExhausted message => "Resource exhausted: " ++ message
  | .permissionDenied message => "Permission denied: " ++ message
  | .unsupported message => "Unsupported operation: " ++ message
  | .internal message => "Internal error: " ++ message

section Builders

variable (text : AddressText) (platform : Platform)

/-- The command of the platform, where it has one. -/
def onPlatform {α : Type} (linux windows : α) (unsupported : String) :
    Except ShphError α :=
  match platform with
  | .linux => .ok linux
  | .windows => .ok windows
  | .other => .error (.unsupported unsupported)

def buildInterfaceAddressAddCommand (cidr interfaceName : String) :
    Except ShphError HostCommand := do
  validateInterfaceCidr text platform cidr
  validateTunName interfaceName
  onPlatform platform (.addressAdd cidr interfaceName)
    (.addressAdd cidr interfaceName)
    "interface address apply unsupported on this platform"

def buildInterfaceAddressDeleteCommand (cidr interfaceName : String) :
    Except ShphError HostCommand := do
  validateInterfaceCidr text platform cidr
  validateTunName interfaceName
  onPlatform platform (.addressDelete cidr interfaceName)
    (.addressDelete cidr interfaceName)
    "interface address delete unsupported on this platform"

def buildRouteAddCommand (cidr interfaceName : String) :
    Except ShphError HostCommand := do
  validateCidr text cidr
  validateTunName interfaceName
  onPlatform platform (.routeAdd cidr interfaceName)
    (.routeAdd cidr interfaceName)
    "route apply unsupported on this platform"

def buildRouteDeleteCommand (cidr interfaceName : String) :
    Except ShphError HostCommand := do
  validateCidr text cidr
  validateTunName interfaceName
  onPlatform platform (.routeDelete cidr interfaceName)
    (.routeDelete cidr interfaceName)
    "route delete unsupported on this platform"

def buildUnderlayBypassRouteAddCommand (cidr : String) :
    Except ShphError HostCommand := do
  validateUnderlayBypassCidr text cidr
  onPlatform platform (.bypassAdd cidr) (.bypassAdd cidr)
    "underlay bypass route apply unsupported on this platform"

def buildUnderlayBypassRouteDeleteCommand (cidr : String) :
    Except ShphError HostCommand := do
  validateUnderlayBypassCidr text cidr
  onPlatform platform (.bypassDelete cidr) (.bypassDelete cidr)
    "underlay bypass route delete unsupported on this platform"

/-- The commands for the servers of one family on Windows: the first replaces
the list, the others are put behind it. -/
def windowsDnsCommands (interfaceName : String) (servers : List String)
    (family : Family) : List HostCommand :=
  (servers.filter (Family.ofServer · = family)).zipIdx.map fun entry =>
    if entry.2 = 0 then .dnsStatic family entry.1 interfaceName
    else .dnsAppend family entry.1 interfaceName (entry.2 + 1)

def buildDnsApplyCommands (servers : List String) (interfaceName : String) :
    Except ShphError (List HostCommand) :=
  if servers = [] then .ok []
  else do
    validateTunName interfaceName
    Checked.checkEach (fun server => do
      let _ ← okOr (text.parseIp server)
        (.config ("invalid DNS server IP: " ++ server))) servers
    onPlatform platform [.dnsSet servers interfaceName]
      (windowsDnsCommands interfaceName servers .ipv4 ++
        windowsDnsCommands interfaceName servers .ipv6)
      "DNS apply unsupported on this platform"

def buildDnsRestoreCommand (interfaceName : String) (family : Family) :
    Except ShphError HostCommand := do
  validateTunName interfaceName
  onPlatform platform (.dnsRevert interfaceName)
    (.dnsDhcp family interfaceName)
    "DNS restore unsupported on this platform"

end Builders

section Host

variable (env : Environment)

/-- A call on the machine that may fail. -/
abbrev Call (α : Type) := Machine → Except ShphError α × Machine

/-- Run a command.  The answer is whether its output has the line
`SHPH_UNDERLAY_BYPASS_REUSED`. -/
def runShellCommandCapture (command : HostCommand) : Call Bool :=
  fun machine =>
    let next := { machine with clock := machine.clock + 1 }
    match env.command machine.clock with
    | .fails error => (.error error, next)
    | .succeeds reused =>
        (.ok reused, { next with host := command.effect reused machine.host })

def runShellCommand (command : HostCommand) : Call Unit := fun machine =>
  let ran := runShellCommandCapture env command machine
  (ran.1.map fun _ => (), ran.2)

/-- Run a command once it has been built. -/
def runBuilt (built : Except ShphError HostCommand) : Call Unit :=
  fun machine =>
    match built with
    | .error error => (.error error, machine)
    | .ok command => runShellCommand env command machine

def addRoute (cidr interfaceName : String) : Call Unit :=
  runBuilt env (buildRouteAddCommand env.text env.platform cidr interfaceName)

def deleteRoute (cidr interfaceName : String) : Call Unit :=
  runBuilt env
    (buildRouteDeleteCommand env.text env.platform cidr interfaceName)

/-- Whether the bypass was added; it is not where the route was there. -/
def addUnderlayBypassRoute (cidr : String) : Call Bool := fun machine =>
  match buildUnderlayBypassRouteAddCommand env.text env.platform cidr with
  | .error error => (.error error, machine)
  | .ok command =>
      let ran := runShellCommandCapture env command machine
      (ran.1.map fun reused => !reused, ran.2)

def deleteUnderlayBypassRoute (cidr : String) : Call Unit :=
  runBuilt env
    (buildUnderlayBypassRouteDeleteCommand env.text env.platform cidr)

def addInterfaceAddress (cidr interfaceName : String) : Call Unit :=
  runBuilt env
    (buildInterfaceAddressAddCommand env.text env.platform cidr interfaceName)

def deleteInterfaceAddress (cidr interfaceName : String) : Call Unit :=
  runBuilt env (buildInterfaceAddressDeleteCommand env.text env.platform cidr
    interfaceName)

/-- A call that always makes its change when it succeeds. -/
def always (call : Call Unit) : Call Bool := fun machine =>
  ((call machine).1.map fun _ => true, (call machine).2)

def applyDnsServers (servers : List String) (interfaceName : String) :
    Call Unit := fun machine =>
  if servers = [] then (.ok (), machine)
  else
    match buildDnsApplyCommands env.text env.platform servers
        interfaceName with
    | .error error => (.error error, machine)
    | .ok commands =>
        let ran := addEach (fun command => always (runShellCommand env command))
          commands machine
        (ran.1.1, ran.2)

def restoreDnsFamily (interfaceName : String) (family : Family) :
    Call Unit := fun machine =>
  match buildDnsRestoreCommand env.platform interfaceName family with
  | .error error => (.error error, machine)
  | .ok command =>
      let ran := runShellCommand env command machine
      (ran.1.mapError fun error =>
        .internal ("dns " ++ family.name ++ " restore failed for " ++
          interfaceName ++ ": " ++ displayError env.showIo error), ran.2)

/-- Both families are tried; the first error is returned. -/
def restoreDns (interfaceName : Option String) : Call Unit := fun machine =>
  match interfaceName.filter fun name => trim name ≠ "" with
  | none =>
      (.error (.invalidArgument "interface name required for dns restore"),
        machine)
  | some name =>
      let ipv4 := restoreDnsFamily env name .ipv4 machine
      let ipv6 := restoreDnsFamily env name .ipv6 ipv4.2
      match ipv4.1 with
      | .error error => (.error error, ipv6.2)
      | .ok _ => (ipv6.1, ipv6.2)

end Host

section StateFile

variable (env : Environment)

def loadControlPlaneState (state : PersistedControlPlaneState) :
    Call PersistedControlPlaneState := fun machine =>
  let next := { machine with clock := machine.clock + 1 }
  match env.load machine.clock with
  | some error => (.error error, next)
  | none => (.ok state, next)

def saveControlPlaneState (state : PersistedControlPlaneState) : Call Unit :=
  fun machine =>
    let next := { machine with clock := machine.clock + 1 }
    match env.save machine.clock with
    | .saved => (.ok (), { next with stateFile := some state })
    | .refused error => (.error error, { next with stateWriteFailed := true })
    | .replacedUnsynced error =>
        (.error error,
          { next with stateFile := some state, stateWriteFailed := true })

def removeControlPlaneState : Call Unit := fun machine =>
  let next := { machine with clock := machine.clock + 1 }
  match env.remove machine.clock with
  | some error => (.error error, next)
  | none => (.ok (), { next with stateFile := none })

def stateFromGuard (interfaceName : String) (guard : ControlPlaneGuard) :
    PersistedControlPlaneState where
  interfaceName := interfaceName
  interfaceCidr := guard.interfaceCidr.map Prod.fst
  routes := guard.addedRoutes.map Prod.fst
  underlayBypassRoutes := guard.addedUnderlayBypassRoutes
  dnsServers := guard.appliedDnsServers

def saveRemainingControlPlaneState (interfaceName : String) (recorded : Bool)
    (guard : ControlPlaneGuard) : Call Unit := fun machine =>
  if recorded then
    let state := stateFromGuard interfaceName guard
    if state.isEmpty then removeControlPlaneState env machine
    else saveControlPlaneState env state machine
  else (.ok (), machine)

def guardFromState (state : PersistedControlPlaneState) :
    ControlPlaneGuard where
  interfaceCidr := state.interfaceCidr.map (·, state.interfaceName)
  addedRoutes := state.routes.map (·, state.interfaceName)
  addedUnderlayBypassRoutes := state.underlayBypassRoutes
  appliedDnsServers := state.dnsServers
  dnsInterfaceName :=
    if state.dnsServers = [] then none else some state.interfaceName
  dryRun := false

end StateFile

section Guard

variable (env : Environment)

def cleanupDns (guard : ControlPlaneGuard) (machine : Machine) :
    (List ShphError × ControlPlaneGuard) × Machine :=
  if guard.appliedDnsServers = [] then (([], guard), machine)
  else
    match restoreDns env guard.dnsInterfaceName machine with
    | (.error error, next) => (([error], guard), next)
    | (.ok _, next) =>
        (([], { guard with
          appliedDnsServers := [], dnsInterfaceName := none }), next)

def cleanupRoutes (guard : ControlPlaneGuard) (machine : Machine) :
    (List ShphError × ControlPlaneGuard) × Machine :=
  let undone := undoEach (fun route => deleteRoute env route.1 route.2)
    guard.addedRoutes machine
  ((undone.1.1, { guard with addedRoutes := undone.1.2 }), undone.2)

def cleanupBypassRoutes (guard : ControlPlaneGuard) (machine : Machine) :
    (List ShphError × ControlPlaneGuard) × Machine :=
  let undone := undoEach (deleteUnderlayBypassRoute env)
    guard.addedUnderlayBypassRoutes machine
  ((undone.1.1, { guard with addedUnderlayBypassRoutes := undone.1.2 }),
    undone.2)

def cleanupAddress (guard : ControlPlaneGuard) (machine : Machine) :
    (List ShphError × ControlPlaneGuard) × Machine :=
  match guard.interfaceCidr with
  | none => (([], guard), machine)
  | some (cidr, interfaceName) =>
      match deleteInterfaceAddress env cidr interfaceName machine with
      | (.error error, next) => (([error], guard), next)
      | (.ok _, next) => (([], { guard with interfaceCidr := none }), next)

/-- Roll back DNS first, then the routes, the bypass routes and the address.
Every step is tried; what could not be taken back stays in the guard, and the
first error is returned. -/
def cleanup (guard : ControlPlaneGuard) (machine : Machine) :
    (Except ShphError Unit × ControlPlaneGuard) × Machine :=
  let dns := cleanupDns env guard machine
  let routes := cleanupRoutes env dns.1.2 dns.2
  let bypass := cleanupBypassRoutes env routes.1.2 routes.2
  let address := cleanupAddress env bypass.1.2 bypass.2
  let errors := dns.1.1 ++ routes.1.1 ++ bypass.1.1 ++ address.1.1
  ((match errors with
    | [] => .ok ()
    | error :: _ => .error error, address.1.2), address.2)

/-- A step of a live apply: it changes the host and lists the change in the
guard. -/
abbrev Step :=
  ControlPlaneGuard → Machine →
    (Except ShphError Unit × ControlPlaneGuard) × Machine

def Step.andThen (first second : Step) : Step := fun guard machine =>
  let done := first guard machine
  match done.1.1 with
  | .ok _ => second done.1.2 done.2
  | .error _ => done

def applyBypassRoutes (plan : ControlPlanePlan) : Step := fun guard machine =>
  let added := addEach (addUnderlayBypassRoute env)
    plan.underlayBypassRoutes machine
  ((added.1.1, { guard with
    addedUnderlayBypassRoutes :=
      guard.addedUnderlayBypassRoutes ++ added.1.2 }), added.2)

def applyAddress (plan : ControlPlanePlan) (interfaceName : String) : Step :=
  fun guard machine =>
    match plan.interfaceCidr with
    | none => ((.ok (), guard), machine)
    | some cidr =>
        match addInterfaceAddress env cidr interfaceName machine with
        | (.error error, next) => ((.error error, guard), next)
        | (.ok _, next) =>
            ((.ok (), { guard with
              interfaceCidr := some (cidr, interfaceName) }), next)

def applyRoutes (plan : ControlPlanePlan) (interfaceName : String) : Step :=
  fun guard machine =>
    let added := addEach
      (fun route => always (addRoute env route interfaceName))
      plan.routes machine
    ((added.1.1, { guard with
      addedRoutes :=
        guard.addedRoutes ++ added.1.2.map (·, interfaceName) }), added.2)

/-- The guard lists the servers before the first of them is set. -/
def applyDns (plan : ControlPlanePlan) (interfaceName : String) : Step :=
  fun guard machine =>
    if plan.applyDns then
      let applied :=
        applyDnsServers env plan.dnsServers interfaceName machine
      ((applied.1, { guard with
        appliedDnsServers := plan.dnsServers
        dnsInterfaceName := some interfaceName }), applied.2)
    else ((.ok (), guard), machine)

/-- The steps of an apply in their order; a dry run only prints them. -/
def applyPlan (plan : ControlPlanePlan) (interfaceName : String) : Step :=
  fun guard machine =>
    if guard.dryRun then ((.ok (), guard), machine)
    else
      Step.andThen (applyBypassRoutes env plan)
        (Step.andThen (applyAddress env plan interfaceName)
          (Step.andThen (applyRoutes env plan interfaceName)
            (applyDns env plan interfaceName))) guard machine

/-- What is left of an apply that failed: it is rolled back, and what could
not be taken back goes to the state file. -/
def abandonApply (interfaceName : String) (error : ShphError)
    (guard : ControlPlaneGuard) (machine : Machine) : ShphError × Machine :=
  let cleaned := cleanup env guard machine
  match cleaned.1.1 with
  | .ok _ => (error, cleaned.2)
  | .error cleanError =>
      let remaining := cleaned.1.2
      let persisted : Except ShphError Unit × Machine :=
        if !remaining.dryRun && (remaining.interfaceCidr.isSome ||
            !remaining.addedRoutes.isEmpty ||
            !remaining.addedUnderlayBypassRoutes.isEmpty ||
            !remaining.appliedDnsServers.isEmpty) then
          saveRemainingControlPlaneState env interfaceName true remaining
            cleaned.2
        else (.ok (), cleaned.2)
      let details :=
        ["control-plane apply error: " ++ displayError env.showIo error,
          "control-plane rollback error: " ++
            displayError env.showIo cleanError] ++
        match persisted.1 with
        | .ok _ => []
        | .error persistError =>
            ["control-plane state persistence error: " ++
              displayError env.showIo persistError]
      (.internal ("; ".intercalate details), persisted.2)

def validateUnderlay (config : Config)
    (underlayOverride : Option TcpUnderlay) (plan : ControlPlanePlan) :
    Except ShphError Unit :=
  match underlayOverride with
  | some underlay => validateControlPlaneUnderlayFor env.text underlay plan
  | none => validateControlPlaneUnderlay env.text config plan

/-- The checks before an apply, and the plan they let through. -/
def preflight (config : Config) (control : ControlPlaneConfig)
    (interfaceName : String) (underlayOverride : Option TcpUnderlay) :
    Except ShphError ControlPlanePlan := do
  let plan ← buildControlPlanePlan env.text env.platform control interfaceName
  validateUnderlay env config underlayOverride plan
  return plan

def applyControlPlaneWithUnderlay (config : Config) (interfaceName : String)
    (underlayOverride : Option TcpUnderlay) : Call ControlPlaneGuard :=
  fun machine =>
    match config.controlPlane with
    | none => (.ok {}, machine)
    | some control =>
        match preflight env config control interfaceName
            underlayOverride with
        | .error error => (.error error, machine)
        | .ok plan =>
            let applied := applyPlan env plan interfaceName
              { dryRun := control.dryRun.getD true } machine
            match applied.1.1 with
            | .ok _ => (.ok applied.1.2, applied.2)
            | .error error =>
                let abandoned := abandonApply env interfaceName error
                  applied.1.2 applied.2
                (.error abandoned.1, abandoned.2)

def applyControlPlane (config : Config) (interfaceName : String) :
    Call ControlPlaneGuard :=
  applyControlPlaneWithUnderlay env config interfaceName none

end Guard

section Operations

variable (env : Environment)

def desiredState (interfaceName : String) (plan : ControlPlanePlan) :
    PersistedControlPlaneState where
  interfaceName := interfaceName
  interfaceCidr := plan.interfaceCidr
  routes := plan.routes
  underlayBypassRoutes := plan.underlayBypassRoutes
  dnsServers := plan.dnsServers

/-- Keep the list of what an apply added.  Where the file cannot be written
the apply is taken back; what stays is written once more. -/
def recordApply (interfaceName : String) (guard : ControlPlaneGuard) :
    Call Unit := fun machine =>
  let saved := saveControlPlaneState env
    (stateFromGuard interfaceName guard) machine
  match saved.1 with
  | .ok _ => (.ok (), saved.2)
  | .error error =>
      let cleaned := cleanup env guard saved.2
      match cleaned.1.1 with
      | .ok _ => (.error error, cleaned.2)
      | .error cleanupError =>
          let again := saveControlPlaneState env
            (stateFromGuard interfaceName cleaned.1.2) cleaned.2
          let details :=
            ["control-plane state save error: " ++
                displayError env.showIo error,
              "control-plane rollback error: " ++
                displayError env.showIo cleanupError] ++
            match again.1 with
            | .ok _ => []
            | .error persistError =>
                ["control-plane state persistence error: " ++
                  displayError env.showIo persistError]
          (.error (.internal ("; ".intercalate details)), again.2)

/-- A recorded state is compared with the desired one and never touched. -/
def compareRecorded (desired existing : PersistedControlPlaneState) :
    Call Unit := fun machine =>
  let loaded := loadControlPlaneState env existing machine
  match loaded.1 with
  | .error error => (.error error, loaded.2)
  | .ok existing =>
      if existing = desired then (.ok (), loaded.2)
      else
        (.error (.config
          "recorded control-plane state differs; run reconcile"), loaded.2)

/-- The apply proper, for a host without a state file. -/
def applyFresh (config : Config) (control : ControlPlaneConfig)
    (interfaceName : String) : Call Unit := fun machine =>
  let applied := applyControlPlane env config interfaceName machine
  match applied.1 with
  | .error error => (.error error, applied.2)
  | .ok guard =>
      if control.dryRun.getD true then (.ok (), applied.2)
      else recordApply env interfaceName guard applied.2

def handleControlPlaneApply (loaded : Except ShphError Config) : Call Unit :=
  fun machine =>
    match loaded with
    | .error error => (.error error, machine)
    | .ok config =>
        match config.controlPlane with
        | none => (.ok (), machine)
        | some control =>
            let interfaceName := trim config.interfaceName
            if interfaceName = "" then
              (.error (.invalidArgument
                "interface name required for control-plane apply"), machine)
            else
              match preflight env config control interfaceName none with
              | .error error => (.error error, machine)
              | .ok plan =>
                  match machine.stateFile with
                  | some existing =>
                      compareRecorded env (desiredState interfaceName plan)
                        existing machine
                  | none =>
                      applyFresh env config control interfaceName machine

/-- Take back what a state file lists, and remove the file. -/
def undoRecorded (existing : PersistedControlPlaneState) : Call Unit :=
  fun machine =>
    let loaded := loadControlPlaneState env existing machine
    match loaded.1 with
    | .error error => (.error error, loaded.2)
    | .ok state =>
        let cleaned := cleanup env (guardFromState state) loaded.2
        match cleaned.1.1 with
        | .error error => (.error error, cleaned.2)
        | .ok _ => removeControlPlaneState env cleaned.2

def handleControlPlaneUndo : Call Unit := fun machine =>
  match machine.stateFile with
  | none => (.ok (), machine)
  | some existing => undoRecorded env existing machine

def handleControlPlaneReconcile (loaded : Except ShphError Config) :
    Call Unit := fun machine =>
  match machine.stateFile with
  | none => handleControlPlaneApply env loaded machine
  | some existing =>
      let undone := undoRecorded env existing machine
      match undone.1 with
      | .error error => (.error error, undone.2)
      | .ok _ => handleControlPlaneApply env loaded undone.2

/-- What `up` meets besides the control plane: the checks before it looks for
a state file, the set-up of the TUN and the firewall after that, the session,
and how the other guards clean up. -/
structure UpOptions where
  config : Config
  tunName : String
  underlay : TcpUnderlay
  checks : Except ShphError Unit
  setup : Except ShphError Unit
  session : Except ShphError Unit
  mssCleanup : Except ShphError Unit
  natCleanup : Except ShphError Unit
  killswitchCleanup : Except ShphError Unit
  tunCleanup : Except ShphError Unit

def cleanupDetails (results : List (String × Except ShphError Unit)) :
    List String :=
  results.filterMap fun entry =>
    match entry.2 with
    | .ok _ => none
    | .error error =>
        some (entry.1 ++ ": " ++ displayError env.showIo error)

def errorWithCleanup (operation : String) (error : ShphError)
    (cleanupResults : List (String × Except ShphError Unit)) : ShphError :=
  let cleanupErrors := cleanupDetails env cleanupResults
  if cleanupErrors = [] then error
  else
    .internal (operation ++ " error: " ++ displayError env.showIo error ++
      "; cleanup errors: " ++ "; ".intercalate cleanupErrors)

/-- The control plane's part of the clean-up, with the results it reports. -/
def finishControlPlane (interfaceName : String) (controlStateRecorded : Bool)
    (guard : ControlPlaneGuard) (machine : Machine) :
    List (String × Except ShphError Unit) × Machine :=
  let cleaned := cleanup env guard machine
  match cleaned.1.1 with
  | .ok _ =>
      if controlStateRecorded then
        let removed := removeControlPlaneState env cleaned.2
        ([("control-plane state removal", removed.1)], removed.2)
      else ([], cleaned.2)
  | .error error =>
      if controlStateRecorded then
        let saved := saveRemainingControlPlaneState env interfaceName true
          cleaned.1.2 cleaned.2
        ([("control-plane rollback", .error error),
          ("control-plane state persistence", saved.1)], saved.2)
      else ([("control-plane rollback", .error error)], cleaned.2)

def finishUpCleanup (options : UpOptions) (controlStateRecorded : Bool)
    (guard : ControlPlaneGuard) (primary : Option (String × ShphError)) :
    Call Unit := fun machine =>
  let finished := finishControlPlane env options.tunName controlStateRecorded
    guard machine
  let cleanupErrors := cleanupDetails env (finished.1 ++
    [("MSS-clamp rollback", options.mssCleanup),
      ("NAT rollback", options.natCleanup),
      ("killswitch rollback", options.killswitchCleanup),
      ("native TUN mutation rollback", options.tunCleanup)])
  let primaryDetails :=
    primary.toList.map fun entry =>
      entry.1 ++ " error: " ++ displayError env.showIo entry.2
  if cleanupErrors = [] then
    (match primary with
      | none => .ok ()
      | some (_, error) => .error error, finished.2)
  else
    (.error (.internal ("; ".intercalate (primaryDetails ++ cleanupErrors))),
      finished.2)

/-- Whether `up` keeps its guard in the state file. -/
def controlStateRecorded (guard : ControlPlaneGuard) : Bool :=
  !guard.dryRun && (guard.interfaceCidr.isSome ||
    !guard.addedRoutes.isEmpty || !guard.appliedDnsServers.isEmpty)

/-- How an operation went, and the machine its session ran on. -/
structure Outcome where
  result : Except ShphError Unit
  running : Option Machine

/-- The session, once the control plane is in place. -/
def runSession (options : UpOptions) (guard : ControlPlaneGuard)
    (machine : Machine) : Outcome × Machine :=
  let finished := finishUpCleanup env options (controlStateRecorded guard)
    guard
    (match options.session with
      | .ok _ => none
      | .error error => some ("session", error)) machine
  ({ result := finished.1, running := some machine }, finished.2)

def upWithGuard (options : UpOptions) (guard : ControlPlaneGuard)
    (machine : Machine) : Outcome × Machine :=
  if controlStateRecorded guard then
    let saved := saveControlPlaneState env
      (stateFromGuard options.tunName guard) machine
    match saved.1 with
    | .ok _ => runSession env options guard saved.2
    | .error error =>
        let finished := finishUpCleanup env options true guard
          (some ("control-plane state save", error)) saved.2
        ({ result := finished.1, running := none }, finished.2)
  else runSession env options guard machine

def handleUp (options : UpOptions) (machine : Machine) : Outcome × Machine :=
  let stop (error : ShphError) (machine : Machine) : Outcome × Machine :=
    ({ result := .error error, running := none }, machine)
  match options.checks with
  | .error error => stop error machine
  | .ok _ =>
      if machine.stateFile.isSome then
        stop (.config ("recorded control-plane state exists; run " ++
          "`shph reconcile` or `shph undo` before `shph up`")) machine
      else
        match options.setup with
        | .error error => stop error machine
        | .ok _ =>
            let applied := applyControlPlaneWithUnderlay env options.config
              options.tunName (some options.underlay) machine
            match applied.1 with
            | .ok guard => upWithGuard env options guard applied.2
            | .error error =>
                stop (errorWithCleanup env "control-plane setup" error
                  [("native TUN mutations", options.tunCleanup),
                    ("MSS-clamp", options.mssCleanup),
                    ("NAT", options.natCleanup),
                    ("killswitch", options.killswitchCleanup)]) applied.2

inductive Operation where
  | apply (config : Except ShphError Config)
  | reconcile (config : Except ShphError Config)
  | undo
  | up (options : UpOptions)

def perform (machine : Machine) : Operation → Outcome × Machine
  | .apply config =>
      let done := handleControlPlaneApply env config machine
      ({ result := done.1, running := none }, done.2)
  | .reconcile config =>
      let done := handleControlPlaneReconcile env config machine
      ({ result := done.1, running := none }, done.2)
  | .undo =>
      let done := handleControlPlaneUndo env machine
      ({ result := done.1, running := none }, done.2)
  | .up options => handleUp env options machine

/-- The machines a run of operations shows: while a session of `up` runs, and
after each operation. -/
def visited : Machine → List Operation → List Machine
  | _, [] => []
  | machine, operation :: rest =>
      let done := perform env machine operation
      done.1.running.toList ++ done.2 :: visited done.2 rest

end Operations

end Shph.ControlPlane
