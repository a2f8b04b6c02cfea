import Mathlib.Data.List.Basic

/-!
# Managed environments and launch recipes

An environment of the catalog and the launch specification that the runtime
supervisor builds from it (`build_launch_spec`). Paths and operating-system
strings are texts; what the host answers about them (is this a file, where is
`node`, how does a URL parse) is the record `Machine`.
-/

namespace DshDesktop.Runtime

inductive HarnessMode
  | repository
  | executable
  | command
  deriving DecidableEq

structure HarnessSource where
  mode : HarnessMode
  path : String
  cwd : Option String
  args : List String
  deriving DecidableEq

inductive EndpointPort
  | named (value : String)
  | fixed (value : ℕ)
  deriving DecidableEq

structure EnvironmentEndpoint where
  host : String
  port : EndpointPort
  deriving DecidableEq

inductive Ownership
  | managed
  | attached
  deriving DecidableEq

structure EnvironmentPolicy where
  autoRestartOnCrash : Option Bool

structure ManagedEnvironment where
  schemaVersion : ℕ
  id : String
  label : String
  harness : HarnessSource
  dshHome : String
  profile : String
  nodePath : Option String
  endpoint : EnvironmentEndpoint
  ownership : Ownership
  policy : Option EnvironmentPolicy

structure Url where
  scheme : String
  username : String
  password : Option String
  host : Option String
  port : Option ℕ
  path : String
  query : Option String
  fragment : Option String

structure Machine where
  windows : Bool
  isAbsolute : String → Bool
  isFile : String → Bool
  isDir : String → Bool
  join : String → String → String
  fromFilePath : String → Option String
  searchPath : Option (List String)
  parseUrl : String → Option Url

structure LaunchSpec where
  executable : String
  args : List String
  cwd : Option String
  environment : List (String × String)
  expectedPort : Option ℕ
  deriving DecidableEq

inductive ManagedRuntimeError
  | notManaged
  | invalidEnvironment
  | unsupportedSource
  | nodeOverrideUnsupported
  | spawnFailed (text : String)
  | processTreeFailed (text : String)
  | conflict
  | staleGeneration
  | candidateInvalid
  | candidatePortMismatch
  | processExited
  | readinessTimeout
  | stopFailed
  | endpointStillReachable
  | surfaceBindingUnavailable
  | stateUnavailable
  | clockUnavailable
  deriving DecidableEq

def catalogSchemaVersion : ℕ := 1

def reservedArguments : List String := ["--host", "--port", "--no-open", "--trusted-host"]

/-- The characters with the Unicode property White_Space, which `str::trim` removes. -/
def isWhiteSpace (c : Char) : Bool :=
  (9 ≤ c.toNat && c.toNat ≤ 13) || (0x2000 ≤ c.toNat && c.toNat ≤ 0x200A) ||
    c.toNat ∈ [0x20, 0x85, 0xA0, 0x1680, 0x2028, 0x2029, 0x202F, 0x205F, 0x3000]

def isBlank (text : String) : Bool := text.toList.all isWhiteSpace

/-- The id pattern `^[a-z][a-z0-9-]{1,63}$`. -/
def isValidId (value : String) : Bool :=
  let cs := value.toList
  2 ≤ cs.length && cs.length ≤ 64 && cs.head?.any Char.isLower &&
    cs.all fun c => c.isLower || c.isDigit || c == '-'

def isValidPort : EndpointPort → Bool
  | .named value => value == "auto"
  | .fixed value => 1024 ≤ value

def isReservedArgument (argument : String) : Bool :=
  reservedArguments.any fun reserved =>
    argument == reserved || (reserved ++ "=").toList.isPrefixOf argument.toList

namespace ManagedEnvironment

variable (e : ManagedEnvironment)

def isManaged : Bool := e.ownership == .managed

def managedExpectedPort : Option ℕ :=
  match e.endpoint.port with
  | .fixed port => some port
  | .named _ => none

def autoRestartOnCrash : Bool :=
  (e.policy.bind EnvironmentPolicy.autoRestartOnCrash).getD false

def isValid (m : Machine) (e : ManagedEnvironment) : Bool :=
  e.schemaVersion == catalogSchemaVersion &&
  isValidId e.id &&
  !(isBlank e.label || e.label.toList.length > 128) &&
  !isBlank e.harness.path &&
  !(isBlank e.dshHome || isBlank e.profile) &&
  e.endpoint.host == "127.0.0.1" &&
  isValidPort e.endpoint.port &&
  !(e.harness.args.length > 64 || e.harness.args.any isReservedArgument) &&
  match e.nodePath with
  | none => true
  | some nodePath =>
    !(isBlank nodePath || !m.isAbsolute nodePath) &&
    !(e.harness.mode != .repository || !e.isManaged)

end ManagedEnvironment

def repoCliEntryRel : String := "apps/cli/src/bin.ts"

def repoTsLoaderRel : String := "scripts/register-tsx-esm.mjs"

variable (m : Machine)

def findOnPath (name : String) : Option String :=
  m.searchPath.bind fun directories =>
    (directories.map fun directory => m.join directory name).find? m.isFile

def resolveNode : Option String → Except ManagedRuntimeError String
  | some path => .ok path
  | none =>
    match findOnPath m (if m.windows then "node.exe" else "node") with
    | some path => .ok path
    | none => .error .nodeOverrideUnsupported

variable (e : ManagedEnvironment)

def dshArguments (portArgument : String) : List String :=
  (if e.profile = "default" then ["web"] else ["--profile", e.profile]) ++
    ["--host", "127.0.0.1", "--port", portArgument, "--no-open"] ++ e.harness.args

def dshHomeEnvironment : List (String × String) :=
  [("DSH_HOME", e.dshHome)]

def loaderArgument (repo : String) : Except ManagedRuntimeError String :=
  let legacyLoader := m.join repo repoTsLoaderRel
  if m.isFile legacyLoader then
    match m.fromFilePath legacyLoader with
    | some url => .ok url
    | none => .error .unsupportedSource
  else if m.isFile (m.join repo "node_modules/tsx/package.json") then .ok "tsx/esm"
  else .error .unsupportedSource

def nonEmpty (value : String) : Bool := !value.isEmpty

def buildRepositorySpec (nodePath : Option String) :
    Except ManagedRuntimeError LaunchSpec := do
  let repo := e.harness.path
  let entry := m.join repo repoCliEntryRel
  if !m.isDir repo || !m.isFile entry then throw .unsupportedSource
  let executable ← resolveNode m nodePath
  let loader ← loaderArgument m repo
  return {
    executable := executable
    args := ["--import", loader, entry] ++
      dshArguments e (toString (e.managedExpectedPort.getD 0))
    cwd := some ((e.harness.cwd.filter nonEmpty).getD repo)
    environment := dshHomeEnvironment e
    expectedPort := e.managedExpectedPort }

def buildLaunchSpec :
    Except ManagedRuntimeError LaunchSpec := do
  if !e.isManaged then throw .notManaged
  if !e.isValid m then throw .invalidEnvironment
  let nodePath := e.nodePath.filter nonEmpty
  if e.harness.mode != .repository && nodePath.isSome then throw .nodeOverrideUnsupported
  if nodePath.any fun path => !m.isAbsolute path || !m.isFile path then
    throw .nodeOverrideUnsupported
  if e.harness.mode == .repository then buildRepositorySpec m e nodePath
  else return {
    executable := e.harness.path
    args := dshArguments e (toString (e.managedExpectedPort.getD 0))
    cwd := e.harness.cwd
    environment := dshHomeEnvironment e
    expectedPort := e.managedExpectedPort }

theorem buildLaunchSpec_executable {m : Machine} {e : ManagedEnvironment} {spec : LaunchSpec}
    (hmd : e.harness.mode ≠ .repository) (h : buildLaunchSpec m e = .ok spec) :
    spec.executable = e.harness.path := by
  have hot : (e.harness.mode == .repository) = false := by simpa using hmd
  unfold buildLaunchSpec at h
  simp only [bne, hot, bind, Except.bind, pure, Except.pure] at h
  split at h
  · cases h
  split at h
  · cases h
  split at h
  · cases h
  split at h
  · cases h
  exact (congrArg LaunchSpec.executable (Except.ok.inj h)).symm

end DshDesktop.Runtime
