import Mathlib.Data.List.TakeWhile
import DshDesktop.Runtime.Environment

/-!
# The Shell's check of an environment

`validate_environment_value` of `commands.rs`: its issues and its launch preview. The daemon
reads the same persisted value into its own type (`onDaemon`) and checks it again with
`ManagedEnvironment::is_valid`.
-/

namespace DshDesktop.Shell
open DshDesktop.Runtime

structure ShellPolicy where
  autoRestartOnCrash : Option Bool
  allowNativeAdapter : Option Bool
  deriving DecidableEq

structure DshEnvironment where
  schemaVersion : ℕ
  id : String
  label : String
  harness : HarnessSource
  dshHome : String
  profile : String
  nodePath : Option String
  endpoint : EnvironmentEndpoint
  ownership : Ownership
  policy : Option ShellPolicy
  deriving DecidableEq

variable (e : DshEnvironment) {α : Type*} {p : α → Bool} {l : List α}

def DshEnvironment.onDaemon : ManagedEnvironment where
  schemaVersion := e.schemaVersion
  id := e.id
  label := e.label
  harness := e.harness
  dshHome := e.dshHome
  profile := e.profile
  nodePath := e.nodePath
  endpoint := e.endpoint
  ownership := e.ownership
  policy := e.policy.map fun policy => ⟨policy.autoRestartOnCrash⟩

def trim (text : String) : String :=
  String.ofList (((text.toList.dropWhile isWhiteSpace).reverse.dropWhile isWhiteSpace).reverse)

def isControl (c : Char) : Bool := c.toNat ≤ 0x1F || (0x7F ≤ c.toNat && c.toNat ≤ 0x9F)

theorem all_dropWhile : (l.dropWhile p).all p = l.all p := by
  induction l with
  | nil => rfl
  | cons a l ih =>
    cases ha : p a with
    | true => simp [ha, ih]
    | false => simp [ha]

theorem trim_isEmpty {text : String} : (trim text).isEmpty = isBlank text := by
  rw [Bool.eq_iff_iff, String.isEmpty_iff, isBlank, trim, ← String.toList_inj]
  simp only [String.toList_ofList, String.toList_empty, List.reverse_eq_nil_iff]
  rw [List.dropWhile_eq_nil_iff, ← List.all_eq_true, List.all_reverse, all_dropWhile]

structure ValidationIssue where
  field : String
  code : String
  message : String
  deriving DecidableEq

structure LaunchArgumentPreview where
  category : String
  display : String
  deriving DecidableEq

structure LaunchPreview where
  source : String
  executable : String
  cwd : Option String
  ownership : Ownership
  endpoint : String
  arguments : List LaunchArgumentPreview
  deriving DecidableEq

structure EnvironmentValidation where
  valid : Bool
  issues : List ValidationIssue
  launchPreview : Option LaunchPreview
  deriving DecidableEq

def maxLaunchPathChars : ℕ := 4096

def buildLaunchPreview : LaunchPreview :=
  let port := match e.endpoint.port with
    | .named _ => "0"
    | .fixed value => toString value
  { source := match e.harness.mode with
      | .repository => "repository"
      | .executable => "executable"
      | .command => "command"
    executable := e.nodePath.getD e.harness.path
    cwd := e.harness.cwd
    ownership := e.ownership
    endpoint := "http://127.0.0.1:" ++ port
    arguments := (if e.nodePath.isSome then [⟨"repository-entry", "[prebuilt-entry]"⟩] else []) ++
      if e.ownership = .managed then
        (if e.profile = "default" then []
          else [⟨"profile", "--profile"⟩, ⟨"profile", e.profile⟩]) ++
        [⟨"command", "web"⟩, ⟨"endpoint-policy", "--host"⟩, ⟨"endpoint-policy", "127.0.0.1"⟩,
          ⟨"endpoint-policy", "--port"⟩, ⟨"endpoint-policy", port⟩,
          ⟨"browser-policy", "--no-open"⟩] ++
        e.harness.args.map fun _ => ⟨"user-extra", "[redacted]"⟩
      else [] }

def issueIf (found : Bool) (field code message : String) : List ValidationIssue :=
  if found then [⟨field, code, message⟩] else []

def harnessPathIssues : List ValidationIssue :=
  let path := trim e.harness.path
  if path.isEmpty then
    [⟨"harness.path", "UNAVAILABLE", "Select an existing DSH launch source."⟩]
  else if maxLaunchPathChars < path.length then
    [⟨"harness.path", "MALFORMED_VALUE", "The launch source path is longer than 4096 characters."⟩]
  else
    issueIf (path.toList.any isControl) "harness.path" "MALFORMED_VALUE"
      "The launch source path must not contain control characters."

def cwdMalformed (cwd : String) : Bool :=
  !(trim cwd).isEmpty && (maxLaunchPathChars < cwd.length || cwd.toList.any isControl)

variable (m : Machine) (e : DshEnvironment)

def nodePathIssues : List ValidationIssue :=
  match e.nodePath with
  | none => []
  | some nodePath =>
    if (trim nodePath).isEmpty || !m.isAbsolute nodePath then
      [⟨"nodePath", "MALFORMED_VALUE", "Node path must be an absolute executable path."⟩]
    else
      issueIf (e.harness.mode != .repository || e.ownership != .managed) "nodePath" "UNAUTHORIZED"
        "Node path is only allowed for a Managed prebuilt source checkout."

def environmentIssues : List ValidationIssue :=
  issueIf (e.schemaVersion != 1) "schemaVersion" "UNSUPPORTED_VERSION"
    "Only schemaVersion 1 is supported." ++
  issueIf (!isValidId e.id) "id" "MALFORMED_VALUE"
    "Use 2-64 lowercase letters, digits, or hyphens." ++
  issueIf ((trim e.label).isEmpty || 128 < e.label.length) "label" "MALFORMED_VALUE"
    "Label must contain 1-128 characters." ++
  harnessPathIssues e ++
  issueIf (e.harness.cwd.any cwdMalformed) "harness.cwd" "MALFORMED_VALUE"
    "The working directory must be a 1-4096 character path without control characters." ++
  issueIf (trim e.dshHome).isEmpty "dshHome" "MALFORMED_VALUE" "DSH_HOME is required." ++
  issueIf (trim e.profile).isEmpty "profile" "MALFORMED_VALUE" "Profile is required." ++
  issueIf (e.endpoint.host != "127.0.0.1") "endpoint.host" "UNAUTHORIZED"
    "Only the loopback host 127.0.0.1 is allowed." ++
  issueIf (!isValidPort e.endpoint.port) "endpoint.port" "MALFORMED_VALUE"
    "Port must be auto or an integer from 1024 to 65535." ++
  issueIf (64 < e.harness.args.length) "harness.args" "MALFORMED_VALUE"
    "At most 64 extra arguments are allowed." ++
  issueIf (e.harness.args.any isReservedArgument) "harness.args" "UNAUTHORIZED"
    "Host, port, trusted-host, and browser-open policy are Supervisor-owned." ++
  nodePathIssues m e

def validateEnvironmentValue : EnvironmentValidation :=
  let issues := environmentIssues m e
  { valid := issues.isEmpty
    issues := issues
    launchPreview := if issues.isEmpty then some (buildLaunchPreview e) else none }

def launchPathsPlain : Bool :=
  (trim e.harness.path).length ≤ maxLaunchPathChars &&
  !(trim e.harness.path).toList.any isControl &&
  !e.harness.cwd.any cwdMalformed

@[simp] theorem issueIf_isEmpty (found : Bool) (field code message : String) :
    (issueIf found field code message).isEmpty = !found := by
  cases found <;> rfl

theorem harnessPathIssues_isEmpty : (harnessPathIssues e).isEmpty =
      (!isBlank e.harness.path && (trim e.harness.path).length ≤ maxLaunchPathChars &&
        !(trim e.harness.path).toList.any isControl) := by
  simp only [harnessPathIssues, trim_isEmpty]
  split_ifs with hblank hlong
  · simp [hblank]
  · simp [hblank, Nat.not_le.mpr hlong]
  · simp [hblank, Nat.le_of_not_lt hlong]

theorem nodePathIssues_isEmpty : (nodePathIssues m e).isEmpty =
      match e.nodePath with
      | none => true
      | some nodePath =>
        !(isBlank nodePath || !m.isAbsolute nodePath) &&
          !(e.harness.mode != .repository || !e.onDaemon.isManaged) := by
  rw [nodePathIssues]
  cases e.nodePath with
  | none => rfl
  | some nodePath =>
    simp only [trim_isEmpty]
    split_ifs with hpt
    · simp [hpt]
    · simp [hpt, ManagedEnvironment.isManaged, DshEnvironment.onDaemon, bne]

theorem isEmpty_append (l l' : List α) : (l ++ l').isEmpty = (l.isEmpty && l'.isEmpty) := by
  cases l <;> rfl

theorem validateEnvironmentValue_valid :
    (validateEnvironmentValue m e).valid = (e.onDaemon.isValid m && launchPathsPlain e) := by
  simp only [validateEnvironmentValue, environmentIssues, isEmpty_append, issueIf_isEmpty,
    harnessPathIssues_isEmpty, nodePathIssues_isEmpty, trim_isEmpty, ManagedEnvironment.isValid,
    launchPathsPlain, bne, Bool.not_not, Bool.not_or]
  rw [Bool.eq_iff_iff]
  simp only [Bool.and_eq_true]
  constructor
  · intro hsh
    obtain ⟨⟨⟨⟨⟨⟨⟨⟨⟨⟨⟨hver, hid⟩, hlb⟩, ⟨hpt, hlen⟩, hct⟩, hcwd⟩, hhm⟩,
      hprof⟩, hhs⟩, hpo⟩, hcount⟩, hrs⟩, hnode⟩ := hsh
    exact ⟨⟨⟨⟨⟨⟨⟨⟨⟨hver, hid⟩, hlb⟩, hpt⟩, hhm, hprof⟩, hhs⟩, hpo⟩, hcount,
      hrs⟩, hnode⟩, ⟨hlen, hct⟩, hcwd⟩
  · intro hbt
    obtain ⟨⟨⟨⟨⟨⟨⟨⟨⟨hver, hid⟩, hlb⟩, hpt⟩, hhm, hprof⟩, hhs⟩, hpo⟩, hcount,
      hrs⟩, hnode⟩, ⟨hlen, hct⟩, hcwd⟩ := hbt
    exact ⟨⟨⟨⟨⟨⟨⟨⟨⟨⟨⟨hver, hid⟩, hlb⟩, ⟨hpt, hlen⟩, hct⟩, hcwd⟩, hhm⟩,
      hprof⟩, hhs⟩, hpo⟩, hcount⟩, hrs⟩, hnode⟩

/-- The two checks agree on an environment exactly when the daemon accepts it only
with plain launch paths. -/
theorem checks_agree_iff (m : Machine) (e : DshEnvironment) :
    ((e.onDaemon.isValid m = true → (validateEnvironmentValue m e).valid = true) ∧
      (e.ownership = .managed → (validateEnvironmentValue m e).valid = true →
        e.onDaemon.isValid m = true)) ↔
      (e.onDaemon.isValid m = true → launchPathsPlain e = true) := by
  rw [validateEnvironmentValue_valid, Bool.and_eq_true]
  constructor
  · intro hag hdm
    exact (hag.1 hdm).2
  · intro hpl
    exact ⟨fun hdm => ⟨hdm, hpl hdm⟩, fun _ hsh => hsh.1⟩

def emptyMachine : Machine where
  windows := false
  isAbsolute path := path.toList.head? == some '/'
  isFile _ := false
  isDir _ := false
  join base name := base ++ "/" ++ name
  fromFilePath _ := none
  searchPath := none
  parseUrl _ := none

def brokenPathEnvironment : DshEnvironment where
  schemaVersion := 1
  id := "local"
  label := "Local DSH"
  harness := ⟨.executable, "/opt/dsh\nweb", none, []⟩
  dshHome := "/home/user/.dsh"
  profile := "default"
  nodePath := none
  endpoint := ⟨"127.0.0.1", .named "auto"⟩
  ownership := .managed
  policy := none

theorem daemon_accepts_line_break : brokenPathEnvironment.onDaemon.isValid emptyMachine = true ∧
      validateEnvironmentValue emptyMachine brokenPathEnvironment =
        ⟨false, [⟨"harness.path", "MALFORMED_VALUE",
          "The launch source path must not contain control characters."⟩], none⟩ := by
  decide +kernel

end DshDesktop.Shell
